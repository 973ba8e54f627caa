import GlPrograms.Proofs.Handles
import GlPrograms.Proofs.Records
import Mathlib.Data.List.Count

namespace GlPrograms

open GlPrograms.Action

open Gl (Object)

/-- What was created and never deleted. A name that was created twice and deleted once is left over
once. -/
def leaked (events : List (Event Gl)) : List Object := (created events).diff (deleted events)

theorem Settles.leaked_perm {events : List (Event Gl)} {after : List Object}
    (h : Settles [] events after) : (leaked events).Perm after := by
  refine List.perm_iff_count.2 fun o => ?_
  have hb := (h.balance.count_eq o).trans List.count_append
  rw [List.nil_append] at hb
  rw [leaked, List.count_diff]
  omega

namespace Cache

variable {c c' : Cache} {listener : Listener} {events : List (Event Gl)} {request : Request}
  {reply : Reply} {record : Record}

theorem releaseAll_plays (settings : Settings) (es : List Entry) :
    (releaseAll settings es).Plays (es.flatMap (farewell settings)) () := by
  induction es with
  | nil => exact .done ()
  | cons e es ih =>
    refine plays_bind.2 ⟨(), farewell settings e, _, rfl, ?_, ih⟩
    exact plays_log.2 ⟨_, rfl, plays_call.2 ⟨(), [], rfl, .done ()⟩⟩

theorem destroyAll_plays (c : Cache) :
    c.destroyAll.Plays (c.entries.flatMap (farewell c.settings)) (empty c.settings) :=
  plays_bind_pure.2 ⟨(), releaseAll_plays c.settings c.entries, rfl⟩

theorem severity_farewells {settings : Settings} {es : List Entry}
    (h : .logged record ∈ es.flatMap (farewell settings)) : record.severity = .debug := by
  obtain ⟨e, -, he⟩ := List.mem_flatMap.1 h
  simp only [farewell, List.mem_cons, Event.logged.injEq, reduceCtorEq, List.not_mem_nil,
    or_false] at he
  rw [he]

theorem TurnExit.severity_eq (h : TurnExit c listener request events reply c')
    (hr : .logged record ∈ events) : record.severity = .debug ∨ record.severity = .error := by
  have build {key : Key} {result : Except BuildError Linked}
      (hb : (Build.build c.settings key).Plays events result) :
      record.severity = .debug ∨ record.severity = .error := by
    rcases (Build.build_writes c.settings key).of_plays hb hr with rfl | ⟨message, rfl⟩
    · exact .inl rfl
    · exact .inr rfl
  cases h with
  | lookup exit =>
    cases exit with
    | hit cached => cases hr
    | failed missing hb => exact build hb
    | built missing hb => exact build hb
  | destroy exit =>
    cases exit with
    | absent missing => cases hr
    | @gone e cached =>
      exact .inl (@severity_farewells record c.settings [e] (by simpa using hr))
  | destroyAll => exact .inl (severity_farewells hr)
  | inspect seen => exact .inl ((inspect_writes c listener _).of_plays seen hr).1

theorem TurnExit.never_warns (h : TurnExit c listener request events reply c')
    (hr : .logged record ∈ events) : record.severity ≠ .warn := by
  rcases h.severity_eq hr with hs | hs
  · simp [hs]
  · simp [hs]

def parting (settings : Settings) (count : Nat) : Record :=
  ⟨.warn, settings.scopeName, "ProgramCache dropped with " ++ toString count
    ++ " live programs; their GL objects are leaked"⟩

theorem abandon_plays_iff {u : Unit} : c.abandon.Plays events u ↔
    events = if c.entries = [] then [] else [.logged (parting c.settings c.size)] := by
  by_cases h : c.entries = []
  · simp [abandon, h, plays_pure]
  · have hs : c.abandon = .log (parting c.settings c.size) (.done ()) := by
      simp [abandon, h, parting, Settings.say, write]
    rw [if_neg h, hs, plays_log]
    constructor
    · rintro ⟨rest, rfl, ⟨⟩⟩
      rfl
    · rintro rfl
      exact ⟨[], rfl, .done ()⟩

end Cache

namespace Renderer

open Cache (farewell)

variable {r r' : Renderer} {listener : Listener} {events : List (Event Gl)} {request : Request}
  {reply : Reply} {record : Record} {turns : List (Turn Request)}

theorem TurnExit.cache_turn (h : TurnExit r listener request events reply r') :
    ∃ request' first reply' drawn, Cache.TurnExit r.cache listener request' first reply' r'.cache ∧
      events = first ++ drawn ∧ (drawn = [] ∨ ∃ e d, drawn = drawing e d) := by
  have plain {request' : Cache.Request} {reply' : Reply}
      (hc : Cache.TurnExit r.cache listener request' events reply' r'.cache) :
      ∃ request' first reply' drawn,
        Cache.TurnExit r.cache listener request' first reply' r'.cache ∧
        events = first ++ drawn ∧ (drawn = [] ∨ ∃ e d, drawn = drawing e d) :=
    ⟨request', events, reply', [], hc, by simp, .inl rfl⟩
  cases h with
  | program exit => exact plain (.lookup exit)
  | refused exit => exact plain (.lookup exit)
  | @drawn d now first e c exit =>
    exact ⟨_, first, _, drawing e d, .lookup exit, rfl, .inr ⟨e, d, rfl⟩⟩
  | destroy exit => exact plain (.destroy exit)
  | teardown => exact plain .destroyAll
  | inspect seen => exact plain (.inspect seen)

theorem drawing_quiet (e : Entry) (d : Draw) :
    ∀ event ∈ drawing e d, event.created = none ∧ event.deleted = none := by
  intro event he
  obtain ⟨c, hc, rfl⟩ := List.mem_map.1 he
  refine ⟨rfl, ?_⟩
  rcases List.mem_cons.1 hc with rfl | hc
  · rfl
  · exact Event.not_deleted_of_unnamed (uploads_named hc) ()

theorem course_settles {start : Renderer} (h : Course perform start turns r) :
    Settles start.cache.held (history turns) r.cache.held := by
  induction h with
  | still => exact .refl _
  | turn t past now ih =>
    obtain ⟨_, first, _, drawn, hc, he, hd⟩ := (turn_exit now).cache_turn
    rw [history_concat, he]
    refine ih.append (hc.settles.append ?_)
    rcases hd with rfl | ⟨e, d, rfl⟩
    · exact .refl _
    · exact .quiet (drawing_quiet e d)

theorem course_settings {start : Renderer} (h : Course perform start turns r) :
    r.cache.settings = start.cache.settings := by
  induction h with
  | still => rfl
  | turn t past now ih =>
    obtain ⟨_, _, _, _, hc, -⟩ := (turn_exit now).cache_turn
    exact hc.settings_eq.trans ih

theorem course_never_warns {start : Renderer} (h : Course perform start turns r)
    (hr : .logged record ∈ history turns) : record.severity ≠ .warn := by
  induction h with
  | still => cases hr
  | turn t past now ih =>
    rw [history_concat] at hr
    rcases List.mem_append.1 hr with hr | hr
    · exact ih hr
    · obtain ⟨_, first, _, drawn, hc, he, hd⟩ := (turn_exit now).cache_turn
      rw [he] at hr
      rcases List.mem_append.1 hr with hr | hr
      · exact hc.never_warns hr
      · rcases hd with rfl | ⟨e, d, rfl⟩
        · cases hr
        · simp [drawing] at hr

theorem close_plays_iff {u : Unit} : r.close.Plays events u ↔
    events = r.cache.entries.flatMap (farewell r.cache.settings) := by
  constructor
  · exact close_exit
  · rintro rfl
    refine plays_bind.2 ⟨⟨.empty r.cache.settings⟩, _, [], (List.append_nil _).symm, ?_, .done ()⟩
    exact plays_bind_pure.2 ⟨_, Cache.destroyAll_plays r.cache, rfl⟩

theorem teardown_plays_iff : (r.perform listener .teardown).Plays events (reply, r') ↔
    events = r.cache.entries.flatMap (farewell r.cache.settings) ∧ reply = .nothing ∧
      r' = ⟨.empty r.cache.settings⟩ := by
  constructor
  · intro h
    obtain ⟨⟩ := turn_exit h
    exact ⟨rfl, rfl, rfl⟩
  · rintro ⟨rfl, rfl, rfl⟩
    refine plays_bind_pure.2 ⟨_, ?_, rfl⟩
    exact plays_bind_pure.2 ⟨_, Cache.destroyAll_plays r.cache, rfl⟩

theorem Life.closed {settings : Settings} {past ending : List (Event Gl)}
    (h : Life settings turns r past) (hc : r.close.Plays ending ()) :
    (∀ o, (created (past ++ ending)).count o = (deleted (past ++ ending)).count o) ∧
      ∀ record, .logged record ∈ past ++ ending → record.severity ≠ .warn := by
  obtain ⟨course, rfl⟩ := h.course
  obtain rfl := close_exit hc
  constructor
  · have lived : Settles [] (history turns) r.cache.held := course_settles course
    have whole := (Settles.skip (e := .logged (greeting settings)) rfl rfl lived).append
      (Cache.settles_farewells r.cache.settings r.cache.entries)
    intro o
    simpa using whole.balance.count_eq o
  · intro record hr
    rcases List.mem_append.1 hr with hr | hr
    · rcases List.mem_cons.1 hr with he | hr
      · cases he
        simp [greeting]
      · exact course_never_warns course hr
    · simp [Cache.severity_farewells hr]

theorem Life.renewed {settings : Settings} {past : List (Event Gl)}
    {before after : List (Turn Request)}
    {t : Turn Request} (h : Life settings (before ++ t :: after) r past)
    (ht : t.request = .teardown) :
    Course perform ⟨.empty settings⟩ (before ++ [t]) ⟨.empty settings⟩ ∧
      Course perform ⟨.empty settings⟩ after r := by
  obtain ⟨a, b, ha, now, hb⟩ := h.course.1.split
  have torn := now
  rw [ht] at torn
  obtain ⟨-, -, rfl⟩ := teardown_plays_iff.1 torn
  obtain rfl : a.cache.settings = settings := course_settings ha
  exact ⟨.turn t ha now, hb⟩

end Renderer

/-- The end of a renderer, in any life, deletes the programs that it still has, and then every
object has been deleted as often as it was created. A cache that ends on its own deletes nothing,
and warns of just the programs that are left over. -/
theorem end_of_life :
    (∀ settings turns r past, Renderer.Life settings turns r past →
      (∀ ending, r.close.Plays ending () ↔
        ending = r.cache.entries.flatMap (Cache.farewell settings)) ∧
      (∀ ending, r.close.Plays ending () →
        (∀ o, (created (past ++ ending)).count o = (deleted (past ++ ending)).count o) ∧
        ∀ record, .logged record ∈ past ++ ending → record.severity ≠ .warn) ∧
      ∀ before t after, turns = before ++ t :: after → t.request = .teardown →
        ∃ fresh, (Renderer.create settings).Plays [.logged (Renderer.greeting settings)] fresh ∧
          Course Renderer.perform ⟨.empty settings⟩ (before ++ [t]) fresh ∧
          Course Renderer.perform fresh after r ∧
          (∀ ending, fresh.close.Plays ending () ↔ ending = []) ∧
          ∀ listener events reply r', (fresh.perform listener .teardown).Plays events (reply, r') ↔
            events = [] ∧ reply = .nothing ∧ r' = fresh) ∧
      ∀ settings turns c, Course Cache.perform (.empty settings) turns c →
        (∀ ending, c.abandon.Plays ending () ↔ ending = if c.entries = [] then [] else
          [.logged (Cache.parting settings (leaked (history turns)).length)]) ∧
        (leaked (history turns)).Perm c.held := by
  constructor
  · intro settings turns r past life
    have hs : r.cache.settings = settings := Renderer.course_settings life.course.1
    refine ⟨fun ending => ?_, fun ending closed => life.closed closed, ?_⟩
    · rw [← hs]
      exact Renderer.close_plays_iff
    · rintro before t after rfl ht
      obtain ⟨new, later⟩ := life.renewed ht
      exact ⟨_, .log (.done _), new, later, fun ending => Renderer.close_plays_iff,
        fun listener events reply r' => Renderer.teardown_plays_iff⟩
  · intro settings turns c course
    have left : (leaked (history turns)).Perm c.held := (Cache.course_settles course).leaked_perm
    obtain rfl : c.settings = settings := Cache.course_settings course
    refine ⟨fun ending => ?_, left⟩
    rw [Cache.abandon_plays_iff, left.length_eq, Cache.held, List.length_map]
    rfl

def torndown : List (Cue Renderer.Request) := [
  { request := .draw (.ofKey ⟨.rgba, false⟩) ⟨1⟩ },
  { change := { rejectLinks := some true }, request := .program ⟨.solid, true⟩ ⟨2⟩ },
  { request := .teardown },
  { change := { nextName := some 1, rejectLinks := some false },
    request := .draw (.ofKey ⟨.rgba, false⟩) ⟨3⟩ },
  { request := .program ⟨.solid, true⟩ ⟨4⟩ },
  { request := .destroy ⟨.rgba, false⟩ }]

/-- Three programs of one name, of which one is destroyed. -/
def forsaken : List (Cue Cache.Request) := [
  { request := .lookup ⟨.rgba, false⟩ ⟨1⟩ },
  { change := { nextName := some 1 }, request := .lookup ⟨.solid, true⟩ ⟨2⟩ },
  { change := { nextName := some 1 }, request := .lookup ⟨.rgbx, true⟩ ⟨3⟩ },
  { request := .destroy ⟨.solid, true⟩ }]

theorem end_of_life_torndown :
    (∃ turns r past ending, Renderer.Life {} turns r past ∧ r.close.Plays ending () ∧
        r.cache.keys = [⟨.solid, true⟩] ∧
        ending = r.cache.entries.flatMap (Cache.farewell {}) ∧ ending.length = 2 ∧
        (created (past ++ ending)).count (.program ⟨3⟩) = 2 ∧
        (∀ o, (created (past ++ ending)).count o = (deleted (past ++ ending)).count o) ∧
        (∀ record, .logged record ∈ past ++ ending → record.severity ≠ .warn) ∧
        ∃ before t after fresh, turns = before ++ t :: after ∧ t.request = .teardown ∧
          Course Renderer.perform ⟨.empty {}⟩ (before ++ [t]) fresh ∧
          ∀ ending, fresh.close.Plays ending () ↔ ending = []) ∧
      ∃ turns c, Course Cache.perform (.empty {}) turns c ∧
        leaked (history turns) = [.program ⟨3⟩, .program ⟨3⟩] ∧
        c.abandon.Plays [.logged (Cache.parting {} 2)] () := by
  obtain ⟨renderers, caches⟩ := end_of_life
  have course : Course Renderer.perform _ _ _ := course_scripted torndown ⟨.empty {}⟩ {}
  have life : Renderer.Life {} _ _ (.logged (Renderer.greeting {}) :: history _) :=
    ⟨[_], _, Action.plays_run Device.answer (Renderer.create {}) {}, course, rfl⟩
  obtain ⟨farewells, closed, renewed⟩ := renderers _ _ _ _ life
  have closing := (farewells _).2 rfl
  obtain ⟨balance, calm⟩ := closed _ closing
  obtain ⟨fresh, -, new, -, silent, -⟩ :=
    renewed ((scripted Renderer.perform torndown ⟨.empty {}⟩ {}).1.take 2) _ _ rfl rfl
  have forsook : Course Cache.perform _ _ _ := course_scripted forsaken (.empty {}) {}
  have two : leaked (history (scripted Cache.perform forsaken (.empty {}) {}).1) =
      [.program ⟨3⟩, .program ⟨3⟩] := by decide +kernel
  refine ⟨⟨_, _, _, _, life, closing, by decide +kernel, rfl, by decide +kernel, by decide +kernel,
    balance, calm, _, _, _, fresh, rfl, rfl, new, silent⟩, _, _, forsook, two, ?_⟩
  refine ((caches _ _ _ forsook).1 _).2 ?_
  rw [two]
  exact (if_neg (by decide +kernel)).symm

end GlPrograms
