import GlPrograms.Proofs.Build.Careful
import GlPrograms.Proofs.Renderer

namespace GlPrograms

open GlPrograms.Action

open Gl (Object)

namespace Cache

variable {c c' : Cache} {key : Key} {now : Instant} {listener : Listener} {settings : Settings}
  {there : Set Object}

theorem cons_sdiff {o : Object} {held : List Object} (h : o ∉ held) :
    {x | x ∈ o :: held} \ {o} = {x | x ∈ held} := by
  ext x
  by_cases hx : x = o
  · subst x
    simpa using h
  · simp [hx]

/-- What is there is what the entries hold, each entry a program of its own. -/
structure Holds (c : Cache) (there : Set Object) : Prop where
  same : there = {o | o ∈ c.held}
  distinct : c.held.Nodup

theorem holds_empty (settings : Settings) : (empty settings).Holds ∅ where
  same := by simp [held, empty]
  distinct := List.nodup_nil

theorem Holds.mem {e : Entry} (h : c.Holds there) (he : e ∈ c.entries) :
    .program e.program ∈ there := by
  rw [h.same]
  exact List.mem_map_of_mem (f := fun e => Object.program e.program) he

theorem Holds.touch (h : c.Holds there) (key : Key) (now : Instant) :
    (c.touch key now).Holds there := by
  constructor
  · rw [held_touch]
    exact h.same
  · rw [held_touch]
    exact h.distinct

theorem Holds.insert {e : Entry} (h : c.Holds there) (hk : c.get? e.key = none)
    (hp : .program e.program ∉ there) :
    (c.insert e hk).Holds (Insert.insert (.program e.program) there) := by
  have hheld : (c.insert e hk).held = .program e.program :: c.held := rfl
  obtain rfl := h.same
  constructor
  · rw [hheld]
    ext o
    simp
  · rw [hheld]
    exact List.nodup_cons.2 ⟨hp, h.distinct⟩

theorem Holds.erase {e : Entry} (h : c.Holds there) (he : c.get? key = some e) :
    (c.erase key).Holds (there \ {.program e.program}) := by
  have hperm := held_erase he
  obtain ⟨hp, hd⟩ := List.nodup_cons.1 (hperm.nodup_iff.1 h.distinct)
  have hthere : there = {o | o ∈ Object.program e.program :: (c.erase key).held} := by
    rw [h.same]
    exact Set.ext fun o => hperm.mem_iff
  exact ⟨by rw [hthere, cons_sdiff hp], hd⟩

theorem lookup_careful (h : c.Holds there) (key : Key) (now : Instant) :
    (c.lookup key now).Careful there fun r there =>
      r.2.Holds there ∧ ∀ e, r.1 = .ok e → .program e.program ∈ there := by
  cases hc : c.get? key with
  | some e =>
    rw [lookup_cached hc]
    refine ⟨h.touch key now, ?_⟩
    rintro _ ⟨⟩
    exact h.mem (e := e) (get?_eq_some.1 hc).1
  | none =>
    rw [lookup_missing hc]
    refine ((Build.build_careful c.settings key there).mono fun built there' hb => ?_).bind
    cases built with
    | error e =>
      obtain rfl : there' = there := hb
      exact ⟨h, by simp⟩
    | ok linked =>
      obtain ⟨hp, rfl⟩ := hb
      refine ⟨h.insert hc hp, ?_⟩
      rintro _ ⟨⟩
      exact Set.mem_insert _ _

theorem release_careful {e : Entry} (he : .program e.program ∈ there) :
    (release settings e).Careful there fun _ now => now = there \ {.program e.program} :=
  careful_delete (by simpa [Gl.Call.named, Gl.Command.named] using he) (fun _ => rfl) fun _ => rfl

theorem destroy_careful (h : c.Holds there) (key : Key) :
    (c.destroy key).Careful there fun r there => r.2.Holds there := by
  cases hc : c.get? key with
  | none =>
    rw [destroy_missing hc]
    exact h
  | some e =>
    rw [destroy_cached hc]
    refine ((release_careful (h.mem (get?_eq_some.1 hc).1)).mono fun _ there' ht => ?_).bind
    rw [ht]
    exact h.erase hc

theorem releaseAll_careful (es : List Entry)
    (hn : (es.map fun e => Object.program e.program).Nodup) :
    (releaseAll settings es).Careful {o | o ∈ es.map fun e => Object.program e.program}
      fun _ now => now = ∅ := by
  induction es with
  | nil => exact Set.eq_empty_of_forall_notMem fun o => List.not_mem_nil
  | cons e es ih =>
    obtain ⟨he, hes⟩ := List.nodup_cons.1 hn
    refine ((release_careful (by simp)).mono fun _ there ht => ?_).bind
    rw [ht, List.map_cons, cons_sdiff he]
    exact ih hes

theorem destroyAll_careful (h : c.Holds there) :
    c.destroyAll.Careful there fun c' now => c' = empty c.settings ∧ c'.Holds now := by
  rw [h.same]
  refine ((releaseAll_careful c.entries h.distinct).mono fun _ now hnow => ?_).bind
  rw [hnow]
  exact ⟨rfl, holds_empty c.settings⟩

theorem writeEntries_careful (time : Instant) (es : List Entry) (count : Nat) (s : Sink)
    (he : ∀ e ∈ es, .program e.program ∈ there) :
    (Report.writeEntries time es count s).Careful there fun _ now => now = there := by
  induction es generalizing count s with
  | nil => rfl
  | cons e es ih =>
    unfold Report.writeEntries
    split
    · rfl
    · have hp : Object.program e.program ∈ there := he e (by simp)
      exact careful_quiet (by simpa [Gl.Call.named] using hp) (fun _ => rfl) (fun _ => rfl)
        fun id => ih _ _ fun d hd => he d (by simp [hd])

theorem writeReport_careful (h : c.Holds there) (time : Instant) (s : Sink) :
    (c.writeReport time s).Careful there fun _ now => now = there :=
  ((writeEntries_careful time c.entries _ _ fun _ he => h.mem he).mono fun _ _ hnow => hnow).bind

theorem inspect_careful (h : c.Holds there) (listener : Listener) (i : Inspection) :
    (c.inspect listener i).Careful there fun _ now => now = there := by
  cases i with
  | get | contains | size | list | settings | scope => rfl
  | report time limit => exact ((writeReport_careful h time _).mono fun _ _ hnow => hnow).bind
  | logReport time =>
    refine Careful.bind ?_
    unfold logReport
    split
    · exact ((writeReport_careful h time _).mono fun _ _ hnow => hnow).bind
    · rfl

theorem perform_careful (h : c.Holds there) (listener : Listener) (request : Request) :
    (c.perform listener request).Careful there fun r now => r.2.Holds now := by
  cases request with
  | lookup key now => exact ((lookup_careful h key now).mono fun _ _ hr => hr.1).bind
  | destroy key => exact ((destroy_careful h key).mono fun _ _ hr => hr).bind
  | destroyAll => exact ((destroyAll_careful h).mono fun _ _ hr => hr.2).bind
  | inspect i =>
    refine ((inspect_careful h listener i).mono fun _ now hnow => ?_).bind
    rw [hnow]
    exact h

end Cache

namespace Renderer

variable {r : Renderer} {there : Set Object}

theorem tellAll_careful (cs : List Gl.Command) (hn : ∀ c ∈ cs, c.named = []) :
    (Gl.tellAll cs).Careful there fun _ now => now = there := by
  induction cs with
  | nil => rfl
  | cons c cs ih =>
    have hc : c.named = [] := hn c (by simp)
    exact careful_quiet (by simp [Gl.Call.named, hc]) (fun _ => rfl)
      (Event.not_deleted_of_unnamed hc) fun _ => ih fun d hd => hn d (by simp [hd])

theorem draw_careful (h : r.cache.Holds there) (d : Draw) (now : Instant) :
    (r.draw d now).Careful there fun result now => result.2.cache.Holds now := by
  refine ((Cache.lookup_careful h d.key now).mono fun result there hr => ?_).bind
  obtain ⟨result, c⟩ := result
  obtain ⟨hc, hmem⟩ := hr
  cases result with
  | error e => exact hc
  | ok e =>
    have he : Object.program e.program ∈ there := hmem e rfl
    refine careful_quiet (by simpa [Gl.Call.named, Gl.Command.named] using he) (fun _ => rfl)
      (fun _ => rfl) fun _ => ?_
    refine ((tellAll_careful (e.locations.uploads d) fun _ => uploads_named).mono
      fun _ now hnow => ?_).bind
    rw [hnow]
    exact hc

theorem perform_careful (h : r.cache.Holds there) (listener : Listener) (request : Request) :
    (r.perform listener request).Careful there fun result now => result.2.cache.Holds now := by
  cases request with
  | program key now =>
    exact ((Cache.lookup_careful h key now).mono fun _ _ hr => hr.1).bind.bind
  | draw d now => exact ((draw_careful h d now).mono fun _ _ hr => hr).bind
  | destroy key => exact ((Cache.destroy_careful h key).mono fun _ _ hr => hr).bind.bind
  | teardown => exact ((Cache.destroyAll_careful h).mono fun _ _ hr => hr.2).bind.bind
  | inspect i =>
    refine ((Cache.inspect_careful h listener i).mono fun _ now hnow => ?_).bind
    rw [hnow]
    exact h

theorem close_careful (h : r.cache.Holds there) : r.close.Careful there fun _ now => now = ∅ := by
  refine ((Cache.destroyAll_careful h).mono fun c now hc => ?_).bind.bind
  obtain ⟨rfl, hnow⟩ := hc
  exact hnow.same.trans (Cache.holds_empty r.cache.settings).same.symm

end Renderer

section Course

variable {State Request : Type} {perform : State → Listener → Request → Action Gl (Reply × State)}

theorem course_careful (cache : State → Cache)
    (step : ∀ {s there}, (cache s).Holds there → ∀ listener request,
      (perform s listener request).Careful there fun r now => (cache r.2).Holds now)
    {s s' : State} {past : List (Event Gl)} {turns : List (Turn Request)}
    (h : Course perform s turns s') (hs : (cache s).Holds (live past))
    (hf : Fresh (past ++ history turns)) :
    NamesLive past (history turns) ∧ (cache s').Holds (live (past ++ history turns)) := by
  induction h with
  | still =>
    simp only [history, List.flatMap_nil, List.append_nil]
    exact ⟨namesLive_nil, hs⟩
  | turn t before now ih =>
    rw [history_concat, ← List.append_assoc] at hf ⊢
    -- Names that are fresh in the whole course are fresh in what came before the turn.
    obtain ⟨hn, hc⟩ := ih hf.of_append
    obtain ⟨hn', hc'⟩ := (step hc t.listener t.request).plays now hf
    exact ⟨hn.append hn', hc'⟩

end Course

/-- Every event names live objects only, and between two deletions of an object it was created. -/
structure Safe (events : List (Event Gl)) : Prop where
  named : ∀ seen e rest, events = seen ++ e :: rest → ∀ o ∈ e.named, Live seen o
  once : ∀ seen e between f rest o, events = seen ++ e :: between ++ f :: rest →
    e.deleted = some o → f.deleted = some o → ∃ g ∈ between, g.created = some o

/-- After the events the live objects are the programs of the entries, each entry with its own. -/
structure Cache.Owns (c : Cache) (events : List (Event Gl)) : Prop where
  noShader : ∀ s, ¬ Live events (.shader s)
  programs : ∀ p, Live events (.program p) ↔ p ∈ c.entries.map Entry.program
  distinct : (c.entries.map Entry.program).Nodup

theorem NamesLive.safe {events : List (Event Gl)} (h : NamesLive [] events) : Safe events where
  named := h
  once _ _ _ _ _ _ hs he hf := h.created_between hs he hf

theorem Cache.Holds.owns {c : Cache} {events : List (Event Gl)} (h : c.Holds (live events)) :
    c.Owns events := by
  have hlive (o : Object) : Live events o ↔ o ∈ c.held := Set.ext_iff.1 h.same o
  refine ⟨fun s hs => c.shader_notMem_held s ((hlive _).1 hs), fun p => ?_, ?_⟩
  · rw [hlive]
    simp [held]
  · have hd := h.distinct
    unfold held at hd
    exact List.Nodup.of_map Object.program (by rwa [List.map_map])

/-- If the GL never gives a new object the name of a live one, no cache and no renderer ever names a
dead one. After each request the live objects are the programs of the entries, and none is live
after the end of a renderer. -/
theorem no_dead_handle :
    (∀ settings turns c, Course Cache.perform (.empty settings) turns c → Fresh (history turns) →
        Safe (history turns) ∧ c.Owns (history turns)) ∧
      ∀ settings turns r past, Renderer.Life settings turns r past →
        (Fresh past → Safe past ∧ r.cache.Owns past) ∧
          ∀ ending, r.close.Plays ending () → Fresh (past ++ ending) →
            Safe (past ++ ending) ∧ ∀ o, ¬ Live (past ++ ending) o := by
  have started (settings : Settings) : (Cache.empty settings).Holds (live []) := by
    rw [live_nil]
    exact Cache.holds_empty settings
  refine ⟨fun settings turns c course fresh => ?_, fun settings turns r past life => ?_⟩
  · obtain ⟨hn, hc⟩ := course_careful id Cache.perform_careful course (started settings) fresh
    exact ⟨hn.safe, hc.owns⟩
  · obtain ⟨course, rfl⟩ := life.course
    have opened : NamesLive [] [.logged (Renderer.greeting settings)] :=
      namesLive_cons (by simp [Event.named]) namesLive_nil
    have held : (Cache.empty settings).Holds (live [.logged (Renderer.greeting settings)]) := by
      have hquiet := live_concat [] (.logged (Renderer.greeting settings))
      rw [List.nil_append, Event.leaves_quiet rfl rfl] at hquiet
      rw [hquiet]
      exact started settings
    have lived (fresh : Fresh ([.logged (Renderer.greeting settings)] ++ history turns)) :=
      course_careful Renderer.cache Renderer.perform_careful course held fresh
    refine ⟨fun fresh => ?_, fun ending closed fresh => ?_⟩
    · obtain ⟨hn, hc⟩ := lived fresh
      exact ⟨(opened.append hn).safe, hc.owns⟩
    · obtain ⟨hn, hc⟩ := lived fresh.of_append
      obtain ⟨hend, hnone⟩ := (Renderer.close_careful hc).plays closed fresh
      refine ⟨((opened.append hn).append hend).safe, fun o ho => ?_⟩
      have hmem : o ∈ (∅ : Set Object) := hnone ▸ ho
      exact hmem

def recycling : List (Cue Cache.Request) := [
  { request := .lookup ⟨.rgba, false⟩ ⟨1⟩ },
  { change := { rejectStages := some [.fragment] }, request := .lookup ⟨.solid, true⟩ ⟨2⟩ },
  { request := .destroy ⟨.rgba, false⟩ },
  { change := { nextName := some 1, rejectStages := some [] },
    request := .lookup ⟨.solid, true⟩ ⟨3⟩ },
  { request := .inspect (.report ⟨9⟩ none) }]

def redrawing : List (Cue Renderer.Request) := [
  { request := .draw (.ofKey ⟨.rgba, false⟩) ⟨1⟩ },
  { change := { rejectLinks := some true }, request := .program ⟨.solid, true⟩ ⟨2⟩ },
  { request := .teardown },
  { change := { nextName := some 3, rejectLinks := some false },
    request := .draw (.ofKey ⟨.rgba, false⟩) ⟨3⟩ }]

theorem no_dead_handle_recycling :
    (∃ turns c, Course Cache.perform (.empty {}) turns c ∧ Fresh (history turns) ∧
        (created (history turns)).count (.program ⟨3⟩) = 2 ∧
        c.entries.map Entry.program = [⟨3⟩] ∧ Safe (history turns) ∧ c.Owns (history turns)) ∧
      ∃ turns r past ending, Renderer.Life {} turns r past ∧ r.close.Plays ending () ∧
        Fresh past ∧ Fresh (past ++ ending) ∧ r.cache.entries.map Entry.program = [⟨5⟩] ∧
        Safe past ∧ r.cache.Owns past ∧ Safe (past ++ ending) ∧ ∀ o, ¬ Live (past ++ ending) o := by
  obtain ⟨caches, renderers⟩ := no_dead_handle
  have course : Course Cache.perform _ _ _ := course_scripted recycling (.empty {}) {}
  have fresh : Fresh (history (scripted Cache.perform recycling (.empty {}) {}).1) := by
    decide +kernel
  have drawn : Course Renderer.perform _ _ _ := course_scripted redrawing ⟨.empty {}⟩ {}
  have life : Renderer.Life {} _ _ (.logged (Renderer.greeting {}) :: history _) :=
    ⟨[_], _, Action.plays_run Device.answer (Renderer.create {}) {}, drawn, rfl⟩
  have closed := Action.plays_run Device.answer
    (scripted Renderer.perform redrawing ⟨.empty {}⟩ {}).2.close {}
  have whole : Fresh (.logged (Renderer.greeting {}) ::
      history (scripted Renderer.perform redrawing ⟨.empty {}⟩ {}).1 ++
      ((scripted Renderer.perform redrawing ⟨.empty {}⟩ {}).2.close.run Device.answer {}).2.1) := by
    decide +kernel
  obtain ⟨lived, ended⟩ := renderers _ _ _ _ life
  obtain ⟨safe, owns⟩ := lived whole.of_append
  exact ⟨⟨_, _, course, fresh, by decide, by decide, caches _ _ _ course fresh⟩,
    _, _, _, _, life, closed, whole.of_append, whole, by decide, safe, owns, ended _ closed whole⟩

end GlPrograms
