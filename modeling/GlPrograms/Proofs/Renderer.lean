import GlPrograms.Proofs.Cache.Alike
import GlPrograms.Renderer

namespace GlPrograms

namespace Gl

open GlPrograms.Action

theorem tellAll_exit {cs : List Command} {events : List (Event Gl)} {u : Unit}
    (h : (tellAll cs).Plays events u) : events = cs.map fun c => .called (.tell c) () := by
  induction cs generalizing events with
  | nil =>
    obtain ⟨⟩ := h
    rfl
  | cons c cs ih =>
    obtain _ | ⟨⟨⟩, h⟩ := h
    rw [ih h]
    rfl

theorem tellAll_paired {cs : List Command} (hn : ∀ c ∈ cs, c.named = []) (ρ : Bonds) :
    Paired (fun _ _ ρ' => ρ' = ρ) ρ (tellAll cs) (tellAll cs) := by
  induction cs with
  | nil => exact .done rfl
  | cons c cs ih =>
    have hc : c.named = [] := hn c (by simp)
    have hb : (Call.tell c).named = [] := hc
    refine .call rfl (by simp [hb]) fun _ _ _ => ?_
    rw [Naming.after_quiet rfl (Event.not_deleted_of_unnamed hc _)]
    exact ih fun d hd => hn d (by simp [hd])

end Gl

namespace Renderer

open GlPrograms.Action Cache

variable {r r' : Renderer} {listener : Listener} {events : List (Event Gl)} {request : Request}
  {reply : Reply}

theorem uploads_named {l : Locations} {d : Draw} {c : Gl.Command} (h : c ∈ l.uploads d) :
    c.named = [] := by
  simp only [Locations.uploads, Locations.samplerUploads, List.mem_append, Option.mem_toList,
    Option.map_eq_some_iff, List.mem_filterMap] at h
  rcases h with ((⟨_, -, rfl⟩ | ⟨_, -, _, -, rfl⟩) | ⟨_, -, rfl⟩) | ⟨_, -, rfl⟩
  all_goals rfl

def drawing (e : Entry) (d : Draw) : List (Event Gl) :=
  (.useProgram e.program :: e.locations.uploads d).map fun c => .called (.tell c) ()

inductive TurnExit (r : Renderer) (listener : Listener) :
    Request → List (Event Gl) → Reply → Renderer → Prop
  | program {key now events result c} (exit : LookupExit r.cache key now events result c) :
      TurnExit r listener (.program key now) events (.program result) ⟨c⟩
  | refused {d now events error c} (exit : LookupExit r.cache d.key now events (.error error) c) :
      TurnExit r listener (.draw d now) events (.drawn (.error error)) ⟨c⟩
  | drawn {d now events e c} (exit : LookupExit r.cache d.key now events (.ok e) c) :
      TurnExit r listener (.draw d now) (events ++ drawing e d) (.drawn (.ok ())) ⟨c⟩
  | destroy {key events found c} (exit : DestroyExit r.cache key events found c) :
      TurnExit r listener (.destroy key) events (.flag found) ⟨c⟩
  | teardown :
      TurnExit r listener .teardown (r.cache.entries.flatMap (farewell r.cache.settings)) .nothing
        ⟨empty r.cache.settings⟩
  | inspect {i events reply} (seen : (r.cache.inspect listener i).Plays events reply) :
      TurnExit r listener (.inspect i) events reply r

theorem turn_exit (h : (r.perform listener request).Plays events (reply, r')) :
    TurnExit r listener request events reply r' := by
  cases request with
  | program key now =>
    obtain ⟨⟨result, r₁⟩, hp, ⟨⟩⟩ := plays_bind_pure.1 h
    obtain ⟨⟨result, c⟩, hl, ⟨⟩⟩ := plays_bind_pure.1 hp
    exact .program (lookup_exit hl)
  | draw d now =>
    obtain ⟨⟨result, r₁⟩, hp, ⟨⟩⟩ := plays_bind_pure.1 h
    obtain ⟨⟨result, c⟩, first, rest, rfl, hl, h⟩ := plays_bind.1 hp
    cases result with
    | error error =>
      obtain ⟨⟩ := h
      rw [List.append_nil]
      exact .refused (lookup_exit hl)
    | ok e =>
      simp only [Gl.tell_bind] at h
      obtain _ | ⟨⟨⟩, h⟩ := h
      obtain ⟨u, hu, ⟨⟩⟩ := plays_bind_pure.1 h
      rw [Gl.tellAll_exit hu]
      exact .drawn (lookup_exit hl)
  | destroy key =>
    obtain ⟨⟨found, r₁⟩, hd, ⟨⟩⟩ := plays_bind_pure.1 h
    obtain ⟨⟨found, c⟩, hc, ⟨⟩⟩ := plays_bind_pure.1 hd
    exact .destroy (destroy_exit hc)
  | teardown =>
    obtain ⟨r₁, ht, ⟨⟩⟩ := plays_bind_pure.1 h
    obtain ⟨c, hd, ⟨⟩⟩ := plays_bind_pure.1 ht
    obtain ⟨rfl, rfl⟩ := destroyAll_exit hd
    exact .teardown
  | inspect i =>
    obtain ⟨reply, hi, ⟨⟩⟩ := plays_bind_pure.1 h
    exact .inspect hi

def greeting (settings : Settings) : Record :=
  ⟨.info, settings.scopeName, "Registered diagnostics scope '" ++ settings.scopeName ++ "': "
    ++ Text.trimEnd settings.scopeDescription⟩

theorem create_exit {settings : Settings} (h : (create settings).Plays events r) :
    events = [.logged (greeting settings)] ∧ r = ⟨empty settings⟩ := by
  obtain _ | _ | h := h
  obtain ⟨⟩ := h
  exact ⟨rfl, rfl⟩

theorem close_exit {u : Unit} (h : r.close.Plays events u) :
    events = r.cache.entries.flatMap (farewell r.cache.settings) := by
  obtain ⟨r', first, rest, rfl, ht, ha⟩ := plays_bind.1 h
  obtain ⟨c, hd, ⟨⟩⟩ := plays_bind_pure.1 ht
  obtain ⟨rfl, rfl⟩ := destroyAll_exit hd
  obtain ⟨⟩ := ha
  rw [List.append_nil]

/-- A renderer from its creation on, with all that could be seen. -/
def Life (settings : Settings) (turns : List (Turn Request)) (r : Renderer)
    (past : List (Event Gl)) : Prop :=
  ∃ opening first, (create settings).Plays opening first ∧ Course perform first turns r ∧
    past = opening ++ history turns

theorem Life.course {settings : Settings} {turns : List (Turn Request)} {past : List (Event Gl)}
    (h : Life settings turns r past) :
    Course perform ⟨empty settings⟩ turns r ∧
      past = .logged (greeting settings) :: history turns := by
  obtain ⟨opening, first, hc, course, rfl⟩ := h
  obtain ⟨rfl, rfl⟩ := create_exit hc
  exact ⟨course, rfl⟩

def unnamed (r : Renderer) : Renderer := ⟨r.cache.unnamed⟩

def drawn (looked : Except BuildError Entry × Cache) : Except BuildError Unit × Renderer :=
  (looked.1.map fun _ => (), ⟨looked.2⟩)

theorem draw_paired {s : Renderer} {d : Draw} (h : SameAt d.key r.cache s.cache) (now : Instant) :
    Paired (fun a b ρ => ∃ x y, LookupEnds r.cache s.cache d.key now x y ∧ a = drawn x ∧
        b = drawn y ∧ ρ = bonds d.key x.2 y.2)
      (bonds d.key r.cache s.cache) (r.draw d now) (s.draw d now) := by
  refine (lookup_paired h now).bind fun a b ρ hab => ?_
  obtain ⟨result, c⟩ := a
  obtain ⟨result', c'⟩ := b
  obtain ⟨he, rfl⟩ := hab
  rcases both_fail_or_succeed he.result_alike with ⟨x, rfl, rfl⟩ | ⟨e, e', rfl, rfl, hu⟩
  · exact .done ⟨_, _, he, rfl, rfl, rfl⟩
  · obtain ⟨hc, hc'⟩ := he.cached
    have hl := congrArg Entry.locations hu
    simp only [Entry.unnamed] at hl
    have hb := bonds_cached hc hc'
    simp only [Gl.tell_bind, hl]
    refine .call rfl (.cons (by simp [hb]) .nil) fun _ _ _ => ?_
    refine (Gl.tellAll_paired (fun _ => uploads_named) _).bind ?_
    rintro _ _ ρ rfl
    exact .done ⟨_, _, he, rfl, rfl, rfl⟩

def Request.Reports : Request → Prop
  | .inspect i => i.Reports
  | _ => False

section Alike

variable {s : Renderer} (h : r.cache.unnamed = s.cache.unnamed)

include h

theorem program_alike (key : Key) (now : Instant) :
    Alike (Prod.map (Except.map Entry.unnamed) Renderer.unnamed) (r.program key now)
      (s.program key now) :=
  (lookup_alike h key now).pair id Renderer.mk (fun _ _ he => he) fun _ _ he =>
    congrArg Renderer.mk he

theorem draw_alike (d : Draw) (now : Instant) :
    Alike (Prod.map id Renderer.unnamed) (r.draw d now) (s.draw d now) := by
  refine (draw_paired (sameAt_of_unnamed h d.key) now).alike ?_
  rintro a b ρ ⟨x, y, he, rfl, rfl, -⟩
  have hresult : x.1.map (fun _ => ()) = y.1.map fun _ => () := by
    rcases both_fail_or_succeed he.result_alike with ⟨e, hx, hy⟩ | ⟨e, e', hx, hy, -⟩
    · rw [hx, hy]
    · rw [hx, hy]
      rfl
  exact Prod.ext hresult (congrArg Renderer.mk (he.cache_alike h))

theorem destroy_alike (key : Key) :
    Alike (Prod.map id Renderer.unnamed) (r.destroy key) (s.destroy key) :=
  (Cache.destroy_alike h key).pair id Renderer.mk (fun _ _ he => he) fun _ _ he =>
    congrArg Renderer.mk he

theorem teardown_alike : Alike Renderer.unnamed r.teardown s.teardown :=
  (destroyAll_alike h).bind fun _ _ hab => .done (congrArg Renderer.mk hab)

theorem perform_alike (listener : Listener) (hr : ¬ request.Reports) :
    Alike (Prod.map Reply.unnamed Renderer.unnamed) (r.perform listener request)
      (s.perform listener request) := by
  cases request with
  | program key now =>
    exact (program_alike h key now).pair Reply.program id (fun _ _ he => congrArg Reply.program he)
      fun _ _ he => he
  | draw d now =>
    exact (draw_alike h d now).pair Reply.drawn id (fun _ _ he => congrArg Reply.drawn he)
      fun _ _ he => he
  | destroy key =>
    exact (destroy_alike h key).pair Reply.flag id (fun _ _ he => congrArg Reply.flag he)
      fun _ _ he => he
  | teardown => exact (teardown_alike h).bind fun _ _ he => .done (Prod.ext rfl he)
  | inspect i =>
    exact (inspect_alike h listener hr).bind fun _ _ he =>
      .done (Prod.ext he (congrArg Renderer.mk h))

end Alike

end Renderer

end GlPrograms
