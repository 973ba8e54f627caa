import GlPrograms.Proofs.Cache.Turns

namespace GlPrograms

namespace Source

theorem fragment_injective {j k : Key}
    (h : heading j ++ fragmentTemplate = heading k ++ fragmentTemplate) : j = k :=
  heading_injective ((String.append_left_inj _).1 h)

end Source

/-- The events have a build for every entry. A newer entry was built after the older ones, so no
two entries share an event. -/
inductive Provenance (settings : Settings) : List (Event Gl) → List Entry → Prop
  | none (events) : Provenance settings events []
  | built {earlier older} (e : Entry) (vertex fragment : Shader) (later : List (Event Gl))
      (before : Provenance settings earlier older) :
      Provenance settings
        (earlier ++ Build.completed settings e.key vertex fragment ⟨e.program, e.locations⟩ ++
          later)
        (e :: older)

namespace Provenance

variable {settings : Settings} {events : List (Event Gl)} {entries entries' : List Entry}

theorem append (h : Provenance settings events entries) (more : List (Event Gl)) :
    Provenance settings (events ++ more) entries := by
  cases h with
  | none => exact .none _
  | built e vertex fragment later before =>
    rw [List.append_assoc]
    exact .built e vertex fragment (later ++ more) before

theorem sublist (h : Provenance settings events entries) (hs : entries'.Sublist entries) :
    Provenance settings events entries' := by
  induction h generalizing entries' with
  | none =>
    obtain rfl := List.sublist_nil.1 hs
    exact .none _
  | built e vertex fragment later before ih =>
    cases hs with
    | cons _ hs =>
      rw [List.append_assoc]
      exact (ih hs).append _
    | cons_cons _ hs => exact .built e vertex fragment later (ih hs)

theorem map (h : Provenance settings events entries) {f : Entry → Entry}
    (hf : ∀ e, (f e).key = e.key ∧ (f e).program = e.program ∧ (f e).locations = e.locations) :
    Provenance settings events (entries.map f) := by
  induction h with
  | none => exact .none _
  | built e vertex fragment later before ih =>
    obtain ⟨hk, hp, hl⟩ := hf e
    rw [← hk, ← hp, ← hl]
    exact .built (f e) vertex fragment later ih

end Provenance

namespace Cache

variable {c c' : Cache} {listener : Listener} {request : Request} {reply : Reply}
  {events past : List (Event Gl)} {settings : Settings} {turns : List (Turn Request)}

theorem TurnExit.provenance (h : TurnExit c listener request events reply c')
    (hp : Provenance c.settings past c.entries) :
    Provenance c.settings (past ++ events) c'.entries := by
  cases h with
  | @lookup key now _ _ _ exit =>
    cases exit with
    | hit cached =>
      refine (hp.map fun e => ?_).append _
      split <;> exact ⟨rfl, rfl, rfl⟩
    | failed missing build => exact hp.append _
    | @built _ linked missing build =>
      obtain ⟨p, l⟩ := linked
      obtain ⟨vertex, fragment, rfl⟩ := Build.events_of_build build
      have hnew := Provenance.built ⟨key, p, l, now⟩ vertex fragment [] hp
      rw [List.append_nil] at hnew
      exact hnew
  | destroy exit =>
    cases exit with
    | absent missing => exact hp.append _
    | gone cached => exact (hp.sublist List.filter_sublist).append _
  | destroyAll => exact .none _
  | inspect seen => exact hp.append _

/-- Every entry of a cache that started empty comes from a build of its own key, whatever the GL
answered, and the fragment sources of two entries differ. -/
theorem course_provenance (h : Course perform (empty settings) turns c) :
    Provenance settings (history turns) c.entries ∧
      ∀ d ∈ c.entries, ∀ e ∈ c.entries, d ≠ e →
        Source.heading d.key ++ Source.fragmentTemplate ≠
          Source.heading e.key ++ Source.fragmentTemplate := by
  constructor
  · induction h with
    | still => exact .none _
    | turn t past now ih =>
      obtain rfl := course_settings past
      rw [history_concat]
      exact (turn_exit now).provenance ih
  · intro d hd e he hne hs
    exact hne (eq_of_key_eq hd he (Source.fragment_injective hs))

def overlapping : List (Cue Request) := [
  { request := .lookup ⟨.rgba, false⟩ ⟨1⟩ },
  { change := { rejectLinks := some true }, request := .lookup ⟨.rgba, true⟩ ⟨2⟩ },
  { change := { nextName := some 1, rejectLinks := some false },
    request := .lookup ⟨.rgba, true⟩ ⟨3⟩ },
  { request := .lookup ⟨.rgba, false⟩ ⟨4⟩ }]

theorem course_provenance_overlapping :
    ∃ turns c d e, Course perform (empty {}) turns c ∧ c.entries = [d, e] ∧ d ≠ e ∧
      d.program = e.program ∧ Provenance {} (history turns) [d, e] ∧
      Source.heading d.key =
        "#version 100\n#define DEF_GREEN_TINT true\n#define DEF_VARIANT SHADER_VARIANT_RGBA\n" ∧
      Source.heading e.key =
        "#version 100\n#define DEF_GREEN_TINT false\n#define DEF_VARIANT SHADER_VARIANT_RGBA\n" ∧
      Source.heading d.key ++ Source.fragmentTemplate ≠
        Source.heading e.key ++ Source.fragmentTemplate := by
  have course : Course perform _ _ _ := course_scripted overlapping (empty {}) {}
  obtain ⟨builds, differ⟩ := course_provenance course
  refine ⟨_, _, _, _, course, rfl, by decide, rfl, builds, by decide +kernel,
    by decide +kernel, differ _ ?_ _ ?_ (by decide)⟩
  · exact List.mem_cons_self
  · exact List.mem_cons_of_mem _ List.mem_cons_self

end Cache

end GlPrograms
