import GlPrograms.Cache.Lemmas
import GlPrograms.Cache.Request
import GlPrograms.Proofs.Action.Only
import GlPrograms.Proofs.Build.Exits
import GlPrograms.Proofs.Course

namespace GlPrograms.Cache

open GlPrograms.Action

variable {c c' : Cache} {key : Key} {now : Instant} {listener : Listener} {events : List (Event Gl)}

theorem lookup_cached {e : Entry} (h : c.get? key = some e) :
    c.lookup key now = .done (.ok { e with lastUsed := now }, c.touch key now) := by
  unfold lookup
  split
  · next he =>
    cases h.symm.trans he
    rfl
  · next hn => cases h.symm.trans hn

theorem lookup_missing (h : c.get? key = none) :
    c.lookup key now = Build.build c.settings key >>= fun
      | .error e => .done (.error e, c)
      | .ok linked =>
          .done (.ok ⟨key, linked.program, linked.locations, now⟩,
            c.insert ⟨key, linked.program, linked.locations, now⟩ h) := by
  unfold lookup
  split
  · next he => cases h.symm.trans he
  · rfl

theorem destroy_cached {e : Entry} (h : c.get? key = some e) :
    c.destroy key = release c.settings e >>= fun _ => .done (true, c.erase key) := by
  simp only [destroy, h]
  rfl

theorem destroy_missing (h : c.get? key = none) : c.destroy key = .done (false, c) := by
  simp only [destroy, h]
  rfl

inductive LookupExit (c : Cache) (key : Key) (now : Instant) :
    List (Event Gl) → Except BuildError Entry → Cache → Prop
  | hit {e : Entry} (cached : c.get? key = some e) :
      LookupExit c key now [] (.ok { e with lastUsed := now }) (c.touch key now)
  | failed {events : List (Event Gl)} {e : BuildError} (missing : c.get? key = none)
      (build : (Build.build c.settings key).Plays events (.error e)) :
      LookupExit c key now events (.error e) c
  | built {events : List (Event Gl)} {linked : Linked} (missing : c.get? key = none)
      (build : (Build.build c.settings key).Plays events (.ok linked)) :
      LookupExit c key now events (.ok ⟨key, linked.program, linked.locations, now⟩)
        (c.insert ⟨key, linked.program, linked.locations, now⟩ missing)

theorem lookup_exit {result : Except BuildError Entry}
    (h : (c.lookup key now).Plays events (result, c')) : LookupExit c key now events result c' := by
  cases hc : c.get? key with
  | some e =>
    rw [lookup_cached hc] at h
    obtain ⟨⟩ := h
    exact .hit hc
  | none =>
    rw [lookup_missing hc] at h
    obtain ⟨built, first, rest, rfl, hb, h⟩ := plays_bind.1 h
    cases built with
    | error e =>
      obtain ⟨⟩ := h
      rw [List.append_nil]
      exact .failed hc hb
    | ok linked =>
      obtain ⟨⟩ := h
      rw [List.append_nil]
      exact .built hc hb

theorem LookupExit.cached {e : Entry} (h : LookupExit c key now events (.ok e) c') :
    c'.get? key = some e ∧ e.key = key ∧ e.lastUsed = now := by
  cases h with
  | hit cached => exact ⟨by simp [get?_touch, cached], (get?_eq_some.1 cached).2, rfl⟩
  | built missing build => exact ⟨by simp [get?_insert], rfl, rfl⟩

def farewell (settings : Settings) (e : Entry) : List (Event Gl) :=
  [.logged ⟨.debug, settings.scopeName, "Deleting shader program for: " ++ e.key.description⟩,
    .called (.tell (.deleteProgram e.program)) ()]

theorem releaseAll_exit {settings : Settings} {es : List Entry} {u : Unit}
    (h : (releaseAll settings es).Plays events u) : events = es.flatMap (farewell settings) := by
  induction es generalizing events with
  | nil =>
    obtain ⟨⟩ := h
    rfl
  | cons e es ih =>
    obtain ⟨_, first, rest, rfl, hf, hr⟩ := plays_bind.1 h
    obtain _ | _ | hf := hf
    obtain _ | ⟨⟨⟩, hf⟩ := hf
    obtain ⟨⟩ := hf
    rw [ih hr]
    rfl

inductive DestroyExit (c : Cache) (key : Key) : List (Event Gl) → Bool → Cache → Prop
  | absent (missing : c.get? key = none) : DestroyExit c key [] false c
  | gone {e : Entry} (cached : c.get? key = some e) :
      DestroyExit c key (farewell c.settings e) true (c.erase key)

theorem destroy_exit {found : Bool} (h : (c.destroy key).Plays events (found, c')) :
    DestroyExit c key events found c' := by
  cases hc : c.get? key with
  | none =>
    rw [destroy_missing hc] at h
    obtain ⟨⟩ := h
    exact .absent hc
  | some e =>
    rw [destroy_cached hc] at h
    obtain _ | _ | h := h
    obtain _ | ⟨⟨⟩, h⟩ := h
    obtain ⟨⟩ := h
    exact .gone hc

theorem destroyAll_exit (h : c.destroyAll.Plays events c') :
    events = c.entries.flatMap (farewell c.settings) ∧ c' = empty c.settings := by
  obtain ⟨u, hr, ⟨⟩⟩ := plays_bind_pure.1 h
  exact ⟨releaseAll_exit hr, rfl⟩

def Asks (call : Gl.Call) : Prop := ∃ p, call = .programId p

theorem writeEntries_asks (now : Instant) (es : List Entry) (count : Nat) (s : Sink) :
    (Report.writeEntries now es count s).Only Asks := by
  induction es generalizing count s with
  | nil => trivial
  | cons e es ih =>
    unfold Report.writeEntries
    split
    · trivial
    · exact ⟨⟨e.program, rfl⟩, fun id => ih _ _⟩

theorem writeReport_asks (c : Cache) (now : Instant) (s : Sink) : (c.writeReport now s).Only Asks :=
  (writeEntries_asks now c.entries _ _).bind fun _ => trivial

theorem inspect_asks (c : Cache) (listener : Listener) (i : Inspection) :
    (c.inspect listener i).Only Asks := by
  cases i with
  | get | contains | size | list | settings | scope => trivial
  | report now limit => exact (writeReport_asks c now _).bind fun _ => trivial
  | logReport now =>
    refine Only.bind ?_ fun _ => trivial
    unfold logReport
    split
    · exact (writeReport_asks c now _).bind fun _ => trivial
    · trivial

inductive TurnExit (c : Cache) (listener : Listener) :
    Request → List (Event Gl) → Reply → Cache → Prop
  | lookup {key now events result c'} (exit : LookupExit c key now events result c') :
      TurnExit c listener (.lookup key now) events (.program result) c'
  | destroy {key events found c'} (exit : DestroyExit c key events found c') :
      TurnExit c listener (.destroy key) events (.flag found) c'
  | destroyAll :
      TurnExit c listener .destroyAll (c.entries.flatMap (farewell c.settings)) .nothing
        (empty c.settings)
  | inspect {i events reply} (seen : (c.inspect listener i).Plays events reply) :
      TurnExit c listener (.inspect i) events reply c

theorem turn_exit {request : Request} {reply : Reply}
    (h : (c.perform listener request).Plays events (reply, c')) :
    TurnExit c listener request events reply c' := by
  cases request with
  | lookup key now =>
    obtain ⟨⟨result, c₁⟩, hl, ⟨⟩⟩ := plays_bind_pure.1 h
    exact .lookup (lookup_exit hl)
  | destroy key =>
    obtain ⟨⟨found, c₁⟩, hd, ⟨⟩⟩ := plays_bind_pure.1 h
    exact .destroy (destroy_exit hd)
  | destroyAll =>
    obtain ⟨c₁, ha, ⟨⟩⟩ := plays_bind_pure.1 h
    obtain ⟨rfl, rfl⟩ := destroyAll_exit ha
    exact .destroyAll
  | inspect i =>
    obtain ⟨reply, hi, ⟨⟩⟩ := plays_bind_pure.1 h
    exact .inspect hi

theorem TurnExit.settings_eq {request : Request} {reply : Reply}
    (h : TurnExit c listener request events reply c') : c'.settings = c.settings := by
  cases h with
  | lookup exit => cases exit <;> rfl
  | destroy exit => cases exit <;> rfl
  | destroyAll => rfl
  | inspect seen => rfl

theorem course_settings {start : Cache} {turns : List (Turn Request)}
    (h : Course perform start turns c) : c.settings = start.settings := by
  induction h with
  | still => rfl
  | turn t past now ih => exact (turn_exit now).settings_eq.trans ih

end GlPrograms.Cache
