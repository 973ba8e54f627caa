import GlPrograms.Proofs.Ledger
import Mathlib.Data.Set.Insert

namespace GlPrograms

open Gl (Object)

namespace Gl

def Command.named : Command → List Object
  | .deleteShader s => [.shader s]
  | .attachShader p s => [.program p, .shader s]
  | .bindAttribute p _ _ | .deleteProgram p | .useProgram p => [.program p]
  | .setMatrix _ _ | .setSampler _ _ | .setFloat _ _ | .setVector _ _ => []

/-- The objects that a call is about. A created object is not among them. -/
def Call.named : Call → List Object
  | .createShader _ | .createProgram => []
  | .compileShader s _ | .shaderLog s => [.shader s]
  | .linkProgram p | .programLog p | .programId p | .uniformLocation p _ => [.program p]
  | .tell c => c.named

end Gl

def Event.named : Event Gl → List Object
  | .called c _ => c.named
  | .logged _ => []

/-- The object was created and has not been deleted since. -/
def Live (events : List (Event Gl)) (o : Object) : Prop :=
  Since (Event.created · = some o) (Event.deleted · = some o) events

def live (events : List (Event Gl)) : Set Object := {o | Live events o}

/-- No object is created under the name of a live one. -/
def Fresh (events : List (Event Gl)) : Prop :=
  ∀ seen e rest o, events = seen ++ e :: rest → e.created = some o → ¬ Live seen o

def NamesLive (past events : List (Event Gl)) : Prop :=
  ∀ seen e rest, events = seen ++ e :: rest → ∀ o ∈ e.named, Live (past ++ seen) o

def Event.leaves (e : Event Gl) (there : Set Object) : Set Object :=
  {o | e.created = some o ∨ o ∈ there ∧ e.deleted ≠ some o}

variable {past events first rest : List (Event Gl)} {e : Event Gl} {o : Object}
  {there : Set Object}

theorem live_nil : live [] = ∅ := by
  ext o
  exact ⟨not_since_nil, False.elim⟩

theorem live_concat (events : List (Event Gl)) (e : Event Gl) :
    live (events ++ [e]) = e.leaves (live events) := by
  ext o
  exact since_concat

namespace Event

theorem mem_named_of_deleted (h : e.deleted = some o) : o ∈ e.named := by
  unfold deleted at h
  split at h
  · cases h
    exact List.mem_singleton_self _
  · cases h
    exact List.mem_singleton_self _
  · cases h

theorem not_deleted_of_unnamed {c : Gl.Command} (h : c.named = []) (answer : Unit) :
    (called (I := Gl) (.tell c) answer).deleted = none := by
  cases hd : (called (I := Gl) (.tell c) answer).deleted with
  | none => rfl
  | some o =>
    have ho : o ∈ c.named := mem_named_of_deleted hd
    simp [h] at ho

theorem leaves_created (hc : e.created = some o) : e.leaves there = insert o there := by
  have hd : e.deleted = none := by
    cases hd : e.deleted with
    | none => rfl
    | some d => rw [created_of_deleted hd] at hc; cases hc
  ext x
  simp [leaves, hc, hd, eq_comm]

theorem leaves_deleted (hd : e.deleted = some o) : e.leaves there = there \ {o} := by
  ext x
  simp [leaves, created_of_deleted hd, hd, eq_comm]

theorem leaves_quiet (hc : e.created = none) (hd : e.deleted = none) : e.leaves there = there := by
  ext x
  simp [leaves, hc, hd]

end Event

theorem Fresh.of_append (h : Fresh (first ++ rest)) : Fresh first := by
  rintro seen e after o rfl
  exact h seen e (after ++ rest) o (by simp)

instance : Decidable (Live events o) := inferInstanceAs (Decidable (Since _ _ _))

theorem fresh_iff : Fresh events ↔
    ∀ i : Fin events.length, ∀ o ∈ events[i].created, ¬ Live (events.take i) o := by
  constructor
  · intro h i o ho
    exact h (events.take i) events[i] (events.drop (i + 1)) o (by simp) ho
  · rintro h seen e rest o rfl hc
    have hseen := h ⟨seen.length, by simp⟩ o (by simpa using hc)
    simpa using hseen

instance : Decidable (Fresh events) := decidable_of_iff _ fresh_iff.symm

theorem namesLive_nil : NamesLive past [] := by
  intro seen e rest h
  simp at h

theorem namesLive_cons (he : ∀ o ∈ e.named, Live past o) (h : NamesLive (past ++ [e]) events) :
    NamesLive past (e :: events) := by
  intro seen f rest hs o ho
  cases seen with
  | nil =>
    cases hs
    rw [List.append_nil]
    exact he o ho
  | cons g seen =>
    cases hs
    have hl := h seen f rest rfl o ho
    rwa [List.append_assoc] at hl

theorem NamesLive.append (h : NamesLive past first) (h' : NamesLive (past ++ first) rest) :
    NamesLive past (first ++ rest) := by
  induction first generalizing past with
  | nil => rwa [List.append_nil] at h'
  | cons e first ih =>
    have he : ∀ o ∈ e.named, Live past o := by
      intro o ho
      have hl := h [] e first rfl o ho
      rwa [List.append_nil] at hl
    refine namesLive_cons he (ih (fun seen f after hs o ho => ?_) ?_)
    · have hl := h (e :: seen) f after (by rw [hs]; rfl) o ho
      rwa [List.append_cons] at hl
    · rwa [List.append_cons] at h'

theorem NamesLive.created_between {seen between : List (Event Gl)} {f : Event Gl}
    (h : NamesLive [] events) (hs : events = seen ++ e :: between ++ f :: rest)
    (he : e.deleted = some o) (hf : f.deleted = some o) : ∃ g ∈ between, g.created = some o := by
  obtain ⟨before, g, after, hl, hg, hd⟩ := h (seen ++ e :: between) f rest (by simp [hs]) o
    (Event.mem_named_of_deleted hf)
  rcases split_cases hl with ⟨-, rfl, -⟩ | ⟨mid, -, rfl⟩ | ⟨mid, -, rfl⟩
  · rw [Event.created_of_deleted he] at hg
    cases hg
  · exact ⟨g, by simp, hg⟩
  · exact absurd he (hd e (by simp))

namespace Action

variable {α β : Type} {post : α → Set Object → Prop}

/-- With these objects there, the action names only what is there, and ends in `post`. No object
is created that is there already. -/
def Careful (there : Set Object) : Action Gl α → (α → Set Object → Prop) → Prop
  | done a, post => post a there
  | log _ next, post => next.Careful there post
  | call c next, post =>
      (∀ o ∈ c.named, o ∈ there) ∧
        ∀ answer, (∀ o, (Event.called c answer).created = some o → o ∉ there) →
          (next answer).Careful ((Event.called c answer).leaves there) post

theorem Careful.mono {action : Action Gl α} {post' : α → Set Object → Prop}
    (h : action.Careful there post) (hp : ∀ a now, post a now → post' a now) :
    action.Careful there post' := by
  induction action generalizing there with
  | done a => exact hp a there h
  | log r next ih => exact ih h
  | call c next ih => exact ⟨h.1, fun answer hf => ih answer (h.2 answer hf)⟩

theorem Careful.bind {action : Action Gl α} {f : α → Action Gl β} {post : β → Set Object → Prop}
    (h : action.Careful there fun a now => (f a).Careful now post) :
    (action >>= f).Careful there post := by
  induction action generalizing there with
  | done a => exact h
  | log r next ih => exact ih h
  | call c next ih => exact ⟨h.1, fun answer hf => ih answer (h.2 answer hf)⟩

section Call

variable {c : Gl.Call} {next : Gl.Answer c → Action Gl α}

theorem careful_quiet (hn : ∀ o ∈ c.named, o ∈ there)
    (hc : ∀ answer, (Event.called c answer).created = none)
    (hd : ∀ answer, (Event.called c answer).deleted = none)
    (h : ∀ answer, (next answer).Careful there post) : (call c next).Careful there post := by
  refine ⟨hn, fun answer _ => ?_⟩
  rw [Event.leaves_quiet (hc answer) (hd answer)]
  exact h answer

theorem careful_delete (hn : ∀ o ∈ c.named, o ∈ there)
    (hd : ∀ answer, (Event.called c answer).deleted = some o)
    (h : ∀ answer, (next answer).Careful (there \ {o}) post) :
    (call c next).Careful there post := by
  refine ⟨hn, fun answer _ => ?_⟩
  rw [Event.leaves_deleted (hd answer)]
  exact h answer

end Call

theorem Careful.plays {action : Action Gl α} {a : α} (h : action.Careful (live past) post)
    (hp : action.Plays events a) (hf : Fresh (past ++ events)) :
    NamesLive past events ∧ post a (live (past ++ events)) := by
  induction hp generalizing past with
  | done a =>
    rw [List.append_nil]
    exact ⟨namesLive_nil, h⟩
  | @call c next events a reply hp ih =>
    have hfresh : ∀ o, (Event.called c reply).created = some o → o ∉ live past :=
      fun o ho => hf past _ events o rfl ho
    have hlater := h.2 reply hfresh
    rw [← live_concat] at hlater
    rw [List.append_cons] at hf ⊢
    obtain ⟨hn, hpost⟩ := ih hlater hf
    exact ⟨namesLive_cons h.1 hn, hpost⟩
  | @log r next events a hp ih =>
    have hquiet : live (past ++ [.logged r]) = live past := by
      rw [live_concat, Event.leaves_quiet rfl rfl]
    rw [List.append_cons] at hf ⊢
    obtain ⟨hn, hpost⟩ := ih (hquiet ▸ h) hf
    exact ⟨namesLive_cons (by simp [Event.named]) hn, hpost⟩

end Action

end GlPrograms
