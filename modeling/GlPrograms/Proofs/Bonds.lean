import GlPrograms.Proofs.Live
import GlPrograms.Proofs.Names
import Mathlib.Data.List.Forall2

namespace GlPrograms

open Gl (Object)

/-- Pairs of objects of two runs, of which the one stands for the other. -/
abbrev Bonds := List (Object × Object)

abbrev Bonds.Bound (ρ : Bonds) (objects objects' : List Object) : Prop :=
  List.Forall₂ (fun o o' => (o, o') ∈ ρ) objects objects'

structure Naming (I : Interface) where
  unnamed : Event I → Event I
  named : Event I → List Object
  created : Event I → Option Object
  deleted : Event I → Option Object

namespace Naming

def calls : Naming Gl := ⟨Event.unnamed, Event.named, Event.created, Event.deleted⟩

@[simp] theorem calls_created (e : Event Gl) : calls.created e = e.created := rfl

@[simp] theorem calls_deleted (e : Event Gl) : calls.deleted e = e.deleted := rfl

variable {I : Interface} {n : Naming I} {ρ : Bonds} {e e' : Event I}

/-- What an event of each run makes of the bonds. A bond begins when both objects are created, and
ends when both are deleted. -/
def after (n : Naming I) (ρ : Bonds) (e e' : Event I) : Bonds :=
  ((n.created e).toList.zip (n.created e').toList ++ ρ).diff
    ((n.deleted e).toList.zip (n.deleted e').toList)

theorem after_quiet (hc : n.created e = none) (hd : n.deleted e = none) : n.after ρ e e' = ρ := by
  simp [after, hc, hd]

end Naming

/-- The events are the same but for names, and those that they name are bound to each other. -/
inductive Renamed {I : Interface} (n : Naming I) :
    Bonds → List (Event I) → List (Event I) → Bonds → Prop
  | nil {ρ} : Renamed n ρ [] [] ρ
  | cons {ρ ρ' e e' events events'} (same : n.unnamed e = n.unnamed e')
      (named : Bonds.Bound ρ (n.named e) (n.named e'))
      (later : Renamed n (n.after ρ e e') events events' ρ') :
      Renamed n ρ (e :: events) (e' :: events') ρ'

theorem Renamed.append {I : Interface} {n : Naming I} {ρ ρ₁ ρ' : Bonds}
    {first first' rest rest' : List (Event I)} (h : Renamed n ρ first first' ρ₁)
    (h' : Renamed n ρ₁ rest rest' ρ') : Renamed n ρ (first ++ rest) (first' ++ rest') ρ' := by
  induction h with
  | nil => exact h'
  | cons same named later ih => exact .cons same named (ih h')

namespace Action

variable {α β γ : Type} {ρ ρ' : Bonds} {P : α → α → Bonds → Prop} {Q : β → β → Bonds → Prop}
  {action action' : Action Gl α}

/-- As long as they are answered the same but for names, the actions do the same but for names, each
to the objects that stand for those of the other, and end in `P`. -/
inductive Paired (P : α → α → Bonds → Prop) : Bonds → Action Gl α → Action Gl α → Prop
  | done {ρ a b} (ends : P a b ρ) : Paired P ρ (done a) (done b)
  | call {ρ c c' next next'} (same : c.unnamed = c'.unnamed)
      (named : Bonds.Bound ρ c.named c'.named)
      (later : ∀ answer answer',
        Event.unnamed (.called c answer) = Event.unnamed (.called c' answer') →
        Paired P (Naming.calls.after ρ (.called c answer) (.called c' answer')) (next answer)
          (next' answer')) :
      Paired P ρ (call c next) (call c' next')
  | log {ρ r next next'} (later : Paired P ρ next next') : Paired P ρ (log r next) (log r next')

theorem Paired.bind {next next' : α → Action Gl β} (h : Paired P ρ action action')
    (hn : ∀ a b ρ, P a b ρ → Paired Q ρ (next a) (next' b)) :
    Paired Q ρ (action >>= next) (action' >>= next') := by
  induction h with
  | done ends => exact hn _ _ _ ends
  | call same named later ih => exact .call same named ih
  | log later ih => exact .log ih

theorem Paired.mono {R : α → α → Bonds → Prop} (h : Paired P ρ action action')
    (hr : ∀ a b ρ, P a b ρ → R a b ρ) : Paired R ρ action action' := by
  induction h with
  | done ends => exact .done (hr _ _ _ ends)
  | call same named later ih => exact .call same named ih
  | log later ih => exact .log ih

theorem Paired.alike {f : α → γ} (h : Paired P ρ action action')
    (hf : ∀ a b ρ, P a b ρ → f a = f b) : Alike f action action' := by
  induction h with
  | done ends => exact .done (hf _ _ _ ends)
  | call same named later ih => exact .call same ih
  | log later ih => exact .log ih

theorem Paired.plays (h : Paired P ρ action action') {habit : Habit}
    {past events events' : List (Event Gl)} {a b : α} (ha : action.Plays events a)
    (hb : action'.Plays events' b) (he : habit.Explains past events)
    (he' : habit.Explains past events') : ∃ ρ', Renamed .calls ρ events events' ρ' ∧ P a b ρ' := by
  induction h generalizing past events events' with
  | @done ρ a b ends =>
    obtain ⟨⟩ := ha
    obtain ⟨⟩ := hb
    exact ⟨ρ, .nil, ends⟩
  | @call ρ c c' next next' same named later ih =>
    obtain _ | ⟨answer, ha⟩ := ha
    obtain _ | ⟨answer', hb⟩ := hb
    obtain ⟨hanswer, he⟩ := he
    obtain ⟨hanswer', he'⟩ := he'
    -- The habit does not tell the calls apart, so it answers both the same.
    have hevent : Event.unnamed (.called c answer) = Event.unnamed (.called c' answer') := by
      simp only [Event.unnamed]
      rw [hanswer, hanswer', same]
    rw [← hevent] at he'
    obtain ⟨ρ', hr, hp⟩ := ih answer answer' hevent ha hb he he'
    exact ⟨ρ', .cons hevent named hr, hp⟩
  | log later ih =>
    obtain _ | _ | ha := ha
    obtain _ | _ | hb := hb
    obtain ⟨ρ', hr, hp⟩ := ih ha hb he he'
    exact ⟨ρ', .cons rfl .nil hr, hp⟩

end Action

end GlPrograms
