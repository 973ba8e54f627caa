import GlPrograms.Action.Run

namespace GlPrograms.Action

variable {I : Interface} {α β : Type} {P : I.Call → Prop} {Q : Record → Prop}

/-- On every branch, every call is one of `P`. -/
def Only (P : I.Call → Prop) : Action I α → Prop
  | done _ => True
  | call c next => P c ∧ ∀ answer, (next answer).Only P
  | log _ next => next.Only P

@[simp] theorem only_done (a : α) : (done a : Action I α).Only P := trivial

@[simp] theorem only_call {c : I.Call} {next : I.Answer c → Action I α} :
    (call c next).Only P ↔ P c ∧ ∀ answer, (next answer).Only P := Iff.rfl

@[simp] theorem only_log {r : Record} {next : Action I α} : (log r next).Only P ↔ next.Only P :=
  Iff.rfl

theorem Only.mono {Q : I.Call → Prop} {action : Action I α} (ha : action.Only P)
    (h : ∀ c, P c → Q c) : action.Only Q := by
  induction action with
  | done a => trivial
  | call c next ih => exact ⟨h c ha.1, fun answer => ih answer (ha.2 answer)⟩
  | log r next ih => exact ih ha

theorem Only.bind {action : Action I α} {f : α → Action I β} (ha : action.Only P)
    (hf : ∀ a, (f a).Only P) : (action >>= f).Only P := by
  induction action with
  | done a => exact hf a
  | call c next ih => exact ⟨ha.1, fun answer => ih answer (ha.2 answer)⟩
  | log r next ih => exact ih ha

theorem Only.of_plays {action : Action I α} (ha : action.Only P) {events : List (Event I)} {a : α}
    (h : action.Plays events a) {c : I.Call} {answer : I.Answer c}
    (hc : .called c answer ∈ events) : P c := by
  induction h with
  | done a => cases hc
  | call reply h ih =>
    rcases List.mem_cons.1 hc with he | hc
    · cases he
      exact ha.1
    · exact ih (ha.2 _) hc
  | log h ih =>
    rcases List.mem_cons.1 hc with he | hc
    · cases he
    · exact ih ha hc

def Writes (Q : Record → Prop) : Action I α → Prop
  | done _ => True
  | call _ next => ∀ answer, (next answer).Writes Q
  | log r next => Q r ∧ next.Writes Q

@[simp] theorem writes_done (a : α) : (done a : Action I α).Writes Q := trivial

@[simp] theorem writes_call {c : I.Call} {next : I.Answer c → Action I α} :
    (call c next).Writes Q ↔ ∀ answer, (next answer).Writes Q := Iff.rfl

@[simp] theorem writes_log {r : Record} {next : Action I α} :
    (log r next).Writes Q ↔ Q r ∧ next.Writes Q := Iff.rfl

theorem Writes.mono {Q' : Record → Prop} {action : Action I α} (ha : action.Writes Q)
    (h : ∀ r, Q r → Q' r) : action.Writes Q' := by
  induction action with
  | done a => trivial
  | call c next ih => exact fun answer => ih answer (ha answer)
  | log r next ih => exact ⟨h r ha.1, ih ha.2⟩

theorem Writes.bind {action : Action I α} {f : α → Action I β} (ha : action.Writes Q)
    (hf : ∀ a, (f a).Writes Q) : (action >>= f).Writes Q := by
  induction action with
  | done a => exact hf a
  | call c next ih => exact fun answer => ih answer (ha answer)
  | log r next ih => exact ⟨ha.1, ih ha.2⟩

theorem Writes.bind_of_plays {action : Action I α} {f : α → Action I β} (ha : action.Writes Q)
    (hf : ∀ events a, action.Plays events a → (f a).Writes Q) : (action >>= f).Writes Q := by
  induction action with
  | done a => exact hf [] a (.done a)
  | call c next ih =>
    exact fun answer => ih answer (ha answer) fun events a h => hf _ a (.call answer h)
  | log r next ih => exact ⟨ha.1, ih ha.2 fun events a h => hf _ a (.log h)⟩

theorem Writes.of_plays {action : Action I α} (ha : action.Writes Q) {events : List (Event I)}
    {a : α}
    (h : action.Plays events a) {r : Record} (hr : .logged r ∈ events) : Q r := by
  induction h with
  | done a => cases hr
  | call reply h ih =>
    rcases List.mem_cons.1 hr with he | hr
    · cases he
    · exact ih (ha reply) hr
  | log h ih =>
    rcases List.mem_cons.1 hr with he | hr
    · cases he
      exact ha.1
    · exact ih ha.2 hr

end GlPrograms.Action
