import GlPrograms.Action.Basic

namespace GlPrograms

inductive Event (I : Interface) where
  | called (c : I.Call) (answer : I.Answer c)
  | logged (r : Record)

namespace Action

variable {I : Interface} {α β σ : Type}

/-- The course of an action whose calls are answered from a state. -/
def run (answer : (c : I.Call) → σ → I.Answer c × σ) : Action I α → σ → α × List (Event I) × σ
  | done a, s => (a, [], s)
  | call c next, s =>
      let (reply, s) := answer c s
      let (a, events, s) := (next reply).run answer s
      (a, .called c reply :: events, s)
  | log r next, s =>
      let (a, events, s) := next.run answer s
      (a, .logged r :: events, s)

theorem run_bind (answer : (c : I.Call) → σ → I.Answer c × σ) (action : Action I α)
    (f : α → Action I β) (s : σ) :
    (action >>= f).run answer s =
      let (a, first, s) := action.run answer s
      let (b, rest, s) := (f a).run answer s
      (b, first ++ rest, s) := by
  induction action generalizing s with
  | done a => rfl
  | call c next ih => simp [run, ih]
  | log r next ih => simp [run, ih]

/-- With some answers the action shows these events and ends with this value. -/
inductive Plays : Action I α → List (Event I) → α → Prop
  | done (a) : Plays (done a) [] a
  | call {c next events a} (reply : I.Answer c) :
      Plays (next reply) events a → Plays (call c next) (.called c reply :: events) a
  | log {r next events a} : Plays next events a → Plays (log r next) (.logged r :: events) a

theorem plays_pure {a b : α} {events : List (Event I)} :
    Plays (pure a) events b ↔ events = [] ∧ b = a := by
  constructor
  · rintro ⟨⟩
    exact ⟨rfl, rfl⟩
  · rintro ⟨rfl, rfl⟩
    exact .done _

theorem plays_call {c : I.Call} {next : I.Answer c → Action I α} {events : List (Event I)} {a : α} :
    Plays (call c next) events a ↔
      ∃ reply rest, events = .called c reply :: rest ∧ Plays (next reply) rest a := by
  constructor
  · rintro (_ | ⟨reply, h⟩)
    exact ⟨reply, _, rfl, h⟩
  · rintro ⟨reply, rest, rfl, h⟩
    exact .call reply h

theorem plays_log {r : Record} {next : Action I α} {events : List (Event I)} {a : α} :
    Plays (log r next) events a ↔ ∃ rest, events = .logged r :: rest ∧ Plays next rest a := by
  constructor
  · rintro (_ | _ | h)
    exact ⟨_, rfl, h⟩
  · rintro ⟨rest, rfl, h⟩
    exact .log h

theorem plays_called {c : I.Call} {next : I.Answer c → Action I α} {reply : I.Answer c}
    {events : List (Event I)} {a : α} :
    Plays (call c next) (.called c reply :: events) a ↔ Plays (next reply) events a := by
  constructor
  · intro h
    obtain ⟨_, _, ⟨⟩, h⟩ := plays_call.1 h
    exact h
  · exact .call reply

theorem plays_logged {r : Record} {next : Action I α} {events : List (Event I)} {a : α} :
    Plays (log r next) (.logged r :: events) a ↔ Plays next events a := by
  constructor
  · intro h
    obtain ⟨_, ⟨⟩, h⟩ := plays_log.1 h
    exact h
  · exact .log

theorem plays_bind {action : Action I α} {f : α → Action I β} {events : List (Event I)} {b : β} :
    Plays (action >>= f) events b ↔
      ∃ a first rest, events = first ++ rest ∧ Plays action first a ∧ Plays (f a) rest b := by
  induction action generalizing events with
  | done a =>
    constructor
    · exact fun h => ⟨a, [], events, rfl, .done a, h⟩
    · rintro ⟨_, _, rest, rfl, ⟨⟩, h⟩
      exact h
  | call c next ih =>
    rw [call_bind, plays_call]
    constructor
    · rintro ⟨reply, rest, rfl, h⟩
      obtain ⟨a, first, rest, rfl, ha, hb⟩ := (ih reply).1 h
      exact ⟨a, .called c reply :: first, rest, rfl, .call reply ha, hb⟩
    · rintro ⟨a, _, rest, rfl, ha, hb⟩
      obtain ⟨reply, first, rfl, hn⟩ := plays_call.1 ha
      exact ⟨reply, first ++ rest, rfl, (ih reply).2 ⟨a, first, rest, rfl, hn, hb⟩⟩
  | log r next ih =>
    rw [log_bind, plays_log]
    constructor
    · rintro ⟨rest, rfl, h⟩
      obtain ⟨a, first, rest, rfl, ha, hb⟩ := ih.1 h
      exact ⟨a, .logged r :: first, rest, rfl, .log ha, hb⟩
    · rintro ⟨a, _, rest, rfl, ha, hb⟩
      obtain ⟨first, rfl, hn⟩ := plays_log.1 ha
      exact ⟨first ++ rest, rfl, ih.2 ⟨a, first, rest, rfl, hn, hb⟩⟩

theorem plays_bind_pure {action : Action I α} {f : α → β} {events : List (Event I)} {b : β} :
    Plays (action >>= fun a => pure (f a)) events b ↔ ∃ a, Plays action events a ∧ b = f a := by
  rw [plays_bind]
  constructor
  · rintro ⟨a, first, rest, rfl, ha, ⟨⟩⟩
    rw [List.append_nil]
    exact ⟨a, ha, rfl⟩
  · rintro ⟨a, ha, rfl⟩
    exact ⟨a, events, [], (List.append_nil events).symm, ha, .done _⟩

theorem plays_run (answer : (c : I.Call) → σ → I.Answer c × σ) (action : Action I α) (s : σ) :
    Plays action (action.run answer s).2.1 (action.run answer s).1 := by
  induction action generalizing s with
  | done a => exact .done a
  | call c next ih => exact .call _ (ih _ _)
  | log r next ih => exact .log (ih _)

end Action

end GlPrograms
