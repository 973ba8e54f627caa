import GlPrograms.Action.Run
import GlPrograms.Gl

namespace GlPrograms

namespace Gl

def Command.unnamed : Command → Command
  | .deleteShader _ => .deleteShader ⟨0⟩
  | .attachShader _ _ => .attachShader ⟨0⟩ ⟨0⟩
  | .bindAttribute _ slot input => .bindAttribute ⟨0⟩ slot input
  | .deleteProgram _ => .deleteProgram ⟨0⟩
  | .useProgram _ => .useProgram ⟨0⟩
  | upload => upload

def Call.unnamed : Call → Call
  | .createShader stage => .createShader stage
  | .compileShader _ source => .compileShader ⟨0⟩ source
  | .shaderLog _ => .shaderLog ⟨0⟩
  | .createProgram => .createProgram
  | .linkProgram _ => .linkProgram ⟨0⟩
  | .programLog _ => .programLog ⟨0⟩
  | .programId _ => .programId ⟨0⟩
  | .uniformLocation _ uniform => .uniformLocation ⟨0⟩ uniform
  | .tell c => .tell c.unnamed

def Call.unnamedAnswer : (c : Call) → Answer c → Answer c.unnamed
  | .createShader _, answer => answer.map fun _ => ⟨0⟩
  | .compileShader _ _, accepted => accepted
  | .shaderLog _, text => text
  | .createProgram, answer => answer.map fun _ => ⟨0⟩
  | .linkProgram _, accepted => accepted
  | .programLog _, text => text
  | .programId _, _ => (0 : UInt32)
  | .uniformLocation _ _, location => location
  | .tell _, _ => ()

end Gl

def Event.unnamed : Event Gl → Event Gl
  | .called c answer => .called c.unnamed (c.unnamedAnswer answer)
  | .logged r => .logged r

theorem Event.unnamedAnswer_eq {c : Gl.Call} {answer answer' : Gl.Answer c}
    (h : Event.unnamed (.called c answer) = Event.unnamed (.called c answer')) :
    c.unnamedAnswer answer = c.unnamedAnswer answer' :=
  eq_of_heq (Event.called.inj h).2

/-- The answers to nameless calls, by the nameless events of the same request before them. -/
abbrev Habit := (past : List (Event Gl)) → (c : Gl.Call) → Gl.Answer c

/-- The answers in the events are those of the habit, but for names. -/
def Habit.Explains (habit : Habit) : List (Event Gl) → List (Event Gl) → Prop
  | _, [] => True
  | past, .called c answer :: events =>
      c.unnamedAnswer answer = habit past c.unnamed ∧
        habit.Explains (past ++ [Event.unnamed (.called c answer)]) events
  | past, .logged r :: events => habit.Explains (past ++ [.logged r]) events

theorem Habit.explains_append {habit : Habit} {past first rest : List (Event Gl)} :
    habit.Explains past (first ++ rest) ↔
      habit.Explains past first ∧ habit.Explains (past ++ first.map Event.unnamed) rest := by
  induction first generalizing past with
  | nil => simp [Explains]
  | cons e first ih =>
    cases e with
    | called c answer => simp [Explains, ih, and_assoc]
    | logged r => simp [Explains, ih, Event.unnamed]

theorem both_fail_or_succeed {ε α β : Type} {f : α → β} {a b : Except ε α} (h : a.map f = b.map f) :
    (∃ e, a = .error e ∧ b = .error e) ∨ ∃ v w, a = .ok v ∧ b = .ok w ∧ f v = f w := by
  cases a with
  | error e =>
    cases b with
    | error e' =>
      cases h
      exact .inl ⟨e, rfl, rfl⟩
    | ok w => cases h
  | ok v =>
    cases b with
    | error e' => cases h
    | ok w => exact .inr ⟨v, w, rfl, rfl, Except.ok.inj h⟩

namespace Action

variable {α β γ δ : Type} {f : α → γ} {g : β → δ}

/-- The actions do the same and end with the same as long as they are answered the same, all but
for names. What is compared of their values is `f`. -/
inductive Alike (f : α → γ) : Action Gl α → Action Gl α → Prop
  | done {a b} (same : f a = f b) : Alike f (done a) (done b)
  | call {c c' next next'} (same : c.unnamed = c'.unnamed)
      (later : ∀ answer answer',
        Event.unnamed (.called c answer) = Event.unnamed (.called c' answer') →
        Alike f (next answer) (next' answer')) :
      Alike f (call c next) (call c' next')
  | log {r next next'} (later : Alike f next next') : Alike f (log r next) (log r next')

theorem Alike.bind {action action' : Action Gl α} {next next' : α → Action Gl β}
    (h : Alike f action action') (hn : ∀ a b, f a = f b → Alike g (next a) (next' b)) :
    Alike g (action >>= next) (action' >>= next') := by
  induction h with
  | done same => exact hn _ _ same
  | call same later ih => exact .call same fun answer answer' he => ih answer answer' he
  | log later ih => exact .log ih

theorem Alike.pair {α' β' γ' δ' : Type} {f' : α' → γ'} {g' : β' → δ'}
    {action action' : Action Gl (α × β)} (h : Alike (Prod.map f g) action action') (r : α → α')
    (s : β → β') (hr : ∀ a b, f a = f b → f' (r a) = f' (r b))
    (hs : ∀ a b, g a = g b → g' (s a) = g' (s b)) :
    Alike (Prod.map f' g') (action >>= fun x => pure (r x.1, s x.2))
      (action' >>= fun x => pure (r x.1, s x.2)) := by
  refine h.bind fun a b hab => .done ?_
  obtain ⟨hf, hg⟩ := Prod.mk.inj hab
  exact Prod.ext (hr _ _ hf) (hs _ _ hg)

theorem Alike.plays {action action' : Action Gl α} (h : Alike f action action') {habit : Habit}
    {past events events' : List (Event Gl)} {a b : α} (ha : action.Plays events a)
    (hb : action'.Plays events' b) (he : habit.Explains past events)
    (he' : habit.Explains past events') :
    events.map Event.unnamed = events'.map Event.unnamed ∧ f a = f b := by
  induction h generalizing past events events' with
  | done same =>
    obtain ⟨⟩ := ha
    obtain ⟨⟩ := hb
    exact ⟨rfl, same⟩
  | @call c c' next next' same later ih =>
    obtain _ | ⟨answer, ha⟩ := ha
    obtain _ | ⟨answer', hb⟩ := hb
    obtain ⟨hanswer, he⟩ := he
    obtain ⟨hanswer', he'⟩ := he'
    have hevent : Event.unnamed (.called c answer) = Event.unnamed (.called c' answer') := by
      simp only [Event.unnamed]
      rw [hanswer, hanswer', same]
    rw [← hevent] at he'
    obtain ⟨hevents, hvalue⟩ := ih answer answer' hevent ha hb he he'
    exact ⟨by simp [hevent, hevents], hvalue⟩
  | log later ih =>
    obtain _ | _ | ha := ha
    obtain _ | _ | hb := hb
    obtain ⟨hevents, hvalue⟩ := ih ha hb he he'
    exact ⟨by simp [hevents], hvalue⟩

end Action

end GlPrograms
