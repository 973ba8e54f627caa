import GlPrograms.Proofs.Keeper
import GlPrograms.Proofs.Lowering

namespace GlPrograms

variable {Request : Type}

structure Asked (Request : Type) where
  listener : Listener
  request : Request
  script : Script

def asked : Script → List (Move Request) → List (Asked Request)
  | _, [] => []
  | script, .change c :: moves => asked (c.apply script).unnumbered moves
  | script, .ask listener request :: moves => ⟨listener, request, script⟩ :: asked script moves

def Move.fits (p : Request → Bool) : Move Request → Bool
  | .change _ => true
  | .ask _ request => p request

theorem asked_filter (p : Request → Bool) (script : Script) (moves : List (Move Request)) :
    (asked script moves).filter (p ·.request) = asked script (moves.filter (Move.fits p)) := by
  induction moves generalizing script with
  | nil => rfl
  | cons move moves ih =>
    cases move with
    | change c => exact ih (c.apply script).unnumbered
    | ask listener request =>
      by_cases hp : p request <;> simp [asked, Move.fits, hp, ih]

structure Turn.Answers (w : Wording) (t : Turn Request) (q : Asked Request) : Prop where
  listener : t.listener = q.listener
  request : t.request = q.request
  explained : (q.script.habit.worded w).Explains [] t.events

/-- Turns with the same request, which the GL answers by the same habit. What came before them makes
no difference to it. -/
structure Turn.Twins (t u : Turn Request) : Prop where
  listener : t.listener = u.listener
  request : t.request = u.request
  habit : ∃ habit : Habit, habit.Explains [] t.events ∧ habit.Explains [] u.events

theorem Turn.Answers.twins {w : Wording} {t u : Turn Request} {q : Asked Request}
    (ht : t.Answers w q) (hu : u.Answers w q) : t.Twins u :=
  ⟨ht.listener.trans hu.listener.symm, ht.request.trans hu.request.symm, _, ht.explained,
    hu.explained⟩

theorem forall₂_beside {α β γ : Type} {R : α → γ → Prop} {S : β → γ → Prop} {T : α → β → Prop}
    {as : List α} {bs : List β} {cs : List γ} (h : List.Forall₂ R as cs) (h' : List.Forall₂ S bs cs)
    (hT : ∀ a b c, R a c → S b c → T a b) : List.Forall₂ T as bs := by
  induction h generalizing bs with
  | nil =>
    cases h'
    exact .nil
  | cons ha _ ih =>
    obtain _ | ⟨hb, h'⟩ := h'
    exact .cons (hT _ _ _ ha hb) (ih h')

theorem Keeper.Lawful.played_answers {k : Keeper} (hk : k.Lawful) (w : Wording)
    (moves : List (Move k.Request)) (s : k.State) (d : Device) :
    List.Forall₂ (Turn.Answers w) (played (Device.worded w) k.perform moves s d).1
      (asked d.script.unnumbered moves) := by
  induction moves generalizing s d with
  | nil => exact .nil
  | cons move moves ih =>
    cases move with
    | change c => exact ih s (d.rescript c)
    | ask listener request =>
      have now := hk.steady (w := w) s listener request [] d rfl
      have later := ih ((k.perform s listener request).run (Device.worded w) d).1.2
        ((k.perform s listener request).run (Device.worded w) d).2.2
      rw [now.kept] at later
      exact .cons ⟨rfl, rfl, now.explained⟩ later

section Platform

variable {State : Type} {perform : State → Listener → Request → Action Gl (Reply × State)}
  {p : Platform}

/-- Played on the platform, no move creates an object of the name zero. -/
def NeverZero (p : Platform) (perform : State → Listener → Request → Action Gl (Reply × State)) :
    List (Move Request) → State → Device → Prop
  | [], _, _ => True
  | .change c :: moves, s, d => NeverZero p perform moves s (d.rescript c)
  | .ask listener request :: moves, s, d =>
      (perform s listener request).Along (Vantage.beneath p).reply
          (fun c d => d.names c ≠ some 0) d ∧
        NeverZero p perform moves
          ((perform s listener request).run (Vantage.beneath p).reply d).1.2
          ((perform s listener request).run (Vantage.beneath p).reply d).2.2

instance NeverZero.decidable :
    (moves : List (Move Request)) → (s : State) → (d : Device) →
      Decidable (NeverZero p perform moves s d)
  | [], _, _ => inferInstanceAs (Decidable True)
  | .change c :: moves, s, d => NeverZero.decidable moves s (d.rescript c)
  | .ask listener request :: moves, s, d =>
      @instDecidableAnd _ _ (Action.Along.decidable (perform s listener request) d)
        (NeverZero.decidable moves
          ((perform s listener request).run (Vantage.beneath p).reply d).1.2
          ((perform s listener request).run (Vantage.beneath p).reply d).2.2)

/-- A turn, and what the GL of a platform receives meanwhile. -/
structure Seen (Request : Type) where
  turn : Turn Request
  raw : List (Event Raw)

def seen (p : Platform) (perform : State → Listener → Request → Action Gl (Reply × State)) :
    List (Move Request) → State → Device → List (Seen Request) × State
  | [], s, _ => ([], s)
  | .change c :: moves, s, d => seen p perform moves s (d.rescript c)
  | .ask listener request :: moves, s, d =>
      let raw := (Vantage.rawRun p (perform s listener request) d).2.1
      let ((reply, s), events, d) := (perform s listener request).run (Vantage.beneath p).reply d
      let (later, s) := seen p perform moves s d
      (⟨⟨listener, request, reply, events⟩, raw⟩ :: later, s)

theorem seen_turns (p : Platform) (moves : List (Move Request)) (s : State) (d : Device) :
    ((seen p perform moves s d).1.map Seen.turn, (seen p perform moves s d).2) =
      played (Vantage.beneath p).reply perform moves s d := by
  induction moves generalizing s d with
  | nil => rfl
  | cons move moves ih =>
    cases move with
    | change c => exact ih s (d.rescript c)
    | ask listener request =>
      let r := (perform s listener request).run (Vantage.beneath p).reply d
      have step : played (Vantage.beneath p).reply perform (.ask listener request :: moves) s d =
          (⟨listener, request, r.1.1, r.2.1⟩ ::
              (played (Vantage.beneath p).reply perform moves r.1.2 r.2.2).1,
            (played (Vantage.beneath p).reply perform moves r.1.2 r.2.2).2) := rfl
      rw [step, ← ih]
      rfl

theorem course_seen (p : Platform) (moves : List (Move Request)) (s : State) (d : Device) :
    Course perform s ((seen p perform moves s d).1.map Seen.turn) (seen p perform moves s d).2 := by
  have played : Course perform s _ _ := course_played (Vantage.beneath p).reply moves s d
  rwa [← seen_turns] at played

/-- The turn is what was asked, answered by habit, and the GL received what its calls stand for. -/
structure Seen.Answers (t : Seen Request) (q : Asked Request) : Prop where
  turn : t.turn.Answers EntryPoint.words q
  raw : t.raw = t.turn.events.flatMap (Event.lowered q.script.location)
  nonzero : Nonzero t.turn.events

structure Seen.Twins (t u : Seen Request) : Prop where
  turn : t.turn.Twins u.turn
  raw : ∃ location, t.raw = t.turn.events.flatMap (Event.lowered location) ∧
    u.raw = u.turn.events.flatMap (Event.lowered location)
  nonzero : Nonzero t.turn.events ∧ Nonzero u.turn.events

theorem Seen.Answers.twins {t u : Seen Request} {q : Asked Request} (ht : t.Answers q)
    (hu : u.Answers q) : t.Twins u :=
  ⟨ht.turn.twins hu.turn, ⟨_, ht.raw, hu.raw⟩, ht.nonzero, hu.nonzero⟩

theorem Keeper.Lawful.seen_answers {k : Keeper} (hk : k.Lawful) (hp : p.Documented)
    {moves : List (Move k.Request)} {s : k.State} {d : Device}
    (h : NeverZero p k.perform moves s d) :
    List.Forall₂ Seen.Answers (seen p k.perform moves s d).1 (asked d.script.unnumbered moves) := by
  induction moves generalizing s d with
  | nil => exact .nil
  | cons move moves ih =>
    cases move with
    | change c => exact ih h
    | ask listener request =>
      obtain ⟨now, later⟩ := h
      have run : (k.perform s listener request).run (Vantage.beneath p).reply d =
          (k.perform s listener request).run (Device.worded EntryPoint.words) d := by
        refine now.run_eq fun c d hc => ?_
        rw [hp.reply_eq, Vantage.entryPoints_reply hc]
      obtain ⟨explained, kept⟩ : ByHabit EntryPoint.words d.script.unnumbered []
          (k.perform s listener request) d := hk.steady s listener request [] d rfl
      rw [← run] at explained kept
      have answers := ih later
      rw [kept] at answers
      refine .cons ⟨⟨rfl, rfl, explained⟩, ?_, ?_⟩ answers
      · exact congrArg (·.2.1) (hp.rawRun_eq (k.perform s listener request) d)
      · exact hp.nonzero_run (k.perform s listener request) d

end Platform

end GlPrograms
