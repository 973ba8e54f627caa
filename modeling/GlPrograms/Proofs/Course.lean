import GlPrograms.Action.Run
import GlPrograms.Cache.Request
import GlPrograms.Scripted.Change
import Mathlib.Data.List.Induction

namespace GlPrograms

/-- A request, the reply to it, and what could be seen meanwhile. -/
structure Turn (Request : Type) where
  listener : Listener
  request : Request
  reply : Reply
  events : List (Event Gl)

def history {Request : Type} (turns : List (Turn Request)) : List (Event Gl) :=
  turns.flatMap Turn.events

section Course

variable {State Request : Type} {perform : State → Listener → Request → Action Gl (Reply × State)}

/-- From one state to another in some turns. Nothing is assumed of the GL. -/
inductive Course (perform : State → Listener → Request → Action Gl (Reply × State)) :
    State → List (Turn Request) → State → Prop
  | still (s) : Course perform s [] s
  | turn {s turns s' s''} (t : Turn Request) (past : Course perform s turns s')
      (now : (perform s' t.listener t.request).Plays t.events (t.reply, s'')) :
      Course perform s (turns ++ [t]) s''

namespace Course

theorem nil_iff {s s' : State} : Course perform s [] s' ↔ s' = s := by
  constructor
  · intro h
    generalize he : ([] : List (Turn Request)) = turns at h
    cases h with
    | still => rfl
    | turn t past now => simp at he
  · rintro rfl
    exact .still _

theorem concat_iff {s s'' : State} {turns : List (Turn Request)} {t : Turn Request} :
    Course perform s (turns ++ [t]) s'' ↔
      ∃ s', Course perform s turns s' ∧
        (perform s' t.listener t.request).Plays t.events (t.reply, s'') := by
  constructor
  · intro h
    generalize he : turns ++ [t] = all at h
    cases h with
    | still => simp at he
    | turn u past now =>
      obtain ⟨rfl, hu⟩ := List.append_inj' he rfl
      cases hu
      exact ⟨_, past, now⟩
  · rintro ⟨s', past, now⟩
    exact .turn t past now

theorem append_iff {s s'' : State} {turns more : List (Turn Request)} :
    Course perform s (turns ++ more) s'' ↔
      ∃ s', Course perform s turns s' ∧ Course perform s' more s'' := by
  induction more using List.reverseRecOn generalizing s'' with
  | nil =>
    simp only [List.append_nil, nil_iff]
    constructor
    · exact fun h => ⟨s'', h, rfl⟩
    · rintro ⟨s', h, rfl⟩
      exact h
  | append_singleton more t ih =>
    rw [← List.append_assoc, concat_iff]
    constructor
    · rintro ⟨b, hb, now⟩
      obtain ⟨a, ha, hab⟩ := ih.1 hb
      exact ⟨a, ha, .turn t hab now⟩
    · rintro ⟨a, ha, h⟩
      obtain ⟨b, hab, now⟩ := concat_iff.1 h
      exact ⟨b, ih.2 ⟨a, ha, hab⟩, now⟩

theorem cons_iff {s s'' : State} {turns : List (Turn Request)} {t : Turn Request} :
    Course perform s (t :: turns) s'' ↔
      ∃ s', (perform s t.listener t.request).Plays t.events (t.reply, s') ∧
        Course perform s' turns s'' := by
  have one (s' : State) : Course perform s ([] ++ [t]) s' ↔
      (perform s t.listener t.request).Plays t.events (t.reply, s') := by
    rw [concat_iff]
    simp [nil_iff]
  rw [← List.singleton_append, append_iff]
  exact exists_congr fun s' => and_congr_left' (one s')

theorem split {s s'' : State} {before after : List (Turn Request)} {t : Turn Request}
    (h : Course perform s (before ++ t :: after) s'') :
    ∃ a b, Course perform s before a ∧
      (perform a t.listener t.request).Plays t.events (t.reply, b) ∧
        Course perform b after s'' := by
  obtain ⟨a, ha, h⟩ := append_iff.1 h
  obtain ⟨b, now, hafter⟩ := cons_iff.1 h
  exact ⟨a, b, ha, now, hafter⟩

end Course

theorem Action.plays_run_pair {I : Interface} {α β σ : Type}
    (answer : (c : I.Call) → σ → I.Answer c × σ) (action : Action I (α × β)) (s : σ) :
    action.Plays (action.run answer s).2.1 ((action.run answer s).1.1, (action.run answer s).1.2) :=
  plays_run answer action s

inductive Move (Request : Type) where
  | change (c : ScriptChange)
  | ask (listener : Listener) (request : Request)

/-- The turns on a scripted GL that is called in some way, and the state that they lead to. -/
def played (answer : (c : Gl.Call) → Device → Gl.Answer c × Device)
    (perform : State → Listener → Request → Action Gl (Reply × State)) :
    List (Move Request) → State → Device → List (Turn Request) × State
  | [], s, _ => ([], s)
  | .change c :: moves, s, d => played answer perform moves s (d.rescript c)
  | .ask listener request :: moves, s, d =>
      let ((reply, s), events, d) := (perform s listener request).run answer d
      let (turns, s) := played answer perform moves s d
      (⟨listener, request, reply, events⟩ :: turns, s)

theorem course_played (answer : (c : Gl.Call) → Device → Gl.Answer c × Device)
    (moves : List (Move Request)) (s : State) (d : Device) :
    Course perform s (played answer perform moves s d).1 (played answer perform moves s d).2 := by
  induction moves generalizing s d with
  | nil => exact .still s
  | cons move moves ih =>
    cases move with
    | change c => exact ih s (d.rescript c)
    | ask listener request =>
      have now := Action.plays_run_pair answer (perform s listener request) d
      exact Course.cons_iff.2 ⟨_, now, ih _ _⟩

structure Cue (Request : Type) where
  change : ScriptChange := {}
  listener : Listener := {}
  request : Request

def scripted (perform : State → Listener → Request → Action Gl (Reply × State)) :
    List (Cue Request) → State → Device → List (Turn Request) × State
  | [], s, _ => ([], s)
  | cue :: cues, s, d =>
      let ((reply, s), events, d) :=
        (perform s cue.listener cue.request).run Device.answer (d.rescript cue.change)
      let (turns, s) := scripted perform cues s d
      (⟨cue.listener, cue.request, reply, events⟩ :: turns, s)

def Cue.moves (cue : Cue Request) : List (Move Request) :=
  [.change cue.change, .ask cue.listener cue.request]

theorem scripted_eq_played (cues : List (Cue Request)) (s : State) (d : Device) :
    scripted perform cues s d = played Device.answer perform (cues.flatMap Cue.moves) s d := by
  induction cues generalizing s d with
  | nil => rfl
  | cons cue cues ih => simp only [scripted, ih, List.flatMap_cons, Cue.moves, List.cons_append,
      List.nil_append, played]

theorem course_scripted (cues : List (Cue Request)) (s : State) (d : Device) :
    Course perform s (scripted perform cues s d).1 (scripted perform cues s d).2 := by
  rw [scripted_eq_played]
  exact course_played Device.answer _ s d

end Course

section Since

variable {α : Type} {happens undoes : α → Prop} {l : List α} {a : α}

/-- Something happened and has not been undone since. -/
def Since (happens undoes : α → Prop) (l : List α) : Prop :=
  ∃ before a after, l = before ++ a :: after ∧ happens a ∧ ∀ b ∈ after, ¬ undoes b

theorem not_since_nil : ¬ Since happens undoes [] := by
  rintro ⟨before, a, after, h, -⟩
  simp at h

theorem split_cases {α : Type} {a b c d : List α} {x y : α} (h : a ++ x :: b = c ++ y :: d) :
    (a = c ∧ x = y ∧ b = d) ∨ (∃ between, c = a ++ x :: between ∧ b = between ++ y :: d) ∨
      ∃ between, a = c ++ y :: between ∧ d = between ++ x :: b := by
  rcases List.append_eq_append_iff.1 h with ⟨between, hc, hb⟩ | ⟨between, ha, hd⟩
  · cases between with
    | nil =>
      cases hb
      exact .inl ⟨by simpa using hc.symm, rfl, rfl⟩
    | cons z between =>
      cases hb
      exact .inr (.inl ⟨between, hc, rfl⟩)
  · cases between with
    | nil =>
      cases hd
      exact .inl ⟨by simpa using ha, rfl, rfl⟩
    | cons z between =>
      cases hd
      exact .inr (.inr ⟨between, ha, rfl⟩)

theorem since_concat :
    Since happens undoes (l ++ [a]) ↔ happens a ∨ Since happens undoes l ∧ ¬ undoes a := by
  constructor
  · rintro ⟨before, b, after, h, hb, hu⟩
    rcases split_cases h with ⟨rfl, rfl, rfl⟩ | ⟨between, -, ha⟩ | ⟨between, rfl, rfl⟩
    · exact .inl hb
    · simp at ha
    · exact .inr ⟨⟨before, b, between, rfl, hb, fun x hx => hu x (by simp [hx])⟩, hu a (by simp)⟩
  · rintro (ha | ⟨⟨before, b, after, rfl, hb, hu⟩, ha⟩)
    · exact ⟨l, a, [], rfl, ha, by simp⟩
    · refine ⟨before, b, after ++ [a], by simp, hb, fun x hx => ?_⟩
      rcases List.mem_append.1 hx with hx | hx
      · exact hu x hx
      · rw [List.mem_singleton.1 hx]
        exact ha

instance [DecidablePred happens] [DecidablePred undoes] : Decidable (Since happens undoes l) :=
  decidable_of_iff
    (l.foldl (fun b a => decide (happens a) || b && !decide (undoes a)) false = true) <| by
    induction l using List.reverseRecOn with
    | nil => simp [not_since_nil]
    | append_singleton l a ih => simp [since_concat, ih]

end Since

theorem history_concat {Request : Type} (turns : List (Turn Request)) (t : Turn Request) :
    history (turns ++ [t]) = history turns ++ t.events := by
  simp [history]

end GlPrograms
