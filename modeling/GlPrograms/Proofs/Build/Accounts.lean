import GlPrograms.Proofs.Excerpt
import GlPrograms.Proofs.Numbering
import GlPrograms.Proofs.Trail

namespace GlPrograms

def Event.rejects : Event Gl → Bool
  | .called (.compileShader _ _) accepted | .called (.linkProgram _) accepted => !accepted
  | _ => false

/-- An event without a record in which nothing fails. -/
structure Event.Passes (e : Event Gl) : Prop where
  unsaid : e.record? = none
  granted : e.refuses = false
  accepted : e.rejects = false

namespace Build

open GlPrograms.Action

variable {α : Type} {settings : Settings} {stage : Stage} {parts : List String} {key : Key}
  {events inner front back : List (Event Gl)} {result : Except BuildError α}

/-- Right after a rejection all is said that is said at all, and the rejection is the error. -/
structure Blames (events : List (Event Gl)) (result : Except BuildError α)
    (rejection : List (Event Gl)) (error : BuildError) (said : List Record) : Prop where
  place : ∃ before after, events = before ++ rejection ++ said.map .logged ++ after
  said : records events = said
  error : result = .error error

/-- What follows the announcement of a build, for each way in which the build can go. -/
structure Accounts (settings : Settings) (events : List (Event Gl)) (result : Except BuildError α) :
    Prop where
  success : ∀ a, result = .ok a → records events = []
  refused : ∀ e ∈ events, e.refuses →
    records events = [] ∧ ∃ what reason, result = .error (.allocation what reason)
  shader : ∀ s source, .called (.compileShader s source) false ∈ events →
    ∃ stage text shown,
      let log := Text.logExcerpt settings.logLimit text
      log.utf8ByteSize ≤ settings.logLimit ∧ Text.ShownAs source.toList shown.toList ∧
      Blames events result
        [.called (.createShader stage) (.ok s), .called (.compileShader s source) false,
          .called (.shaderLog s) text]
        (.compile stage log)
        (⟨.error, settings.scopeName, stage.text ++ " shader info: " ++ log⟩ ::
          if settings.dumpRejected then [⟨.error, settings.scopeName, "shader source:\n" ++ shown⟩]
          else [])
  program : ∀ p, .called (.linkProgram p) false ∈ events →
    ∃ text,
      let log := Text.logExcerpt settings.logLimit text
      log.utf8ByteSize ≤ settings.logLimit ∧
      Blames events result [.called (.linkProgram p) false, .called (.programLog p) text]
        (.link log) [⟨.error, settings.scopeName, "link info: " ++ log⟩]
  failure : ∀ error, result = .error error → ∃ e ∈ events, e.refuses ∨ e.rejects

theorem records_passing (h : ∀ e ∈ events, e.Passes) : records events = [] :=
  List.filterMap_eq_nil_iff.2 fun e he => (h e he).unsaid

theorem records_frame (hf : ∀ e ∈ front, e.Passes) (hb : ∀ e ∈ back, e.Passes) :
    records (front ++ inner ++ back) = records inner := by
  rw [records_append, records_append, records_passing hf, records_passing hb, List.nil_append,
    List.append_nil]

theorem Blames.frame {rejection : List (Event Gl)} {error : BuildError} {said : List Record}
    (h : Blames inner result rejection error said) (hf : ∀ e ∈ front, e.Passes)
    (hb : ∀ e ∈ back, e.Passes) : Blames (front ++ inner ++ back) result rejection error said where
  place := by
    obtain ⟨before, after, hplace⟩ := h.place
    refine ⟨front ++ before, after ++ back, ?_⟩
    rw [hplace]
    simp only [List.append_assoc]
  said := (records_frame hf hb).trans h.said
  error := h.error

theorem Accounts.frame (h : Accounts settings inner result) (hf : ∀ e ∈ front, e.Passes)
    (hb : ∀ e ∈ back, e.Passes) : Accounts settings (front ++ inner ++ back) result := by
  have inside {e : Event Gl} (he : e ∈ front ++ inner ++ back) (hn : ¬ e.Passes) : e ∈ inner := by
    simp only [List.mem_append] at he
    rcases he with (he | he) | he
    · exact absurd (hf e he) hn
    · exact he
    · exact absurd (hb e he) hn
  constructor
  case success =>
    intro a ha
    rw [records_frame hf hb, h.success a ha]
  case refused =>
    intro e he hr
    rw [records_frame hf hb]
    exact h.refused e (inside he fun hp => by simp [hp.granted] at hr) hr
  case shader =>
    intro s source he
    obtain ⟨stage, text, shown, hfits, hshown, hblames⟩ :=
      h.shader s source (inside he fun hp => by cases hp.accepted)
    exact ⟨stage, text, shown, hfits, hshown, hblames.frame hf hb⟩
  case program =>
    intro p he
    obtain ⟨text, hfits, hblames⟩ := h.program p (inside he fun hp => by cases hp.accepted)
    exact ⟨text, hfits, hblames.frame hf hb⟩
  case failure =>
    intro error he
    obtain ⟨e, hmem, hfails⟩ := h.failure error he
    exact ⟨e, by simp [hmem], hfails⟩

theorem Accounts.map {β : Type} (h : Accounts settings events result) (f : α → β) :
    Accounts settings events (result.map f) := by
  have failed {error : BuildError} (he : result = .error error) : result.map f = .error error := by
    rw [he]
    rfl
  constructor
  case success =>
    intro b hb
    cases result with
    | error error => cases hb
    | ok a => exact h.success a rfl
  case refused =>
    intro e he hr
    obtain ⟨hsilent, what, reason, herror⟩ := h.refused e he hr
    exact ⟨hsilent, what, reason, failed herror⟩
  case shader =>
    intro s source he
    obtain ⟨stage, text, shown, hfits, hshown, hblames⟩ := h.shader s source he
    exact ⟨stage, text, shown, hfits, hshown, hblames.place, hblames.said, failed hblames.error⟩
  case program =>
    intro p he
    obtain ⟨text, hfits, hblames⟩ := h.program p he
    exact ⟨text, hfits, hblames.place, hblames.said, failed hblames.error⟩
  case failure =>
    intro error he
    cases result with
    | error e => exact h.failure e rfl
    | ok a => cases he

end Build

end GlPrograms
