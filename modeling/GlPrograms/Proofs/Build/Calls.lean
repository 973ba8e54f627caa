import GlPrograms.Proofs.Action.Only
import GlPrograms.Proofs.Build.Exits

namespace GlPrograms

/-- The calls that draw: to use a program, and to upload a value. -/
def Gl.Call.Draws : Gl.Call → Prop
  | .tell (.useProgram _) | .tell (.setMatrix _ _) | .tell (.setSampler _ _)
  | .tell (.setFloat _ _) | .tell (.setVector _ _) => True
  | _ => False

/-- Whether a build starts here. Its first call is for a vertex shader. -/
def Event.starts : Event Gl → Bool
  | .called (.createShader .vertex) _ => true
  | _ => false

def Event.links : Event Gl → Bool
  | .called (.linkProgram _) accepted => accepted
  | _ => false

namespace Build

open GlPrograms.Action

variable {α : Type} {P : Gl.Call → Prop} {settings : Settings} {key : Key}
  {events : List (Event Gl)}

def Linking : Gl.Call → Prop
  | .createProgram | .linkProgram _ | .programLog _ | .uniformLocation _ _ => True
  | .tell (.attachShader _ _) | .tell (.bindAttribute _ _ _) | .tell (.deleteProgram _) => True
  | _ => False

def Inner : Gl.Call → Prop
  | .createShader .fragment | .compileShader _ _ | .shaderLog _ | .tell (.deleteShader _) => True
  | other => Linking other

theorem Linking.inner {call : Gl.Call} (h : Linking call) : Inner call := by
  unfold Inner
  split
  all_goals trivial

theorem Inner.not_draws {call : Gl.Call} (h : Inner call) : ¬ call.Draws := by
  unfold Gl.Call.Draws
  split
  all_goals simp_all [Inner, Linking]

theorem Inner.not_starts {call : Gl.Call} {answer : Gl.Answer call} (h : Inner call) :
    Event.starts (.called call answer) = false := by
  unfold Event.starts
  split
  · next he =>
    cases he
    cases h
  · rfl

theorem rejectShader_only (hP : ∀ call, Inner call → P call) (stage : Stage) (parts : List String)
    (s : Shader) : (rejectShader (α := α) settings stage parts s).Only P := by
  rw [rejectShader_steps]
  refine ⟨hP _ trivial, fun text => ?_⟩
  cases settings.dumpRejected with
  | false => trivial
  | true => trivial

theorem withShader_only {stage : Stage} {parts : List String}
    {use : Shader → Action Gl (Except BuildError α)} (hP : ∀ call, Inner call → P call)
    (hc : P (.createShader stage)) (hu : ∀ s, (use s).Only P) :
    (withShader settings stage parts use).Only P := by
  refine ⟨hc, fun made => ?_⟩
  cases made with
  | error reason => trivial
  | ok s =>
    have close (result : Except BuildError α) :
        (Gl.tell (.deleteShader s) >>= fun _ => pure result).Only P :=
      ⟨hP _ trivial, fun _ => trivial⟩
    refine ⟨hP _ trivial, fun accepted => ?_⟩
    cases accepted with
    | true => exact (hu s).bind close
    | false => exact (rejectShader_only hP stage parts s).bind close

theorem link_only (settings : Settings) (vertex fragment : Shader) :
    (link settings vertex fragment).Only Linking := by
  rw [link_steps]
  refine ⟨trivial, fun made => ?_⟩
  cases made with
  | error reason => trivial
  | ok p =>
    simp only [only_call, Linking, true_and]
    intro _ _ _ _ accepted
    cases accepted with
    | true => trivial
    | false =>
      simp only [Bool.false_eq_true, if_false, rejectProgram_steps, only_call, only_log, only_done,
        Linking, implies_true, and_self]

theorem locate_only (p : Program) : (locate p).Only Linking := by
  simp only [locate_steps, only_call, only_done, Linking, implies_true, and_self]

theorem fragment_only (settings : Settings) (key : Key) (vertex : Shader) :
    (withShader settings .fragment (Source.fragmentParts key) fun fragment =>
      link settings vertex fragment).Only Inner :=
  withShader_only (fun _ h => h) trivial fun fragment =>
    (link_only settings vertex fragment).mono fun _ h => h.inner

theorem build_drawless (settings : Settings) (key : Key) :
    (build settings key).Only fun call : Gl.Call => ¬ call.Draws := by
  have inner (call : Gl.Call) (h : Inner call) : ¬ call.Draws := h.not_draws
  have assembled :
      (assemble settings (Source.fragmentParts key)).Only fun call : Gl.Call => ¬ call.Draws :=
    withShader_only inner id fun vertex => (fragment_only settings key vertex).mono inner
  rw [build_steps]
  refine assembled.bind fun result => ?_
  cases result with
  | error e => trivial
  | ok p => exact ((locate_only p).mono fun call h => inner call h.inner).bind fun _ => trivial

theorem countP_starts {action : Action Gl α} (h : action.Only Inner) {a : α}
    (hp : action.Plays events a) : events.countP Event.starts = 0 := by
  rw [List.countP_eq_zero]
  intro e he
  cases e with
  | called call answer => simp [(h.of_plays hp he).not_starts]
  | logged r => simp [Event.starts]

theorem countP_complaint (settings : Settings) (stage : Stage) (parts : List String)
    (log : String) :
    (complaint settings stage parts log).countP Event.starts = 0 := by
  cases hd : settings.dumpRejected <;> simp [complaint, hd, Event.starts]

theorem build_starts {result : Except BuildError Linked}
    (h : (build settings key).Plays events result) : events.countP Event.starts = 1 := by
  have assembled {rest : List (Event Gl)} {result : Except BuildError Program}
      (h : (assemble settings (Source.fragmentParts key)).Plays rest result) :
      rest.countP Event.starts = 1 := by
    obtain reason | ⟨s, text⟩ | ⟨s, hs⟩ := with_shader_exit h
    · rfl
    · simp [List.countP_cons, Event.starts, countP_complaint]
    · simp [List.countP_cons, Event.starts, countP_starts (fragment_only settings key s) hs]
  obtain ha | ⟨l, ha⟩ := build_exit h
  · simp [Event.starts, assembled ha]
  · simp [Event.starts, assembled ha, located]

theorem assemble_links {result : Except BuildError Program}
    (h : (assemble settings (Source.fragmentParts key)).Plays events result) :
    events.countP Event.links = result.isOk.toNat := by
  have silent (stage : Stage) (parts : List String) (log : String) :
      (complaint settings stage parts log).countP Event.links = 0 := by
    cases hd : settings.dumpRejected <;> simp [complaint, hd, Event.links]
  obtain _ | ⟨s, text⟩ | ⟨vertex, h⟩ := assemble_exit h
  · rfl
  · simp [Event.links, silent, Except.isOk, Except.toBool]
  · obtain _ | ⟨s, text⟩ | ⟨fragment, h⟩ := h
    · rfl
    · simp [Event.links, silent, Except.isOk, Except.toBool]
    · obtain _ | _ | _ := h
      all_goals rfl

theorem build_links {result : Except BuildError Linked}
    (h : (build settings key).Plays events result) :
    events.countP Event.links = result.isOk.toNat := by
  obtain ha | ⟨l, ha⟩ := build_exit h
  · rw [List.countP_cons, assemble_links ha]
    rfl
  · rw [List.countP_append, List.countP_cons, assemble_links ha]
    rfl

end Build

end GlPrograms
