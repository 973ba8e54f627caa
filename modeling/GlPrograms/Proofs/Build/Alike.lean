import GlPrograms.Proofs.Bonds
import GlPrograms.Proofs.Build.Steps

namespace GlPrograms

open Gl (Object)

namespace Build

open GlPrograms.Action

variable {settings : Settings} {stage : Stage} {parts : List String} {ρ ρ' : Bonds}

inductive Made (ρ : Bonds) : Except BuildError Program → Except BuildError Program → Bonds → Prop
  | failed (e) : Made ρ (.error e) (.error e) ρ
  | made (p p') : Made ρ (.ok p) (.ok p') ((.program p, .program p') :: ρ)

theorem Made.close {s s' : Shader} {a b : Except BuildError Program}
    (h : Made ((.shader s, .shader s') :: ρ) a b ρ') :
    Paired (Made ρ) ρ' (Gl.tell (.deleteShader s) >>= fun _ => pure a)
      (Gl.tell (.deleteShader s') >>= fun _ => pure b) := by
  cases h with
  | failed e =>
    refine .call rfl (.cons (by simp) .nil) fun _ _ _ => .done ?_
    simp only [Naming.after, Naming.calls_created, Naming.calls_deleted, Event.created,
      Event.deleted]
    simpa using Made.failed e
  | made p p' =>
    refine .call rfl (.cons (by simp) .nil) fun _ _ _ => .done ?_
    simpa [Naming.after, Event.created, Event.deleted] using Made.made p p'

theorem rejectShader_paired {s s' : Shader} (hs : (.shader s, .shader s') ∈ ρ) :
    Paired (Made ρ) ρ (rejectShader settings stage parts s)
      (rejectShader settings stage parts s') := by
  rw [rejectShader_steps, rejectShader_steps]
  refine .call rfl (.cons hs .nil) fun text text' he => ?_
  cases he
  refine .log ?_
  cases settings.dumpRejected with
  | false => exact .done (.failed _)
  | true => exact .log (.done (.failed _))

theorem withShader_paired {use use' : Shader → Action Gl (Except BuildError Program)}
    (hu : ∀ s s',
      Paired (Made ((.shader s, .shader s') :: ρ)) ((.shader s, .shader s') :: ρ) (use s)
      (use' s')) :
    Paired (Made ρ) ρ (withShader settings stage parts use)
      (withShader settings stage parts use') := by
  rw [withShader_steps, withShader_steps]
  refine .call rfl .nil fun made made' he => ?_
  have hmade : made.map (fun _ => (⟨0⟩ : Shader)) = made'.map fun _ => ⟨0⟩ :=
    Event.unnamedAnswer_eq he
  rcases both_fail_or_succeed hmade with ⟨reason, rfl, rfl⟩ | ⟨s, s', rfl, rfl, -⟩
  · exact .done (.failed _)
  · have hs : ((.shader s, .shader s') : Object × Object) ∈ (.shader s, .shader s') :: ρ :=
      List.mem_cons_self
    refine .call rfl (.cons hs .nil) fun accepted accepted' he => ?_
    cases he
    cases accepted with
    | false => exact (rejectShader_paired hs).bind fun a b ρ' h => h.close
    | true => exact (hu s s').bind fun a b ρ' h => h.close

theorem link_paired {vertex vertex' fragment fragment' : Shader}
    (hv : (.shader vertex, .shader vertex') ∈ ρ) (hf : (.shader fragment, .shader fragment') ∈ ρ) :
    Paired (Made ρ) ρ (link settings vertex fragment) (link settings vertex' fragment') := by
  rw [link_steps, link_steps]
  refine .call rfl .nil fun made made' he => ?_
  have hmade : made.map (fun _ => (⟨0⟩ : Program)) = made'.map fun _ => ⟨0⟩ :=
    Event.unnamedAnswer_eq he
  rcases both_fail_or_succeed hmade with ⟨reason, rfl, rfl⟩ | ⟨p, p', rfl, rfl, -⟩
  · exact .done (.failed _)
  · have hp : ((.program p, .program p') : Object × Object) ∈ (.program p, .program p') :: ρ :=
      List.mem_cons_self
    refine .call rfl (.cons hp (.cons (.tail _ hv) .nil)) fun _ _ _ => ?_
    refine .call rfl (.cons hp (.cons (.tail _ hf) .nil)) fun _ _ _ => ?_
    refine .call rfl (.cons hp .nil) fun _ _ _ => .call rfl (.cons hp .nil) fun _ _ _ => ?_
    refine .call rfl (.cons hp .nil) fun accepted accepted' he => ?_
    cases he
    cases accepted with
    | true => exact .done (.made p p')
    | false =>
      simp only [Bool.false_eq_true, if_false, rejectProgram_steps]
      refine .call rfl (.cons hp .nil) fun text text' he => ?_
      cases he
      refine .log (.call rfl (.cons hp .nil) fun _ _ _ => .done ?_)
      simpa [Naming.after, Event.created, Event.deleted] using Made.failed _

theorem locate_paired {p p' : Program} (hp : (.program p, .program p') ∈ ρ) :
    Paired (fun l l' ρ' => l = l' ∧ ρ' = ρ) ρ (locate p) (locate p') := by
  rw [locate_steps, locate_steps]
  refine .call rfl (.cons hp .nil) fun a a' ha => .call rfl (.cons hp .nil) fun b b' hb => ?_
  refine .call rfl (.cons hp .nil) fun c c' hc => .call rfl (.cons hp .nil) fun d d' hd => ?_
  refine .call rfl (.cons hp .nil) fun e e' he => .call rfl (.cons hp .nil) fun f f' hf => ?_
  cases ha
  cases hb
  cases hc
  cases hd
  cases he
  cases hf
  exact .done ⟨rfl, rfl⟩

inductive Built (ρ : Bonds) : Except BuildError Linked → Except BuildError Linked → Bonds → Prop
  | failed (e) : Built ρ (.error e) (.error e) ρ
  | built (p p' locations) :
      Built ρ (.ok ⟨p, locations⟩) (.ok ⟨p', locations⟩) ((.program p, .program p') :: ρ)

theorem build_paired (settings : Settings) (key : Key) (ρ : Bonds) :
    Paired (Built ρ) ρ (build settings key) (build settings key) := by
  have assembled : Paired (Made ρ) ρ (assemble settings (Source.fragmentParts key))
      (assemble settings (Source.fragmentParts key)) :=
    withShader_paired fun vertex vertex' => withShader_paired fun fragment fragment' =>
      link_paired (.tail _ List.mem_cons_self) List.mem_cons_self
  rw [build_steps]
  refine .log (assembled.bind fun a b ρ' h => ?_)
  cases h with
  | failed e => exact .done (.failed e)
  | made p p' =>
    refine (locate_paired List.mem_cons_self).bind fun l l' ρ' h => ?_
    obtain ⟨rfl, rfl⟩ := h
    exact .done (.built p p' l)

end Build

end GlPrograms
