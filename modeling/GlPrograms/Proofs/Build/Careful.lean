import GlPrograms.Proofs.Build.Steps
import GlPrograms.Proofs.Live
import Mathlib.Order.BooleanAlgebra.Set

namespace GlPrograms.Build

open GlPrograms.Action

open Gl (Object)

variable {settings : Settings} {stage : Stage} {parts : List String} {there : Set Object}

def Adds (there : Set Object) : Except BuildError Program → Set Object → Prop
  | .error _, now => now = there
  | .ok p, now => .program p ∉ there ∧ now = insert (.program p) there

theorem rejectShader_careful {s : Shader} (hs : .shader s ∈ there) :
    (rejectShader (α := Program) settings stage parts s).Careful there (Adds there) := by
  rw [rejectShader_steps]
  refine careful_quiet (by simpa [Gl.Call.named] using hs) (fun _ => rfl) (fun _ => rfl)
    fun text => ?_
  cases settings.dumpRejected with
  | false => rfl
  | true => rfl

theorem Adds.close {s : Shader} {result : Except BuildError Program} {now : Set Object}
    (hs : .shader s ∉ there) (h : Adds (insert (.shader s) there) result now) :
    .shader s ∈ now ∧ Adds there result (now \ {.shader s}) := by
  cases result with
  | error e =>
    obtain rfl : now = insert (.shader s) there := h
    exact ⟨Set.mem_insert _ _, Set.insert_sdiff_self_of_notMem hs⟩
  | ok p =>
    obtain ⟨hp, rfl⟩ := h
    have hne : Object.program p ≠ .shader s := by simp
    refine ⟨by simp, fun hmem => hp (Set.mem_insert_of_mem _ hmem), ?_⟩
    rw [Set.insert_comm, Set.insert_sdiff_self_of_notMem]
    simpa [hne.symm] using hs

theorem withShader_careful {use : Shader → Action Gl (Except BuildError Program)}
    (hu : ∀ s, .shader s ∉ there →
      (use s).Careful (insert (.shader s) there) (Adds (insert (.shader s) there))) :
    (withShader settings stage parts use).Careful there (Adds there) := by
  rw [withShader_steps]
  refine ⟨by simp [Gl.Call.named], fun made hfresh => ?_⟩
  cases made with
  | error reason =>
    rw [Event.leaves_quiet rfl rfl]
    rfl
  | ok s =>
    have hs : .shader s ∉ there := hfresh (.shader s) rfl
    rw [Event.leaves_created (o := .shader s) rfl]
    refine careful_quiet (by simp [Gl.Call.named]) (fun _ => rfl) (fun _ => rfl) fun accepted => ?_
    have inside : Careful (insert (.shader s) there)
        (if accepted then use s else rejectShader settings stage parts s)
        (Adds (insert (.shader s) there)) := by
      cases accepted with
      | true => exact hu s hs
      | false => exact rejectShader_careful (Set.mem_insert _ _)
    refine (inside.mono fun result now hnow => ?_).bind
    obtain ⟨hmem, hclosed⟩ := hnow.close hs
    exact careful_delete (by simpa [Gl.Call.named, Gl.Command.named] using hmem) (fun _ => rfl)
      fun _ => hclosed

theorem link_careful {vertex fragment : Shader} (hv : .shader vertex ∈ there)
    (hf : .shader fragment ∈ there) :
    (link settings vertex fragment).Careful there (Adds there) := by
  rw [link_steps]
  refine ⟨by simp [Gl.Call.named], fun made hfresh => ?_⟩
  cases made with
  | error reason =>
    rw [Event.leaves_quiet rfl rfl]
    rfl
  | ok p =>
    have hp : .program p ∉ there := hfresh (.program p) rfl
    rw [Event.leaves_created (o := .program p) rfl]
    have hp' : Object.program p ∈ insert (Object.program p) there := Set.mem_insert _ _
    refine careful_quiet (by simp [Gl.Call.named, Gl.Command.named, hv]) (fun _ => rfl)
      (fun _ => rfl) fun _ => ?_
    refine careful_quiet (by simp [Gl.Call.named, Gl.Command.named, hf]) (fun _ => rfl)
      (fun _ => rfl) fun _ => ?_
    refine careful_quiet (by simp [Gl.Call.named, Gl.Command.named]) (fun _ => rfl) (fun _ => rfl)
      fun _ => ?_
    refine careful_quiet (by simp [Gl.Call.named, Gl.Command.named]) (fun _ => rfl) (fun _ => rfl)
      fun _ => ?_
    refine careful_quiet (by simp [Gl.Call.named]) (fun _ => rfl) (fun _ => rfl) fun accepted => ?_
    cases accepted with
    | true => exact ⟨hp, rfl⟩
    | false =>
      simp only [Bool.false_eq_true, if_false, rejectProgram_steps]
      refine careful_quiet (by simp [Gl.Call.named]) (fun _ => rfl) (fun _ => rfl) fun text => ?_
      refine careful_delete (o := .program p) (by simp [Gl.Call.named, Gl.Command.named])
        (fun _ => rfl) fun _ => ?_
      exact Set.insert_sdiff_self_of_notMem hp

theorem locate_careful {p : Program} (hp : .program p ∈ there) :
    (locate p).Careful there fun _ now => now = there := by
  have ask (uniform : String) {next : Option Location → Action Gl Locations}
      (h : ∀ answer, (next answer).Careful there fun _ now => now = there) :
      (call (I := Gl) (.uniformLocation p uniform) next).Careful there fun _ now => now = there :=
    careful_quiet (by simpa [Gl.Call.named] using hp) (fun _ => rfl) (fun _ => rfl) h
  rw [locate_steps]
  exact ask _ fun _ => ask _ fun _ => ask _ fun _ => ask _ fun _ => ask _ fun _ =>
    ask _ fun _ => rfl

theorem build_careful (settings : Settings) (key : Key) (there : Set Object) :
    (build settings key).Careful there fun result => Adds there (result.map Linked.program) := by
  have assembled : (assemble settings (Source.fragmentParts key)).Careful there (Adds there) :=
    withShader_careful fun vertex hv => withShader_careful fun fragment hf =>
      link_careful (Set.mem_insert_of_mem _ (Set.mem_insert _ _)) (Set.mem_insert _ _)
  rw [build_steps]
  refine (assembled.mono fun result now hnow => ?_).bind
  cases result with
  | error e => exact hnow
  | ok p =>
    obtain ⟨hp, rfl⟩ := hnow
    refine ((locate_careful (Set.mem_insert _ _)).mono fun l now hl => ?_).bind
    exact ⟨hp, hl⟩

end GlPrograms.Build
