import GlPrograms.Proofs.Build.Calls
import GlPrograms.Proofs.Cache.Turns
import GlPrograms.Proofs.Names
import GlPrograms.Renderer

namespace GlPrograms

open GlPrograms.Action

def Script.unnumbered (s : Script) : Script := { s with nextName := 0 }

def Event.stage? : Event Gl → Option Stage
  | .called (.createShader stage) _ => some stage
  | _ => none

def latestStage (past : List (Event Gl)) : Stage :=
  ((past.filterMap Event.stage?).getLast?).getD .vertex

def Script.habit (s : Script) : Habit
  | _, .createShader stage => if s.refuseShaders.contains stage then .error s.reason else .ok ⟨0⟩
  | past, .compileShader _ source => s.accepts (latestStage past) source
  | past, .shaderLog _ => s.log (latestStage past)
  | _, .createProgram => if s.refusePrograms then .error s.reason else .ok ⟨0⟩
  | _, .linkProgram _ => !s.rejectLinks
  | _, .programLog _ => s.linkLog
  | _, .programId _ => (0 : UInt32)
  | _, .uniformLocation _ uniform =>
      if s.location uniform < 0 then none else some (s.location uniform)
  | _, .tell _ => ()

abbrev Wording := Gl.Call → String → String

namespace Gl.Call

def reworded (w : Wording) : (c : Call) → Answer c → Answer c
  | .createShader stage, answer => answer.mapError (w (.createShader stage))
  | .createProgram, answer => answer.mapError (w .createProgram)
  | _, answer => answer

theorem reworded_same (c : Call) (answer : Answer c) :
    c.reworded (fun _ reason => reason) answer = answer := by
  cases c with
  | createShader stage => cases answer <;> rfl
  | createProgram => cases answer <;> rfl
  | _ => rfl

theorem unnamedAnswer_reworded (w : Wording) (c : Call) (answer : Answer c) :
    c.unnamedAnswer (c.reworded w answer) = c.unnamed.reworded w (c.unnamedAnswer answer) := by
  cases c with
  | createShader stage => cases answer <;> rfl
  | createProgram => cases answer <;> rfl
  | _ => rfl

end Gl.Call

def Habit.worded (w : Wording) (habit : Habit) : Habit := fun past c => c.reworded w (habit past c)

def Device.worded (w : Wording) (c : Gl.Call) (d : Device) : Gl.Answer c × Device :=
  (c.reworded w (answer c d).1, (answer c d).2)

theorem Device.worded_same : Device.worded (fun _ reason => reason) = Device.answer := by
  funext c d
  exact Prod.ext (c.reworded_same _) rfl

def Gl.Call.Plain : Gl.Call → Prop
  | .compileShader _ _ | .shaderLog _ => False
  | _ => True

namespace Device

theorem answer_createShader (stage : Stage) (d : Device) :
    answer (.createShader stage) d =
      if d.script.refuseShaders.contains stage then (.error d.script.reason, d)
      else (.ok ⟨d.script.nextName⟩,
        { d.takeName.2 with shaders := (d.script.nextName, ⟨stage, ""⟩) :: d.shaders }) := by
  simp only [answer, newShader]
  cases d.script.refuseShaders.contains stage <;> rfl

theorem answer_createProgram (d : Device) :
    answer .createProgram d =
      if d.script.refusePrograms then (.error d.script.reason, d)
      else (.ok ⟨d.script.nextName⟩, d.takeName.2) := by
  simp only [answer, newProgram]
  cases d.script.refusePrograms <;> rfl

theorem script_answer (c : Gl.Call) (d : Device) :
    (answer c d).2.script.unnumbered = d.script.unnumbered := by
  cases c with
  | createShader stage =>
    rw [answer_createShader]
    split <;> rfl
  | createProgram =>
    rw [answer_createProgram]
    split <;> rfl
  | tell c => cases c <;> rfl
  | compileShader s source => rfl
  | shaderLog s => rfl
  | linkProgram p => rfl
  | programLog p => rfl
  | programId p => rfl
  | uniformLocation p uniform => rfl

theorem answer_plain {c : Gl.Call} (hc : c.Plain) (past : List (Event Gl)) (d : Device) :
    c.unnamedAnswer (answer c d).1 = d.script.unnumbered.habit past c.unnamed := by
  cases c with
  | createShader stage =>
    rw [answer_createShader]
    by_cases hr : d.script.refuseShaders.contains stage
    · rw [if_pos hr]
      exact (if_pos hr).symm
    · rw [if_neg hr]
      exact (if_neg hr).symm
  | createProgram =>
    rw [answer_createProgram]
    by_cases hr : d.script.refusePrograms
    · rw [if_pos hr]
      exact (if_pos hr).symm
    · rw [if_neg hr]
      exact (if_neg hr).symm
  | tell c => rfl
  | compileShader s source => cases hc
  | shaderLog s => cases hc
  | linkProgram p => rfl
  | programLog p => rfl
  | programId p => rfl
  | uniformLocation p uniform => rfl

theorem worded_plain {w : Wording} {c : Gl.Call} (hc : c.Plain) (past : List (Event Gl))
    (d : Device) :
    c.unnamedAnswer (worded w c d).1 = d.script.unnumbered.habit.worded w past c.unnamed := by
  rw [worded, Habit.worded, Gl.Call.unnamedAnswer_reworded, answer_plain hc past]

theorem stage_created {w : Wording} {stage : Stage} {d : Device} {s : Shader}
    (h : (worded w (.createShader stage) d).1 = .ok s) :
    ((worded w (.createShader stage) d).2.shader s).stage = stage := by
  rw [worded, answer_createShader] at h ⊢
  by_cases hr : d.script.refuseShaders.contains stage
  · rw [if_pos hr] at h
    cases h
  · rw [if_neg hr] at h ⊢
    cases h
    simp [shader]

theorem stage_compiled (d : Device) (s : Shader) (source : String) :
    ((answer (.compileShader s source) d).2.shader s).stage = (d.shader s).stage := by
  simp [answer, setSource, shader]

theorem answer_compileShader (d : Device) (s : Shader) (source : String) :
    (answer (.compileShader s source) d).1 = d.script.accepts (d.shader s).stage source := by
  simp [answer, accepted, setSource, shader]

end Device

/-- On this GL, what the action is answered is the habit of the script. -/
structure ByHabit (w : Wording) (script : Script) (past : List (Event Gl)) {α : Type}
    (action : Action Gl α)
    (d : Device) : Prop where
  explained : (script.habit.worded w).Explains past (action.run (Device.worded w) d).2.1
  kept : (action.run (Device.worded w) d).2.2.script.unnumbered = script

def Steady (w : Wording) (script : Script) {α : Type} (action : Action Gl α) : Prop :=
  ∀ past d, d.script.unnumbered = script → ByHabit w script past action d

section Steady

variable {α β : Type} {w : Wording} {script : Script} {past : List (Event Gl)} {d : Device}

theorem ByHabit.call {c : Gl.Call} {next : Gl.Answer c → Action Gl α}
    (hc : c.unnamedAnswer (Device.worded w c d).1 = script.habit.worded w past c.unnamed)
    (later : ByHabit w script (past ++ [Event.unnamed (.called c (Device.worded w c d).1)])
      (next (Device.worded w c d).1) (Device.worded w c d).2) :
    ByHabit w script past (.call c next) d :=
  ⟨⟨hc, later.explained⟩, later.kept⟩

theorem ByHabit.bind {action : Action Gl α} {f : α → Action Gl β}
    (ha : ByHabit w script past action d)
    (hf : ∀ a, Steady w script (f a)) : ByHabit w script past (action >>= f) d := by
  have hb := hf (action.run (Device.worded w) d).1
    (past ++ (action.run (Device.worded w) d).2.1.map Event.unnamed) _ ha.kept
  constructor
  · rw [run_bind]
    exact Habit.explains_append.2 ⟨ha.explained, hb.explained⟩
  · rw [run_bind]
    exact hb.kept

theorem steady_pure (a : α) : Steady w script (Pure.pure a : Action Gl α) :=
  fun _ _ hd => ⟨trivial, hd⟩

theorem Steady.log {r : Record} {next : Action Gl α} (h : Steady w script next) :
    Steady w script (.log r next) := by
  intro past d hd
  obtain ⟨he, hk⟩ := h (past ++ [.logged r]) d hd
  exact ⟨he, hk⟩

theorem Steady.call {c : Gl.Call} {next : Gl.Answer c → Action Gl α} (hc : c.Plain)
    (h : ∀ answer, Steady w script (next answer)) : Steady w script (.call c next) := by
  intro past d hd
  exact .call (hd ▸ Device.worded_plain hc past d)
    (h _ _ _ ((Device.script_answer c d).trans hd))

theorem Steady.of_only {action : Action Gl α} (h : action.Only Gl.Call.Plain) :
    Steady w script action := by
  induction action with
  | done a => exact steady_pure a
  | call c next ih => exact .call h.1 fun answer => ih answer (h.2 answer)
  | log r next ih => exact (ih h).log

theorem Steady.bind {action : Action Gl α} {f : α → Action Gl β} (ha : Steady w script action)
    (hf : ∀ a, Steady w script (f a)) : Steady w script (action >>= f) :=
  fun past d hd => (ha past d hd).bind hf

end Steady

theorem latestStage_concat (past : List (Event Gl)) (e : Event Gl) :
    latestStage (past ++ [e]) = e.stage?.getD (latestStage past) := by
  cases he : e.stage? <;> simp [latestStage, he]

namespace Build

variable {α : Type} {w : Wording} {script : Script} {settings : Settings} {stage : Stage}
  {parts : List String} {past : List (Event Gl)} {d : Device}

theorem rejectShader_byHabit {s : Shader} (hd : d.script.unnumbered = script)
    (hs : (d.shader s).stage = stage) (hl : latestStage past = stage) :
    ByHabit w script past (rejectShader (α := α) settings stage parts s) d := by
  rw [rejectShader_steps]
  refine .call ?_ ?_
  · have hlog : d.script.log (d.shader s).stage = script.log (latestStage past) := by
      rw [hs, hl, ← hd]
      rfl
    exact hlog
  · refine Steady.log ?_ _ _ ((Device.script_answer _ d).trans hd)
    cases settings.dumpRejected with
    | false => exact steady_pure _
    | true => exact .log (steady_pure _)

theorem withShader_steady {use : Shader → Action Gl (Except BuildError α)}
    (hu : ∀ s, Steady w script (use s)) :
    Steady w script (withShader settings stage parts use) := by
  intro past d hd
  have hd₁ : (Device.worded w (.createShader stage) d).2.script.unnumbered = script :=
    (Device.script_answer (.createShader stage) d).trans hd
  have hstage (s : Shader) (h : (Device.worded w (.createShader stage) d).1 = .ok s) :
      ((Device.worded w (.createShader stage) d).2.shader s).stage = stage := Device.stage_created h
  rw [withShader_steps]
  refine .call (hd ▸ Device.worded_plain (c := .createShader stage) trivial past d) ?_
  generalize Device.worded w (.createShader stage) d = made at hd₁ hstage ⊢
  obtain ⟨made, d₁⟩ := made
  cases made with
  | error reason => exact steady_pure _ _ _ hd₁
  | ok s =>
    have hs : (d₁.shader s).stage = stage := hstage s rfl
    have hl : latestStage (past ++ [Event.unnamed (.called (.createShader stage) (.ok s))]) =
        stage :=
      latestStage_concat ..
    have close (result : Except BuildError α) :
        Steady w script (Gl.tell (.deleteShader s) >>= fun _ => pure result) :=
      .call trivial fun _ => steady_pure _
    have hd₂ : (Device.worded w (.compileShader s (String.join parts)) d₁).2.script.unnumbered =
        script := (Device.script_answer (.compileShader s (String.join parts)) d₁).trans hd₁
    have hs₂ : ((Device.worded w (.compileShader s (String.join parts)) d₁).2.shader s).stage =
        stage := (Device.stage_compiled d₁ s (String.join parts)).trans hs
    refine .call ?_ ?_
    · refine (Device.answer_compileShader d₁ s (String.join parts)).trans ?_
      rw [hs, ← hd₁]
      exact congrArg (d₁.script.accepts · (String.join parts)) hl.symm
    · generalize Device.worded w (.compileShader s (String.join parts)) d₁ = compiled at hd₂ hs₂ ⊢
      obtain ⟨accepted, d₂⟩ := compiled
      cases accepted with
      | true => exact (hu s).bind close _ _ hd₂
      | false =>
        refine (rejectShader_byHabit hd₂ hs₂ ?_).bind close
        rw [latestStage_concat]
        exact hl

theorem Linking.plain {call : Gl.Call} (h : Linking call) : call.Plain := by
  unfold Gl.Call.Plain
  split
  all_goals trivial

theorem build_steady (settings : Settings) (key : Key) : Steady w script (build settings key) := by
  have link_steady (vertex fragment : Shader) : Steady w script (link settings vertex fragment) :=
    .of_only ((link_only settings vertex fragment).mono fun _ h => h.plain)
  have assembled : Steady w script (assemble settings (Source.fragmentParts key)) :=
    withShader_steady fun vertex => withShader_steady fun fragment => link_steady vertex fragment
  rw [build_steps]
  refine .log (assembled.bind fun result => ?_)
  cases result with
  | error e => exact steady_pure _
  | ok p =>
    exact (Steady.of_only ((locate_only p).mono fun _ h => h.plain)).bind fun _ => steady_pure _

end Build

namespace Cache

variable {w : Wording} {script : Script}

theorem lookup_steady (c : Cache) (key : Key) (now : Instant) :
    Steady w script (c.lookup key now) := by
  cases hc : c.get? key with
  | some e =>
    rw [lookup_cached hc]
    exact steady_pure _
  | none =>
    rw [lookup_missing hc]
    refine (Build.build_steady c.settings key).bind fun built => ?_
    cases built with
    | error e => exact steady_pure _
    | ok linked => exact steady_pure _

theorem release_plain (settings : Settings) (e : Entry) :
    (release settings e).Only Gl.Call.Plain := ⟨trivial, fun _ => trivial⟩

theorem releaseAll_plain (settings : Settings) (es : List Entry) :
    (releaseAll settings es).Only Gl.Call.Plain := by
  induction es with
  | nil => trivial
  | cons e es ih => exact (release_plain settings e).bind fun _ => ih

theorem destroy_steady (c : Cache) (key : Key) : Steady w script (c.destroy key) := by
  cases hc : c.get? key with
  | none =>
    rw [destroy_missing hc]
    exact steady_pure _
  | some e =>
    rw [destroy_cached hc]
    exact (Steady.of_only (release_plain c.settings e)).bind fun _ => steady_pure _

theorem destroyAll_steady (c : Cache) : Steady w script c.destroyAll :=
  (Steady.of_only (releaseAll_plain c.settings c.entries)).bind fun _ => steady_pure _

theorem inspect_steady (c : Cache) (listener : Listener) (i : Inspection) :
    Steady w script (c.inspect listener i) := by
  refine .of_only ((inspect_asks c listener i).mono ?_)
  rintro _ ⟨p, rfl⟩
  trivial

theorem perform_steady (c : Cache) (listener : Listener) (request : Request) :
    Steady w script (c.perform listener request) := by
  cases request with
  | lookup key now => exact (lookup_steady c key now).bind fun _ => steady_pure _
  | destroy key => exact (destroy_steady c key).bind fun _ => steady_pure _
  | destroyAll => exact (destroyAll_steady c).bind fun _ => steady_pure _
  | inspect i => exact (inspect_steady c listener i).bind fun _ => steady_pure _

end Cache

namespace Renderer

variable {w : Wording} {script : Script}

theorem tellAll_plain (cs : List Gl.Command) : (Gl.tellAll cs).Only Gl.Call.Plain := by
  induction cs with
  | nil => trivial
  | cons c cs ih => exact ⟨trivial, fun _ => ih⟩

theorem draw_steady (r : Renderer) (d : Draw) (now : Instant) : Steady w script (r.draw d now) := by
  refine (Cache.lookup_steady r.cache d.key now).bind fun (result, c) => ?_
  cases result with
  | error e => exact steady_pure _
  | ok e =>
    refine .call trivial fun _ => ?_
    exact (Steady.of_only (tellAll_plain _)).bind fun _ => steady_pure _

theorem perform_steady (r : Renderer) (listener : Listener) (request : Request) :
    Steady w script (r.perform listener request) := by
  cases request with
  | program key now =>
    exact ((Cache.lookup_steady r.cache key now).bind fun _ => steady_pure _).bind fun _ =>
      steady_pure _
  | draw d now => exact (draw_steady r d now).bind fun _ => steady_pure _
  | destroy key =>
    exact ((Cache.destroy_steady r.cache key).bind fun _ => steady_pure _).bind
      fun _ => steady_pure _
  | teardown =>
    exact ((Cache.destroyAll_steady r.cache).bind fun _ => steady_pure _).bind
      fun _ => steady_pure _
  | inspect i => exact (Cache.inspect_steady r.cache listener i).bind fun _ => steady_pure _

end Renderer

end GlPrograms
