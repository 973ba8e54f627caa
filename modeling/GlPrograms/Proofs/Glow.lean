import GlPrograms.Proofs.Scripted
import GlPrograms.Vantage

namespace GlPrograms

/-- What a call of the cache comes to at the place from which the GL is watched. -/
def Vantage.reply (v : Vantage) (c : Gl.Call) (d : Device) : Gl.Answer c × Device :=
  (((v.lower c).run v.answer d).1, ((v.lower c).run v.answer d).2.2)

namespace Action

variable {I : Interface} {α σ : Type} {answer answer' : (c : I.Call) → σ → I.Answer c × σ}
  {P : I.Call → σ → Prop}

def Along (answer : (c : I.Call) → σ → I.Answer c × σ) (P : I.Call → σ → Prop) :
    Action I α → σ → Prop
  | done _, _ => True
  | call c next, s => P c s ∧ (next (answer c s).1).Along answer P (answer c s).2
  | log _ next, s => next.Along answer P s

instance Along.decidable [∀ c s, Decidable (P c s)] :
    (action : Action I α) → (s : σ) → Decidable (action.Along answer P s)
  | done _, _ => inferInstanceAs (Decidable True)
  | call c next, s =>
      have := Along.decidable (next (answer c s).1) (answer c s).2
      inferInstanceAs (Decidable (_ ∧ _))
  | log _ next, s => Along.decidable next s

theorem Along.run_eq {action : Action I α} {s : σ} (h : action.Along answer P s)
    (he : ∀ c s, P c s → answer c s = answer' c s) :
    action.run answer s = action.run answer' s := by
  induction action generalizing s with
  | done a => rfl
  | call c next ih =>
    obtain ⟨hc, hn⟩ := h
    have hn' := ih _ hn
    rw [he c s hc] at hn'
    simp only [run, he c s hc, hn']
  | log r next ih =>
    have hn : next.Along answer P s := h
    simp only [run, ih hn]

end Action

namespace Device

def names (d : Device) : Gl.Call → Option UInt32
  | .createShader stage => (d.newShader stage).1
  | .createProgram => d.newProgram.1
  | _ => none

end Device

/-- A refusal is told by the name zero alone, so the reason is made up. -/
def EntryPoint.words : Wording
  | .createProgram, _ => "Unable to create Program object"
  | _, _ => "Unable to create Shader object"

theorem Device.location_answer (c : Gl.Call) (d : Device) :
    (answer c d).2.script.location = d.script.location := by
  have hs := congrArg Script.location (script_answer c d)
  exact hs

theorem Device.logLength_eq_zero {log : String} : logLength log = 0 ↔ log = "" := by
  unfold logLength
  by_cases h : log = ""
  · simp [h]
  · simp [h]

theorem Device.logLength_of_ne {log : String} (h : log ≠ "") :
    logLength log = log.utf8ByteSize + 1 := by
  simp [logLength, h]

theorem Device.fetched {log : String} {d : Device} {events : List (Event EntryPoints)}
    {fetch : Action EntryPoints String} (hf : fetch.run answerEntry d = (log, events, d)) :
    (if logLength log = 0 then pure "" else fetch).run answerEntry d =
      (log, if log = "" then [] else events, d) := by
  by_cases hl : log = ""
  · rw [if_pos (logLength_eq_zero.2 hl), if_pos hl, hl]
    rfl
  · rw [if_neg (mt logLength_eq_zero.1 hl), if_neg hl, hf]

namespace Vantage

open Device (logLength answerEntry)

theorem run_createShader (stage : Stage) (d : Device) :
    (entryPoints.lower (.createShader stage)).run answerEntry d =
      let name := (d.newShader stage).1.getD 0
      (if name = 0 then .error "Unable to create Shader object" else .ok ⟨name⟩,
        [.called (.createShader stage) name], (d.newShader stage).2) := rfl

theorem run_createProgram (d : Device) :
    (entryPoints.lower .createProgram).run answerEntry d =
      let name := d.newProgram.1.getD 0
      (if name = 0 then .error "Unable to create Program object" else .ok ⟨name⟩,
        [.called .createProgram name], d.newProgram.2) := rfl

theorem name_told {α : Type} {mk : UInt32 → α} {name : α → UInt32} {words : String}
    (h : ∀ n, name (mk n) = n) (n : UInt32) :
    (if n = 0 then .error words else .ok (mk n) : Except String α).toOption.elim 0 name = n := by
  split_ifs with hn
  · exact hn.symm
  · exact h n

theorem status_toNat (accepted : Bool) : decide (accepted.toNat = 1) = accepted := by
  cases accepted <;> rfl

theorem run_compileShader (s : Shader) (source : String) (d : Device) :
    (entryPoints.lower (.compileShader s source)).run answerEntry d =
      let accepted := (d.setSource s source).accepted s
      (accepted, [.called (@EntryPoint.Call.shaderSource source.utf8ByteSize s source) (),
        .called (.compileShader s) (), .called (.getShader s .status) accepted.toNat],
        d.setSource s source) :=
  Prod.ext (status_toNat _) rfl

theorem run_linkProgram (p : Program) (d : Device) :
    (entryPoints.lower (.linkProgram p)).run answerEntry d =
      let accepted := !d.script.rejectLinks
      (accepted,
        [.called (.linkProgram p) (), .called (.getProgram p .status) accepted.toNat], d) :=
  Prod.ext (status_toNat _) rfl

theorem run_shaderLog (s : Shader) (d : Device) :
    (entryPoints.lower (.shaderLog s)).run answerEntry d = (d.shaderLog s,
      .called (.getShader s .logLength) (logLength (d.shaderLog s)) ::
        if d.shaderLog s = "" then []
        else [.called (.getShaderInfoLog s (logLength (d.shaderLog s))) (d.shaderLog s)], d) := by
  have hr : (entryPoints.lower (.shaderLog s)).run answerEntry d =
      let fetched := ((if logLength (d.shaderLog s) = 0 then pure ""
        else .ask EntryPoints (.getShaderInfoLog s (logLength (d.shaderLog s))) :
          Action EntryPoints String) >>= pure).run answerEntry d
      (fetched.1, .called (.getShader s .logLength) (logLength (d.shaderLog s)) :: fetched.2.1,
        fetched.2.2) := rfl
  rw [hr, Action.bind_pure, Device.fetched rfl]

theorem run_programLog (p : Program) (d : Device) :
    (entryPoints.lower (.programLog p)).run answerEntry d = (d.script.linkLog,
      .called (.getProgram p .logLength) (logLength d.script.linkLog) ::
        if d.script.linkLog = "" then []
        else [.called (.getProgramInfoLog p (logLength d.script.linkLog)) d.script.linkLog],
        d) := by
  have hr : (entryPoints.lower (.programLog p)).run answerEntry d =
      let fetched := ((if logLength d.script.linkLog = 0 then pure ""
        else .ask EntryPoints (.getProgramInfoLog p (logLength d.script.linkLog)) :
          Action EntryPoints String) >>= pure).run answerEntry d
      (fetched.1, .called (.getProgram p .logLength) (logLength d.script.linkLog) :: fetched.2.1,
        fetched.2.2) := rfl
  rw [hr, Action.bind_pure, Device.fetched rfl]

end Vantage

namespace Platform.Documented

variable {p : Platform} {α : Type}

theorem lower_eq (h : p.Documented) (c : Gl.Call) :
    (Vantage.beneath p).lower c = Vantage.entryPoints.lower c := by
  have hb := h.binding
  cases c with
  | createShader stage => exact congrArg (· >>= pure) (hb.createShader stage)
  | compileShader s source =>
    have steps : (Vantage.beneath p).lower (.compileShader s source) =
        p.binding (.shaderSource s source) >>= fun _ => p.binding (.compileShader s) >>= fun _ =>
          p.binding (.getShaderCompileStatus s) >>= pure := rfl
    rw [steps, hb.shaderSource, hb.compileShader, hb.compileStatus]
    rfl
  | shaderLog s => exact congrArg (· >>= pure) (hb.shaderLog s)
  | createProgram => exact congrArg (· >>= pure) hb.createProgram
  | linkProgram program =>
    have steps : (Vantage.beneath p).lower (.linkProgram program) =
        p.binding (.linkProgram program) >>= fun _ =>
          p.binding (.getProgramLinkStatus program) >>= pure := rfl
    rw [steps, hb.linkProgram, hb.linkStatus]
    rfl
  | programLog p => exact congrArg (· >>= pure) (hb.programLog p)
  | programId p => rfl
  | uniformLocation p uniform => exact congrArg (· >>= pure) (hb.uniformLocation p uniform)
  | tell c =>
    cases c with
    | deleteShader s => exact congrArg (· >>= pure) (hb.deleteShader s)
    | attachShader p s => exact congrArg (· >>= pure) (hb.attachShader p s)
    | bindAttribute p slot input =>
      exact congrArg (· >>= pure) (hb.bindAttribLocation p slot input)
    | deleteProgram p => exact congrArg (· >>= pure) (hb.deleteProgram p)
    | useProgram p => exact congrArg (· >>= pure) (hb.useProgram p)
    | setMatrix location value => exact congrArg (· >>= pure) (hb.uniformMatrix4 location value)
    | setSampler location unit => exact congrArg (· >>= pure) (hb.uniform1i location unit)
    | setFloat location value => exact congrArg (· >>= pure) (hb.uniform1f location value)
    | setVector location value => exact congrArg (· >>= pure) (hb.uniform4f location value)

theorem along_lower (h : p.Documented) (c : Gl.Call) (d : Device) :
    (Vantage.entryPoints.lower c).Along Device.answerEntry
      (fun c d => Device.answerEntry c d = p.answer c d) d := by
  have hg := h.gl
  have still (c : EntryPoint.Call) (d : Device) (hc : c.Still) :
      Device.answerEntry c d = p.answer c d := by
    cases c with
    | createShader | shaderSource | getShader | getShaderInfoLog | deleteShader | createProgram
    | getProgram | getProgramInfoLog | getUniformLocation => cases hc
    | compileShader | attachShader | bindAttribLocation | linkProgram | deleteProgram | useProgram
    | uniformMatrix | uniformInt | uniformFloat | uniformVector =>
      exact Prod.ext rfl (hg.still _ d hc).symm
  have fetched {length : Nat} {fetch : Action EntryPoints String} (hf : fetch.Along
      Device.answerEntry (fun c d => Device.answerEntry c d = p.answer c d) d) :
      ((if length = 0 then pure "" else fetch) >>= pure).Along Device.answerEntry
        (fun c d => Device.answerEntry c d = p.answer c d) d := by
    rw [Action.bind_pure]
    split
    · trivial
    · exact hf
  cases c with
  | createShader stage => exact ⟨(hg.createShader stage d).symm, trivial⟩
  | compileShader s source =>
    exact ⟨Prod.ext rfl (hg.shaderSource s source d).symm, still (.compileShader s) _ trivial,
      (hg.compileStatus s _).symm, trivial⟩
  | shaderLog s => exact ⟨(hg.shaderLogLength s d).symm, fetched ⟨(hg.shaderLog s d).symm, trivial⟩⟩
  | createProgram => exact ⟨(hg.createProgram d).symm, trivial⟩
  | linkProgram program =>
    exact ⟨still (.linkProgram program) d trivial, (hg.linkStatus program d).symm, trivial⟩
  | programLog program =>
    exact ⟨(hg.programLogLength program d).symm, fetched ⟨(hg.programLog program d).symm, trivial⟩⟩
  | programId program => trivial
  | uniformLocation program uniform => exact ⟨(hg.uniformLocation program uniform d).symm, trivial⟩
  | tell c =>
    cases c with
    | deleteShader s => exact ⟨Prod.ext rfl (hg.deleteShader s d).symm, trivial⟩
    | attachShader | bindAttribute | deleteProgram | useProgram | setMatrix | setSampler | setFloat
    | setVector => exact ⟨still _ d trivial, trivial⟩

theorem run_lower (h : p.Documented) (c : Gl.Call) (d : Device) :
    ((Vantage.beneath p).lower c).run p.answer d =
      (Vantage.entryPoints.lower c).run Device.answerEntry d := by
  rw [h.lower_eq, (h.along_lower c d).run_eq fun _ _ he => he]

/-- A session cannot tell a documented platform from the native one. -/
theorem run_eq (h : p.Documented) (action : Action Gl α) (d : Device) :
    (Vantage.beneath p).run action d = Vantage.entryPoints.run action d := by
  induction action generalizing d with
  | done a => rfl
  | call c next ih =>
    have hl := h.run_lower c d
    rw [Vantage.run, Action.translate, Action.run_bind, hl, Vantage.run, Action.translate,
      Action.run_bind]
    have hn := ih ((Vantage.entryPoints.lower c).run Device.answerEntry d).1
      ((Vantage.entryPoints.lower c).run Device.answerEntry d).2.2
    rw [Vantage.run, Vantage.run] at hn
    dsimp only
    rw [hn]
  | log r next ih =>
    have hn := ih d
    rw [Vantage.run, Vantage.run] at hn
    rw [Vantage.run, Vantage.run, Action.translate, Action.translate, Action.run, Action.run, hn]

theorem reply_eq (h : p.Documented) :
    (Vantage.beneath p).reply = Vantage.entryPoints.reply := by
  funext c d
  rw [Vantage.reply, h.run_lower]
  rfl

end Platform.Documented

/-- What the GL receives for an event. An inactive uniform has a location there, too. -/
def Event.lowered (location : String → Location) : Event Gl → List (Event Raw)
  | .logged r => [.logged r]
  | .called (.createShader .vertex) made =>
      [.called ⟨"CreateShader", [.number 35633]⟩ [.shader ⟨made.toOption.elim 0 Shader.name⟩]]
  | .called (.createShader .fragment) made =>
      [.called ⟨"CreateShader", [.number 35632]⟩ [.shader ⟨made.toOption.elim 0 Shader.name⟩]]
  | .called (.compileShader s source) accepted =>
      [.called ⟨"ShaderSource",
          [.shader s, .number 1, .text source, .number source.utf8ByteSize]⟩ [],
        .called ⟨"CompileShader", [.shader s]⟩ [],
        .called ⟨"GetShaderiv", [.shader s, .number 35713]⟩ [.number (if accepted then 1 else 0)]]
  | .called (.shaderLog s) log =>
      if log = "" then [.called ⟨"GetShaderiv", [.shader s, .number 35716]⟩ [.number 0]]
      else
        [.called ⟨"GetShaderiv", [.shader s, .number 35716]⟩ [.number (log.utf8ByteSize + 1)],
          .called ⟨"GetShaderInfoLog", [.shader s, .number (log.utf8ByteSize + 1)]⟩
            [.number log.utf8ByteSize, .text log]]
  | .called .createProgram made =>
      [.called ⟨"CreateProgram", []⟩ [.program ⟨made.toOption.elim 0 Program.name⟩]]
  | .called (.linkProgram p) accepted =>
      [.called ⟨"LinkProgram", [.program p]⟩ [],
        .called ⟨"GetProgramiv", [.program p, .number 35714]⟩
          [.number (if accepted then 1 else 0)]]
  | .called (.programLog p) log =>
      if log = "" then [.called ⟨"GetProgramiv", [.program p, .number 35716]⟩ [.number 0]]
      else
        [.called ⟨"GetProgramiv", [.program p, .number 35716]⟩ [.number (log.utf8ByteSize + 1)],
          .called ⟨"GetProgramInfoLog", [.program p, .number (log.utf8ByteSize + 1)]⟩
            [.number log.utf8ByteSize, .text log]]
  | .called (.programId _) _ => []
  | .called (.uniformLocation p uniform) _ =>
      [.called ⟨"GetUniformLocation", [.program p, .text uniform]⟩ [.location (location uniform)]]
  | .called (.tell (.deleteShader s)) _ => [.called ⟨"DeleteShader", [.shader s]⟩ []]
  | .called (.tell (.attachShader p s)) _ =>
      [.called ⟨"AttachShader", [.program p, .shader s]⟩ []]
  | .called (.tell (.bindAttribute p slot input)) _ =>
      [.called ⟨"BindAttribLocation", [.program p, .number slot.toNat, .text input]⟩ []]
  | .called (.tell (.deleteProgram p)) _ => [.called ⟨"DeleteProgram", [.program p]⟩ []]
  | .called (.tell (.useProgram p)) _ => [.called ⟨"UseProgram", [.program p]⟩ []]
  | .called (.tell (.setMatrix location value)) _ =>
      [.called ⟨"UniformMatrix4fv",
        [.location location, .number 1, .number 0, .singles value.toList]⟩ []]
  | .called (.tell (.setSampler location unit)) _ =>
      [.called ⟨"Uniform1i", [.location location, .number unit]⟩ []]
  | .called (.tell (.setFloat location value)) _ =>
      [.called ⟨"Uniform1f", [.location location, .singles [value]]⟩ []]
  | .called (.tell (.setVector location value)) _ =>
      [.called ⟨"Uniform4fv", [.location location, .number 1, .singles value.toList]⟩ []]

namespace Vantage

/-- A run as the GL of the platform sees it. -/
def rawRun {α : Type} (p : Platform) (action : Action Gl α) (d : Device) :
    α × List (Event Raw) × Device :=
  let (a, events, d) := (beneath p).run action d
  (a, events.map Event.raw, d)

theorem entryPoints_reply {c : Gl.Call} {d : Device} (h : d.names c ≠ some 0) :
    entryPoints.reply c d = Device.worded EntryPoint.words c d := by
  cases c with
  | createShader stage =>
    rw [reply, run_createShader, Device.worded, Device.answer]
    revert h
    dsimp only [Device.names]
    rcases d.newShader stage with ⟨_ | name, d'⟩ <;> intro h
    · rfl
    · have hn : name ≠ 0 := fun hn => h (congrArg some hn)
      simp [hn, Gl.Call.reworded, Except.mapError]
  | createProgram =>
    rw [reply, run_createProgram, Device.worded, Device.answer]
    revert h
    dsimp only [Device.names]
    rcases d.newProgram with ⟨_ | name, d'⟩ <;> intro h
    · rfl
    · have hn : name ≠ 0 := fun hn => h (congrArg some hn)
      simp [hn, Gl.Call.reworded, Except.mapError]
  | compileShader s source =>
    rw [reply, run_compileShader]
    rfl
  | shaderLog s =>
    rw [reply, run_shaderLog]
    rfl
  | linkProgram p =>
    rw [reply, run_linkProgram]
    rfl
  | programLog p =>
    rw [reply, run_programLog]
    rfl
  | programId p => rfl
  | uniformLocation p uniform => rfl
  | tell c => cases c <;> rfl

theorem device_lower (c : Gl.Call) (d : Device) :
    ((entryPoints.lower c).run Device.answerEntry d).2.2 = (Device.answer c d).2 := by
  cases c with
  | createShader stage =>
    rw [run_createShader, Device.answer]
    rcases d.newShader stage with ⟨_ | name, d'⟩ <;> rfl
  | createProgram =>
    rw [run_createProgram, Device.answer]
    rcases d.newProgram with ⟨_ | name, d'⟩ <;> rfl
  | shaderLog s => rw [run_shaderLog, Device.answer]
  | programLog p => rw [run_programLog, Device.answer]
  | tell c => cases c <;> rfl
  | compileShader | linkProgram | programId | uniformLocation => rfl

theorem raw_lower (c : Gl.Call) (d : Device) :
    ((entryPoints.lower c).run Device.answerEntry d).2.1.map Event.raw =
      Event.lowered d.script.location (.called c (entryPoints.reply c d).1) := by
  cases c with
  | createShader stage =>
    rw [reply, run_createShader]
    cases stage with
    | vertex =>
      rw [Event.lowered, name_told fun n => rfl]
      rfl
    | fragment =>
      rw [Event.lowered, name_told fun n => rfl]
      rfl
  | createProgram =>
    rw [reply, run_createProgram, Event.lowered, name_told fun n => rfl]
    rfl
  | compileShader s source =>
    rw [reply, run_compileShader]
    dsimp only
    cases (d.setSource s source).accepted s <;> rfl
  | shaderLog s =>
    rw [reply, run_shaderLog, Event.lowered]
    dsimp only
    by_cases hl : d.shaderLog s = ""
    · rw [if_pos hl, if_pos hl, hl]
      rfl
    · rw [if_neg hl, if_neg hl, Device.logLength_of_ne hl]
      rfl
  | linkProgram p =>
    rw [reply, run_linkProgram]
    dsimp only
    cases d.script.rejectLinks <;> rfl
  | programLog p =>
    rw [reply, run_programLog, Event.lowered]
    dsimp only
    by_cases hl : d.script.linkLog = ""
    · rw [if_pos hl, if_pos hl, hl]
      rfl
    · rw [if_neg hl, if_neg hl, Device.logLength_of_ne hl]
      rfl
  | programId p => rfl
  | uniformLocation p uniform => rfl
  | tell c => cases c <;> rfl

theorem rawRun_call {α : Type} (c : Gl.Call) (next : Gl.Answer c → Action Gl α) (d : Device) :
    rawRun .native (.call c next) d =
      let r := rawRun .native (next (entryPoints.reply c d).1) (Device.answer c d).2
      (r.1, Event.lowered d.script.location (.called c (entryPoints.reply c d).1) ++ r.2.1,
        r.2.2) := by
  simp only [rawRun, run, Action.translate, Action.run_bind, ← raw_lower, ← device_lower,
    List.map_append]
  rfl

theorem rawRun_log {α : Type} (r : Record) (next : Action Gl α) (d : Device) :
    rawRun .native (.log r next) d =
      let later := rawRun .native next d
      (later.1, .logged r :: later.2.1, later.2.2) := rfl

theorem reply_snd (c : Gl.Call) (d : Device) : (entryPoints.reply c d).2 = (Device.answer c d).2 :=
  device_lower c d

theorem rawRun_native {α : Type} (action : Action Gl α) (d : Device) :
    rawRun .native action d = ((action.run entryPoints.reply d).1,
      (action.run entryPoints.reply d).2.1.flatMap (Event.lowered d.script.location),
      (action.run entryPoints.reply d).2.2) := by
  induction action generalizing d with
  | done a => rfl
  | call c next ih =>
    rw [rawRun_call, ih, Device.location_answer, ← reply_snd]
    rfl
  | log r next ih =>
    rw [rawRun_log, ih]
    rfl

end Vantage

namespace Platform.Documented

variable {p : Platform} {α : Type}

theorem rawRun_eq_native (h : p.Documented) (action : Action Gl α) (d : Device) :
    Vantage.rawRun p action d = Vantage.rawRun .native action d := by
  rw [Vantage.rawRun, h.run_eq]
  rfl

theorem rawRun_eq (h : p.Documented) (action : Action Gl α) (d : Device) :
    Vantage.rawRun p action d = ((action.run (Vantage.beneath p).reply d).1,
      (action.run (Vantage.beneath p).reply d).2.1.flatMap (Event.lowered d.script.location),
      (action.run (Vantage.beneath p).reply d).2.2) := by
  rw [h.reply_eq, h.rawRun_eq_native, Vantage.rawRun_native]

end Platform.Documented

end GlPrograms
