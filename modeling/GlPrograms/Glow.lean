import GlPrograms.EntryPoint

namespace GlPrograms

namespace Glow

/-- The methods of the binding. Where a program or a location can be left out, it is optional. -/
inductive Call where
  | createShader (stage : Stage)
  | shaderSource (s : Shader) (source : String)
  | compileShader (s : Shader)
  | getShaderCompileStatus (s : Shader)
  | getShaderInfoLog (s : Shader)
  | deleteShader (s : Shader)
  | createProgram
  | attachShader (p : Program) (s : Shader)
  | bindAttribLocation (p : Program) (slot : UInt32) (input : String)
  | linkProgram (p : Program)
  | getProgramLinkStatus (p : Program)
  | getProgramInfoLog (p : Program)
  | deleteProgram (p : Program)
  | getUniformLocation (p : Program) (uniform : String)
  | useProgram (p : Option Program)
  | uniformMatrix4 (location : Option Location) (transpose : Bool) (value : Vector Single 16)
  | uniform1i (location : Option Location) (value : Nat)
  | uniform1f (location : Option Location) (value : Single)
  | uniform4f (location : Option Location) (value : Vector Single 4)
deriving DecidableEq

abbrev Answer : Call → Type
  | .createShader _ => Except String Shader
  | .createProgram => Except String Program
  | .getShaderCompileStatus _ | .getProgramLinkStatus _ => Bool
  | .getShaderInfoLog _ | .getProgramInfoLog _ => String
  | .getUniformLocation _ _ => Option Location
  | _ => Unit

end Glow

abbrev Glow : Interface where
  Call := Glow.Call
  Answer := Glow.Answer

namespace Glow

def command : Gl.Command → Action Glow Unit
  | .deleteShader s => .ask Glow (Call.deleteShader s)
  | .attachShader p s => .ask Glow (Call.attachShader p s)
  | .bindAttribute p slot input => .ask Glow (Call.bindAttribLocation p slot input)
  | .deleteProgram p => .ask Glow (Call.deleteProgram p)
  | .useProgram p => .ask Glow (Call.useProgram (some p))
  | .setMatrix location value => .ask Glow (Call.uniformMatrix4 (some location) false value)
  | .setSampler location unit => .ask Glow (Call.uniform1i (some location) unit)
  | .setFloat location value => .ask Glow (Call.uniform1f (some location) value)
  | .setVector location value => .ask Glow (Call.uniform4f (some location) value)

/-- How a call of the cache is carried out by the methods of the binding. -/
def lower : (c : Gl.Call) → Action Glow (Gl.Answer c)
  | .createShader stage => .ask Glow (Call.createShader stage)
  | .compileShader s source => do
      Action.ask Glow (Call.shaderSource s source)
      Action.ask Glow (Call.compileShader s)
      Action.ask Glow (Call.getShaderCompileStatus s)
  | .shaderLog s => .ask Glow (Call.getShaderInfoLog s)
  | .createProgram => .ask Glow Call.createProgram
  | .linkProgram p => do
      Action.ask Glow (Call.linkProgram p)
      Action.ask Glow (Call.getProgramLinkStatus p)
  | .programLog p => .ask Glow (Call.getProgramInfoLog p)
  | .programId p => return p.name
  | .uniformLocation p uniform => .ask Glow (Call.getUniformLocation p uniform)
  | .tell c => command c

/-- What the methods of a binding do at the entry points of the GL. -/
abbrev Binding := (c : Call) → Action EntryPoints (Answer c)

def native : Binding
  | .createShader stage => do
      let name ← Action.ask EntryPoints (.createShader stage)
      return if name = 0 then .error "Unable to create Shader object" else .ok ⟨name⟩
  | .shaderSource s source =>
      .ask EntryPoints (@EntryPoint.Call.shaderSource source.utf8ByteSize s source)
  | .compileShader s => .ask EntryPoints (.compileShader s)
  | .getShaderCompileStatus s => do
      let status ← Action.ask EntryPoints (.getShader s .status)
      return decide (status = 1)
  | .getShaderInfoLog s => do
      let length ← Action.ask EntryPoints (.getShader s .logLength)
      if length = 0 then return "" else Action.ask EntryPoints (.getShaderInfoLog s length)
  | .deleteShader s => .ask EntryPoints (.deleteShader s)
  | .createProgram => do
      let name ← Action.ask EntryPoints .createProgram
      return if name = 0 then .error "Unable to create Program object" else .ok ⟨name⟩
  | .attachShader p s => .ask EntryPoints (.attachShader p s)
  | .bindAttribLocation p slot input => .ask EntryPoints (.bindAttribLocation p slot input)
  | .linkProgram p => .ask EntryPoints (.linkProgram p)
  | .getProgramLinkStatus p => do
      let status ← Action.ask EntryPoints (.getProgram p .status)
      return decide (status = 1)
  | .getProgramInfoLog p => do
      let length ← Action.ask EntryPoints (.getProgram p .logLength)
      if length = 0 then return "" else Action.ask EntryPoints (.getProgramInfoLog p length)
  | .deleteProgram p => .ask EntryPoints (.deleteProgram p)
  | .getUniformLocation p uniform => do
      let location ← Action.ask EntryPoints (.getUniformLocation p uniform)
      return if location < 0 then none else some location
  | .useProgram p => .ask EntryPoints (.useProgram (p.getD ⟨0⟩))
  | .uniformMatrix4 none _ _ | .uniform1i none _ | .uniform1f none _ | .uniform4f none _ => return
  | .uniformMatrix4 (some location) transpose value =>
      .ask EntryPoints (@EntryPoint.Call.uniformMatrix transpose location value)
  | .uniform1i (some location) value => .ask EntryPoints (.uniformInt location value)
  | .uniform1f (some location) value => .ask EntryPoints (.uniformFloat location value)
  | .uniform4f (some location) value => .ask EntryPoints (.uniformVector location value)

/-- What the binding is relied on to do, as its documentation has it. -/
structure Binding.Documented (b : Binding) : Prop where
  createShader : ∀ stage, b (.createShader stage) =
    Action.ask EntryPoints (.createShader stage) >>= fun name =>
      pure (if name = 0 then .error "Unable to create Shader object" else .ok ⟨name⟩)
  shaderSource : ∀ s source, b (.shaderSource s source) =
    .ask EntryPoints (@EntryPoint.Call.shaderSource source.utf8ByteSize s source)
  compileShader : ∀ s, b (.compileShader s) = .ask EntryPoints (.compileShader s)
  compileStatus : ∀ s, b (.getShaderCompileStatus s) =
    Action.ask EntryPoints (.getShader s .status) >>= fun status => pure (decide (status = 1))
  shaderLog : ∀ s, b (.getShaderInfoLog s) =
    Action.ask EntryPoints (.getShader s .logLength) >>= fun length =>
      if length = 0 then pure "" else Action.ask EntryPoints (.getShaderInfoLog s length)
  deleteShader : ∀ s, b (.deleteShader s) = .ask EntryPoints (.deleteShader s)
  createProgram : b .createProgram =
    Action.ask EntryPoints .createProgram >>= fun name =>
      pure (if name = 0 then .error "Unable to create Program object" else .ok ⟨name⟩)
  attachShader : ∀ p s, b (.attachShader p s) = .ask EntryPoints (.attachShader p s)
  bindAttribLocation : ∀ p slot input, b (.bindAttribLocation p slot input) =
    .ask EntryPoints (.bindAttribLocation p slot input)
  linkProgram : ∀ p, b (.linkProgram p) = .ask EntryPoints (.linkProgram p)
  linkStatus : ∀ p, b (.getProgramLinkStatus p) =
    Action.ask EntryPoints (.getProgram p .status) >>= fun status => pure (decide (status = 1))
  programLog : ∀ p, b (.getProgramInfoLog p) =
    Action.ask EntryPoints (.getProgram p .logLength) >>= fun length =>
      if length = 0 then pure "" else Action.ask EntryPoints (.getProgramInfoLog p length)
  deleteProgram : ∀ p, b (.deleteProgram p) = .ask EntryPoints (.deleteProgram p)
  uniformLocation : ∀ p uniform, b (.getUniformLocation p uniform) =
    Action.ask EntryPoints (.getUniformLocation p uniform) >>= fun location =>
      pure (if location < 0 then none else some location)
  useProgram : ∀ p, b (.useProgram (some p)) = .ask EntryPoints (.useProgram p)
  uniformMatrix4 : ∀ location value, b (.uniformMatrix4 (some location) false value) =
    .ask EntryPoints (@EntryPoint.Call.uniformMatrix false location value)
  uniform1i : ∀ location value, b (.uniform1i (some location) value) =
    .ask EntryPoints (.uniformInt location value)
  uniform1f : ∀ location value, b (.uniform1f (some location) value) =
    .ask EntryPoints (.uniformFloat location value)
  uniform4f : ∀ location value, b (.uniform4f (some location) value) =
    .ask EntryPoints (.uniformVector location value)

theorem native_documented : native.Documented := by
  constructor <;> intros <;> rfl

end Glow

end GlPrograms
