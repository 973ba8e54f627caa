import GlPrograms.Action.Run
import GlPrograms.Gl

namespace GlPrograms

namespace EntryPoint

inductive Parameter where
  | status
  | logLength
deriving DecidableEq

/-- A call of the GL. A name of zero stands for a refused object, and a negative location for an
inactive uniform. The length of a source is in bytes. -/
inductive Call where
  | createShader (stage : Stage)
  | shaderSource {length : Nat} (s : Shader) (source : String)
  | compileShader (s : Shader)
  | getShader (s : Shader) (parameter : Parameter)
  | getShaderInfoLog (s : Shader) (room : Nat)
  | deleteShader (s : Shader)
  | createProgram
  | attachShader (p : Program) (s : Shader)
  | bindAttribLocation (p : Program) (slot : UInt32) (input : String)
  | linkProgram (p : Program)
  | getProgram (p : Program) (parameter : Parameter)
  | getProgramInfoLog (p : Program) (room : Nat)
  | deleteProgram (p : Program)
  | useProgram (p : Program)
  | getUniformLocation (p : Program) (uniform : String)
  | uniformMatrix {transpose : Bool} (location : Location) (value : Vector Single 16)
  | uniformInt (location : Location) (value : Nat)
  | uniformFloat (location : Location) (value : Single)
  | uniformVector (location : Location) (value : Vector Single 4)
deriving DecidableEq

abbrev Answer : Call → Type
  | .createShader _ | .createProgram => UInt32
  | .getShader _ _ | .getProgram _ _ => Nat
  | .getShaderInfoLog _ _ | .getProgramInfoLog _ _ => String
  | .getUniformLocation _ _ => Location
  | _ => Unit

end EntryPoint

abbrev EntryPoints : Interface where
  Call := EntryPoint.Call
  Answer := EntryPoint.Answer

inductive Word where
  | number (n : Nat)
  | shader (s : Shader)
  | program (p : Program)
  | location (l : Location)
  | text (s : String)
  | singles (values : List Single)
deriving DecidableEq

/-- A function of the GL with all its arguments in their order. -/
structure RawCall where
  function : String
  arguments : List Word
deriving DecidableEq

abbrev Raw : Interface where
  Call := RawCall
  Answer _ := List Word

def Stage.code : Stage → Nat
  | vertex => 35633
  | fragment => 35632

namespace EntryPoint

/-- There is one source at a time, one matrix and one vector. -/
def Call.raw : Call → RawCall
  | createShader stage => ⟨"CreateShader", [.number stage.code]⟩
  | @shaderSource length s source =>
      ⟨"ShaderSource", [.shader s, .number 1, .text source, .number length]⟩
  | compileShader s => ⟨"CompileShader", [.shader s]⟩
  | getShader s .status => ⟨"GetShaderiv", [.shader s, .number 35713]⟩
  | getShader s .logLength => ⟨"GetShaderiv", [.shader s, .number 35716]⟩
  | getShaderInfoLog s room => ⟨"GetShaderInfoLog", [.shader s, .number room]⟩
  | deleteShader s => ⟨"DeleteShader", [.shader s]⟩
  | createProgram => ⟨"CreateProgram", []⟩
  | attachShader p s => ⟨"AttachShader", [.program p, .shader s]⟩
  | bindAttribLocation p slot input =>
      ⟨"BindAttribLocation", [.program p, .number slot.toNat, .text input]⟩
  | linkProgram p => ⟨"LinkProgram", [.program p]⟩
  | getProgram p .status => ⟨"GetProgramiv", [.program p, .number 35714]⟩
  | getProgram p .logLength => ⟨"GetProgramiv", [.program p, .number 35716]⟩
  | getProgramInfoLog p room => ⟨"GetProgramInfoLog", [.program p, .number room]⟩
  | deleteProgram p => ⟨"DeleteProgram", [.program p]⟩
  | useProgram p => ⟨"UseProgram", [.program p]⟩
  | getUniformLocation p uniform => ⟨"GetUniformLocation", [.program p, .text uniform]⟩
  | @uniformMatrix transpose location value => ⟨"UniformMatrix4fv",
      [.location location, .number 1, .number transpose.toNat, .singles value.toList]⟩
  | uniformInt location value => ⟨"Uniform1i", [.location location, .number value]⟩
  | uniformFloat location value => ⟨"Uniform1f", [.location location, .singles [value]]⟩
  | uniformVector location value =>
      ⟨"Uniform4fv", [.location location, .number 1, .singles value.toList]⟩

def Call.rawAnswer : (c : Call) → Answer c → List Word
  | createShader _, name => [.shader ⟨name⟩]
  | createProgram, name => [.program ⟨name⟩]
  | getShader _ _, n => [.number n]
  | getProgram _ _, n => [.number n]
  | getShaderInfoLog _ _, text => [.number text.utf8ByteSize, .text text]
  | getProgramInfoLog _ _, text => [.number text.utf8ByteSize, .text text]
  | getUniformLocation _ _, location => [.location location]
  | shaderSource _ _, _ | compileShader _, _ | deleteShader _, _ | attachShader _ _, _
  | bindAttribLocation _ _ _, _ | linkProgram _, _ | deleteProgram _, _ | useProgram _, _
  | uniformMatrix _ _, _ | uniformInt _ _, _ | uniformFloat _ _, _ | uniformVector _ _, _ => []

end EntryPoint

def Event.raw : Event EntryPoints → Event Raw
  | .called c answer => .called c.raw (c.rawAnswer answer)
  | .logged r => .logged r

end GlPrograms
