import GlPrograms.Action.Basic

namespace GlPrograms

inductive Stage where
  | vertex
  | fragment
deriving DecidableEq

def Stage.text : Stage → String
  | vertex => "vertex"
  | fragment => "fragment"

structure Shader where
  name : UInt32
deriving DecidableEq

structure Program where
  name : UInt32
deriving DecidableEq

/-- A single-precision number by its bit pattern. It is passed on unread. -/
structure Single where
  bits : UInt32
deriving DecidableEq

abbrev Location := Int

namespace Gl

inductive Command where
  | deleteShader (s : Shader)
  | attachShader (p : Program) (s : Shader)
  | bindAttribute (p : Program) (slot : UInt32) (input : String)
  | deleteProgram (p : Program)
  | useProgram (p : Program)
  | setMatrix (location : Location) (value : Vector Single 16)
  | setSampler (location : Location) (unit : Nat)
  | setFloat (location : Location) (value : Single)
  | setVector (location : Location) (value : Vector Single 4)
deriving DecidableEq

inductive Call where
  | createShader (stage : Stage)
  | compileShader (s : Shader) (source : String)
  | shaderLog (s : Shader)
  | createProgram
  | linkProgram (p : Program)
  | programLog (p : Program)
  | programId (p : Program)
  | uniformLocation (p : Program) (uniform : String)
  | tell (c : Command)
deriving DecidableEq

/-- A refused object comes with the reason, compiling and linking with success or failure, and
an inactive uniform without a location. -/
abbrev Answer : Call → Type
  | .createShader _ => Except String Shader
  | .compileShader _ _ => Bool
  | .shaderLog _ => String
  | .createProgram => Except String Program
  | .linkProgram _ => Bool
  | .programLog _ => String
  | .programId _ => UInt32
  | .uniformLocation _ _ => Option Location
  | .tell _ => Unit

end Gl

abbrev Gl : Interface where
  Call := Gl.Call
  Answer := Gl.Answer

namespace Gl

def createShader (stage : Stage) : Action Gl (Except String Shader) :=
  Action.ask Gl (Call.createShader stage)

def compileShader (s : Shader) (source : String) : Action Gl Bool :=
  Action.ask Gl (Call.compileShader s source)

def shaderLog (s : Shader) : Action Gl String := Action.ask Gl (Call.shaderLog s)

def createProgram : Action Gl (Except String Program) := Action.ask Gl Call.createProgram

def linkProgram (p : Program) : Action Gl Bool := Action.ask Gl (Call.linkProgram p)

def programLog (p : Program) : Action Gl String := Action.ask Gl (Call.programLog p)

def programId (p : Program) : Action Gl UInt32 := Action.ask Gl (Call.programId p)

def uniformLocation (p : Program) (uniform : String) : Action Gl (Option Location) :=
  Action.ask Gl (Call.uniformLocation p uniform)

def tell (c : Command) : Action Gl Unit := Action.ask Gl (Call.tell c)

section Bind

variable {α : Type}

@[simp] theorem createShader_bind (stage : Stage) (f : Except String Shader → Action Gl α) :
    createShader stage >>= f = .call (Call.createShader stage) f := rfl

@[simp] theorem compileShader_bind (s : Shader) (source : String) (f : Bool → Action Gl α) :
    compileShader s source >>= f = .call (Call.compileShader s source) f := rfl

@[simp] theorem shaderLog_bind (s : Shader) (f : String → Action Gl α) :
    shaderLog s >>= f = .call (Call.shaderLog s) f := rfl

@[simp] theorem createProgram_bind (f : Except String Program → Action Gl α) :
    createProgram >>= f = .call Call.createProgram f := rfl

@[simp] theorem linkProgram_bind (p : Program) (f : Bool → Action Gl α) :
    linkProgram p >>= f = .call (Call.linkProgram p) f := rfl

@[simp] theorem programLog_bind (p : Program) (f : String → Action Gl α) :
    programLog p >>= f = .call (Call.programLog p) f := rfl

@[simp] theorem programId_bind (p : Program) (f : UInt32 → Action Gl α) :
    programId p >>= f = .call (Call.programId p) f := rfl

@[simp] theorem uniformLocation_bind (p : Program) (uniform : String)
    (f : Option Location → Action Gl α) :
    uniformLocation p uniform >>= f = .call (Call.uniformLocation p uniform) f := rfl

@[simp] theorem tell_bind (c : Command) (f : Unit → Action Gl α) :
    tell c >>= f = .call (Call.tell c) f := rfl

end Bind

def tellAll : List Command → Action Gl Unit
  | [] => pure ()
  | c :: cs => do
      tell c
      tellAll cs

end Gl

end GlPrograms
