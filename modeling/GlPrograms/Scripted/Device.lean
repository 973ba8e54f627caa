import GlPrograms.Glow
import GlPrograms.Text.Search

namespace GlPrograms

/-- The calls that do nothing to the scripted GL and are answered nothing. -/
def EntryPoint.Call.Still : EntryPoint.Call → Prop
  | compileShader _ | attachShader _ _ | bindAttribLocation _ _ _ | linkProgram _ | deleteProgram _
  | useProgram _ | uniformMatrix _ _ | uniformInt _ _ | uniformFloat _ _ | uniformVector _ _ => True
  | createShader _ | shaderSource _ _ | getShader _ _ | getShaderInfoLog _ _ | deleteShader _
  | createProgram | getProgram _ _ | getProgramInfoLog _ _ | getUniformLocation _ _ => False

structure Script where
  /-- The name of the next object. It wraps around. -/
  nextName : UInt32 := 1
  rejectStages : List Stage := []
  refuseShaders : List Stage := []
  refusePrograms : Bool := false
  rejectLinks : Bool := false
  /-- A source that contains one of these pieces is rejected. -/
  rejectPieces : List String := []
  vertexLog : String := "0:1(1): error: vertex\n"
  fragmentLog : String := "0:3(1): error: fragment\n"
  linkLog : String := "error: link\n"
  /-- Why an object is refused, where the caller can be told. -/
  reason : String := "out of objects"
  /-- Whether a transcript shows the sources. It changes no answer. -/
  showSources : Bool := false
  /-- Earlier pairs win. A uniform without a pair is inactive. -/
  locations : List (String × Location) :=
    [("proj", 0), ("tex", 1), ("tex1", 2), ("tex2", 3), ("alpha", 4), ("unicolor", 5)]

namespace Script

def log (s : Script) : Stage → String
  | .vertex => s.vertexLog
  | .fragment => s.fragmentLog

def accepts (s : Script) (stage : Stage) (source : String) : Bool :=
  !s.rejectStages.contains stage && !s.rejectPieces.any (Text.contains source)

def location (s : Script) (uniform : String) : Location := (s.locations.lookup uniform).getD (-1)

end Script

structure ShaderObject where
  stage : Stage
  source : String

/-- A scripted GL. The newest object of a name comes first. -/
structure Device where
  script : Script := {}
  shaders : List (UInt32 × ShaderObject) := []

namespace Device

def takeName (d : Device) : UInt32 × Device :=
  (d.script.nextName, { d with script := { d.script with nextName := d.script.nextName + 1 } })

def shader (d : Device) (s : Shader) : ShaderObject := (d.shaders.lookup s.name).getD ⟨.vertex, ""⟩

def accepted (d : Device) (s : Shader) : Bool :=
  d.script.accepts (d.shader s).stage (d.shader s).source

def shaderLog (d : Device) (s : Shader) : String := d.script.log (d.shader s).stage

def newShader (d : Device) (stage : Stage) : Option UInt32 × Device :=
  if d.script.refuseShaders.contains stage then (none, d)
  else
    let (name, d) := d.takeName
    (some name, { d with shaders := (name, ⟨stage, ""⟩) :: d.shaders })

def setSource (d : Device) (s : Shader) (source : String) : Device :=
  { d with shaders := (s.name, ⟨(d.shader s).stage, source⟩) :: d.shaders.eraseP (·.1 = s.name) }

def dropShader (d : Device) (s : Shader) : Device :=
  { d with shaders := d.shaders.eraseP (·.1 = s.name) }

def newProgram (d : Device) : Option UInt32 × Device :=
  if d.script.refusePrograms then (none, d)
  else
    let (name, d) := d.takeName
    (some name, d)

/-- The answers to the calls of the cache. Zero is a name like any other. -/
def answer : (c : Gl.Call) → Device → Gl.Answer c × Device
  | .createShader stage, d =>
      match d.newShader stage with
      | (none, d) => (.error d.script.reason, d)
      | (some name, d) => (.ok ⟨name⟩, d)
  | .compileShader s source, d =>
      let d := d.setSource s source
      (d.accepted s, d)
  | .shaderLog s, d => (d.shaderLog s, d)
  | .createProgram, d =>
      match d.newProgram with
      | (none, d) => (.error d.script.reason, d)
      | (some name, d) => (.ok ⟨name⟩, d)
  | .linkProgram _, d => (!d.script.rejectLinks, d)
  | .programLog _, d => (d.script.linkLog, d)
  | .programId p, d => (p.name, d)
  | .uniformLocation _ uniform, d =>
      let location := d.script.location uniform
      (if location < 0 then none else some location, d)
  | .tell (.deleteShader s), d => ((), d.dropShader s)
  | .tell _, d => ((), d)

def logLength (log : String) : Nat := if log.isEmpty then 0 else log.utf8ByteSize + 1

def answerEntry : (c : EntryPoint.Call) → Device → EntryPoint.Answer c × Device
  | .createShader stage, d =>
      let (name, d) := d.newShader stage
      (name.getD 0, d)
  | .shaderSource s source, d => ((), d.setSource s source)
  | .compileShader _, d => ((), d)
  | .getShader s .status, d => ((d.accepted s).toNat, d)
  | .getShader s .logLength, d => (logLength (d.shaderLog s), d)
  | .getShaderInfoLog s _, d => (d.shaderLog s, d)
  | .deleteShader s, d => ((), d.dropShader s)
  | .createProgram, d =>
      let (name, d) := d.newProgram
      (name.getD 0, d)
  | .getProgram _ .status, d => ((!d.script.rejectLinks).toNat, d)
  | .getProgram _ .logLength, d => (logLength d.script.linkLog, d)
  | .getProgramInfoLog _ _, d => (d.script.linkLog, d)
  | .getUniformLocation _ uniform, d => (d.script.location uniform, d)
  | .attachShader _ _, d | .bindAttribLocation _ _ _, d | .linkProgram _, d
  | .deleteProgram _, d | .useProgram _, d | .uniformMatrix _ _, d | .uniformInt _ _, d
  | .uniformFloat _ _, d | .uniformVector _ _, d => ((), d)

/-- What a GL that goes by its script answers at the entry points. A status is one or zero. -/
structure Scripted (answer : (c : EntryPoint.Call) → Device → EntryPoint.Answer c × Device) :
    Prop where
  createShader : ∀ stage d, answer (.createShader stage) d =
    ((d.newShader stage).1.getD 0, (d.newShader stage).2)
  shaderSource : ∀ s source d,
    (answer (@EntryPoint.Call.shaderSource source.utf8ByteSize s source) d).2 = d.setSource s source
  compileStatus : ∀ s d, answer (.getShader s .status) d = ((d.accepted s).toNat, d)
  shaderLogLength : ∀ s d, answer (.getShader s .logLength) d = (logLength (d.shaderLog s), d)
  shaderLog : ∀ s d, answer (.getShaderInfoLog s (logLength (d.shaderLog s))) d = (d.shaderLog s, d)
  deleteShader : ∀ s d, (answer (.deleteShader s) d).2 = d.dropShader s
  createProgram : ∀ d, answer .createProgram d = (d.newProgram.1.getD 0, d.newProgram.2)
  linkStatus : ∀ p d, answer (.getProgram p .status) d = ((!d.script.rejectLinks).toNat, d)
  programLogLength : ∀ p d, answer (.getProgram p .logLength) d = (logLength d.script.linkLog, d)
  programLog : ∀ p d, answer (.getProgramInfoLog p (logLength d.script.linkLog)) d =
    (d.script.linkLog, d)
  uniformLocation : ∀ p uniform d, answer (.getUniformLocation p uniform) d =
    (d.script.location uniform, d)
  still : ∀ c d, c.Still → (answer c d).2 = d

theorem answerEntry_scripted : Scripted answerEntry where
  createShader _ _ := rfl
  shaderSource _ _ _ := rfl
  compileStatus _ _ := rfl
  shaderLogLength _ _ := rfl
  shaderLog _ _ := rfl
  deleteShader _ _ := rfl
  createProgram _ := rfl
  linkStatus _ _ := rfl
  programLogLength _ _ := rfl
  programLog _ _ := rfl
  uniformLocation _ _ _ := rfl
  still c _ h := by
    cases c with
    | createShader | shaderSource | getShader | getShaderInfoLog | deleteShader | createProgram
    | getProgram | getProgramInfoLog | getUniformLocation => cases h
    | compileShader | attachShader | bindAttribLocation | linkProgram | deleteProgram | useProgram
    | uniformMatrix | uniformInt | uniformFloat | uniformVector => rfl

end Device

end GlPrograms
