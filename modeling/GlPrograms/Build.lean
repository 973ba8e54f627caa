import GlPrograms.BuildError
import GlPrograms.Draw
import GlPrograms.Settings
import GlPrograms.Source.Assembly
import GlPrograms.Text.Numbered
import GlPrograms.Text.Trailing

namespace GlPrograms

structure Linked where
  program : Program
  locations : Locations
deriving DecidableEq

namespace Build

variable {α : Type}

/-- The log is read while the shader is still there. -/
def rejectShader (settings : Settings) (stage : Stage) (parts : List String) (s : Shader) :
    Action Gl (Except BuildError α) := do
  let text ← Gl.shaderLog s
  let log := Text.logExcerpt settings.logLimit text
  settings.say .error (stage.text ++ " shader info: " ++ log)
  if settings.dumpRejected then
    settings.say .error ("shader source:\n" ++ Text.numbered parts)
  return .error (.compile stage log)

/-- Goes on with a compiled shader, and deletes it in any case. -/
def withShader (settings : Settings) (stage : Stage) (parts : List String)
    (use : Shader → Action Gl (Except BuildError α)) : Action Gl (Except BuildError α) := do
  match ← Gl.createShader stage with
  | .error reason => return .error (.noShader reason)
  | .ok s =>
      let accepted ← Gl.compileShader s (String.join parts)
      let result ← if accepted then use s else rejectShader settings stage parts s
      Gl.tell (.deleteShader s)
      return result

def rejectProgram (settings : Settings) (p : Program) : Action Gl (Except BuildError Program) := do
  let text ← Gl.programLog p
  let log := Text.logExcerpt settings.logLimit text
  settings.say .error ("link info: " ++ log)
  Gl.tell (.deleteProgram p)
  return .error (.link log)

/-- The attribute slots have to be bound before the program is linked. -/
def link (settings : Settings) (vertex fragment : Shader) :
    Action Gl (Except BuildError Program) := do
  match ← Gl.createProgram with
  | .error reason => return .error (.noProgram reason)
  | .ok p =>
      Gl.tell (.attachShader p vertex)
      Gl.tell (.attachShader p fragment)
      Gl.tell (.bindAttribute p 0 "position")
      Gl.tell (.bindAttribute p 1 "texcoord")
      let accepted ← Gl.linkProgram p
      if accepted then return .ok p else rejectProgram settings p

def assemble (settings : Settings) (parts : List String) : Action Gl (Except BuildError Program) :=
  withShader settings .vertex Source.vertexParts fun vertex =>
    withShader settings .fragment parts fun fragment =>
      link settings vertex fragment

def locate (p : Program) : Action Gl Locations := do
  let projection ← Gl.uniformLocation p "proj"
  let first ← Gl.uniformLocation p "tex"
  let second ← Gl.uniformLocation p "tex1"
  let third ← Gl.uniformLocation p "tex2"
  let alpha ← Gl.uniformLocation p "alpha"
  let color ← Gl.uniformLocation p "unicolor"
  return ⟨projection, #v[first, second, third], alpha, color⟩

def build (settings : Settings) (key : Key) : Action Gl (Except BuildError Linked) := do
  settings.say .debug ("Compiling shader program for: " ++ key.description)
  match Source.generate key with
  | .error e => return .error e
  | .ok parts =>
      match ← assemble settings parts with
      | .error e => return .error e
      | .ok p => return .ok ⟨p, ← locate p⟩

end Build

end GlPrograms
