import GlPrograms.BuildError
import GlPrograms.Key
import GlPrograms.Source.Templates

namespace GlPrograms.Source

/-- The macro definitions that tell the fragment stage its key. -/
def configuration (k : Key) : String :=
  "#define DEF_GREEN_TINT " ++ (if k.tinted then "true" else "false") ++ "\n"
    ++ "#define DEF_VARIANT " ++ k.source.symbol ++ "\n"

def vertexParts : List String := [vertexTemplate]

/-- The pragma has to come first, and the template reads the macros of the configuration. -/
def fragmentParts (k : Key) : List String := [versionPragma, configuration k, fragmentTemplate]

def vertex : String := String.join vertexParts

/-- The engine is taken to write the template of the configuration out as it stands, since the
template is fixed and its two values are always given. -/
def render (k : Key) : Except (TextFault × Option String) String := .ok (configuration k)

def generate (k : Key) : Except BuildError (List String) :=
  match render k with
  | .error (fault, detail) => .error (.noConfiguration fault detail)
  | .ok configuration => .ok [versionPragma, configuration, fragmentTemplate]

def fragment (k : Key) : String := String.join (fragmentParts k)

end GlPrograms.Source
