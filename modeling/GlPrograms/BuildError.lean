import GlPrograms.Gl

namespace GlPrograms

inductive TextFault where
  | notPrimitive
  | notKey
  | invalidOperation
  | malformed
  | templateNotFound
  | tooManyArguments
  | missingArgument
  | unknownFilter
  | unknownTest
  | unknownFunction
  | unknownMethod
  | badEscape
  | undefinedValue
  | unserializable
  | badInclude
  | badBlock
  | cannotUnpack
  | writeFailed
deriving DecidableEq

def TextFault.text : TextFault → String
  | notPrimitive => "not a primitive"
  | notKey => "not a key type"
  | invalidOperation => "invalid operation"
  | malformed => "syntax error"
  | templateNotFound => "template not found"
  | tooManyArguments => "too many arguments"
  | missingArgument => "missing argument"
  | unknownFilter => "unknown filter"
  | unknownTest => "unknown test"
  | unknownFunction => "unknown function"
  | unknownMethod => "unknown method"
  | badEscape => "bad string escape"
  | undefinedValue => "undefined value"
  | unserializable => "could not serialize to value"
  | badInclude => "could not render include"
  | badBlock => "could not render block"
  | cannotUnpack => "cannot unpack"
  | writeFailed => "failed to write output"

inductive BuildError where
  | compile (stage : Stage) (log : String)
  | link (log : String)
  | allocation (what reason : String)
deriving DecidableEq

namespace BuildError

def noShader (reason : String) : BuildError := .allocation "shader object" reason

def noProgram (reason : String) : BuildError := .allocation "program object" reason

/-- A detail follows the fault after a colon, also when it is empty. -/
def noConfiguration (fault : TextFault) (detail : Option String) : BuildError :=
  .allocation "shader configuration" <|
    match detail with
    | none => fault.text
    | some detail => fault.text ++ ": " ++ detail

def message : BuildError → String
  | compile stage log => "Failed to compile " ++ stage.text ++ " shader: " ++ log
  | link log => "Failed to link shader program: " ++ log
  | allocation what reason => "Failed to allocate " ++ what ++ ": " ++ reason

end BuildError

end GlPrograms
