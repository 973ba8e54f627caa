import GlPrograms.Gl

namespace GlPrograms

structure Settings where
  /-- The name of the diagnostics scope, which is the target of every record. -/
  scopeName : String := "gl-shader-generator"
  scopeDescription : String := "GL renderer shader compilation and cache."
  dumpRejected : Bool := true
  /-- How many bytes of a driver's log are kept. -/
  logLimit : Nat := 512
  /-- How many entries to reserve room for. It changes no answer. -/
  initialCapacity : Nat := 18
deriving DecidableEq

def Settings.say (s : Settings) (severity : Severity) (message : String) : Action Gl Unit :=
  .write severity s.scopeName message

@[simp] theorem Settings.say_bind {α : Type} (s : Settings) (severity : Severity) (message : String)
    (f : Unit → Action Gl α) :
    s.say severity message >>= f = .log ⟨severity, s.scopeName, message⟩ (f ()) := rfl

end GlPrograms
