import GlPrograms.Build
import GlPrograms.Cache.Basic

namespace GlPrograms.Cache

/-- A hit freshens the entry and does nothing else. A miss builds the program; a failed build
leaves the cache as it was. -/
def lookup (c : Cache) (key : Key) (now : Instant) : Action Gl (Except BuildError Entry × Cache) :=
  match h : c.get? key with
  | some entry => return (.ok { entry with lastUsed := now }, c.touch key now)
  | none => do
      match ← Build.build c.settings key with
      | .error e => return (.error e, c)
      | .ok linked =>
          let entry : Entry := ⟨key, linked.program, linked.locations, now⟩
          return (.ok entry, c.insert entry h)

def release (settings : Settings) (e : Entry) : Action Gl Unit := do
  settings.say .debug ("Deleting shader program for: " ++ e.key.description)
  Gl.tell (.deleteProgram e.program)

def releaseAll (settings : Settings) : List Entry → Action Gl Unit
  | [] => return
  | e :: es => do
      release settings e
      releaseAll settings es

def destroy (c : Cache) (key : Key) : Action Gl (Bool × Cache) :=
  match c.get? key with
  | none => return (false, c)
  | some e => do
      release c.settings e
      return (true, c.erase key)

def destroyAll (c : Cache) : Action Gl Cache := do
  releaseAll c.settings c.entries
  return empty c.settings

/-- The end of a cache. It cannot delete programs on its own, so it warns of those it leaves
behind. -/
def abandon (c : Cache) : Action Gl Unit :=
  if c.entries.isEmpty then return
  else
    c.settings.say .warn
      ("ProgramCache dropped with " ++ toString c.size
        ++ " live programs; their GL objects are leaked")

end GlPrograms.Cache
