import GlPrograms.Cache.Request

namespace GlPrograms

structure Renderer where
  cache : Cache
deriving DecidableEq

namespace Renderer

def create (settings : Settings) : Action Gl Renderer := do
  settings.say .info
    ("Registered diagnostics scope '" ++ settings.scopeName ++ "': "
      ++ Text.trimEnd settings.scopeDescription)
  return ⟨Cache.empty settings⟩

def program (r : Renderer) (key : Key) (now : Instant) :
    Action Gl (Except BuildError Entry × Renderer) := do
  let (result, cache) ← r.cache.lookup key now
  return (result, ⟨cache⟩)

def draw (r : Renderer) (d : Draw) (now : Instant) :
    Action Gl (Except BuildError Unit × Renderer) := do
  let (result, cache) ← r.cache.lookup d.key now
  match result with
  | .error e => return (.error e, ⟨cache⟩)
  | .ok entry =>
      Gl.tell (.useProgram entry.program)
      Gl.tellAll (entry.locations.uploads d)
      return (.ok (), ⟨cache⟩)

def destroy (r : Renderer) (key : Key) : Action Gl (Bool × Renderer) := do
  let (found, cache) ← r.cache.destroy key
  return (found, ⟨cache⟩)

def teardown (r : Renderer) : Action Gl Renderer := do
  let cache ← r.cache.destroyAll
  return ⟨cache⟩

/-- The end of a renderer deletes every program, so the cache that goes with it is empty. -/
def close (r : Renderer) : Action Gl Unit := do
  let r ← r.teardown
  r.cache.abandon

inductive Request where
  | program (key : Key) (now : Instant)
  | draw (d : Draw) (now : Instant)
  | destroy (key : Key)
  | teardown
  | inspect (i : Inspection)
deriving DecidableEq

def perform (r : Renderer) (listener : Listener) : Request → Action Gl (Reply × Renderer)
  | .program key now => do
      let (result, r) ← r.program key now
      return (.program result, r)
  | .draw d now => do
      let (result, r) ← r.draw d now
      return (.drawn result, r)
  | .destroy key => do
      let (found, r) ← r.destroy key
      return (.flag found, r)
  | .teardown => do
      let r ← r.teardown
      return (.nothing, r)
  | .inspect i => do
      let reply ← r.cache.inspect listener i
      return (reply, r)

end Renderer

end GlPrograms
