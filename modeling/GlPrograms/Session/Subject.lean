import GlPrograms.Renderer
import GlPrograms.Session.Clock

namespace GlPrograms.Session

structure Subject where
  State : Type
  Job : Type
  start : Settings → Action Gl State
  perform : Listener → Job → State → Action Gl (Reply × State)
  stop : State → Action Gl Unit
  cache : State → Cache
  /-- What a transcript shows of the reply to a job that found this state. -/
  shows : State → Job → Reply → Reply

inductive CacheJob where
  | request (r : Cache.Request)
  /-- One look-up a second, of which the last result counts. -/
  | series (key : Key) (start : Instant) (count : Nat)
  /-- A build beside the cache. -/
  | build (key : Key) (now : Instant)

namespace CacheJob

def lookUpEachSecond (key : Key) (c : Cache) (reply : Reply) :
    Instant → Nat → Action Gl (Reply × Cache)
  | _, 0 => return (reply, c)
  | now, count + 1 => do
      let (result, c) ← c.lookup key now
      lookUpEachSecond key c (.program result) (now.plus (.ofParts 1 0)) count

/-- The program of the build is left to the GL. -/
def buildBeside (c : Cache) (key : Key) (now : Instant) : Action Gl Reply := do
  match ← Build.build c.settings key with
  | .error e => return .program (.error e)
  | .ok linked => return .program (.ok ⟨key, linked.program, linked.locations, now⟩)

def perform (listener : Listener) (job : CacheJob) (c : Cache) : Action Gl (Reply × Cache) :=
  match job with
  | .request asked => c.perform listener asked
  | .series key start count => lookUpEachSecond key c .nothing start count
  | .build key now => do
      let reply ← buildBeside c key now
      return (reply, c)

def shows (c : Cache) : CacheJob → Reply → Reply
  | .request (.inspect i), reply => hideAges c i reply
  | _, reply => reply

end CacheJob

abbrev ofCache : Subject where
  State := Cache
  Job := CacheJob
  start settings := return .empty settings
  perform := CacheJob.perform
  stop := Cache.abandon
  cache := id
  shows := CacheJob.shows

inductive RendererJob where
  | request (r : Renderer.Request)
  | programId (key : Key)
  /-- A report some time after the last use of a key. -/
  | reportAfter (key : Key) (delay : Duration)

namespace RendererJob

def askProgramId (c : Cache) (key : Key) : Action Gl Reply :=
  match c.get? key with
  | none => return .id none
  | some e => do
      let id ← Gl.programId e.program
      return .id (some id)

def reportByKey (c : Cache) (key : Key) (delay : Duration) : Action Gl Reply := do
  let now := (c.get? key).elim clock (·.lastUsed.plus delay)
  let s ← c.writeReport now {}
  return .report (some s.text)

def perform (listener : Listener) (job : RendererJob) (r : Renderer) :
    Action Gl (Reply × Renderer) :=
  match job with
  | .request asked => r.perform listener asked
  | .programId key => do
      let reply ← askProgramId r.cache key
      return (reply, r)
  | .reportAfter key delay => do
      let reply ← reportByKey r.cache key delay
      return (reply, r)

/-- In a report that is timed by a key, only the age of that key does not hang on the clock. -/
def shows (r : Renderer) : RendererJob → Reply → Reply
  | .request (.inspect i), reply => hideAges r.cache i reply
  | .reportAfter key _, .report (some text) =>
      if r.cache.contains key then
        let others (i : Nat) : Bool := r.cache.entries[i]?.any (·.key ≠ key)
        .report (some (Transcript.blankAges others text))
      else .report (some text)
  | _, reply => reply

end RendererJob

abbrev ofRenderer : Subject where
  State := Renderer
  Job := RendererJob
  start := Renderer.create
  perform := RendererJob.perform
  stop := Renderer.close
  cache := Renderer.cache
  shows := RendererJob.shows

end GlPrograms.Session
