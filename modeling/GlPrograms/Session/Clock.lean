import GlPrograms.Cache.Request
import GlPrograms.Transcript

namespace GlPrograms.Session

def epoch : Instant := ⟨1000000 * Duration.nanosPerSecond⟩

def clock : Instant := ⟨0⟩

def isReading (t : Instant) : Bool := t.nanos < epoch.nanos

def time (d : Duration) : Instant := epoch.plus d

/-- The time since the epoch, unless the clock was read. -/
def sinceEpoch? (t : Instant) : Option Duration :=
  if isReading t then none else some (t.since epoch)

def hidesAge (now : Instant) (entries : List Entry) (i : Nat) : Bool :=
  isReading now || entries[i]?.any (isReading ·.lastUsed)

def hideAges (c : Cache) : Inspection → Reply → Reply
  | .report now _, .report (some text) =>
      .report (some (Transcript.blankAges (hidesAge now c.entries) text))
  | _, reply => reply

/-- A logged report is always as of the clock. -/
def hideLoggedAges (r : Record) : Record :=
  { r with message := Transcript.blankAges (fun _ => true) r.message }

end GlPrograms.Session
