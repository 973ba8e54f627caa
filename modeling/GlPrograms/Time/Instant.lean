import GlPrograms.Time.Binary64

namespace GlPrograms

structure Duration where
  nanos : Nat
deriving DecidableEq

namespace Duration

def nanosPerSecond : Nat := 1000000000

def ofParts (seconds nanos : Nat) : Duration := ⟨seconds * nanosPerSecond + nanos⟩

def seconds (d : Duration) : Nat := d.nanos / nanosPerSecond

def subsecond (d : Duration) : Nat := d.nanos % nanosPerSecond

/-- Seconds as a rounded number: whole seconds and the fraction are rounded on their own, then
their sum is. -/
def toSeconds (d : Duration) : Binary64 :=
  (Binary64.ofRatio d.seconds 1).add (Binary64.ofRatio d.subsecond nanosPerSecond)

end Duration

/-- A reading of a clock that never runs backwards, in nanoseconds from its origin. -/
structure Instant where
  nanos : Nat
deriving DecidableEq

namespace Instant

def plus (t : Instant) (d : Duration) : Instant := ⟨t.nanos + d.nanos⟩

def since (t earlier : Instant) : Duration := ⟨t.nanos - earlier.nanos⟩

def age (used now : Instant) : Binary64 := (now.since used).toSeconds

end Instant

end GlPrograms
