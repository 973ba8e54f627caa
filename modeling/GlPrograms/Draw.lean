import GlPrograms.Gl
import GlPrograms.Key

namespace GlPrograms

/-- The uniform locations of a linked program. A driver leaves out what the program does not
read. -/
structure Locations where
  projection : Option Location := none
  samplers : Vector (Option Location) 3 := #v[none, none, none]
  alpha : Option Location := none
  color : Option Location := none
deriving DecidableEq

structure Draw where
  key : Key
  /-- By columns. -/
  projection : Vector Single 16
  alpha : Single
  /-- The fill colour of a solid surface. -/
  color : Vector Single 4
deriving DecidableEq

namespace Draw

def zero : Single := ⟨0⟩

def one : Single := ⟨0x3F800000⟩

def ofKey (key : Key) : Draw where
  key := key
  projection := #v[
    one, zero, zero, zero,
    zero, one, zero, zero,
    zero, zero, one, zero,
    zero, zero, zero, one]
  alpha := one
  color := #v[zero, zero, zero, zero]

end Draw

namespace Locations

def toList (l : Locations) : List (Option Location) :=
  l.projection :: l.samplers.toList ++ [l.alpha, l.color]

def resolved (l : Locations) : Nat := l.toList.countP Option.isSome

/-- Sampler `i` reads texture unit `i`, whichever samplers there are. -/
def samplerUploads (l : Locations) : List Gl.Command :=
  l.samplers.toList.zipIdx.filterMap fun (location, unit) => location.map (.setSampler · unit)

def uploads (l : Locations) (d : Draw) : List Gl.Command :=
  (l.projection.map (.setMatrix · d.projection)).toList
    ++ l.samplerUploads
    ++ (l.alpha.map (.setFloat · d.alpha)).toList
    ++ (l.color.map (.setVector · d.color)).toList

end Locations

end GlPrograms
