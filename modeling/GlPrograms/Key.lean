namespace GlPrograms

inductive PixelSource where
  | noTexture
  | rgbx
  | rgba
  | yuvThreePlanes
  | yuvTwoPlanes
  | yuyvPacked
  | xyuvPacked
  | solid
  | external
deriving DecidableEq, Ord

namespace PixelSource

def all : List PixelSource :=
  [noTexture, rgbx, rgba, yuvThreePlanes, yuvTwoPlanes, yuyvPacked, xyuvPacked, solid, external]

def symbol : PixelSource → String
  | noTexture => "SHADER_VARIANT_NONE"
  | rgbx => "SHADER_VARIANT_RGBX"
  | rgba => "SHADER_VARIANT_RGBA"
  | yuvThreePlanes => "SHADER_VARIANT_Y_U_V"
  | yuvTwoPlanes => "SHADER_VARIANT_Y_UV"
  | yuyvPacked => "SHADER_VARIANT_Y_XUXV"
  | xyuvPacked => "SHADER_VARIANT_XYUV"
  | solid => "SHADER_VARIANT_SOLID"
  | external => "SHADER_VARIANT_EXTERNAL"

def samplerCount : PixelSource → Nat
  | noTexture | solid => 0
  | rgbx | rgba | xyuvPacked | external => 1
  | yuvTwoPlanes | yuyvPacked => 2
  | yuvThreePlanes => 3

end PixelSource

/-- Two draws share a program exactly when their keys are equal. -/
structure Key where
  source : PixelSource := .noTexture
  tinted : Bool := false
deriving DecidableEq, Ord

namespace Key

def all : List Key :=
  PixelSource.all.flatMap fun source => [⟨source, false⟩, ⟨source, true⟩]

def description (k : Key) : String :=
  k.source.symbol ++ (if k.tinted then " +green" else " -green")

def descriptionPieces (k : Key) : List String :=
  [k.source.symbol, " ", if k.tinted then "+" else "-", "green"]

/-- Keys are ordered by pixel source first. Equal keys keep their number. -/
def sort (keys : List Key) : List Key :=
  keys.mergeSort fun a b => (compare a b).isLE

def distinct (keys : List Key) : Nat := keys.eraseDups.length

theorem mem_all (k : Key) : k ∈ all := by
  rcases k with ⟨source, tinted⟩
  cases source <;> cases tinted <;> decide

theorem description_injective {a b : Key} (h : a.description = b.description) : a = b := by
  revert h
  rcases a with ⟨s, t⟩
  rcases b with ⟨s', t'⟩
  cases s <;> cases t <;> cases s' <;> cases t' <;> decide

theorem join_descriptionPieces (k : Key) : String.join k.descriptionPieces = k.description := by
  rcases k with ⟨source, tinted⟩
  cases source <;> cases tinted <;> decide

theorem newline_notMem_description (k : Key) : '\n' ∉ k.description.toList := by
  have hs : '\n' ∉ k.source.symbol.toList := by
    cases k.source <;> simp [PixelSource.symbol]
  have ht : '\n' ∉ (if k.tinted then " +green" else " -green").toList := by
    cases k.tinted <;> simp
  simp [description, hs, ht]

end Key

end GlPrograms
