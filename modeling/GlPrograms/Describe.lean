import GlPrograms.Cache.Basic

namespace GlPrograms

structure HandleStyle where
  program : UInt32 → String
  location : Int → String

namespace HandleStyle

def number : HandleStyle := ⟨toString, toString⟩

def tagged : HandleStyle where
  program n := "NativeProgram(" ++ toString n ++ ")"
  location n := "NativeUniformLocation(" ++ toString n ++ ")"

end HandleStyle

def describeRecord (name : String) (fields : List (String × String)) : String :=
  name ++ " \x7b "
    ++ ", ".intercalate (fields.map fun (field, value) => field ++ ": " ++ value) ++ " \x7d"

def PixelSource.describe : PixelSource → String
  | noTexture => "None"
  | rgbx => "Rgbx"
  | rgba => "Rgba"
  | yuvThreePlanes => "PlanarYuv3Plane"
  | yuvTwoPlanes => "PlanarYuv2Plane"
  | yuyvPacked => "PackedYuyv"
  | xyuvPacked => "PackedXyuv"
  | solid => "Solid"
  | external => "External"

def Key.describe (k : Key) : String :=
  describeRecord "ShaderRequirements" [
    ("variant", k.source.describe),
    ("green_tint", toString k.tinted)]

def HandleStyle.optional (style : HandleStyle) : Option Location → String
  | none => "None"
  | some location => "Some(" ++ style.location location ++ ")"

def Locations.describe (style : HandleStyle) (l : Locations) : String :=
  describeRecord "UniformTable" [
    ("projection", style.optional l.projection),
    ("textures", "[" ++ ", ".intercalate (l.samplers.toList.map style.optional) ++ "]"),
    ("alpha", style.optional l.alpha),
    ("color", style.optional l.color)]

/-- The time of the last use is not spelled out. -/
def Entry.describe (style : HandleStyle) (e : Entry) : String :=
  describeRecord "CompiledProgram" [
    ("requirements", e.key.describe),
    ("program", style.program e.program.name),
    ("uniforms", e.locations.describe style),
    ("last_used", "<T>")]

end GlPrograms
