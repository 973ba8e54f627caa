import GlPrograms.Action.Run
import GlPrograms.Scripted.Device

namespace GlPrograms

/-- A place from which a GL is watched: what each call of the cache does there, and what is
answered. -/
structure Vantage where
  interface : Interface
  lower : (c : Gl.Call) → Action interface (Gl.Answer c)
  answer : (c : interface.Call) → Device → interface.Answer c × Device

/-- What is beneath the calls of the cache: a binding, and the GL that it calls. -/
structure Platform where
  binding : Glow.Binding
  answer : (c : EntryPoint.Call) → Device → EntryPoint.Answer c × Device

structure Platform.Documented (p : Platform) : Prop where
  binding : p.binding.Documented
  gl : Device.Scripted p.answer

abbrev Platform.native : Platform := ⟨Glow.native, Device.answerEntry⟩

theorem Platform.native_documented : native.Documented :=
  ⟨Glow.native_documented, Device.answerEntry_scripted⟩

namespace Vantage

abbrev calls : Vantage := ⟨Gl, Action.ask Gl, Device.answer⟩

abbrev beneath (p : Platform) : Vantage :=
  ⟨EntryPoints, fun c => (Glow.lower c).translate p.binding, p.answer⟩

abbrev entryPoints : Vantage := beneath .native

variable {α β : Type}

def run (v : Vantage) (action : Action Gl α) (d : Device) : α × List (Event v.interface) × Device :=
  (action.translate v.lower).run v.answer d

theorem run_pure (v : Vantage) (a : α) (d : Device) : v.run (pure a) d = (a, [], d) := rfl

theorem run_bind (v : Vantage) (action : Action Gl α) (f : α → Action Gl β) (d : Device) :
    v.run (action >>= f) d =
      let (a, first, d) := v.run action d
      let (b, rest, d) := v.run (f a) d
      (b, first ++ rest, d) := by
  simp only [run, Action.translate_bind, Action.run_bind]

end Vantage

end GlPrograms
