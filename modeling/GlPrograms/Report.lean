import GlPrograms.Cache.Basic
import GlPrograms.Source.Templates

namespace GlPrograms

/-- A writer with room for a number of bytes, or for any number. It takes a piece whole or refuses
it, and takes nothing after that. -/
structure Sink where
  limit : Option Nat := none
  text : String := ""
  refused : Bool := false
deriving DecidableEq

namespace Sink

def fits (s : Sink) (piece : String) : Bool :=
  match s.limit with
  | none => true
  | some limit => s.text.utf8ByteSize + piece.utf8ByteSize ≤ limit

def write (s : Sink) (piece : String) : Sink :=
  if s.refused then s
  else if s.fits piece then { s with text := s.text ++ piece }
  else { s with refused := true }

def writeAll (s : Sink) (pieces : List String) : Sink := pieces.foldl write s

end Sink

namespace Report

def bar : String :=
  "-----------------------------------------------------------------------------"

def preamble : String :=
  "Vertex shader body:\n" ++ bar ++ "\n" ++ Source.vertexTemplate
    ++ "\nFragment shader body:\n" ++ bar ++ "\n" ++ Source.fragmentTemplate ++ "\n" ++ bar ++ "\n"

def preamblePieces : List String := [
  "Vertex shader body:\n", bar, "\n", Source.vertexTemplate, "\nFragment shader body:\n", bar, "\n",
  Source.fragmentTemplate, "\n", bar, "\n"]

def title : String := "Cached GLSL programs:\n"

def columns : String := "    id: (used secs ago) description +/-flags\n"

def line (id : UInt32) (age : Binary64) (key : Key) : String :=
  String.ofList (Text.rightAligned 6 id.toNat ++ [':', ' ', '('] ++ age.oneDecimal ++ [')', ' '])
    ++ key.description ++ "\n"

/-- Every space in front of a short number is a piece, and so is every part of the age and the
key. -/
def linePieces (id : UInt32) (age : Binary64) (key : Key) : List String :=
  List.replicate (6 - (Text.decimal id.toNat).length) " "
    ++ String.ofList (Text.decimal id.toNat) :: ": (" :: age.oneDecimalPieces.map String.ofList
    ++ ") " :: key.descriptionPieces ++ ["\n"]

def total (count : Nat) : String :=
  "Total: " ++ String.ofList (Text.decimal count) ++ " programs.\n"

def totalPieces (count : Nat) : List String :=
  ["Total: ", String.ofList (Text.decimal count), " programs.\n"]

theorem join_preamblePieces : String.join preamblePieces = preamble := by
  unfold preamblePieces preamble
  -- The templates stay closed: equal texts are not to be compared by spelling them out.
  generalize Source.vertexTemplate = vertex, Source.fragmentTemplate = fragment
  simp only [String.join_cons, String.join_nil, String.append_assoc, String.append_empty]

theorem join_linePieces (id : UInt32) (age : Binary64) (key : Key) :
    String.join (linePieces id age key) = line id age key := by
  have hspaces (n : Nat) : (List.replicate n " ").flatMap String.toList = List.replicate n ' ' := by
    induction n with
    | zero => rfl
    | succ n ih =>
      rw [List.replicate_succ, List.flatMap_cons, ih]
      rfl
  have hage : (age.oneDecimalPieces.map String.ofList).flatMap String.toList = age.oneDecimal := by
    rw [← Binary64.flatten_oneDecimalPieces, List.flatMap_map, List.flatten_eq_flatMap]
    simp
  have hkey : key.descriptionPieces.flatMap String.toList = key.description.toList := by
    rw [← Key.join_descriptionPieces, String.toList_join]
  apply String.toList_injective
  rw [String.toList_join]
  simp [linePieces, line, hspaces, hage, hkey, Text.rightAligned, List.leftpad]

theorem join_totalPieces (count : Nat) : String.join (totalPieces count) = total count := by
  simp [totalPieces, total, String.join_cons, String.append_assoc]

/-- Writes the lines and counts them. The number of a program is asked for when its line is due,
which is never after a refusal. -/
def writeEntries (now : Instant) : List Entry → Nat → Sink → Action Gl (Nat × Sink)
  | [], count, s => return (count, s)
  | e :: es, count, s =>
      if s.refused then return (count, s)
      else do
        let id ← Gl.programId e.program
        writeEntries now es (count + 1) (s.writeAll (linePieces id (e.lastUsed.age now) e.key))

end Report

namespace Cache

def writeReport (c : Cache) (now : Instant) (s : Sink) : Action Gl Sink := do
  let heading := (s.writeAll Report.preamblePieces).write (Report.title ++ Report.columns)
  let (count, s) ← Report.writeEntries now c.entries 0 heading
  return s.writeAll (Report.totalPieces count)

def logReport (c : Cache) (listener : Listener) (now : Instant) : Action Gl Unit :=
  if listener.hears .debug c.settings.scopeName then do
    let s ← c.writeReport now {}
    c.settings.say .debug (c.settings.scopeDescription ++ "\n" ++ s.text)
  else return

end Cache

end GlPrograms
