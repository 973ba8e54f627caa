import GlPrograms.Text.Field

namespace GlPrograms.Text

def lineLabel (k : Nat) : List Char := rightAligned 6 k ++ [':', ' ']

structure Numbering where
  next : Nat := 1
  atStart : Bool := true

namespace Numbering

/-- The label is due before the first character of a line, so nothing follows a final line feed. -/
def label (n : Numbering) : List Char := if n.atStart then lineLabel n.next else []

def after (n : Numbering) (c : Char) : Numbering :=
  ⟨if n.atStart then n.next + 1 else n.next, c = '\n'⟩

def write (n : Numbering) : List Char → List Char
  | [] => []
  | c :: cs => n.label ++ c :: (n.after c).write cs

def advance (n : Numbering) : List Char → Numbering
  | [] => n
  | c :: cs => (n.after c).advance cs

/-- A line that one part leaves open goes on in the next part. -/
def writeParts (n : Numbering) : List (List Char) → List Char
  | [] => []
  | part :: parts => n.write part ++ (n.advance part).writeParts parts

end Numbering

def numbered (parts : List String) : String :=
  String.ofList (Numbering.writeParts {} (parts.map String.toList))

end GlPrograms.Text
