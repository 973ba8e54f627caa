namespace GlPrograms.Text

def dropTrailing (p : Char → Bool) (s : List Char) : List Char :=
  (s.reverse.dropWhile p).reverse

/-- The longest beginning of a text that takes at most `room` bytes in UTF-8. No character is
cut. -/
def takeBytes (room : Nat) : List Char → List Char
  | [] => []
  | c :: cs => if c.utf8Size ≤ room then c :: takeBytes (room - c.utf8Size) cs else []

/-- What drivers leave at the end of a log: line ends, spaces and the terminating zero. -/
def isFiller (c : Char) : Bool := c = '\n' || c = '\r' || c = '\x00' || c = ' '

def logExcerpt (limit : Nat) (log : String) : String :=
  String.ofList (dropTrailing isFiller (takeBytes limit log.toList))

def isBlank (c : Char) : Bool :=
  let n := c.toNat
  (0x9 ≤ n && n ≤ 0xD) || n = 0x20 || n = 0x85 || n = 0xA0 || n = 0x1680
    || (0x2000 ≤ n && n ≤ 0x200A) || n = 0x2028 || n = 0x2029 || n = 0x202F || n = 0x205F
    || n = 0x3000

def trimEnd (s : String) : String := String.ofList (dropTrailing isBlank s.toList)

end GlPrograms.Text
