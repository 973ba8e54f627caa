namespace GlPrograms.Text

def decimal (n : Nat) : List Char := Nat.toDigits 10 n

/-- The decimal digits of a number, after as many spaces as the column needs. A number wider
than the column keeps all its digits. -/
def rightAligned (width n : Nat) : List Char := (decimal n).leftpad width ' '

end GlPrograms.Text
