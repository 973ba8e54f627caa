import GlPrograms.Text.Field

namespace GlPrograms

/-- The quotient to the nearest whole number, and to the even one if two are equally near. -/
def roundDiv (num den : Nat) : Nat :=
  let q := num / den
  let r := num % den
  if 2 * r < den then q else if den < 2 * r then q + 1 else q + q % 2

/-- The number `significand * 2 ^ exponent`. -/
structure Binary64 where
  significand : Nat
  exponent : Int
deriving DecidableEq

namespace Binary64

def num (x : Binary64) : Nat := x.significand * Nat.pow 2 x.exponent.toNat

def den (x : Binary64) : Nat := Nat.pow 2 (-x.exponent).toNat

def zero : Binary64 := ⟨0, 0⟩

def reaches (num den : Nat) (e : Int) : Bool :=
  den * Nat.pow 2 e.toNat ≤ num * Nat.pow 2 (-e).toNat

/-- The exponent of the largest power of two that is at most `num / den`. -/
def magnitude (num den : Nat) : Int :=
  let guess : Int := (num.log2 : Int) - (den.log2 : Int)
  if reaches num den guess then guess else guess - 1

/-- The nearest number of 53 significant bits to `num / den`, and the one with the even
significand if two are equally near. The exponent is not bounded. -/
def ofRatio (num den : Nat) : Binary64 :=
  if num = 0 then zero
  else
    let e := magnitude num den - 52
    ⟨roundDiv (num * Nat.pow 2 (-e).toNat) (den * Nat.pow 2 e.toNat), e⟩

def add (x y : Binary64) : Binary64 :=
  ofRatio (x.num * y.den + y.num * x.den) (x.den * y.den)

/-- The interchange format of a rounded number: the biased exponent above the 52 bits that
follow the leading one. A significand that was rounded up to `2 ^ 53` moves to the next exponent. -/
def bits (x : Binary64) : UInt64 :=
  if x.significand = 0 then 0
  else
    let carry : Nat := x.significand / Nat.pow 2 53
    let fraction : Nat := x.significand / Nat.pow 2 carry - Nat.pow 2 52
    let biased := (x.exponent + carry + 1075).toNat
    UInt64.ofNat (biased * Nat.pow 2 52 + fraction)

def tenths (x : Binary64) : Nat := roundDiv (10 * x.num) x.den

def oneDecimal (x : Binary64) : List Char :=
  Text.decimal (x.tenths / 10) ++ '.' :: Text.decimal (x.tenths % 10)

/-- Below one the zero comes together with the point, and otherwise the point comes alone. -/
def oneDecimalPieces (x : Binary64) : List (List Char) :=
  if x.tenths < 10 then [['0', '.'], Text.decimal (x.tenths % 10)]
  else [Text.decimal (x.tenths / 10), ['.'], Text.decimal (x.tenths % 10)]

theorem flatten_oneDecimalPieces (x : Binary64) : x.oneDecimalPieces.flatten = x.oneDecimal := by
  unfold oneDecimalPieces oneDecimal
  split
  · next h =>
    have hd : Text.decimal (x.tenths / 10) = ['0'] := by
      rw [Nat.div_eq_of_lt h]
      rfl
    simp [hd]
  · simp

end Binary64

end GlPrograms
