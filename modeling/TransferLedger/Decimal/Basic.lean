/-!
Exact decimals: a signed mantissa below 2^96 and a scale from 0 to 28 standing for
`mantissa · 10^-scale`. The scale is part of a decimal (`1.5` and `1.50` are different decimals of
one value), a zero has no sign, and the written form shows exactly `scale` digits after the point.
-/
namespace TransferLedger
set_option autoImplicit false

/-- `mantissa · 10^-scale`. -/
structure Decimal where
  mantissa : Int
  scale : Nat
  mantissa_lt : mantissa.natAbs < 79228162514264337593543950336
  scale_le : scale ≤ 28
deriving DecidableEq, Repr

namespace Decimal

/-- Every mantissa is below this bound, 2^96. -/
def bound : Nat := 79228162514264337593543950336

def maxScale : Nat := 28

/-- The decimal with these parts, if they are in range. -/
def ofParts? (mantissa : Int) (scale : Nat) : Option Decimal :=
  if h : mantissa.natAbs < 79228162514264337593543950336 ∧ scale ≤ 28 then
    some ⟨mantissa, scale, h.1, h.2⟩
  else none

def zero : Decimal := ⟨0, 0, by decide, by decide⟩

instance : Inhabited Decimal := ⟨zero⟩

def isZero (d : Decimal) : Bool := d.mantissa == 0

def isNegative (d : Decimal) : Bool := d.mantissa < 0

def isPositive (d : Decimal) : Bool := 0 < d.mantissa

/-! ## Order by value -/

/-- Order by value, whatever the scales: both mantissas are brought to the sum of the scales. -/
def cmp (a b : Decimal) : Ordering :=
  compare (a.mantissa * Int.pow 10 b.scale) (b.mantissa * Int.pow 10 a.scale)

/-- `a` has a smaller value than `b`. -/
def below (a b : Decimal) : Bool := a.mantissa * Int.pow 10 b.scale < b.mantissa * Int.pow 10 a.scale

/-- `a` and `b` have the same value. -/
def sameValue (a b : Decimal) : Bool := a.mantissa * Int.pow 10 b.scale == b.mantissa * Int.pow 10 a.scale

/-! ## Written form -/

/-- The digits of a number, with zeros in front up to a least width. -/
def paddedDigits (width n : Nat) : List Char :=
  let ds := Nat.toDigits 10 n
  List.replicate (width - ds.length) '0' ++ ds

/-- The written form as characters: sign, whole part, and `scale` fraction digits if any. -/
def chars (d : Decimal) : List Char :=
  let n := d.mantissa.natAbs
  (if d.mantissa < 0 then ['-'] else [])
    ++ Nat.toDigits 10 (n / Nat.pow 10 d.scale)
    ++ (if d.scale = 0 then [] else '.' :: paddedDigits d.scale (n % Nat.pow 10 d.scale))

def text (d : Decimal) : String := String.ofList d.chars

instance : ToString Decimal := ⟨text⟩

end Decimal

end TransferLedger
