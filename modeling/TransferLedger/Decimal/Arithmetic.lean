import TransferLedger.Decimal.Basic

/-!
Addition, subtraction and sums of decimals. A zero operand hands back the other operand with its
own scale. Otherwise the result is exact at the larger of the two scales; only if its mantissa does
not fit is the scale lowered, to the largest that fits, rounding once with ties to even. Where not
even scale zero fits there is no result.
-/
namespace TransferLedger
set_option autoImplicit false

/-- The operation whose result does not fit into a decimal. -/
inductive Overflow
  | addition
  | subtraction
deriving DecidableEq, Repr

/-- What is reported when an operation overflows. -/
def Overflow.message : Overflow → String
  | .addition => "Addition overflowed"
  | .subtraction => "Subtraction overflowed"

namespace Decimal

/-- The quotient nearest to `n / d`; halfway between two, the even one. -/
def roundHalfEven (n d : Nat) : Nat :=
  let q := n / d
  let r := n % d
  if 2 * r < d then q
  else if d < 2 * r then q + 1
  else q + q % 2

/-- `m / 10^dropped` to the nearest integer, ties to even, with the sign of `m`. -/
def dropDigits (m : Int) (dropped : Nat) : Int :=
  if m < 0 then -(roundHalfEven m.natAbs (Nat.pow 10 dropped) : Int)
  else roundHalfEven m.natAbs (Nat.pow 10 dropped)

/-- `m · 10^-s` at the largest scale not above `t` at which it fits. -/
def fit? (m : Int) (s : Nat) : Nat → Option Decimal
  | 0 => ofParts? (dropDigits m s) 0
  | t + 1 =>
    match ofParts? (dropDigits m (s - (t + 1))) (t + 1) with
    | some d => some d
    | none => fit? m s t

/-- The opposite, at the same scale. -/
def neg (d : Decimal) : Decimal :=
  ⟨-d.mantissa, d.scale, by rw [Int.natAbs_neg]; exact d.mantissa_lt, d.scale_le⟩

/-- The sum, if there is one. -/
def add? (a b : Decimal) : Option Decimal :=
  if a.mantissa = 0 then some b
  else if b.mantissa = 0 then some a
  else
    let s := max a.scale b.scale
    fit? (a.mantissa * Int.pow 10 (s - a.scale) + b.mantissa * Int.pow 10 (s - b.scale)) s s

/-- The difference, if there is one. -/
def sub? (a b : Decimal) : Option Decimal :=
  if a.mantissa = 0 then some b.neg
  else if b.mantissa = 0 then some a
  else
    let s := max a.scale b.scale
    fit? (a.mantissa * Int.pow 10 (s - a.scale) - b.mantissa * Int.pow 10 (s - b.scale)) s s

/-- The sum, or the report that it does not fit. -/
def add (a b : Decimal) : Except Overflow Decimal :=
  match a.add? b with
  | some d => .ok d
  | none => .error .addition

/-- The difference, or the report that it does not fit. -/
def sub (a b : Decimal) : Except Overflow Decimal :=
  match a.sub? b with
  | some d => .ok d
  | none => .error .subtraction

/-- The sum of a list, added from zero in the order of the list. -/
def sum (ds : List Decimal) : Except Overflow Decimal :=
  ds.foldlM add zero

end Decimal

end TransferLedger
