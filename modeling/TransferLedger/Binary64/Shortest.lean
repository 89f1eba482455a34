import TransferLedger.Binary64.Basic

/-!
The fewest decimal digits that read back as a given binary number, and of those digit strings the
nearest to it. For one digit, two digits and so on the two neighbours of the number on that decimal
grid are tried; the first grid with a neighbour that rounds to the number wins.
-/
namespace TransferLedger
set_option autoImplicit false

/-- A positive decimal `digits · 10^exponent`. -/
structure DecimalDigits where
  digits : Nat
  exponent : Int
deriving DecidableEq, Repr

namespace DecimalDigits

/-- The same value without zeros at the end of the digits. -/
def stripZeros : Nat → DecimalDigits → DecimalDigits
  | 0, d => d
  | fuel + 1, d =>
    if d.digits ≠ 0 ∧ d.digits % 10 = 0 then stripZeros fuel ⟨d.digits / 10, d.exponent + 1⟩ else d

def length (d : DecimalDigits) : Nat := (Nat.toDigits 10 d.digits).length

def leading (d : DecimalDigits) : Int := d.exponent + d.length - 1

end DecimalDigits

namespace Binary64

/-- The power of ten of the first decimal digit of `num / den`, both positive. -/
def leadingPower (num den : Nat) : Int :=
  if den ≤ num then ((Nat.toDigits 10 (num / den)).length : Int) - 1
  else
    let k := (Nat.toDigits 10 (den / num)).length
    if den = num * Nat.pow 10 (k - 1) then -((k : Int) - 1) else -(k : Int)

/-- The numbers that round to `mantissa · 2^exponent`: a lower end, the number and an upper end, all
three over one denominator. The ends belong to them if the mantissa is even. -/
def neighbourhood (mantissa : Nat) (exponent : Int) : Nat × Nat × Nat × Nat :=
  let below := if mantissa = 4503599627370496 ∧ minExponent < exponent then 1 else 2
  let q := exponent - 2
  let scale := if 0 ≤ q then Nat.pow 2 q.toNat else 1
  let den := if 0 ≤ q then 1 else Nat.pow 2 (-q).toNat
  ((4 * mantissa - below) * scale, 4 * mantissa * scale, (4 * mantissa + 2) * scale, den)

/-- The best of the two neighbours on the grid of multiples of `10^k`, if one rounds to the number. -/
def onGrid? (mantissa : Nat) (k : Int) (hood : Nat × Nat × Nat × Nat) :
    Option DecimalDigits :=
  let (low, mid, high, den) := hood
  -- all three ends in units of the grid, over one denominator
  let unit := if 0 ≤ k then den * Nat.pow 10 k.toNat else den
  let up := if 0 ≤ k then 1 else Nat.pow 10 (-k).toNat
  let inside (c : Nat) : Bool :=
    if mantissa % 2 = 0 then low * up ≤ c * unit && c * unit ≤ high * up
    else low * up < c * unit && c * unit < high * up
  let floor := mid * up / unit
  let rest := mid * up - floor * unit
  let lower := if inside floor && floor != 0 then some floor else none
  let upper := if inside (floor + 1) then some (floor + 1) else none
  let best := match lower, upper with
    | none, u => u
    | l, none => l
    | some l, some u =>
      if 2 * rest < unit then some l
      else if unit < 2 * rest then some u
      else if l % 2 = 0 then some l else some u
  best.map fun c => ⟨c, k⟩

/-- The search from a grid of few digits to finer ones. -/
def searchGrids (mantissa : Nat) (hood : Nat × Nat × Nat × Nat) (top : Int) :
    Nat → Nat → DecimalDigits
  | 0, _ => ⟨mantissa, 0⟩
  | fuel + 1, digits =>
    match onGrid? mantissa (top - digits) hood with
    | some d => d
    | none => searchGrids mantissa hood top fuel (digits + 1)

/-- The shortest digits of the positive number `mantissa · 2^exponent`. -/
def shortest (mantissa : Nat) (exponent : Int) : DecimalDigits :=
  let hood := neighbourhood mantissa exponent
  let top := leadingPower hood.2.1 hood.2.2.2
  (searchGrids mantissa hood top 18 0).stripZeros 20

end Binary64

end TransferLedger
