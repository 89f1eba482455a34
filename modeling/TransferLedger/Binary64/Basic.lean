import TransferLedger.Decimal.Arithmetic

/-!
Binary floating-point numbers of 64 bits, computed exactly in integers and rounded once per
operation: to the nearest, ties to the even mantissa, beyond the largest number to infinity.
-/
namespace TransferLedger
set_option autoImplicit false

/-- A finite number is `mantissa · 2^exponent` with a mantissa below 2^53 and an exponent of at
least -1074; unless the exponent is the least one, the mantissa is at least 2^52. -/
inductive Binary64
  | nan
  | infinite (negative : Bool)
  | finite (negative : Bool) (mantissa : Nat) (exponent : Int)
deriving DecidableEq, Repr, Inhabited

namespace Binary64

def minExponent : Int := -1074

def maxExponent : Int := 971

def zero (negative : Bool) : Binary64 := .finite negative 0 minExponent

/-- The exponent of the leading binary digit of `num / den`, both positive. -/
def leadingExponent (num den : Nat) : Int :=
  let e : Int := (num.log2 : Int) - den.log2
  let atLeast := if 0 ≤ e then den * Nat.pow 2 e.toNat ≤ num else den ≤ num * Nat.pow 2 (-e).toNat
  if atLeast then e else e - 1

/-- The number nearest to `num / den`, with a sign. -/
def ofRatio (negative : Bool) (num den : Nat) : Binary64 :=
  if num = 0 then zero negative
  else
    let q := max (leadingExponent num den - 52) minExponent
    let m :=
      if 0 ≤ q then Decimal.roundHalfEven num (den * Nat.pow 2 q.toNat)
      else Decimal.roundHalfEven (num * Nat.pow 2 (-q).toNat) den
    let (m, q) := if m = 9007199254740992 then (4503599627370496, q + 1) else (m, q)
    if maxExponent < q then .infinite negative else .finite negative m q

/-- The number nearest to `num / den · 2^q`, with a sign. -/
def ofScaled (negative : Bool) (num den : Nat) (q : Int) : Binary64 :=
  if 0 ≤ q then ofRatio negative (num * Nat.pow 2 q.toNat) den
  else ofRatio negative num (den * Nat.pow 2 (-q).toNat)

def ofNat (n : Nat) : Binary64 := ofRatio false n 1

def neg : Binary64 → Binary64
  | .nan => .nan
  | .infinite s => .infinite !s
  | .finite s m q => .finite (!s) m q

def mul : Binary64 → Binary64 → Binary64
  | .nan, _ => .nan
  | _, .nan => .nan
  | .infinite s, .infinite t => .infinite (s != t)
  | .infinite s, .finite t m _ => if m = 0 then .nan else .infinite (s != t)
  | .finite s m _, .infinite t => if m = 0 then .nan else .infinite (s != t)
  | .finite s m q, .finite t n r => ofScaled (s != t) (m * n) 1 (q + r)

def div : Binary64 → Binary64 → Binary64
  | .nan, _ => .nan
  | _, .nan => .nan
  | .infinite _, .infinite _ => .nan
  | .infinite s, .finite t _ _ => .infinite (s != t)
  | .finite s _ _, .infinite t => zero (s != t)
  | .finite s m q, .finite t n r =>
    if n = 0 then (if m = 0 then .nan else .infinite (s != t))
    else ofScaled (s != t) m n (q - r)

def isInfinite : Binary64 → Bool
  | .infinite _ => true
  | _ => false

def isZero : Binary64 → Bool
  | .finite _ m _ => m == 0
  | _ => false

def isNegative : Binary64 → Bool
  | .nan => false
  | .infinite s => s
  | .finite s _ _ => s

/-! ## Powers -/

/-- Repeated squaring: the factors are taken from the lowest binary digit of the exponent up. -/
def powLoop (acc base : Binary64) (n : Nat) : Binary64 :=
  let acc := if n % 2 = 1 then acc.mul base else acc
  if n / 2 = 0 then acc else powLoop acc (base.mul base) (n / 2)
termination_by n
decreasing_by omega

/-- A power with an integer exponent; a negative one gives the reciprocal of the power. -/
def pow (base : Binary64) (e : Int) : Binary64 :=
  let r := powLoop (ofNat 1) base e.natAbs
  if e < 0 then (ofNat 1).div r else r

/-! ## Natural numbers from numbers -/

/-- The nearest natural number up to a limit, a half going up; below zero and for a number that is
none the answer is zero. -/
def toNatSaturating (limit : Nat) : Binary64 → Nat
  | .nan => 0
  | .infinite s => if s then 0 else limit
  | .finite s m q =>
    if s then 0
    else if 0 ≤ q then min limit (m * Nat.pow 2 q.toNat)
    else
      let d := Nat.pow 2 (-q).toNat
      min limit ((2 * m + d) / (2 * d))

end Binary64

end TransferLedger
