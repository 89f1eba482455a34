import TransferLedger.Binary64.Shortest

/-!
The two written forms of a binary number: positional for every size, as a decimal is read from it,
and the form of error messages, which turns to powers of ten for very small and very large numbers
and marks whole numbers by `.0`.
-/
namespace TransferLedger
set_option autoImplicit false

namespace DecimalDigits

/-- The digits with the point in its place, without a fraction if there is none. -/
def positional (d : DecimalDigits) : List Char :=
  let ds := Nat.toDigits 10 d.digits
  if 0 ≤ d.exponent then ds ++ List.replicate d.exponent.toNat '0'
  else
    let k := (-d.exponent).toNat
    if k < ds.length then ds.take (ds.length - k) ++ '.' :: ds.drop (ds.length - k)
    else ['0', '.'] ++ List.replicate (k - ds.length) '0' ++ ds

/-- One digit before the point, a signed exponent of at least two digits. -/
def exponential (d : DecimalDigits) : List Char :=
  let ds := Nat.toDigits 10 d.digits
  let e := d.leading
  ds.take 1 ++ (if ds.length = 1 then [] else '.' :: ds.drop 1)
    ++ ['e', if e < 0 then '-' else '+'] ++ Decimal.paddedDigits 2 e.natAbs

end DecimalDigits

namespace Binary64

/-- How numbers are shown in messages: positional for first digits between these powers of ten. -/
structure MessageForm where
  least : Int
  greatest : Int

/-- Messages write positionally from `0.00001` to sixteen digits before the point. -/
def messageForm : MessageForm := ⟨-5, 15⟩

def signChars (negative : Bool) : List Char := if negative then ['-'] else []

/-- Positional notation of any size, without `.0`. -/
def plainChars : Binary64 → List Char
  | .nan => "NaN".toList
  | .infinite s => signChars s ++ "inf".toList
  | .finite s m q => signChars s ++ (if m = 0 then ['0'] else (shortest m q).positional)

def messageText : Binary64 → String
  | .nan => "NaN"
  | .infinite s => String.ofList (signChars s ++ "inf".toList)
  | .finite s m q =>
    String.ofList <| signChars s ++
      if m = 0 then "0.0".toList
      else
        let d := shortest m q
        if messageForm.least ≤ d.leading ∧ d.leading ≤ messageForm.greatest then
          d.positional ++ (if 0 ≤ d.exponent then ['.', '0'] else [])
        else d.exponential

end Binary64

end TransferLedger
