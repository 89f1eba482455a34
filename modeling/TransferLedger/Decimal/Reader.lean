import TransferLedger.Decimal.Basic

/-!
Reading decimal text: an optional sign, digits with at most one point, underscores ignored after
the first digit, and an optional power of ten. Digits before the point that do not fit are an
error; digits after the point that do not fit are rounded away, a half going up.
-/
namespace TransferLedger
set_option autoImplicit false

/-- Why a text is not a decimal. -/
inductive DecimalError
  | empty
  | noDigits
  | twoPoints
  | leadingUnderscore
  | unknownCharacter
  | tooManyDigits
  | roundingOverflow
  | badExponent
  | exponentTooLarge (exponent : Nat)
  | tooLarge
deriving DecidableEq, Repr

def DecimalError.message : DecimalError → String
  | .empty => "Invalid decimal: empty"
  | .noDigits => "Invalid decimal: no digits found"
  | .twoPoints => "Invalid decimal: two decimal points"
  | .leadingUnderscore => "Invalid decimal: must start lead with a number"
  | .unknownCharacter => "Invalid decimal: unknown character"
  | .tooManyDigits => "Invalid decimal: overflow from too many digits"
  | .roundingOverflow => "Invalid decimal: overflow from mantissa after rounding"
  | .badExponent => "Failed to parse"
  | .exponentTooLarge n => s!"Scale exceeds the maximum precision allowed: {n} > 28"
  | .tooLarge => "Number exceeds maximum value that can be represented."

namespace Decimal

def digit? (c : Char) : Option Nat :=
  if '0' ≤ c ∧ c ≤ '9' then some (c.toNat - '0'.toNat) else none

/-- The decimal of an unsigned reading, with its sign. -/
def signed (negative : Bool) (mantissa scale : Nat) : Except DecimalError Decimal :=
  match ofParts? (if negative then -(mantissa : Int) else mantissa) scale with
  | some d => .ok d
  | none => .error .tooLarge

/-! ## Plain notation -/

/-- What has been read of the digits so far. `wide` holds once the mantissa has outgrown one machine
word; from then on an underscore at the rounding position is passed over instead of read as zero. -/
structure Reading where
  mantissa : Nat
  scale : Nat
  point : Bool
  hasDigit : Bool
  wide : Bool
deriving DecidableEq, Repr

def Reading.start : Reading := ⟨0, 0, false, false, false⟩

/-- From this mantissa on a reading is wide. -/
def wideFrom : Nat := (18446744073709551616 - 256) / 10

/-- The cause reported for a character that cannot stand here. -/
def misplaced (c : Char) : DecimalError :=
  match c with
  | '.' => .twoPoints
  | '_' => .leadingUnderscore
  | _ => .unknownCharacter

/-- After the rounding position only digits and underscores may follow. -/
def ignoreRest (result : Nat × Nat) : List Char → Except DecimalError (Nat × Nat)
  | [] => .ok result
  | c :: cs =>
    if (digit? c).isSome || c == '_' then ignoreRest result cs else .error (misplaced c)

/-- Rounds a reading at its next character. -/
def roundAt (r : Reading) (c : Char) (cs : List Char) : Except DecimalError (Nat × Nat) :=
  match (if c == '_' then some 0 else digit? c) with
  | none => .error (misplaced c)
  | some d =>
    if d < 5 then ignoreRest (r.mantissa, r.scale) cs
    else if r.mantissa + 1 < bound then ignoreRest (r.mantissa + 1, r.scale) cs
    else if r.scale = 0 then .error .roundingOverflow
    else ignoreRest ((r.mantissa + 1 + 4) / 10, r.scale - 1) cs

/-- Mantissa and scale of the digits, point and underscores of an unsigned text. -/
def readDigits (r : Reading) : List Char → Except DecimalError (Nat × Nat)
  | [] => if r.hasDigit then .ok (r.mantissa, r.scale) else .error .noDigits
  | c :: cs =>
    if r.point && r.scale == maxScale && !(r.wide && c == '_') then roundAt r c cs
    else match digit? c with
      | some d =>
        let m := r.mantissa * 10 + d
        if m < bound then
          let s := if r.point then r.scale + 1 else 0
          readDigits { r with
            mantissa := m, scale := s, hasDigit := true,
            wide := r.wide || (wideFrom ≤ m && !(r.point && s == maxScale)) } cs
        else if r.point then roundAt r c cs
        else .error .tooManyDigits
      | none =>
        if c == '.' && !r.point then readDigits { r with point := true } cs
        else if c == '_' && r.hasDigit then readDigits r cs
        else .error (misplaced c)

def readPlain (cs : List Char) : Except DecimalError Decimal :=
  match cs with
  | [] => .error .empty
  | '-' :: rest => do
    let (m, s) ← readDigits .start rest
    signed true m s
  | '+' :: rest => do
    let (m, s) ← readDigits .start rest
    signed false m s
  | _ => do
    let (m, s) ← readDigits .start cs
    signed false m s

/-! ## Powers of ten -/

/-- The number written by a nonempty list of digits. -/
def readNat? (cs : List Char) : Option Nat :=
  if cs.isEmpty then none
  else cs.foldl (fun n? c => n?.bind fun n => (digit? c).map (10 * n + ·)) (some 0)

/-- An exponent's digits, below 2^32, with an optional plus sign. -/
def readExponent? (cs : List Char) : Option Nat :=
  let digits := match cs with
    | '+' :: rest => rest
    | _ => cs
  match readNat? digits with
  | some n => if n < 4294967296 then some n else none
  | none => none

/-- `n / 10^k` to the nearest integer, a half going up. -/
def roundHalfUp (n k : Nat) : Nat := if k = 0 then n else (n / Nat.pow 10 (k - 1) + 5) / 10

/-- Divides by `10^e` by raising the scale; digits past the largest scale are rounded away. -/
def shiftDown (d : Decimal) (e : Nat) : Except DecimalError Decimal :=
  if maxScale < e then .error (.exponentTooLarge e)
  else if d.scale + e ≤ maxScale then signed d.isNegative d.mantissa.natAbs (d.scale + e)
  else signed d.isNegative (roundHalfUp d.mantissa.natAbs (d.scale + e - maxScale)) maxScale

/-- Multiplies by `10^e`: lowers the scale if it can, else appends zeros to the whole part. -/
def shiftUp (d : Decimal) (e : Nat) : Except DecimalError Decimal :=
  if e ≤ d.scale then signed d.isNegative d.mantissa.natAbs (d.scale - e)
  else if maxScale < e then .error (.exponentTooLarge e)
  else signed d.isNegative (d.mantissa.natAbs * Nat.pow 10 (e - d.scale)) 0

def isExponentMark (c : Char) : Bool := c == 'e' || c == 'E'

/-- Reads a plain decimal, an exponent mark and an exponent. -/
def readScientific (cs : List Char) : Except DecimalError Decimal := do
  let base ← readPlain (cs.takeWhile fun c => !isExponentMark c)
  match (cs.dropWhile fun c => !isExponentMark c).drop 1 with
  | '-' :: rest =>
    match readExponent? rest with
    | some e => shiftDown base e
    | none => .error .badExponent
  | rest =>
    match readExponent? rest with
    | some e => shiftUp base e
    | none => .error .badExponent

/-- Reads a decimal from characters: plain notation, and otherwise, if there is an exponent mark,
scientific notation. -/
def readChars (cs : List Char) : Except DecimalError Decimal :=
  match readPlain cs with
  | .ok d => .ok d
  | .error e => if cs.any isExponentMark then readScientific cs else .error e

/-- Reads a decimal from text, which must be free of white space. -/
def read (s : String) : Except DecimalError Decimal := readChars s.toList

end Decimal

end TransferLedger
