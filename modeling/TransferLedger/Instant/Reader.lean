import TransferLedger.Instant.Basic
import TransferLedger.Text.Blank

/-!
Reading times: a date, `T` or a blank, a time of day with an optional fraction, and an offset from
UTC or `Z`. White space is tolerated around the parts, leading zeros may be missing, digits of the
fraction past the ninth are ignored.
-/
namespace TransferLedger
set_option autoImplicit false

/-- Why a text is not a time. -/
inductive InstantError
  | outOfRange
  | impossible
  | invalid
  | tooShort
  | tooLong
deriving DecidableEq, Repr

def InstantError.message : InstantError → String
  | .outOfRange => "input is out of range"
  | .impossible => "no possible date and time matching input"
  | .invalid => "input contains invalid characters"
  | .tooShort => "premature end of input"
  | .tooLong => "trailing input"

namespace Instant

/-- Whether a character is one of the ten digits. -/
def isDigit (c : Char) : Bool := '0' ≤ c && c ≤ '9'

def digitsValue (cs : List Char) : Nat := cs.foldl (fun n c => 10 * n + (c.toNat - '0'.toNat)) 0

def skipBlanks (cs : List Char) : List Char := cs.dropWhile Text.isBlank

/-- A number of at least one and at most `width` digits. -/
def readNumber (width : Nat) (cs : List Char) : Except InstantError (Nat × List Char) :=
  match cs with
  | [] => .error .tooShort
  | c :: _ =>
    if isDigit c then
      let ds := (cs.take width).takeWhile isDigit
      .ok (digitsValue ds, cs.drop ds.length)
    else .error .invalid

/-- A signed number of any length below 2^63. -/
def readLong (cs : List Char) : Except InstantError (Nat × List Char) := do
  let (n, rest) ← readNumber cs.length cs
  if n < 9223372036854775808 then .ok (n, rest) else .error .outOfRange

/-- A year: four digits, or a sign and any number of digits. -/
def readYear (cs : List Char) : Except InstantError (Int × List Char) := do
  let (y, rest) ← match skipBlanks cs with
    | '-' :: ds => do
      let (n, rest) ← readLong ds
      pure (-(n : Int), rest)
    | '+' :: ds => do
      let (n, rest) ← readLong ds
      pure ((n : Int), rest)
    | ds => do
      let (n, rest) ← readNumber 4 ds
      pure ((n : Int), rest)
  if -2147483648 ≤ y ∧ y < 2147483648 then .ok (y, rest) else .error .outOfRange

/-- A number of one or two digits between two bounds, after optional white space. -/
def readPart (low high : Nat) (cs : List Char) : Except InstantError (Nat × List Char) := do
  let (n, rest) ← readNumber 2 (skipBlanks cs)
  if low ≤ n ∧ n ≤ high then .ok (n, rest) else .error .outOfRange

/-- A separator, with white space allowed in front of it. -/
def readSeparator (c : Char) (cs : List Char) : Except InstantError (List Char) :=
  match skipBlanks cs with
  | [] => .error .tooShort
  | d :: rest => if d = c then .ok rest else .error .invalid

/-- A point and the fraction of a second, in nanoseconds; absent means zero. -/
def readFraction (cs : List Char) : Except InstantError (Nat × List Char) :=
  match cs with
  | '.' :: rest =>
    match readNumber 9 rest with
    | .error e => .error e
    | .ok (n, after) =>
      .ok (n * Nat.pow 10 (9 - (rest.length - after.length)), after.dropWhile isDigit)
  | _ => .ok (0, cs)

def readOffset (cs : List Char) : Except InstantError (Int × List Char) :=
  match cs with
  | [] => .error .tooShort
  | c :: rest =>
    if c == 'Z' || c == 'z' then .ok (0, rest)
    else if (cs.take 3).map Char.toUpper == ['U', 'T', 'C'] then .ok (0, cs.drop 3)
    else if c == '+' || c == '-' || c == '\u2212' then
      match rest with
      | h₁ :: h₂ :: rest =>
        if isDigit h₁ && isDigit h₂ then
          match rest.dropWhile fun c => c == ':' || Text.isBlank c with
          | m₁ :: m₂ :: rest =>
            if isDigit m₁ && isDigit m₂ then
              if '6'.toNat ≤ m₁.toNat then .error .outOfRange
              else
                let s : Int := digitsValue [h₁, h₂] * 3600 + digitsValue [m₁, m₂] * 60
                .ok (if c == '+' then s else -s, rest)
            else .error .invalid
          | rest =>
            if (String.ofList rest).utf8ByteSize < 2 then .error .tooShort else .error .invalid
        else .error .invalid
      | _ => if (String.ofList rest).utf8ByteSize < 2 then .error .tooShort else .error .invalid
    else .error .invalid

def yearInRange (y : Int) : Bool := -262143 ≤ y && y ≤ 262142

def readChars (cs : List Char) : Except InstantError Instant := do
  let (year, cs) ← readYear cs
  let cs ← readSeparator '-' cs
  let (month, cs) ← readPart 1 12 cs
  let cs ← readSeparator '-' cs
  let (day, cs) ← readPart 1 31 cs
  let cs ← match cs with
    | 't' :: rest => pure rest
    | 'T' :: rest => pure rest
    | ' ' :: rest => pure rest
    | [] => throw .tooShort
    | _ => throw .invalid
  let (hour, cs) ← readPart 0 23 cs
  let cs ← readSeparator ':' cs
  let (minute, cs) ← readPart 0 59 cs
  let cs ← readSeparator ':' cs
  let (second, cs) ← readPart 0 60 cs
  let (nanos, cs) ← readFraction cs
  let (offset, cs) ← readOffset (skipBlanks cs)
  if !(skipBlanks cs).isEmpty then throw .tooLong
  if !yearInRange year || CalendarDate.daysInMonth year month < day then throw .outOfRange
  if 86400 ≤ offset.natAbs then throw .outOfRange
  let leap := second == 60
  let s : Int := CalendarDate.toDays ⟨year, month, day⟩ * 86400
    + (hour * 3600 + minute * 60 + (if leap then 59 else second) : Nat) - offset
  let t : Instant := ⟨s, if leap then nanos + 1000000000 else nanos⟩
  if yearInRange t.date.year then pure t else throw .impossible

def read (s : String) : Except InstantError Instant := readChars s.toList

end Instant

end TransferLedger
