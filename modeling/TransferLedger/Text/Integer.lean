/-!
Whole numbers in decimal digits, with a sign or without, up to a limit. The first fault from the
left decides what is reported.
-/
namespace TransferLedger.Text
set_option autoImplicit false

/-- Why a text is no whole number within the limits. -/
inductive IntegerError
  | empty
  | invalidDigit
  | tooLarge
  | tooSmall
deriving DecidableEq, Repr

def IntegerError.message : IntegerError → String
  | .empty => "cannot parse integer from empty string"
  | .invalidDigit => "invalid digit found in string"
  | .tooLarge => "number too large to fit in target type"
  | .tooSmall => "number too small to fit in target type"

def digitValue? (c : Char) : Option Nat :=
  if '0' ≤ c ∧ c ≤ '9' then some (c.toNat - '0'.toNat) else none

/-- Reads digits after a number that stands before them; `excess` is reported above the limit. -/
def readDigits (limit : Nat) (excess : IntegerError) : Nat → List Char → Except IntegerError Nat
  | n, [] => .ok n
  | n, c :: cs =>
    match digitValue? c with
    | none => .error .invalidDigit
    | some d =>
      if limit < 10 * n + d then .error excess else readDigits limit excess (10 * n + d) cs

/-- A number from zero to a limit; a plus sign may stand before it. -/
def readNatural (limit : Nat) (text : String) : Except IntegerError Nat :=
  match text.toList with
  | [] => .error .empty
  | ['+'] => .error .invalidDigit
  | '+' :: cs => readDigits limit .tooLarge 0 cs
  | cs => readDigits limit .tooLarge 0 cs

/-- A number of 64 bits with a sign. -/
def readInteger64 (text : String) : Except IntegerError Int :=
  match text.toList with
  | ['-'] => .error .invalidDigit
  | '-' :: cs => do
    let n ← readDigits 9223372036854775808 .tooSmall 0 cs
    .ok (-(n : Int))
  | _ => do
    let n ← readNatural 9223372036854775807 text
    .ok n

end TransferLedger.Text
