import TransferLedger.Json.Number
import TransferLedger.Json.Text
import TransferLedger.Decimal.Reader
import TransferLedger.Instant.Reader

/-!
Reading single JSON values of the shapes that records are made of: texts, integers, decimals,
times, optional times and names out of a list. A value of another shape is read as far as it has to
be in order to name it in the report.
-/
namespace TransferLedger.Json
set_option autoImplicit false

/-- The report on a value that is not what was expected. -/
def mismatchAt (expected : String) (b : UInt8) (rest : Bytes) : ReadError :=
  let report (found : Found) : ReadError := .unfit none (.invalidType found expected)
  if b = 0x6E then
    match readWord restOfNull rest with
    | .ok _ => report .null
    | .error e => e
  else if b = 0x74 then
    match readWord restOfTrue rest with
    | .ok _ => report (.boolean true)
    | .error e => e
  else if b = 0x66 then
    match readWord restOfFalse rest with
    | .ok _ => report (.boolean false)
    | .error e => e
  else if b = 0x2D || isDigit b then
    match readNumber (b :: rest) with
    | .ok (n, _) => report n.found
    | .error e => e
  else if b = 0x22 then
    match readString rest with
    | .ok (s, _) => report (.text s)
    | .error e => e
  else if b = 0x5B then report .sequence
  else if b = 0x7B then report .map
  else .malformed

/-- A string, where `expected` describes what it stands for. -/
def readTextAs (expected : String) : Reader String := fun bs =>
  match skipSpace bs with
  | [] => .error .ended
  | b :: rest => if b = 0x22 then readString rest else .error (mismatchAt expected b rest)

def readText : Reader String := readTextAs "a string"

/-- An integer of 64 bits with a sign. -/
def readInt64 : Reader Int := fun bs =>
  match skipSpace bs with
  | [] => .error .ended
  | b :: rest =>
    if b = 0x2D || isDigit b then
      match readNumber (b :: rest) with
      | .ok (.integer n, rest) =>
        if n < 9223372036854775808 then .ok (n, rest)
        else .error (.unfit none (.invalidValue (.integer n) "i64"))
      | .ok (.float x, _) => .error (.unfit none (.invalidType (.float x) "i64"))
      | .error e => .error e
    else .error (mismatchAt "i64" b rest)

def decimalDescription : String := "a Decimal type representing a fixed-point number"

/-- The decimal of a number; a binary number is taken by its shortest digits. -/
def decimalOfNumber (n : Number) : Except ReadError Decimal :=
  let chars := match n with
    | .integer n => (toString n).toList
    | .float x => x.plainChars
  match Decimal.readChars chars with
  | .ok d => .ok d
  | .error _ => .error (.unfit none (.invalidValue n.found decimalDescription))

/-- A decimal, as a string or as a number. -/
def readDecimal : Reader Decimal := fun bs =>
  match skipSpace bs with
  | [] => .error .ended
  | b :: rest =>
    if b = 0x22 then do
      let (s, rest) ← readString rest
      match Decimal.read s with
      | .ok d => .ok (d, rest)
      | .error _ => .error (.unfit none (.invalidValue (.text s) decimalDescription))
    else if b = 0x2D || isDigit b then do
      let (n, rest) ← readNumber (b :: rest)
      let d ← decimalOfNumber n
      .ok (d, rest)
    else .error (mismatchAt decimalDescription b rest)

def readInstant : Reader Instant := fun bs => do
  let (s, rest) ← readTextAs "an RFC 3339 formatted date and time string" bs
  match Instant.read s with
  | .ok t => .ok (t, rest)
  | .error e => .error (.unfit none (.rejected e.message))

/-- A time or `null`. -/
def readInstant? : Reader (Option Instant) := fun bs =>
  match skipSpace bs with
  | 0x6E :: rest => do
    let rest ← readWord restOfNull rest
    .ok (none, rest)
  | bs => do
    let (t, rest) ← readInstant bs
    .ok (some t, rest)

def chosen {α : Type} (choices : List (String × α)) (name : String) : Except ReadError α :=
  match choices.find? fun c => c.1 == name with
  | some c => .ok c.2
  | none => .error (.unfit none (.unknownVariant name (choices.map (·.1))))

/-- A name out of a list: a string, or an object whose only field has this name and holds `null`. -/
def readChoice {α : Type} (choices : List (String × α)) : Reader α := fun bs =>
  match skipSpace bs with
  | [] => .error .ended
  | b :: rest =>
    if b = 0x22 then do
      let (s, rest) ← readString rest
      let a ← chosen choices s
      .ok (a, rest)
    else if b = 0x7B then do
      let (s, rest) ← readTextAs "variant identifier" rest
      let a ← chosen choices s
      let rest ← expectByte 0x3A (skipSpace rest)
      let rest ← match skipSpace rest with
        | [] => .error .ended
        | b :: rest =>
          if b = 0x6E then readWord restOfNull rest else .error (mismatchAt "unit" b rest)
      let rest ← expectByte 0x7D (skipSpace rest)
      .ok (a, rest)
    else .error .malformed

end TransferLedger.Json
