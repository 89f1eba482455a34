import TransferLedger.Json.Record
import TransferLedger.Json.Writer
import TransferLedger.Text.Blank

/-!
Transfer amounts: decimals above zero with at most eight fraction digits. Both rules hold of the
type, so whoever is handed an amount need not check it again.
-/
namespace TransferLedger
set_option autoImplicit false

/-- The most fraction digits that any currency takes. -/
def currencyScale : Nat := 8

/-- Why a decimal or a text is not an amount. -/
inductive AmountError
  | invalidFormat (text : String) (cause : DecimalError)
  | notPositive (value : Decimal)
  | tooPrecise (scale : Nat)
deriving DecidableEq, Repr

def AmountError.message : AmountError → String
  | .invalidFormat s e => s!"invalid amount format: {Text.quoted s}: {e.message}"
  | .notPositive d => s!"amount must be positive: {d}"
  | .tooPrecise n => s!"amount has {n} fractional digits, at most {currencyScale} allowed"

/-- A decimal that may be transferred. -/
structure Amount where
  value : Decimal
  positive : 0 < value.mantissa
  scale_le : value.scale ≤ 8
deriving DecidableEq, Repr

namespace Amount

/-- The amount of this value; the sign is examined before the scale. -/
def ofDecimal (d : Decimal) : Except AmountError Amount :=
  if pos : 0 < d.mantissa then
    if le : d.scale ≤ 8 then .ok ⟨d, pos, le⟩ else .error (.tooPrecise d.scale)
  else .error (.notPositive d)

/-- Reads an amount; white space around it is ignored, but shown in the report. -/
def read (s : String) : Except AmountError Amount :=
  match Decimal.read (Text.trim s) with
  | .ok d => ofDecimal d
  | .error e => .error (.invalidFormat s e)

def text (a : Amount) : String := a.value.text

/-- The JSON form, a string. -/
def toJson (a : Amount) : Json.Value := .text a.text

/-- Reads an amount from a JSON string or number. -/
def readJson : Json.Reader Amount := fun bs => do
  let (d, rest) ← Json.readDecimal bs
  match ofDecimal d with
  | .ok a => .ok (a, rest)
  | .error e => .error (.unfit none (.rejected e.message))

def ofJson (bs : Bytes) : Except Json.ReadError Amount := Json.readAll readJson bs

end Amount

end TransferLedger
