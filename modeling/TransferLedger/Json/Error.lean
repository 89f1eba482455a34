import TransferLedger.Binary64.Text
import TransferLedger.Text.Quoted

/-!
Why JSON text cannot be read as a value of a certain shape: it ends early, it is no JSON, or it is
JSON of another shape.
-/
namespace TransferLedger.Json
set_option autoImplicit false

/-- What stands where something else was expected. -/
inductive Found
  | null
  | boolean (b : Bool)
  | integer (n : Int)
  | float (x : Binary64)
  | text (s : String)
  | sequence
  | map
deriving DecidableEq, Repr

def Found.message : Found → String
  | .null => "null"
  | .boolean b => s!"boolean `{b}`"
  | .integer n => s!"integer `{n}`"
  | .float x => s!"floating point `{x.messageText}`"
  | .text s => s!"string {Text.quoted s}"
  | .sequence => "sequence"
  | .map => "map"

/-- How JSON fails to have the expected shape. -/
inductive Mismatch
  | invalidType (found : Found) (expected : String)
  | invalidValue (found : Found) (expected : String)
  | invalidLength (length : Nat) (expected : String)
  | missingField (name : String)
  | duplicateField (name : String)
  | unknownVariant (name : String) (choices : List String)
  | rejected (reason : String)
deriving DecidableEq, Repr

def Mismatch.message : Mismatch → String
  | .invalidType f e => s!"invalid type: {f.message}, expected {e}"
  | .invalidValue f e => s!"invalid value: {f.message}, expected {e}"
  | .invalidLength n e => s!"invalid length {n}, expected {e}"
  | .missingField f => s!"missing field `{f}`"
  | .duplicateField f => s!"duplicate field `{f}`"
  | .unknownVariant v cs =>
    s!"unknown variant `{v}`, expected " ++ " or ".intercalate (cs.map fun c => s!"`{c}`")
  | .rejected r => r

/-- Why a text was not read. -/
inductive ReadError
  /-- The text stops where more has to follow. -/
  | ended
  /-- The text is no JSON. -/
  | malformed
  /-- The text is JSON of another shape; `place` is the field or element at fault, if one is. -/
  | unfit (place : Option String) (mismatch : Mismatch)
deriving DecidableEq, Repr

/-- The same error with a place, if it has none yet. -/
def ReadError.inside (place : String) : ReadError → ReadError
  | .unfit none m => .unfit (some place) m
  | e => e

end TransferLedger.Json
