import TransferLedger.Text.Percent
import TransferLedger.Service.Accounts
import TransferLedger.Text.Integer

/-!
Reading the query of a request: which page of the accounts, and which side of a ledger. Names that
are not asked for are passed over; a name that is asked for may stand only once.
-/
namespace TransferLedger.Query
set_option autoImplicit false

/-- Why a query is refused. -/
inductive Rejection
  | number (cause : Text.IntegerError)
  | duplicateField (name : String)
deriving DecidableEq, Repr

def Rejection.message (r : Rejection) : String :=
  "Failed to deserialize query string: " ++ match r with
    | .number cause => cause.message
    | .duplicateField name => s!"duplicate field `{name}`"

/-- A number of 32 bits. -/
def readNumber (text : String) : Except Rejection Nat :=
  (Text.readNatural 4294967295 text).mapError .number

/-- The page and the size that have been read so far. -/
abbrev Seen := Option Nat × Option Nat

/-- Reads the names and values one after the other. -/
def readPairs : List (String × String) → Seen → Except Rejection Seen
  | [], seen => .ok seen
  | (name, value) :: rest, (page, size) =>
    if name = "page" then
      if page.isSome then .error (.duplicateField name)
      else do
        let n ← readNumber value
        readPairs rest (some n, size)
    else if name = "page_size" then
      if size.isSome then .error (.duplicateField name)
      else do
        let n ← readNumber value
        readPairs rest (page, some n)
    else readPairs rest (page, size)

def page (query : List Char) : Except Rejection PageQuery := do
  let (page, size) ← readPairs (Percent.queryPairs query) (none, none)
  .ok ⟨page.getD 0, size.getD 0⟩

/-- The type of entries that is asked for, if one is. -/
def entryType (query : List Char) : Except Rejection (Option String) :=
  match (Percent.queryPairs query).filter fun p => p.1 == "type" with
  | [] => .ok none
  | [(_, value)] => .ok (some value)
  | _ => .error (.duplicateField "type")

end TransferLedger.Query
