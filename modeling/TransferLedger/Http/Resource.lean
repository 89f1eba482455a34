import TransferLedger.Http.Message

/-!
The resources of the HTTP interface and the methods that each of them knows. An id is kept as it
stands in the path; it may be empty inside a path, but not at its end.
-/
namespace TransferLedger
set_option autoImplicit false

/-- An id as it stands in a path. -/
abbrev RawId := String

/-- What a path names. -/
inductive Resource
  | transactions
  | transaction (id : RawId)
  | transactionLedger (id : RawId)
  | accounts
  | account (id : RawId)
  | closing (id : RawId)
  | accountTransactions (id : RawId)
  | accountLedger (id : RawId)
  | ledgerBalance (id : RawId)
  | reconciliation (id : RawId)
deriving DecidableEq, Repr

namespace Resource

/-- The resource of the parts of a path below the root. -/
def ofParts? : List String → Option Resource
  | ["transactions"] => some .transactions
  | ["transactions", id] => if id = "" then none else some (.transaction id)
  | ["transactions", id, "ledger"] => some (.transactionLedger id)
  | ["accounts"] => some .accounts
  | ["accounts", id] => if id = "" then none else some (.account id)
  | ["accounts", id, "close"] => some (.closing id)
  | ["accounts", id, "transactions"] => some (.accountTransactions id)
  | ["accounts", id, "ledger"] => some (.accountLedger id)
  | ["accounts", id, "ledger", "balance"] => some (.ledgerBalance id)
  | ["accounts", id, "reconciliation"] => some (.reconciliation id)
  | _ => none

def ofPath? (path : List Char) : Option Resource :=
  match (Text.split '/' path).map String.ofList with
  | "" :: "dbank" :: "v1" :: parts => ofParts? parts
  | _ => none

/-- The methods that a resource knows, in alphabetical order. -/
def methods : Resource → List String
  | .transactions | .closing _ => ["POST"]
  | .accounts => ["GET", "HEAD", "POST"]
  | .account _ => ["DELETE", "GET", "HEAD", "PATCH"]
  | _ => ["GET", "HEAD"]

/-- The id in the path of a resource, if there is one. -/
def rawId? : Resource → Option RawId
  | .transactions | .accounts => none
  | .transaction id | .transactionLedger id | .account id | .closing id
  | .accountTransactions id | .accountLedger id | .ledgerBalance id | .reconciliation id => some id

end Resource

end TransferLedger
