import TransferLedger.Json.Record
import TransferLedger.Json.Writer
import TransferLedger.Text.Upper

/-!
Transaction records: one for every transfer that was committed, and one for every transfer whose
commit failed. Records are written once and never changed.
-/
namespace TransferLedger
set_option autoImplicit false

/-- How a transfer ended. -/
inductive TransactionStatus
  | success
  | failed
deriving DecidableEq, Repr, Inhabited

namespace TransactionStatus

def name : TransactionStatus → String
  | .success => "success"
  | .failed => "failed"

/-- The status of a name in any letter case. -/
def ofName? (s : String) : Option TransactionStatus :=
  match Text.asciiLower s with
  | "success" => some .success
  | "failed" => some .failed
  | _ => none

def choices : List (String × TransactionStatus) := [("success", .success), ("failed", .failed)]

end TransactionStatus

/-- The type of a transfer that names none. -/
def defaultTransactionType : String := "transfer"

/-- The record of one transfer. -/
structure Transaction where
  id : String
  fromAccount : String
  toAccount : String
  type : String
  amount : Decimal
  currency : String
  description : String
  status : TransactionStatus
  createdAt : Instant
  updatedAt : Instant
deriving DecidableEq, Repr, Inhabited

namespace Transaction

/-- The record touches an account, as sender or receiver. -/
def touches (r : Transaction) (account : String) : Bool :=
  r.fromAccount == account || r.toAccount == account

def toJson (r : Transaction) : Json.Value :=
  .record [("id", .text r.id), ("from_account_id", .text r.fromAccount),
    ("to_account_id", .text r.toAccount), ("transaction_type", .text r.type),
    ("amount", .text r.amount.text), ("currency", .text r.currency),
    ("description", .text r.description), ("status", .text r.status.name),
    ("created_at", .text r.createdAt.text), ("updated_at", .text r.updatedAt.text)]

def shape : Json.Shape Transaction where
  name := "TransactionRecord"
  blank := default
  fields := [
    .required "id" Json.readText fun s r => { r with id := s },
    .required "from_account_id" Json.readText fun s r => { r with fromAccount := s },
    .required "to_account_id" Json.readText fun s r => { r with toAccount := s },
    .required "transaction_type" Json.readText fun s r => { r with type := s },
    .required "amount" Json.readDecimal fun d r => { r with amount := d },
    .required "currency" Json.readText fun s r => { r with currency := s },
    .required "description" Json.readText fun s r => { r with description := s },
    .required "status" (Json.readChoice TransactionStatus.choices)
      fun s r => { r with status := s },
    .required "created_at" Json.readInstant fun t r => { r with createdAt := t },
    .required "updated_at" Json.readInstant fun t r => { r with updatedAt := t }]

def ofJson (bs : Bytes) : Except Json.ReadError Transaction := Json.readAll shape.read bs

end Transaction

end TransferLedger
