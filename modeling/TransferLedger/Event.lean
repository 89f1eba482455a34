import TransferLedger.Transaction

/-!
Transaction events: what is published about a transaction record. The amount travels as text, so no
digit is lost on the way; an empty description is left out of the wire form.
-/
namespace TransferLedger
set_option autoImplicit false

/-- The announcement of a transaction record. -/
structure Event where
  transactionId : String
  fromAccount : String
  toAccount : String
  type : String
  amount : String
  currency : String
  status : String
  description : String
  timestamp : Int
deriving DecidableEq, Repr, Inhabited

namespace Event

/-- The event of a record; its time is the second in which the record was last touched. -/
def ofTransaction (r : Transaction) : Event where
  transactionId := r.id
  fromAccount := r.fromAccount
  toAccount := r.toAccount
  type := r.type
  amount := r.amount.text
  currency := r.currency
  status := r.status.name
  description := r.description
  timestamp := r.updatedAt.seconds

/-- The event announces a committed transfer. -/
def isSuccess (e : Event) : Bool := TransactionStatus.ofName? e.status == some .success

def toJson (e : Event) : Json.Value :=
  .record <|
    [("transaction_id", .text e.transactionId), ("from_account_id", .text e.fromAccount),
      ("to_account_id", .text e.toAccount), ("transaction_type", .text e.type),
      ("amount", .text e.amount), ("currency", .text e.currency), ("status", .text e.status)]
    ++ (if e.description = "" then [] else [("description", .text e.description)])
    ++ [("timestamp", .integer e.timestamp)]

def shape : Json.Shape Event where
  name := "TransactionEvent"
  blank := default
  fields := [
    .required "transaction_id" Json.readText fun s e => { e with transactionId := s },
    .required "from_account_id" Json.readText fun s e => { e with fromAccount := s },
    .required "to_account_id" Json.readText fun s e => { e with toAccount := s },
    .required "transaction_type" Json.readText fun s e => { e with type := s },
    .required "amount" Json.readText fun s e => { e with amount := s },
    .required "currency" Json.readText fun s e => { e with currency := s },
    .required "status" Json.readText fun s e => { e with status := s },
    .optional "description" Json.readText fun s e => { e with description := s },
    .required "timestamp" Json.readInt64 fun n e => { e with timestamp := n }]

def encode (e : Event) : Bytes := e.toJson.bytes

def decode (body : Bytes) : Except Json.ReadError Event := Json.readAll shape.read body

end Event

end TransferLedger
