import TransferLedger.Event
import TransferLedger.Text.Blank

/-!
Ledger entries in pairs: a transfer debits its sender and credits its receiver with the same amount
at the same time, so the two contributions cancel. The id of an entry is made of the transaction and
the side, so one event always yields the same two ids.
-/
namespace TransferLedger
set_option autoImplicit false

/-- The side of an entry. -/
inductive Side
  | debit
  | credit
deriving DecidableEq, Repr, Inhabited

namespace Side

def name : Side → String
  | .debit => "debit"
  | .credit => "credit"

/-- The side of a name, in this letter case only. -/
def ofName? : String → Option Side
  | "debit" => some .debit
  | "credit" => some .credit
  | _ => none

/-- What the amount is multiplied by to give the contribution to the balance. -/
def sign : Side → Int
  | .debit => -1
  | .credit => 1

def choices : List (String × Side) := [("debit", .debit), ("credit", .credit)]

end Side

/-- One side of a transfer. `amount` is unsigned, `balance` is the signed contribution. -/
structure Entry where
  id : String
  account : String
  transactionId : String
  side : Side
  amount : Decimal
  balance : Decimal
  currency : String
  description : String
  createdAt : Instant
  updatedAt : Instant
  deletedAt : Option Instant
deriving DecidableEq, Repr, Inhabited

/-- Why an event yields no entries. -/
inductive EntryError
  | missingField (name : String)
  | invalidAmount (text : String)
deriving DecidableEq, Repr

namespace Entry

/-- The id of the entry of a transaction on one side. -/
def idOf (transactionId : String) (side : Side) : String := transactionId ++ ":" ++ side.name

def isDeleted (e : Entry) : Bool := e.deletedAt.isSome

/-- What an amount contributes to the balance on a side: itself or its opposite, at its scale. -/
def contribution (amount : Decimal) : Side → Decimal
  | .debit => amount.neg
  | .credit => amount

def ofEvent (e : Event) (amount : Decimal) (time : Instant) (side : Side) : Entry where
  id := idOf e.transactionId side
  account := match side with
    | .debit => e.fromAccount
    | .credit => e.toAccount
  transactionId := e.transactionId
  side := side
  amount := amount
  balance := contribution amount side
  currency := e.currency
  description := e.description
  createdAt := time
  updatedAt := time
  deletedAt := none

/-- The debit and the credit of an event. Its amount may have white space around it and need not
respect the scale of currencies. -/
def pairOfEvent (e : Event) (time : Instant) : Except EntryError (Entry × Entry) :=
  if Text.trim e.transactionId = "" then .error (.missingField "transaction_id")
  else if Text.trim e.fromAccount = "" then .error (.missingField "from_account_id")
  else if Text.trim e.toAccount = "" then .error (.missingField "to_account_id")
  else match Decimal.read (Text.trim e.amount) with
    | .error _ => .error (.invalidAmount e.amount)
    | .ok amount =>
      if amount.isPositive then .ok (ofEvent e amount time .debit, ofEvent e amount time .credit)
      else .error (.invalidAmount e.amount)

/-- The JSON form; an empty description and an unset time of deletion are left out. -/
def toJson (e : Entry) : Json.Value :=
  .record <|
    [("id", .text e.id), ("account_id", .text e.account),
      ("transaction_id", .text e.transactionId), ("entry_type", .text e.side.name),
      ("amount", .text e.amount.text), ("balance", .text e.balance.text),
      ("currency", .text e.currency)]
    ++ (if e.description = "" then [] else [("description", .text e.description)])
    ++ [("created_at", .text e.createdAt.text), ("updated_at", .text e.updatedAt.text)]
    ++ (match e.deletedAt with
      | some t => [("deleted_at", .text t.text)]
      | none => [])

def shape : Json.Shape Entry where
  name := "LedgerEntry"
  blank := default
  fields := [
    .required "id" Json.readText fun s e => { e with id := s },
    .required "account_id" Json.readText fun s e => { e with account := s },
    .required "transaction_id" Json.readText fun s e => { e with transactionId := s },
    .required "entry_type" (Json.readChoice Side.choices) fun s e => { e with side := s },
    .required "amount" Json.readDecimal fun d e => { e with amount := d },
    .required "balance" Json.readDecimal fun d e => { e with balance := d },
    .required "currency" Json.readText fun s e => { e with currency := s },
    .optional "description" Json.readText fun s e => { e with description := s },
    .required "created_at" Json.readInstant fun t e => { e with createdAt := t },
    .required "updated_at" Json.readInstant fun t e => { e with updatedAt := t },
    .optional "deleted_at" Json.readInstant? fun t e => { e with deletedAt := t }]

def ofJson (bs : Bytes) : Except Json.ReadError Entry := Json.readAll shape.read bs

end Entry

end TransferLedger
