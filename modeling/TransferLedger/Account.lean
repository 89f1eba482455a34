import TransferLedger.Json.Record
import TransferLedger.Json.Writer
import TransferLedger.Text.Upper

/-!
Accounts: who owns them, what they hold, and whether they may still take part in transfers. The
JSON form lists all fields in the order of declaration; `deleted_at` is `null` for a live account.
-/
namespace TransferLedger
set_option autoImplicit false

/-- Where an account stands in its life. -/
inductive AccountStatus
  | active
  | closed
deriving DecidableEq, Repr, Inhabited

namespace AccountStatus

def name : AccountStatus → String
  | .active => "active"
  | .closed => "closed"

/-- The status of a name in any letter case. -/
def ofName? (s : String) : Option AccountStatus :=
  match Text.asciiLower s with
  | "active" => some .active
  | "closed" => some .closed
  | _ => none

def choices : List (String × AccountStatus) := [("active", .active), ("closed", .closed)]

end AccountStatus

/-- An account. -/
structure Account where
  id : String
  ownerId : String
  name : String
  currency : String
  balance : Decimal
  status : AccountStatus
  createdAt : Instant
  updatedAt : Instant
  deletedAt : Option Instant
deriving DecidableEq, Repr, Inhabited

namespace Account

def opened (id ownerId currency : String) (balance : Decimal) (now : Instant) : Account :=
  ⟨id, ownerId, "", currency, balance, .active, now, now, none⟩

/-- The account may take part in a transfer. -/
def transferable (a : Account) : Bool := a.status == .active && a.deletedAt.isNone

def toJson (a : Account) : Json.Value :=
  .record [("id", .text a.id), ("owner_id", .text a.ownerId), ("name", .text a.name),
    ("currency", .text a.currency), ("balance", .text a.balance.text),
    ("status", .text a.status.name), ("created_at", .text a.createdAt.text),
    ("updated_at", .text a.updatedAt.text),
    ("deleted_at", match a.deletedAt with
      | some t => .text t.text
      | none => .null)]

def shape : Json.Shape Account where
  name := "Account"
  blank := default
  fields := [
    .required "id" Json.readText fun s a => { a with id := s },
    .required "owner_id" Json.readText fun s a => { a with ownerId := s },
    .required "name" Json.readText fun s a => { a with name := s },
    .required "currency" Json.readText fun s a => { a with currency := s },
    .required "balance" Json.readDecimal fun d a => { a with balance := d },
    .required "status" (Json.readChoice AccountStatus.choices) fun s a => { a with status := s },
    .required "created_at" Json.readInstant fun t a => { a with createdAt := t },
    .required "updated_at" Json.readInstant fun t a => { a with updatedAt := t },
    .nullable "deleted_at" Json.readInstant? fun t a => { a with deletedAt := t }]

def ofJson (bs : Bytes) : Except Json.ReadError Account := Json.readAll shape.read bs

end Account

end TransferLedger
