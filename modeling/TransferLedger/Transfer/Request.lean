import TransferLedger.Text.Upper
import TransferLedger.Transaction
import TransferLedger.Transfer.Error

/-!
Requests for transfers, all text, and what they ask for once every check is passed that needs no
look at the tables.
-/
namespace TransferLedger
set_option autoImplicit false

/-- A transfer as a caller asks for it. -/
structure TransferRequest where
  fromAccount : String
  toAccount : String
  amount : String
  currency : String
  type : String
  description : String
deriving DecidableEq, Repr, Inhabited

/-- A request that is sound in itself. -/
structure ValidTransfer where
  fromAccount : String
  toAccount : String
  amount : Amount
  currency : String
  type : String
  description : String
deriving DecidableEq, Repr

namespace TransferRequest

/-- Checks a request, field after field. Ids, currency and type lose the white space around them,
the currency is written in upper case, and a blank type is the default one. -/
def validate (r : TransferRequest) : Except TransferError ValidTransfer :=
  let sender := Text.trim r.fromAccount
  let receiver := Text.trim r.toAccount
  let currency := Text.trim r.currency
  let type := Text.trim r.type
  if sender = "" then .error (.missingField "from_account_id")
  else if receiver = "" then .error (.missingField "to_account_id")
  else match Amount.read r.amount with
    | .error e => .error (.invalidAmount e)
    | .ok amount =>
      if currency = "" then .error (.missingField "currency")
      else if sender = receiver then .error .sameAccount
      else .ok {
        fromAccount := sender
        toAccount := receiver
        amount := amount
        currency := Text.upper currency
        type := if type = "" then defaultTransactionType else type
        description := r.description }

def shape : Json.Shape TransferRequest where
  name := "TransferRequest"
  blank := default
  fields := [
    .required "from_account_id" Json.readText fun s r => { r with fromAccount := s },
    .required "to_account_id" Json.readText fun s r => { r with toAccount := s },
    .required "amount" Json.readText fun s r => { r with amount := s },
    .required "currency" Json.readText fun s r => { r with currency := s },
    .optional "transaction_type" Json.readText fun s r => { r with type := s },
    .optional "description" Json.readText fun s r => { r with description := s }]

end TransferRequest

end TransferLedger
