import TransferLedger.Bank.Transfer
import TransferLedger.Transfer.Request

/-!
Transfers step by step: a request becomes a plan after a look at both accounts, a plan is committed
as one unit, and a plan whose commit failed can be recorded as failed. The look at the accounts only
allows an early refusal; the commit examines them again.
-/
namespace TransferLedger
set_option autoImplicit false

namespace ValidTransfer

/-- An account fits a transfer: it may take part, and it holds the currency, letter case aside. -/
def checkAccount (t : ValidTransfer) (a : Account) : Except TransferError Unit :=
  if !a.transferable then .error (.accountUnavailable a.id)
  else if !Text.sameIgnoringCase a.currency t.currency then
    .error (.currencyMismatch a.id a.currency t.currency)
  else .ok ()

/-- The plan that carries a transfer out under an id. -/
def plan (t : ValidTransfer) (transactionId : String) : TransferPlan where
  transactionId := transactionId
  fromAccount := t.fromAccount
  toAccount := t.toAccount
  type := t.type
  amount := t.amount.value
  currency := t.currency
  description := t.description

end ValidTransfer

namespace Transfer

def loadAccount (e : Engine) (id : String) (b : Bank) : Except TransferError Account :=
  (b.getAccount e id).mapError (.ofBank "load account")

def prepare (e : Engine) (newId : String) (r : TransferRequest) (b : Bank) :
    Except TransferError TransferPlan := do
  let valid ← r.validate
  let sender ← loadAccount e valid.fromAccount b
  let receiver ← loadAccount (e.after 1) valid.toAccount b
  valid.checkAccount sender
  valid.checkAccount receiver
  if sender.balance.below valid.amount.value then
    .error (.insufficientFunds sender.id sender.balance valid.amount.value)
  else .ok (valid.plan newId)

def commit (e : Engine) (now : Instant) (p : TransferPlan) (b : Bank) :
    Except (Halt TransferError) Transaction × Bank :=
  let (outcome, b) := b.applyTransfer e now p
  (outcome.mapError (Halt.map (.ofBank "commit transfer")), b)

def recordFailed (e : Engine) (now : Instant) (p : TransferPlan) (b : Bank) :
    Except TransferError Transaction × Bank :=
  let record := p.record .failed now
  match b.insertTransaction e record with
  | (.ok _, b) => (.ok record, b)
  | (.error cause, b) => (.error (.ofBank "record failed transfer" cause), b)

/-- Turns a request into a plan and carries it out. -/
def execute (e : Engine) (now : Instant) (newId : String) (r : TransferRequest) (b : Bank) :
    Except (Halt TransferError) Transaction × Bank :=
  match prepare e newId r b with
  | .error cause => (.error (.refused cause), b)
  | .ok p => commit (e.after 2) now p b

def getTransaction (e : Engine) (id : String) (b : Bank) : Except TransferError Transaction :=
  if Text.trim id = "" then .error (.missingField "id")
  else (b.getTransaction e id).mapError (.ofBank "get transaction")

/-- The records of a status, oldest first. -/
def withStatus (e : Engine) (status : TransactionStatus) (b : Bank) :
    Except TransferError (List Transaction) :=
  (b.transactionsWithStatus e status).mapError (.ofBank "list transactions")

end Transfer

end TransferLedger
