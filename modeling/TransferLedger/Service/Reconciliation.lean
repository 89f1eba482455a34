import TransferLedger.Service.Accounts
import TransferLedger.Service.Transactions

/-!
Comparing the balances of accounts with the ledger, and announcing again the committed transfers
whose entries the ledger does not have, for instance because the broker was lost before they were
delivered.
-/
namespace TransferLedger
set_option autoImplicit false

/-- The balance of an account beside that of the ledger. The ledger covers transfers only, so the
difference is what the account was opened with. -/
structure ReconciliationReport where
  account : String
  currency : String
  accountBalance : Decimal
  ledgerBalance : Decimal
  openingBalance : Decimal
  successful : Nat
  missing : List String
deriving DecidableEq, Repr

namespace ReconciliationReport

/-- The ledger has caught up with the account. -/
def consistent (r : ReconciliationReport) : Bool := r.missing.isEmpty

def toJson (r : ReconciliationReport) : Json.Value :=
  .record [("account_id", .text r.account), ("currency", .text r.currency),
    ("account_balance", .text r.accountBalance.text),
    ("ledger_balance", .text r.ledgerBalance.text),
    ("opening_balance", .text r.openingBalance.text),
    ("successful_transactions", .integer r.successful),
    ("missing_ledger_entries", .list (r.missing.map .text)),
    ("consistent", .boolean r.consistent)]

end ReconciliationReport

namespace Reconciliation

/-- The ledger entries of a transaction, as a service reads them. -/
def entriesOf (e : Engine) (ledger : TableLedger) (id : String) : Except ServiceError (List Entry) :=
  (ledger.entriesByTransaction e id).mapError fun cause => .ledger (.store cause)

/-- Announces the records that the ledger does not have two entries of, and lists the ids of those
that the broker took. Deleted entries count: the pair was written once. -/
def replayEach (e : Engine) (ledger : TableLedger) :
    Nat → List Transaction → Broker → Except ServiceError (List String) × Broker
  | _, [], broker => (.ok [], broker)
  | n, r :: rs, broker =>
    match entriesOf (e.after n) ledger r.id with
    | .error cause => (.error cause, broker)
    | .ok entries =>
      if entries.length = 2 then replayEach e ledger (n + 1) rs broker
      else
        let (announced, broker) := Transactions.announce r broker
        match replayEach e ledger (n + 1) rs broker with
        | (.ok ids, broker) => (.ok (if announced then r.id :: ids else ids), broker)
        | (.error cause, broker) => (.error cause, broker)

/-- Announces every committed transfer whose entries are missing, oldest first. -/
def replayMissing (e : Engines) (w : World) : Except ServiceError (List String) × World :=
  match Transactions.successful e.bank w.bank with
  | .error cause => (.error (.transfer cause), w)
  | .ok records =>
    let (outcome, broker) := replayEach e.ledger w.ledger 0 records w.broker
    (outcome, { w with broker := broker })

/-- The ids of the records that the ledger does not have two live entries of. -/
def missingIds (e : Engine) (ledger : TableLedger) :
    Nat → List Transaction → Except ServiceError (List String)
  | _, [] => .ok []
  | n, r :: rs => do
    let entries ← entriesOf (e.after n) ledger r.id
    let ids ← missingIds e ledger (n + 1) rs
    .ok (if entries.countP (fun x => !x.isDeleted) = 2 then ids else r.id :: ids)

/-- The ledger balance of an account, as a service reads it. -/
def ledgerBalance (e : Engine) (ledger : TableLedger) (account : String) :
    Except (Halt ServiceError) Decimal :=
  (ledger.accountBalance e account).mapError (Halt.map fun cause => .ledger (.store cause))

def report (e : Engines) (id : String) (w : World) :
    Except (Halt ServiceError) ReconciliationReport := do
  let account ← (Accounts.get e.bank id w.bank).mapError Halt.refused
  let records ← (Accounts.transactions (e.bank.after 1) id w.bank).mapError Halt.refused
  let ledgerBalance ← ledgerBalance e.ledger w.ledger id
  let committed := records.filter fun r => r.status == .success
  let missing ← (missingIds (e.ledger.after 1) w.ledger 0 committed).mapError Halt.refused
  let opening ← (account.balance.sub ledgerBalance).mapError Halt.overflow
  .ok {
    account := account.id
    currency := account.currency
    accountBalance := account.balance
    ledgerBalance := ledgerBalance
    openingBalance := opening
    successful := committed.length
    missing := missing }

end Reconciliation

end TransferLedger
