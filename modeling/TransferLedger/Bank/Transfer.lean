import TransferLedger.Bank.Basic

/-!
The transfer unit: both balance changes and the record of a transfer take effect together or not at
all. The unit reads both rows under the write lock and examines them again, whatever was found when
the transfer was planned. The debit insists on the balance that was read, the credit only on a live
active account.
-/
namespace TransferLedger
set_option autoImplicit false

/-- A transfer that is ready to be carried out. -/
structure TransferPlan where
  transactionId : String
  fromAccount : String
  toAccount : String
  type : String
  amount : Decimal
  currency : String
  description : String
deriving DecidableEq, Repr

/-- The record of a plan that ended in some way at some time. -/
def TransferPlan.record (p : TransferPlan) (status : TransactionStatus) (time : Instant) :
    Transaction where
  id := p.transactionId
  fromAccount := p.fromAccount
  toAccount := p.toAccount
  type := p.type
  amount := p.amount
  currency := p.currency
  description := p.description
  status := status
  createdAt := time
  updatedAt := time

namespace Bank

/-- The account of a row may take part in a transfer. -/
def checkTransferable (r : AccountRow) : Except BankError Unit :=
  if r.isTransferable then .ok () else .error (.accountUnavailable r.id)

/-- Sets the balance of an active account that satisfies a condition; exactly one row has to be
concerned. -/
def setBalance (e : Engine) (n : Nat) (id : String) (condition : AccountRow → Bool)
    (balance : Decimal) (now : Instant) (b : Bank) : Except BankError Bank := do
  let isActive (r : AccountRow) : Bool := r.status == AccountStatus.active.name && condition r
  let (count, b) ← updateAccounts e n id isActive
    (fun r => { r with balance := balance.text, updatedAt := now }) b
  if count = 1 then .ok b else .error (.concurrentUpdate id)

/-- What the unit needs to know before it changes anything: both rows and both balances. -/
def examineTransfer (e : Engine) (p : TransferPlan) (b : Bank) :
    Except BankError (AccountRow × AccountRow × Decimal × Decimal) := do
  let sender ← accountRow e 1 p.fromAccount b
  let receiver ← accountRow e 2 p.toAccount b
  checkTransferable sender
  checkTransferable receiver
  let senderBalance ← readDecimalColumn sender.balance
  let receiverBalance ← readDecimalColumn receiver.balance
  if senderBalance.below p.amount then
    .error (.insufficientFunds sender.id senderBalance p.amount)
  else .ok (sender, receiver, senderBalance, receiverBalance)

/-- The unit of work of a transfer. -/
def transferUnit (e : Engine) (now : Instant) (p : TransferPlan) (b : Bank) :
    Except (Halt BankError) (Transaction × Bank) := do
  (e.ask 0 .beginUnit).mapError fun cause => Halt.refused (.database cause)
  let (sender, receiver, senderBalance, receiverBalance) ←
    (examineTransfer e p b).mapError Halt.refused
  let debited ← (senderBalance.sub p.amount).mapError Halt.overflow
  let b ← (setBalance e 3 sender.id (fun r => r.balance == sender.balance) debited now b).mapError
    Halt.refused
  let credited ← (receiverBalance.add p.amount).mapError Halt.overflow
  let b ← (setBalance e 4 receiver.id (fun _ => true) credited now b).mapError Halt.refused
  let record := p.record .success now
  let (_, b) ← (addTransaction e 5 record b).mapError Halt.refused
  (e.ask 6 .commitUnit).mapError fun cause => Halt.refused (.database cause)
  .ok (record, b)

def applyTransfer (e : Engine) (now : Instant) (p : TransferPlan) (b : Bank) :
    Except (Halt BankError) Transaction × Bank :=
  atomically b (transferUnit e now p b)

end Bank

end TransferLedger
