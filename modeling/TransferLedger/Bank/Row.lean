import TransferLedger.Account
import TransferLedger.Transaction
import TransferLedger.Bank.Error

/-!
The rows of the two tables. Decimals and statuses are kept as text; reading a row back turns them
into values again, the status first.
-/
namespace TransferLedger
set_option autoImplicit false

/-- A row of the table of accounts. -/
structure AccountRow where
  id : String
  ownerId : String
  name : String
  currency : String
  balance : String
  status : String
  createdAt : Instant
  updatedAt : Instant
  deletedAt : Option Instant
deriving DecidableEq, Repr

/-- A row of the table of transaction records. -/
structure TransactionRow where
  id : String
  fromAccount : String
  toAccount : String
  type : String
  amount : String
  currency : String
  description : String
  status : String
  createdAt : Instant
  updatedAt : Instant
deriving DecidableEq, Repr

def readDecimalColumn (text : String) : Except BankError Decimal :=
  (Decimal.read text).mapError (.invalidDecimal text)

namespace AccountRow

def ofAccount (a : Account) : AccountRow where
  id := a.id
  ownerId := a.ownerId
  name := a.name
  currency := a.currency
  balance := a.balance.text
  status := a.status.name
  createdAt := a.createdAt
  updatedAt := a.updatedAt
  deletedAt := a.deletedAt

def toAccount (r : AccountRow) : Except BankError Account :=
  match AccountStatus.ofName? r.status with
  | none => .error (.invalidStatus "accounts.status" r.status)
  | some status => do
    let balance ← readDecimalColumn r.balance
    .ok {
      id := r.id
      ownerId := r.ownerId
      name := r.name
      currency := r.currency
      balance := balance
      status := status
      createdAt := r.createdAt
      updatedAt := r.updatedAt
      deletedAt := r.deletedAt }

def isLive (r : AccountRow) : Bool := r.deletedAt.isNone

/-- The account may take part in a transfer; the stored status has to be spelled as it is written. -/
def isTransferable (r : AccountRow) : Bool := r.status == AccountStatus.active.name && r.isLive

/-- Oldest first; of one age, by id. Ages are compared as the texts of their column. -/
def olderFirst (a b : AccountRow) : Bool :=
  if a.createdAt.columnText = b.createdAt.columnText then a.id ≤ b.id
  else a.createdAt.columnText < b.createdAt.columnText

end AccountRow

namespace TransactionRow

def ofTransaction (r : Transaction) : TransactionRow where
  id := r.id
  fromAccount := r.fromAccount
  toAccount := r.toAccount
  type := r.type
  amount := r.amount.text
  currency := r.currency
  description := r.description
  status := r.status.name
  createdAt := r.createdAt
  updatedAt := r.updatedAt

def toTransaction (r : TransactionRow) : Except BankError Transaction :=
  match TransactionStatus.ofName? r.status with
  | none => .error (.invalidStatus "transactions.status" r.status)
  | some status => do
    let amount ← readDecimalColumn r.amount
    .ok {
      id := r.id
      fromAccount := r.fromAccount
      toAccount := r.toAccount
      type := r.type
      amount := amount
      currency := r.currency
      description := r.description
      status := status
      createdAt := r.createdAt
      updatedAt := r.updatedAt }

/-- The record touches an account, as sender or receiver. -/
def touches (r : TransactionRow) (account : String) : Bool :=
  r.fromAccount == account || r.toAccount == account

/-- Oldest first. Ages are compared as the texts of their column. -/
def olderFirst (a b : TransactionRow) : Bool := a.createdAt.columnText ≤ b.createdAt.columnText

/-- Newest first, as texts of the column. -/
def newerFirst (a b : TransactionRow) : Bool := b.createdAt.columnText ≤ a.createdAt.columnText

end TransactionRow

end TransferLedger
