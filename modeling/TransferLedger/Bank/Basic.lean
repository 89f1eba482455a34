import TransferLedger.Bank.Row

/-!
The tables of accounts and transaction records, rows in the order of insertion, and the operations
on one table. Ids are unique in each table, records name accounts that have a row, and a deleted
account keeps its row but is found by no operation. Each operation runs its statements through an
engine; one that fails leaves the tables as they were.
-/
namespace TransferLedger
set_option autoImplicit false

/-- The two tables. -/
structure Bank where
  accounts : List AccountRow
  transactions : List TransactionRow
deriving DecidableEq, Repr

namespace Bank

def empty : Bank := ⟨[], []⟩

/-- The row of an account, deleted or not. -/
def account? (b : Bank) (id : String) : Option AccountRow := b.accounts.find? fun r => r.id == id

def liveAccount? (b : Bank) (id : String) : Option AccountRow :=
  b.accounts.find? fun r => r.id == id && r.isLive

def transaction? (b : Bank) (id : String) : Option TransactionRow :=
  b.transactions.find? fun r => r.id == id

/-- Runs a statement that reads. -/
def askRead (e : Engine) (n : Nat) : Except BankError Unit := (e.ask n .read).mapError .database

/-! ## Accounts -/

def insertAccountUnit (e : Engine) (a : Account) (b : Bank) : Except BankError (Unit × Bank) := do
  let refuse := BankError.ofInsertion .account a.id
  let takesEffect ← (e.askChange 0 .insertAccount).mapError refuse
  if !takesEffect then .ok ((), b)
  else if (b.account? a.id).isSome then .error (refuse (.duplicateKey "accounts.id"))
  else .ok ((), { b with accounts := b.accounts ++ [.ofAccount a] })

def insertAccount (e : Engine) (a : Account) (b : Bank) : Except BankError Unit × Bank :=
  atomically b (insertAccountUnit e a b)

def accountRow (e : Engine) (n : Nat) (id : String) (b : Bank) : Except BankError AccountRow := do
  askRead e n
  match b.liveAccount? id with
  | some r => .ok r
  | none => .error (.notFound .account id)

def getAccount (e : Engine) (id : String) (b : Bank) : Except BankError Account := do
  let r ← accountRow e 0 id b
  r.toAccount

/-- The live accounts, oldest first. -/
def liveAccounts (b : Bank) : List AccountRow :=
  (b.accounts.filter (·.isLive)).mergeSort AccountRow.olderFirst

/-- How many accounts come before a page. Pages are counted from one; page zero is the first one too. -/
def pageOffset (page size : Nat) : Nat := (page - 1) * size

/-- One page of the live accounts, oldest first. -/
def listAccounts (e : Engine) (page size : Nat) (b : Bank) : Except BankError (List Account) := do
  askRead e 0
  ((b.liveAccounts.drop (pageOffset page size)).take size).mapM AccountRow.toAccount

/-- Changes the rows of one account that satisfy a condition, and counts them. -/
def updateAccounts (e : Engine) (n : Nat) (id : String) (condition : AccountRow → Bool)
    (change : AccountRow → AccountRow) (b : Bank) : Except BankError (Nat × Bank) := do
  let isTarget (r : AccountRow) : Bool := r.id == id && r.isLive && condition r
  let takesEffect ← (e.askChange n (.updateAccount id)).mapError BankError.database
  if takesEffect then
    .ok (b.accounts.countP isTarget,
      { b with accounts := b.accounts.map fun r => if isTarget r then change r else r })
  else .ok (0, b)

def updateLive (e : Engine) (id : String) (change : AccountRow → AccountRow) (b : Bank) :
    Except BankError (Unit × Bank) := do
  let (count, b) ← updateAccounts e 0 id (fun _ => true) change b
  if count = 0 then .error (.notFound .account id) else .ok ((), b)

def renameAccount (e : Engine) (now : Instant) (id name : String) (b : Bank) :
    Except BankError Unit × Bank :=
  atomically b (updateLive e id (fun r => { r with name := name, updatedAt := now }) b)

def setAccountStatus (e : Engine) (now : Instant) (id : String) (status : AccountStatus)
    (b : Bank) : Except BankError Unit × Bank :=
  atomically b (updateLive e id (fun r => { r with status := status.name, updatedAt := now }) b)

def deleteAccount (e : Engine) (now : Instant) (id : String) (b : Bank) :
    Except BankError Unit × Bank :=
  atomically b (updateLive e id (fun r => { r with deletedAt := some now, updatedAt := now }) b)

/-! ## Transaction records -/

/-- Adds a record. Its id has to be new, and both of its accounts need a row. -/
def addTransaction (e : Engine) (n : Nat) (t : Transaction) (b : Bank) :
    Except BankError (Unit × Bank) := do
  let refuse := BankError.ofInsertion .transaction t.id
  let takesEffect ← (e.askChange n (.insertTransaction t.status.name)).mapError refuse
  if !takesEffect then .ok ((), b)
  else if (b.transaction? t.id).isSome then .error (refuse (.duplicateKey "transactions.id"))
  else if (b.account? t.fromAccount).isNone || (b.account? t.toAccount).isNone then
    .error (refuse .missingReference)
  else .ok ((), { b with transactions := b.transactions ++ [.ofTransaction t] })

/-- Adds a record as a unit of its own. -/
def insertTransaction (e : Engine) (t : Transaction) (b : Bank) : Except BankError Unit × Bank :=
  atomically b (addTransaction e 0 t b)

def getTransaction (e : Engine) (id : String) (b : Bank) : Except BankError Transaction := do
  askRead e 0
  match b.transaction? id with
  | some r => r.toTransaction
  | none => .error (.notFound .transaction id)

/-- The records that touch an account, newest first. -/
def transactionsOf (e : Engine) (account : String) (b : Bank) :
    Except BankError (List Transaction) := do
  askRead e 0
  ((b.transactions.filter (·.touches account)).mergeSort TransactionRow.newerFirst).mapM
    TransactionRow.toTransaction

/-- The records whose status is spelled as it is written, oldest first. -/
def transactionsWithStatus (e : Engine) (status : TransactionStatus) (b : Bank) :
    Except BankError (List Transaction) := do
  askRead e 0
  ((b.transactions.filter fun r => r.status == status.name).mergeSort
    TransactionRow.olderFirst).mapM TransactionRow.toTransaction

end Bank

end TransferLedger
