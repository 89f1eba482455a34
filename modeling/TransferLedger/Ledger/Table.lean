import TransferLedger.Ledger.Store

/-!
A ledger store on a table. Side, amount and balance of an entry are kept as text and read back for
every query; rows are in the order of insertion and never removed. Every operation runs its
statements through an engine, and an operation that fails leaves the rows as they were.
-/
namespace TransferLedger
set_option autoImplicit false

/-- A row of the table. -/
structure EntryRow where
  id : String
  account : String
  transactionId : String
  side : String
  amount : String
  balance : String
  currency : String
  description : String
  createdAt : Instant
  updatedAt : Instant
  deletedAt : Option Instant
deriving DecidableEq, Repr

namespace EntryRow

def ofEntry (e : Entry) : EntryRow where
  id := e.id
  account := e.account
  transactionId := e.transactionId
  side := e.side.name
  amount := e.amount.text
  balance := e.balance.text
  currency := e.currency
  description := e.description
  createdAt := e.createdAt
  updatedAt := e.updatedAt
  deletedAt := e.deletedAt

def readDecimal (text : String) : Except StoreError Decimal :=
  match Decimal.read text with
  | .ok d => .ok d
  | .error e => .error (.other s!"invalid decimal {text}: {e.message}")

/-- The entry of a row; the side is read before the decimals. -/
def toEntry (r : EntryRow) : Except StoreError Entry := do
  let side ← match Side.ofName? r.side with
    | some side => .ok side
    | none => .error (.other s!"invalid entry type: {r.side}")
  let amount ← readDecimal r.amount
  let balance ← readDecimal r.balance
  .ok {
    id := r.id
    account := r.account
    transactionId := r.transactionId
    side := side
    amount := amount
    balance := balance
    currency := r.currency
    description := r.description
    createdAt := r.createdAt
    updatedAt := r.updatedAt
    deletedAt := r.deletedAt }

def isLive (r : EntryRow) : Bool := r.deletedAt.isNone

/-- Newest first; of one age, by id. Ages are compared as the texts of their column. -/
def newerFirst (a b : EntryRow) : Bool :=
  if a.createdAt.columnText = b.createdAt.columnText then a.id ≤ b.id
  else b.createdAt.columnText < a.createdAt.columnText

/-- `a` is not older than `b`, as texts of the column. -/
def notOlder (a b : EntryRow) : Bool := b.createdAt.columnText ≤ a.createdAt.columnText

end EntryRow

/-- The rows of the table in the order of insertion. -/
structure TableLedger where
  rows : List EntryRow
deriving DecidableEq, Repr

namespace TableLedger

def empty : TableLedger := ⟨[]⟩

def row? (l : TableLedger) (id : String) : Option EntryRow := l.rows.find? fun r => r.id == id

/-! ## Writing -/

/-- Inserts the entries of a batch whose ids are new, one statement each, and counts them. -/
def insertEach (e : Engine) : Nat → List Entry → TableLedger →
    Except StoreError (Nat × TableLedger)
  | _, [], l => .ok (0, l)
  | n, x :: xs, l => do
    let takesEffect ← (e.askChange n (.insertEntry x.side.name)).mapError StoreError.ofEngine
    if takesEffect && (l.row? x.id).isNone then
      let (count, l) ← insertEach e (n + 1) xs ⟨l.rows ++ [.ofEntry x]⟩
      .ok (count + 1, l)
    else insertEach e (n + 1) xs l

def insertUnit (e : Engine) (batch : List Entry) (l : TableLedger) :
    Except StoreError (Nat × TableLedger) := do
  checkDistinctIds batch
  (e.ask 0 .beginUnit).mapError StoreError.ofEngine
  let (count, l) ← insertEach e 1 batch l
  (e.ask (batch.length + 1) .commitUnit).mapError StoreError.ofEngine
  .ok (count, l)

def insertEntries (e : Engine) (batch : List Entry) (l : TableLedger) :
    Except StoreError Nat × TableLedger :=
  atomically l (insertUnit e batch l)

/-- The unit of work that marks an entry deleted; where nothing was marked a second statement finds
out whether the entry is there. -/
def deleteUnit (e : Engine) (now : Instant) (id : String) (l : TableLedger) :
    Except StoreError (Unit × TableLedger) := do
  let isTarget (r : EntryRow) : Bool := r.id == id && r.isLive
  let mark (r : EntryRow) : EntryRow :=
    if isTarget r then { r with deletedAt := some now, updatedAt := now } else r
  let found := l.rows.any isTarget
  let takesEffect ← (e.askChange 0 (.updateEntry found)).mapError StoreError.ofEngine
  if takesEffect && found then .ok ((), ⟨l.rows.map mark⟩)
  else
    (e.ask 1 .read).mapError StoreError.ofEngine
    if (l.row? id).isSome then .ok ((), l) else .error (.notFound id)

def softDelete (e : Engine) (now : Instant) (id : String) (l : TableLedger) :
    Except StoreError Unit × TableLedger :=
  atomically l (deleteUnit e now id l)

/-! ## Reading -/

/-- The entries of rows; the first row that cannot be read is reported. -/
def readRows (e : Engine) (rows : List EntryRow) : Except StoreError (List Entry) := do
  (e.ask 0 .read).mapError StoreError.ofEngine
  rows.mapM EntryRow.toEntry

/-- The entries of an account, newest first. -/
def entriesByAccount (e : Engine) (account : String) (l : TableLedger) :
    Except StoreError (List Entry) :=
  readRows e ((l.rows.filter fun r => r.account == account && r.isLive).mergeSort
    EntryRow.newerFirst)

/-- The entries of an account on one side, newest first. -/
def entriesBySide (e : Engine) (side : Side) (account : String) (l : TableLedger) :
    Except StoreError (List Entry) :=
  let isWanted (r : EntryRow) : Bool := r.side == side.name && r.account == account && r.isLive
  readRows e ((l.rows.filter isWanted).mergeSort EntryRow.newerFirst)

/-- The entries of a transaction, the debit first. -/
def entriesByTransaction (e : Engine) (transactionId : String) (l : TableLedger) :
    Except StoreError (List Entry) :=
  let rows := l.rows.filter fun r => r.transactionId == transactionId
  readRows e (rows.filter (fun r => r.side == Side.debit.name)
    ++ rows.filter (fun r => r.side != Side.debit.name))

def addBalance (sum : Decimal) (text : String) : Except (Halt StoreError) Decimal := do
  let d ← (EntryRow.readDecimal text).mapError Halt.refused
  (sum.add d).mapError Halt.overflow

/-- The balance of an account, added up from the newest row to the oldest, rows of one age in the
order of insertion; only the balance column is read. -/
def accountBalance (e : Engine) (account : String) (l : TableLedger) :
    Except (Halt StoreError) Decimal := do
  (e.ask 0 .read).mapError fun cause => Halt.refused (StoreError.ofEngine cause)
  let rows := (l.rows.filter fun r => r.account == account && r.isLive).mergeSort EntryRow.notOlder
  (rows.map (·.balance)).foldlM addBalance .zero

def store (e : Engine) : LedgerStore TableLedger where
  insertEntries := insertEntries e
  entriesByAccount := entriesByAccount e
  entriesBySide := entriesBySide e
  entriesByTransaction := entriesByTransaction e
  accountBalance := accountBalance e
  softDelete := softDelete e

end TableLedger

end TransferLedger
