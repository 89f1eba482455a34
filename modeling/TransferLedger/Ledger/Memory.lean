import TransferLedger.Ledger.Store

/-!
A ledger store in memory: the entries by id, and three indexes that list ids by account, by
transaction, and by side and account, each in the order of insertion. Inserting writes to all four,
deleting only to the entries.
-/
namespace TransferLedger
set_option autoImplicit false

/-- For every key the ids filed under it, in the order of filing. -/
abbrev IdIndex (κ : Type) := List (κ × List String)

namespace IdIndex

variable {κ : Type} [DecidableEq κ]

def ids (index : IdIndex κ) (key : κ) : List String :=
  match index.find? fun e => e.1 = key with
  | some e => e.2
  | none => []

def file (index : IdIndex κ) (key : κ) (id : String) : IdIndex κ :=
  match index with
  | [] => [(key, [id])]
  | (k, ids) :: rest =>
    if k = key then (k, ids ++ [id]) :: rest else (k, ids) :: file rest key id

end IdIndex

/-- The entries and their indexes. -/
structure MemoryLedger where
  entries : List Entry
  byAccount : IdIndex String
  byTransaction : IdIndex String
  bySide : IdIndex (Side × String)
deriving DecidableEq, Repr

namespace MemoryLedger

def empty : MemoryLedger := ⟨[], [], [], []⟩

def entry? (l : MemoryLedger) (id : String) : Option Entry := l.entries.find? fun e => e.id == id

/-- The number of entries, deleted ones included. -/
def size (l : MemoryLedger) : Nat := l.entries.length

/-- Adds one entry and files its id under its three keys. -/
def add (l : MemoryLedger) (e : Entry) : MemoryLedger where
  entries := l.entries ++ [e]
  byAccount := l.byAccount.file e.account e.id
  byTransaction := l.byTransaction.file e.transactionId e.id
  bySide := l.bySide.file (e.side, e.account) e.id

/-- Adds the entries of a batch whose ids are new, and counts them. -/
def addNew : List Entry → MemoryLedger → Nat × MemoryLedger
  | [], l => (0, l)
  | e :: es, l =>
    if (l.entry? e.id).isSome then addNew es l
    else
      let (n, l) := addNew es (l.add e)
      (n + 1, l)

def insertEntries (batch : List Entry) (l : MemoryLedger) : Except StoreError Nat × MemoryLedger :=
  match checkDistinctIds batch with
  | .error e => (.error e, l)
  | .ok () =>
    let (n, l) := addNew batch l
    (.ok n, l)

def lookup (l : MemoryLedger) (ids : List String) : List Entry := ids.filterMap l.entry?

/-- The entries of an account, newest first. -/
def entriesByAccount (account : String) (l : MemoryLedger) : List Entry :=
  Entry.newestLive (l.lookup (l.byAccount.ids account))

/-- The entries of an account on one side, newest first. -/
def entriesBySide (side : Side) (account : String) (l : MemoryLedger) : List Entry :=
  Entry.newestLive (l.lookup (l.bySide.ids (side, account)))

/-- The entries of a transaction, the debit first. -/
def entriesByTransaction (transactionId : String) (l : MemoryLedger) : List Entry :=
  Entry.debitsFirst (l.lookup (l.byTransaction.ids transactionId))

/-- The balance of an account, added up in the order of insertion. -/
def accountBalance (account : String) (l : MemoryLedger) : Except Overflow Decimal :=
  Decimal.sum (((l.lookup (l.byAccount.ids account)).filter fun e => !e.isDeleted).map (·.balance))

def softDelete (now : Instant) (id : String) (l : MemoryLedger) :
    Except StoreError Unit × MemoryLedger :=
  match l.entry? id with
  | none => (.error (.notFound id), l)
  | some e =>
    if e.isDeleted then (.ok (), l)
    else
      let mark (x : Entry) : Entry := if x.id = id then x.markDeleted now else x
      (.ok (), { l with entries := l.entries.map mark })

def store : LedgerStore MemoryLedger where
  insertEntries := insertEntries
  entriesByAccount := fun account l => .ok (l.entriesByAccount account)
  entriesBySide := fun side account l => .ok (l.entriesBySide side account)
  entriesByTransaction := fun id l => .ok (l.entriesByTransaction id)
  accountBalance := fun account l =>
    match l.accountBalance account with
    | .ok d => .ok d
    | .error o => .error (.overflow o)
  softDelete := softDelete

end MemoryLedger

end TransferLedger
