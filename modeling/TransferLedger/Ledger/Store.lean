import TransferLedger.Ledger.Error

/-!
What a ledger store can do. Entries are only ever added; deleting one marks it. A batch goes in as a
whole or not at all, and ids that are stored already are passed over.
-/
namespace TransferLedger
set_option autoImplicit false

/-- The operations of a ledger store with contents `σ`. -/
structure LedgerStore (σ : Type) where
  /-- Adds the entries whose ids are new, and counts them. -/
  insertEntries : List Entry → σ → Except StoreError Nat × σ
  /-- The entries of an account that are not deleted, newest first. -/
  entriesByAccount : String → σ → Except StoreError (List Entry)
  /-- Those of one side, newest first. -/
  entriesBySide : Side → String → σ → Except StoreError (List Entry)
  /-- The entries of a transaction, deleted ones included, the debit first. -/
  entriesByTransaction : String → σ → Except StoreError (List Entry)
  /-- The sum of the contributions of an account's entries that are not deleted. -/
  accountBalance : String → σ → Except (Halt StoreError) Decimal
  /-- Marks an entry deleted at a time, unless it is already. -/
  softDelete : Instant → String → σ → Except StoreError Unit × σ

def LedgerStore.within {σ τ : Type} (store : LedgerStore σ) (get : τ → σ) (put : σ → τ → τ) :
    LedgerStore τ where
  insertEntries := fun batch t =>
    let (outcome, s) := store.insertEntries batch (get t)
    (outcome, put s t)
  entriesByAccount := fun account t => store.entriesByAccount account (get t)
  entriesBySide := fun side account t => store.entriesBySide side account (get t)
  entriesByTransaction := fun id t => store.entriesByTransaction id (get t)
  accountBalance := fun account t => store.accountBalance account (get t)
  softDelete := fun now id t =>
    let (outcome, s) := store.softDelete now id (get t)
    (outcome, put s t)

def repeatedId? : List String → List Entry → Option String
  | _, [] => none
  | seen, e :: es => if seen.contains e.id then some e.id else repeatedId? (e.id :: seen) es

/-- A batch may carry no id twice. -/
def checkDistinctIds (batch : List Entry) : Except StoreError Unit :=
  match repeatedId? [] batch with
  | some id => .error (.other s!"entry {id} appears twice in one insert")
  | none => .ok ()

namespace Entry

/-- Newest first; of one age, by id. -/
def newerFirst (a b : Entry) : Bool :=
  match Instant.cmp b.createdAt a.createdAt with
  | .lt => true
  | .eq => a.id ≤ b.id
  | .gt => false

/-- The entries that are not deleted, newest first. -/
def newestLive (es : List Entry) : List Entry :=
  (es.filter fun e => !e.isDeleted).mergeSort newerFirst

/-- The debits before all others, each group in its order. -/
def debitsFirst (es : List Entry) : List Entry :=
  es.filter (fun e => e.side == .debit) ++ es.filter (fun e => e.side != .debit)

/-- The entry, marked deleted at a time. -/
def markDeleted (e : Entry) (now : Instant) : Entry :=
  { e with deletedAt := some now, updatedAt := now }

end Entry

end TransferLedger
