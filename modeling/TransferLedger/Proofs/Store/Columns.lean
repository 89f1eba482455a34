import TransferLedger.Proofs.Bank.Operations
import TransferLedger.Proofs.Instant.ReadBack
import TransferLedger.Proofs.Ledger.Reading

/-! # Rows as columns of texts

A database holds a row as one text for each column, or none for `NULL`, the times in it as well (`Columns`). A
row is read back from its columns (`ofColumns?_columns`), and a query that looks at columns finds the rows that
the operations on a table find (`Bank.selectAccount_eq` and the like).
-/

namespace TransferLedger
set_option autoImplicit false

/-- What each column of a row holds; none is `NULL`. -/
abbrev Columns := List (String × Option String)

namespace Columns

variable (cs : Columns) (name : String)

def text? : Option String := (cs.lookup name).join

/-- The time in a column, if it holds one. -/
def time? : Option Instant := (cs.text? name).bind fun s => (Instant.read s).toOption

/-- The time in a column that may be `NULL`. -/
def nullableTime? : Option (Option Instant) :=
  match cs.lookup name with
  | some (some s) => (Instant.read s).toOption.map some
  | some none => some none
  | none => none

variable {cs : Columns} {name : String} {t : Instant}

theorem time?_eq (ht : t.Representable) (h : cs.text? name = some t.columnText) :
    cs.time? name = some t := by
  rw [time?, h, Option.bind_some, Instant.read_columnText ht]
  rfl

theorem nullableTime?_eq {d : Option Instant} (hd : ∀ t ∈ d, t.Representable)
    (h : cs.lookup name = some (d.map Instant.columnText)) : cs.nullableTime? name = some d := by
  rw [nullableTime?, h]
  cases d with
  | none => rfl
  | some t =>
    rw [Option.map_some]
    simp only [Instant.read_columnText (hd t rfl)]
    rfl

end Columns

/-! ## Accounts -/

namespace AccountRow

def columns (r : AccountRow) : Columns :=
  [("id", r.id), ("owner_id", r.ownerId), ("name", r.name), ("currency", r.currency),
    ("balance", r.balance), ("status", r.status), ("created_at", r.createdAt.columnText),
    ("updated_at", r.updatedAt.columnText), ("deleted_at", r.deletedAt.map Instant.columnText)]

def ofColumns? (cs : Columns) : Option AccountRow := do
  let id ← cs.text? "id"
  let ownerId ← cs.text? "owner_id"
  let name ← cs.text? "name"
  let currency ← cs.text? "currency"
  let balance ← cs.text? "balance"
  let status ← cs.text? "status"
  let createdAt ← cs.time? "created_at"
  let updatedAt ← cs.time? "updated_at"
  let deletedAt ← cs.nullableTime? "deleted_at"
  some ⟨id, ownerId, name, currency, balance, status, createdAt, updatedAt, deletedAt⟩

theorem ofColumns?_columns {a : Account} (h : a.Timed) :
    ofColumns? (ofAccount a).columns = some (ofAccount a) := by
  have hcreated : (ofAccount a).columns.time? "created_at" = some a.createdAt := Columns.time?_eq h.1 rfl
  have hupdated : (ofAccount a).columns.time? "updated_at" = some a.updatedAt := Columns.time?_eq h.2.1 rfl
  have hdeleted : (ofAccount a).columns.nullableTime? "deleted_at" = some a.deletedAt :=
    Columns.nullableTime?_eq h.2.2 rfl
  rw [ofColumns?, hcreated, hupdated, hdeleted]
  rfl

end AccountRow

/-! ## Records -/

namespace TransactionRow

def columns (r : TransactionRow) : Columns :=
  [("id", r.id), ("from_account_id", r.fromAccount), ("to_account_id", r.toAccount),
    ("transaction_type", r.type), ("amount", r.amount), ("currency", r.currency),
    ("description", r.description), ("status", r.status), ("created_at", r.createdAt.columnText),
    ("updated_at", r.updatedAt.columnText)]

def ofColumns? (cs : Columns) : Option TransactionRow := do
  let id ← cs.text? "id"
  let fromAccount ← cs.text? "from_account_id"
  let toAccount ← cs.text? "to_account_id"
  let type ← cs.text? "transaction_type"
  let amount ← cs.text? "amount"
  let currency ← cs.text? "currency"
  let description ← cs.text? "description"
  let status ← cs.text? "status"
  let createdAt ← cs.time? "created_at"
  let updatedAt ← cs.time? "updated_at"
  some ⟨id, fromAccount, toAccount, type, amount, currency, description, status, createdAt, updatedAt⟩

theorem ofColumns?_columns {t : Transaction} (h : t.Timed) :
    ofColumns? (ofTransaction t).columns = some (ofTransaction t) := by
  have hcreated : (ofTransaction t).columns.time? "created_at" = some t.createdAt := Columns.time?_eq h.1 rfl
  have hupdated : (ofTransaction t).columns.time? "updated_at" = some t.updatedAt := Columns.time?_eq h.2 rfl
  rw [ofColumns?, hcreated, hupdated]
  rfl

end TransactionRow

/-! ## Entries -/

namespace EntryRow

def columns (r : EntryRow) : Columns :=
  [("id", r.id), ("account_id", r.account), ("transaction_id", r.transactionId), ("entry_type", r.side),
    ("amount", r.amount), ("balance", r.balance), ("currency", r.currency), ("description", r.description),
    ("created_at", r.createdAt.columnText), ("updated_at", r.updatedAt.columnText),
    ("deleted_at", r.deletedAt.map Instant.columnText)]

def ofColumns? (cs : Columns) : Option EntryRow := do
  let id ← cs.text? "id"
  let account ← cs.text? "account_id"
  let transactionId ← cs.text? "transaction_id"
  let side ← cs.text? "entry_type"
  let amount ← cs.text? "amount"
  let balance ← cs.text? "balance"
  let currency ← cs.text? "currency"
  let description ← cs.text? "description"
  let createdAt ← cs.time? "created_at"
  let updatedAt ← cs.time? "updated_at"
  let deletedAt ← cs.nullableTime? "deleted_at"
  some ⟨id, account, transactionId, side, amount, balance, currency, description, createdAt, updatedAt,
    deletedAt⟩

theorem ofColumns?_columns {x : Entry} (h : x.Timed) :
    ofColumns? (ofEntry x).columns = some (ofEntry x) := by
  have hcreated : (ofEntry x).columns.time? "created_at" = some x.createdAt := Columns.time?_eq h.1 rfl
  have hupdated : (ofEntry x).columns.time? "updated_at" = some x.updatedAt := Columns.time?_eq h.2.1 rfl
  have hdeleted : (ofEntry x).columns.nullableTime? "deleted_at" = some x.deletedAt :=
    Columns.nullableTime?_eq h.2.2 rfl
  rw [ofColumns?, hcreated, hupdated, hdeleted]
  rfl

end EntryRow

/-! ## Queries -/

namespace Bank

/-- The columns of the live account with an id. -/
def selectAccount (b : Bank) (id : String) : Option Columns :=
  (b.accounts.map AccountRow.columns).find? fun cs =>
    cs.text? "id" == some id && (cs.text? "deleted_at").isNone

/-- The columns of the record with an id. -/
def selectTransaction (b : Bank) (id : String) : Option Columns :=
  (b.transactions.map TransactionRow.columns).find? fun cs => cs.text? "id" == some id

theorem selectAccount_eq (b : Bank) (id : String) :
    b.selectAccount id = (b.liveAccount? id).map AccountRow.columns := by
  rw [selectAccount, List.find?_map, liveAccount?]
  refine congrArg (fun p => (b.accounts.find? p).map AccountRow.columns) (funext fun r => ?_)
  have hdeleted : r.columns.text? "deleted_at" = r.deletedAt.map Instant.columnText := rfl
  have hid : r.columns.text? "id" = some r.id := rfl
  simp only [Function.comp_apply, hdeleted, hid, Option.isNone_map, Option.some_beq_some,
    AccountRow.isLive]

theorem selectTransaction_eq (b : Bank) (id : String) :
    b.selectTransaction id = (b.transaction? id).map TransactionRow.columns := by
  rw [selectTransaction, List.find?_map, transaction?]
  refine congrArg (fun p => (b.transactions.find? p).map TransactionRow.columns) (funext fun r => ?_)
  have hid : r.columns.text? "id" = some r.id := rfl
  simp only [Function.comp_apply, hid, Option.some_beq_some]

end Bank

/-- The columns of the entries of a transaction, the debits first. -/
def TableLedger.selectByTransaction (l : TableLedger) (transactionId : String) : List Columns :=
  let found := (l.rows.map EntryRow.columns).filter fun cs => cs.text? "transaction_id" == some transactionId
  found.filter (fun cs => cs.text? "entry_type" == some Side.debit.name) ++
    found.filter fun cs => cs.text? "entry_type" != some Side.debit.name

theorem TableLedger.selectByTransaction_listing (es : List Entry) (transactionId : String) :
    (listing es).selectByTransaction transactionId =
      (Entry.debitsFirst (es.filter fun x => x.transactionId == transactionId)).map
        fun x => (EntryRow.ofEntry x).columns := by
  have htransaction : ∀ x : Entry, (EntryRow.ofEntry x).columns.text? "transaction_id" =
      some x.transactionId := fun _ => rfl
  have hside : ∀ x : Entry, (EntryRow.ofEntry x).columns.text? "entry_type" = some x.side.name :=
    fun _ => rfl
  have hdebit : ∀ x : Entry, (x.side.name == Side.debit.name) = (x.side == .debit) := side_eq_debit
  simp only [selectByTransaction, listing, Entry.debitsFirst, List.map_map, List.filter_map, List.map_append,
    Function.comp_def, htransaction, hside, Option.some_beq_some, hdebit, bne]

end TransferLedger
