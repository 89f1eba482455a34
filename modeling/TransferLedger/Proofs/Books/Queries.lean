import Mathlib.Data.List.Sort
import TransferLedger.Proofs.Books.Register
import TransferLedger.Service.Reconciliation

/-! # What the services read from the books

Where no statement fails, the services find in the tables what the register has: a live account
(`Sound.get`), the committed transfers, oldest first (`successful_eq`), and the records of an account,
newest first (`Sound.transactions`). Both lists have each record once, and are in the order in which the
database compares the texts of their times.
-/

namespace TransferLedger
set_option autoImplicit false

namespace Transaction

/-- The record is not older than the other, as the texts of their times say. -/
def newerFirst (t t' : Transaction) : Bool := t'.createdAt.columnText ≤ t.createdAt.columnText

/-- The record is not newer than the other, as the texts of their times say. -/
def olderFirst (t t' : Transaction) : Bool := t.createdAt.columnText ≤ t'.createdAt.columnText

end Transaction

namespace Register

variable {g : Register}

/-- The committed transfers, oldest first. -/
def committed (g : Register) : List Transaction :=
  (g.records.filter fun t => t.status = .success).mergeSort Transaction.olderFirst

/-- The records of an account, newest first. -/
def recordsOf (g : Register) (id : String) : List Transaction :=
  (g.records.filter (·.touches id)).mergeSort Transaction.newerFirst

theorem mem_committed {t : Transaction} :
    t ∈ g.committed ↔ t ∈ g.records ∧ t.status = .success := by
  rw [committed, List.mem_mergeSort, List.mem_filter, decide_eq_true_eq]

theorem mem_recordsOf {t : Transaction} {id : String} :
    t ∈ g.recordsOf id ↔ t ∈ g.records ∧ t.touches id = true := by
  rw [recordsOf, List.mem_mergeSort, List.mem_filter]

theorem committed_sorted (g : Register) :
    g.committed.Pairwise fun t t' => t.createdAt.columnText ≤ t'.createdAt.columnText := by
  have hsorted : g.committed.Pairwise fun t t' => t.olderFirst t' = true := by
    refine List.pairwise_mergeSort (fun t t' t'' h h' => ?_) (fun t t' => ?_) _
    · exact decide_eq_true (String.le_trans (of_decide_eq_true h) (of_decide_eq_true h'))
    · rw [Bool.or_eq_true]
      exact (String.le_total t.createdAt.columnText t'.createdAt.columnText).imp decide_eq_true
        decide_eq_true
  exact hsorted.imp of_decide_eq_true

theorem Sound.committed_nodup (hg : g.Sound) : (g.committed.map (·.id)).Nodup := by
  have hperm : g.committed.Perm (g.records.filter fun t => t.status = .success) :=
    List.mergeSort_perm _ _
  rw [(hperm.map _).nodup_iff]
  exact hg.recordIds.sublist (List.filter_sublist.map _)

theorem Sound.recordsOf_nodup (hg : g.Sound) (id : String) : ((g.recordsOf id).map (·.id)).Nodup := by
  have hperm : (g.recordsOf id).Perm (g.records.filter (·.touches id)) := List.mergeSort_perm _ _
  rw [(hperm.map _).nodup_iff]
  exact hg.recordIds.sublist (List.filter_sublist.map _)

/-! ## Queries -/

theorem successful_eq (g : Register) : Transactions.successful .sound g.books.bank = .ok g.committed := by
  have hstatus : (fun r : TransactionRow => r.status == TransactionStatus.success.name) ∘
      TransactionRow.ofTransaction = fun t => decide (t.status = .success) := by
    funext t
    obtain ⟨_, _, _, _, _, _, _, status, _, _⟩ := t
    cases status <;> rfl
  have hrows : (g.books.bank.transactions.filter fun r =>
      r.status == TransactionStatus.success.name).mergeSort TransactionRow.olderFirst =
        g.committed.map .ofTransaction := by
    have hsort := List.map_mergeSort (r := Transaction.olderFirst) (s := TransactionRow.olderFirst)
      (f := TransactionRow.ofTransaction) (l := g.records.filter fun t => t.status = .success)
      fun _ _ _ _ => rfl
    rw [committed, hsort, ← hstatus, ← List.filter_map]
    rfl
  have hread : g.books.bank.transactionsWithStatus .sound .success = .ok g.committed := by
    rw [Bank.transactionsWithStatus, hrows]
    exact TransactionRow.mapM_toTransaction g.committed
  rw [Transactions.successful, Transfer.withStatus, hread]
  rfl

theorem transactionsOf_eq (g : Register) (id : String) :
    g.books.bank.transactionsOf .sound id = .ok (g.recordsOf id) := by
  have hrows : (g.books.bank.transactions.filter (·.touches id)).mergeSort TransactionRow.newerFirst =
      (g.recordsOf id).map .ofTransaction := by
    have htouches : (fun r : TransactionRow => r.touches id) ∘ TransactionRow.ofTransaction =
        fun t => t.touches id := rfl
    have hsort := List.map_mergeSort (r := Transaction.newerFirst) (s := TransactionRow.newerFirst)
      (f := TransactionRow.ofTransaction) (l := g.records.filter (·.touches id)) fun _ _ _ _ => rfl
    rw [recordsOf, hsort, ← htouches, ← List.filter_map]
    rfl
  rw [Bank.transactionsOf, hrows]
  exact TransactionRow.mapM_toTransaction (g.recordsOf id)

theorem Sound.liveAccount? (hg : g.Sound) {id : String} {a : Account} (ha : g.Live id a) :
    g.books.bank.liveAccount? id = some (.ofAccount a) := by
  have hmem : AccountRow.ofAccount a ∈ g.books.bank.accounts := List.mem_map_of_mem ha.mem
  have hlive : ((AccountRow.ofAccount a).id == id && (AccountRow.ofAccount a).isLive) = true := by
    simp [AccountRow.ofAccount, AccountRow.isLive, ha.id_eq, ha.not_deleted]
  cases hfind : g.books.bank.liveAccount? id with
  | none => exact absurd hlive (List.find?_eq_none.1 hfind _ hmem)
  | some row =>
    obtain ⟨hrow, hid, -⟩ := Bank.liveAccount?_eq_some hfind
    obtain ⟨b, hb, rfl⟩ := List.mem_map.1 hrow
    have heq : b = a := List.inj_on_of_nodup_map hg.accountIds hb ha.mem (hid.trans ha.id_eq.symm)
    rw [heq]

theorem Sound.get (hg : g.Sound) {id : String} {a : Account} (ha : g.Live id a) :
    Accounts.get .sound id g.books.bank = .ok a := by
  have hread : g.books.bank.getAccount .sound id = .ok a := by
    have hrow : g.books.bank.accountRow .sound 0 id = .ok (.ofAccount a) := by
      rw [Bank.accountRow, hg.liveAccount? ha]
      rfl
    rw [Bank.getAccount, hrow]
    exact AccountRow.toAccount_ofAccount a
  rw [Accounts.get, hread]
  rfl

theorem Sound.transactions (hg : g.Sound) {id : String} {a : Account} (ha : g.Live id a) :
    Accounts.transactions .sound id g.books.bank = .ok (g.recordsOf id) := by
  have hread : g.books.bank.transactionsOf (Engine.sound.after 1) id = .ok (g.recordsOf id) :=
    g.transactionsOf_eq id
  rw [Accounts.transactions, hg.get ha, hread]
  rfl

end Register

end TransferLedger
