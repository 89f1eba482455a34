import TransferLedger.Proofs.Instant.Order
import TransferLedger.Proofs.Ledger.Totals

/-! # What the indexes hold after any history

Insertions append to the three indexes and deletions leave them alone, so after any writes an index has under a
key the ids of what arrived with this key, the first of each id, in the order of arrival
(`MemoryLedger.Filing`). The queries by account and by side are then filters of all that is stored, sorted
by a strict order (`Entry.Precedes`), which leaves them no choice.
-/

namespace TransferLedger
set_option autoImplicit false

/-! ## The order of a query -/

namespace Entry

variable {a b c : Entry}

/-- Newer, or of one age and with the smaller id. -/
def Precedes (a b : Entry) : Prop :=
  b.createdAt.cmp a.createdAt = .lt ∨ a.createdAt = b.createdAt ∧ a.id < b.id

theorem newerFirst_iff : newerFirst a b = true ↔
    b.createdAt.cmp a.createdAt = .lt ∨ a.createdAt = b.createdAt ∧ a.id ≤ b.id := by
  unfold newerFirst
  cases hcmp : b.createdAt.cmp a.createdAt with
  | lt => simp
  | eq => simp [Instant.cmp_eq_eq.1 hcmp]
  | gt =>
    have hne : a.createdAt ≠ b.createdAt := by
      rintro heq
      rw [heq, Instant.cmp_eq_eq.2 rfl] at hcmp
      cases hcmp
    simp [hne]

theorem newerFirst_trans (a b c : Entry) (hab : newerFirst a b = true) (hbc : newerFirst b c = true) :
    newerFirst a c = true := by
  rw [newerFirst_iff, Instant.cmp_eq_lt] at hab hbc ⊢
  obtain hab | ⟨hab, hid⟩ := hab
  · left
    obtain hbc | ⟨hbc, -⟩ := hbc
    · omega
    · rwa [← hbc]
  · rw [hab]
    exact hbc.imp_right fun ⟨h, hid'⟩ => ⟨h, String.le_trans hid hid'⟩

theorem newerFirst_total (a b : Entry) : (newerFirst a b || newerFirst b a) = true := by
  rw [Bool.or_eq_true, newerFirst_iff, newerFirst_iff]
  cases hcmp : b.createdAt.cmp a.createdAt with
  | lt => exact .inl (.inl rfl)
  | gt => exact .inr (.inl (Instant.cmp_eq_gt.1 hcmp))
  | eq =>
    have heq := Instant.cmp_eq_eq.1 hcmp
    exact (String.le_total a.id b.id).imp (fun h => .inr ⟨heq.symm, h⟩) fun h => .inr ⟨heq, h⟩

theorem Precedes.asymm (hab : a.Precedes b) (hba : b.Precedes a) : False := by
  unfold Precedes at hab hba
  rw [Instant.cmp_eq_lt] at hab hba
  obtain hab | ⟨heq, hid⟩ := hab
  · obtain hba | ⟨heq, -⟩ := hba
    · omega
    · rw [heq] at hab
      omega
  · obtain hba | ⟨-, hid'⟩ := hba
    · rw [heq] at hba
      omega
    · exact String.lt_asymm hid hid'

theorem mem_newestLive {es : List Entry} : a ∈ newestLive es ↔ a ∈ es ∧ a.isDeleted = false := by
  rw [newestLive, List.mem_mergeSort, List.mem_filter, Bool.not_eq_true']

/-- Where ids are different, no two entries of a query can change places. -/
theorem newestLive_precedes {es : List Entry} (h : (es.map (·.id)).Nodup) :
    (newestLive es).Pairwise Precedes := by
  refine pairwise_mergeSort_of_key newerFirst_trans newerFirst_total (fun a b hle hne => ?_)
    (h.sublist (List.filter_sublist.map _))
  obtain hnewer | ⟨htime, hid⟩ := newerFirst_iff.1 hle
  · exact .inl hnewer
  · exact .inr ⟨htime, String.not_le.1 fun hle => hne (String.le_antisymm hid hle)⟩

/-- A strict order leaves one way to list some entries. -/
theorem eq_of_precedes {es fs : List Entry} (hes : es.Pairwise Precedes) (hfs : fs.Pairwise Precedes)
    (h : ∀ x, x ∈ es ↔ x ∈ fs) : es = fs := by
  have hne : ∀ {gs : List Entry}, gs.Pairwise Precedes → gs.Nodup := fun hgs =>
    hgs.imp fun hab heq => (heq ▸ hab).asymm (heq ▸ hab)
  refine List.Perm.eq_of_pairwise (fun a b _ _ hab hba => (hab.asymm hba).elim) hes hfs ?_
  exact (List.perm_ext_iff_of_nodup (hne hes) (hne hfs)).2 h

end Entry

/-! ## The store in memory -/

namespace MemoryLedger

variable {l : MemoryLedger} {arrived : List Entry}

/-- The index has under every key the ids of the stored entries with that key, each once, and they come as
what arrived does. -/
structure Filing {κ : Type} [DecidableEq κ] (l : MemoryLedger) (arrived : List Entry) (index : IdIndex κ)
    (key : Entry → κ) : Prop where
  once : ∀ k, (index.ids k).Nodup
  mem_iff : ∀ k id, id ∈ index.ids k ↔ ∃ e, l.entry? id = some e ∧ key e = k
  in_order : ∀ k, index.ids k = (arrived.filter fun e => key e = k).map (·.id)

/-- The answer has the stored entries that are picked and not deleted, newest first. -/
structure Lists (l : MemoryLedger) (pick : Entry → Prop) (answer : List Entry) : Prop where
  mem_iff : ∀ e, e ∈ answer ↔ l.entry? e.id = some e ∧ pick e ∧ e.isDeleted = false
  sorted : answer.Pairwise Entry.Precedes

theorem Indexed.filing {κ : Type} [DecidableEq κ] (h : l.Indexed) {index : IdIndex κ} {key : Entry → κ}
    (hlists : index.Lists key l.entries) {deletion : Entry → Option Instant}
    (hstored : l.entries = arrived.map fun x => keeping.aged x (deletion x))
    (hkey : ∀ x d, key (keeping.aged x d) = key x) : l.Filing arrived index key where
  once k := by
    rw [hlists k]
    exact h.ids_nodup.sublist (List.filter_sublist.map _)
  mem_iff k id := by
    rw [hlists k, List.mem_map]
    constructor
    · rintro ⟨e, he, rfl⟩
      rw [List.mem_filter, decide_eq_true_eq] at he
      exact ⟨e, h.entry?_of_mem he.1, he.2⟩
    · rintro ⟨e, he, hk⟩
      obtain ⟨hmem, hid⟩ := entry?_eq_some he
      exact ⟨e, List.mem_filter.2 ⟨hmem, decide_eq_true hk⟩, hid⟩
  in_order k := by
    have hid : ∀ x d, (keeping.aged x d).id = x.id := keeping.id_aged
    rw [hlists k, hstored, List.filter_map, List.map_map]
    simp only [Function.comp_def, hkey, hid]

theorem Indexed.lists (h : l.Indexed) (pick : Entry → Prop) [DecidablePred pick] :
    l.Lists pick (Entry.newestLive (l.entries.filter fun e => pick e)) where
  mem_iff e := by
    rw [Entry.mem_newestLive, List.mem_filter, decide_eq_true_eq, and_assoc]
    refine and_congr_left fun _ => ⟨h.entry?_of_mem, fun he => (entry?_eq_some he).1⟩
  sorted := Entry.newestLive_precedes (h.ids_nodup.sublist (List.filter_sublist.map _))

/-- Picking some of an answer is the answer to picking less. -/
theorem Lists.filter {pick : Entry → Prop} {answer : List Entry} (h : l.Lists pick answer)
    (p : Entry → Bool) : l.Lists (fun e => pick e ∧ p e = true) (answer.filter p) where
  mem_iff e := by
    rw [List.mem_filter, h.mem_iff]
    tauto
  sorted := h.sorted.sublist List.filter_sublist

end MemoryLedger

/-- **The indexes are exact.** What was written before makes no difference to a query but through the entries. -/
theorem MemoryLedger.indexes_exact (writes : List (LedgerWrite Unit)) :
    let l := LedgerWrite.run (fun _ => store) .empty writes
    let arrived := Entry.firsts (LedgerWrite.arrivals (fun _ => store) .empty writes)
    l.Filing arrived l.byAccount (·.account) ∧
      l.Filing arrived l.byTransaction (·.transactionId) ∧
      l.Filing arrived l.bySide (fun e => (e.side, e.account)) ∧
      ∀ account, ∃ answer, store.entriesByAccount account l = .ok answer ∧
        l.Lists (fun e => e.account = account) answer ∧
        ∀ side, store.entriesBySide side account l = .ok (answer.filter fun e => e.side = side) := by
  intro l arrived
  have hindexed : l.Indexed := empty_indexed.run writes
  have hstored : l.entries = arrived.map fun x =>
      keeping.aged x (LedgerWrite.firstDeletion (fun _ => store) x.id empty writes) :=
    Keeping.contents_run_eq keeping_inserts keeping_deletes keeping_deletesInPlace rfl writes
  have hside : ∀ x d, (keeping.aged x d).side = x.side := key_aged fun _ _ => rfl
  have haccount : ∀ x d, (keeping.aged x d).account = x.account := key_aged fun _ _ => rfl
  have htransaction : ∀ x d, (keeping.aged x d).transactionId = x.transactionId := key_aged fun _ _ => rfl
  refine ⟨hindexed.filing hindexed.accounts hstored haccount,
    hindexed.filing hindexed.transactions hstored htransaction,
    hindexed.filing hindexed.sides hstored fun x d => by rw [hside, haccount], fun account => ?_⟩
  have hof : l.Lists (fun e => e.account = account) (l.entriesByAccount account) :=
    hindexed.entriesByAccount_eq account ▸ hindexed.lists _
  refine ⟨l.entriesByAccount account, rfl, hof, fun side => congrArg Except.ok ?_⟩
  have hsided : l.Lists (fun e => (e.side, e.account) = (side, account)) (l.entriesBySide side account) :=
    hindexed.entriesBySide_eq side account ▸ hindexed.lists _
  have hpicked := hof.filter fun e => e.side = side
  refine Entry.eq_of_precedes hsided.sorted hpicked.sorted fun e => ?_
  rw [hsided.mem_iff, hpicked.mem_iff, Prod.mk.injEq, decide_eq_true_eq, and_comm (a := e.side = side)]

end TransferLedger
