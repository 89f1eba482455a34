import TransferLedger.Ledger.Memory
import TransferLedger.Proofs.Ledger.Acceptance

/-! # A pair in memory

Filing an id under a key lengthens the list of this key (`IdIndex.ids_file`), and adding an entry makes it
the one of its id (`MemoryLedger.entry?_add_self`). So the store in memory takes pairs as the table does
(`MemoryLedger.takesPairs`).
-/

namespace TransferLedger
set_option autoImplicit false

/-! ## Indexes -/

namespace IdIndex

variable {κ : Type} [DecidableEq κ]

theorem ids_cons (k : κ) (ids : List String) (rest : IdIndex κ) (key : κ) :
    IdIndex.ids ((k, ids) :: rest) key = if k = key then ids else IdIndex.ids rest key := by
  unfold IdIndex.ids
  rw [List.find?_cons]
  by_cases hk : k = key
  · simp only [hk, decide_true, if_true]
  · simp only [hk, decide_false, if_false]

theorem ids_file (index : IdIndex κ) (key key' : κ) (id : String) :
    (index.file key id).ids key' =
      if key = key' then index.ids key' ++ [id] else index.ids key' := by
  induction index with
  | nil => exact ids_cons key [id] [] key'
  | cons e rest ih =>
    obtain ⟨k, filed⟩ := e
    rw [file, ids_cons]
    by_cases hk : k = key
    · subst hk
      rw [if_pos rfl, ids_cons]
      split
      · rfl
      · rfl
    · rw [if_neg hk, ids_cons, ih]
      by_cases hk' : k = key'
      · have hne : key ≠ key' := fun heq => hk (hk'.trans heq.symm)
        rw [if_pos hk', if_pos hk', if_neg hne]
      · rw [if_neg hk', if_neg hk']

end IdIndex

namespace MemoryLedger

/-! ## Entries -/

theorem entry?_add_of_ne {l : MemoryLedger} {e : Entry} {id : String} (h : e.id ≠ id) :
    MemoryLedger.entry? (l.add e) id = l.entry? id := by
  unfold entry? add
  rw [List.find?_append, List.find?_singleton, if_neg (by simpa using h), Option.or_none]

theorem entry?_add_self {l : MemoryLedger} {e : Entry} (h : l.entry? e.id = none) :
    MemoryLedger.entry? (l.add e) e.id = some e := by
  unfold entry? at h
  unfold entry? add
  rw [List.find?_append, h, Option.none_or, List.find?_singleton, if_pos (beq_self_eq_true e.id)]

/-- Nothing in the store belongs to this transaction. -/
structure Unknown (l : MemoryLedger) (id : String) : Prop where
  ids : ∀ side, l.entry? (Entry.idOf id side) = none
  transaction : l.byTransaction.ids id = []

namespace Unknown

variable {l : MemoryLedger} {w : Writing}

theorem addNew (h : l.Unknown w.record.id) :
    MemoryLedger.addNew w.pair l = (2, (l.add (w.entry .debit)).add (w.entry .credit)) := by
  have hdebit : l.entry? (w.entry .debit).id = none := h.ids .debit
  have hcredit : MemoryLedger.entry? (l.add (w.entry .debit)) (w.entry .credit).id = none := by
    rw [entry?_add_of_ne w.debit_ne_credit]
    exact h.ids .credit
  simp only [Writing.pair, MemoryLedger.addNew, hdebit, hcredit, Option.isSome_none, Bool.false_eq_true,
    if_false]

/-- Once the pair is added, it is all that there is of the transaction. -/
theorem entriesByTransaction (h : l.Unknown w.record.id) :
    ((l.add (w.entry .debit)).add (w.entry .credit)).entriesByTransaction w.record.id = w.pair := by
  have hids : ((l.add (w.entry .debit)).add (w.entry .credit)).byTransaction.ids w.record.id =
      [(w.entry .debit).id, (w.entry .credit).id] := by
    have htransaction : ∀ side, (w.entry side).transactionId = w.record.id := fun _ => rfl
    simp only [add, IdIndex.ids_file, htransaction, if_true, h.transaction, List.nil_append,
      List.cons_append]
  have hdebit : MemoryLedger.entry? ((l.add (w.entry .debit)).add (w.entry .credit))
      (w.entry .debit).id = some (w.entry .debit) := by
    rw [entry?_add_of_ne w.debit_ne_credit.symm]
    exact entry?_add_self (h.ids .debit)
  have hcredit : MemoryLedger.entry? ((l.add (w.entry .debit)).add (w.entry .credit))
      (w.entry .credit).id = some (w.entry .credit) := by
    apply entry?_add_self
    rw [entry?_add_of_ne w.debit_ne_credit]
    exact h.ids .credit
  rw [MemoryLedger.entriesByTransaction, hids, lookup, List.filterMap_cons_some hdebit,
    List.filterMap_cons_some hcredit]
  rfl

end Unknown

theorem takesPairs : store.TakesPairs Unknown := by
  intro w l
  have hinsert : insertEntries w.pair l = (.ok (addNew w.pair l).1, (addNew w.pair l).2) := by
    rw [insertEntries, checkDistinctIds_of_nodup w.pair_nodup]
  refine ⟨_, _, hinsert, ?_⟩
  intro hnew
  rw [hnew.addNew]
  exact congrArg Except.ok hnew.entriesByTransaction

end MemoryLedger

end TransferLedger
