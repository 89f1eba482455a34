import TransferLedger.Proofs.Ledger.Balance
import TransferLedger.Proofs.Ledger.Memory
import TransferLedger.Proofs.Store.Keyed

/-! # The indexes of the store in memory

Under every key an index lists the ids of the entries with this key, each once and in the order of the
entries (`MemoryLedger.Indexed`). Inserting and deleting keep it so, hence a query that goes through an index
is a filter of all entries (`Indexed.lookup_filter`).
-/

namespace TransferLedger
set_option autoImplicit false

namespace IdIndex

variable {κ : Type} [DecidableEq κ] {index : IdIndex κ} {key : Entry → κ} {es : List Entry}

/-- Under every key the index has the ids of the entries with that key, in their order. -/
def Lists (index : IdIndex κ) (key : Entry → κ) (es : List Entry) : Prop :=
  ∀ k, index.ids k = (es.filter fun e => key e = k).map (·.id)

theorem Lists.file (h : index.Lists key es) (e : Entry) :
    IdIndex.Lists (index.file (key e) e.id) key (es ++ [e]) := by
  intro k
  rw [ids_file, h k, List.filter_append, List.map_append]
  by_cases hk : key e = k
  · simp [hk]
  · simp [hk]

theorem Lists.map (h : index.Lists key es) {f : Entry → Entry} (hkey : ∀ e, key (f e) = key e)
    (hid : ∀ e, (f e).id = e.id) : index.Lists key (es.map f) := by
  intro k
  rw [h k, List.filter_map, List.map_map]
  simp only [Function.comp_def, hkey, hid]

end IdIndex

/-- Where ids are different, an entry is found under its id. -/
theorem Entry.find?_of_mem {es : List Entry} (h : (es.map (·.id)).Nodup) {x : Entry} (hx : x ∈ es) :
    (es.find? fun y => y.id == x.id) = some x :=
  (find?_key_eq_some h).2 ⟨hx, rfl⟩

namespace MemoryLedger

variable {l : MemoryLedger}

/-- The entries have different ids, and the three indexes list them. -/
structure Indexed (l : MemoryLedger) : Prop where
  ids_nodup : (l.entries.map (·.id)).Nodup
  accounts : l.byAccount.Lists (·.account) l.entries
  transactions : l.byTransaction.Lists (·.transactionId) l.entries
  sides : l.bySide.Lists (fun e => (e.side, e.account)) l.entries

theorem empty_indexed : empty.Indexed :=
  ⟨List.nodup_nil, fun _ => rfl, fun _ => rfl, fun _ => rfl⟩

theorem entry?_eq_none {id : String} : l.entry? id = none ↔ id ∉ l.entries.map (·.id) := by
  unfold entry?
  simp

theorem entry?_eq_some {id : String} {e : Entry} (h : l.entry? id = some e) :
    e ∈ l.entries ∧ e.id = id :=
  ⟨List.mem_of_find?_eq_some h, by simpa using List.find?_some h⟩

namespace Indexed

theorem add (h : l.Indexed) {e : Entry} (hnew : l.entry? e.id = none) :
    MemoryLedger.Indexed (l.add e) where
  ids_nodup := by
    have hids : (MemoryLedger.add l e).entries.map (·.id) = l.entries.map (·.id) ++ [e.id] := List.map_append
    rw [hids]
    exact (List.perm_append_singleton ..).nodup_iff.2 (h.ids_nodup.cons (entry?_eq_none.1 hnew))
  accounts := h.accounts.file e
  transactions := h.transactions.file e
  sides := h.sides.file e

theorem addNew : ∀ (batch : List Entry) {l : MemoryLedger}, l.Indexed →
    (MemoryLedger.addNew batch l).2.Indexed
  | [], _, h => h
  | e :: es, l, h => by
    rw [MemoryLedger.addNew]
    split
    · exact addNew es h
    · next hnew => exact addNew es (h.add (by simpa using hnew))

theorem insertEntries (h : l.Indexed) (batch : List Entry) :
    (MemoryLedger.insertEntries batch l).2.Indexed := by
  unfold MemoryLedger.insertEntries
  split
  · exact h
  · exact addNew batch h

/-- Entries may change where they stand, except in what they are filed under. -/
theorem map (h : l.Indexed) {f : Entry → Entry} (hid : ∀ e, (f e).id = e.id)
    (haccount : ∀ e, (f e).account = e.account) (htransaction : ∀ e, (f e).transactionId = e.transactionId)
    (hside : ∀ e, (f e).side = e.side) :
    MemoryLedger.Indexed { l with entries := l.entries.map f } where
  ids_nodup := by
    simpa only [List.map_map, Function.comp_def, hid] using h.ids_nodup
  accounts := h.accounts.map haccount hid
  transactions := h.transactions.map htransaction hid
  sides := h.sides.map (fun e => by rw [hside, haccount]) hid

theorem softDelete (h : l.Indexed) (now : Instant) (id : String) :
    (MemoryLedger.softDelete now id l).2.Indexed := by
  unfold MemoryLedger.softDelete
  split
  · exact h
  split
  · exact h
  refine h.map (fun e => ?_) (fun e => ?_) (fun e => ?_) fun e => ?_
  all_goals split <;> rfl

theorem entry?_of_mem (h : l.Indexed) {e : Entry} (he : e ∈ l.entries) : l.entry? e.id = some e :=
  Entry.find?_of_mem h.ids_nodup he

/-- Looking up the ids of some entries gives these entries. -/
theorem lookup_filter (h : l.Indexed) (p : Entry → Bool) :
    l.lookup ((l.entries.filter p).map (·.id)) = l.entries.filter p := by
  have hsome : ∀ e ∈ l.entries.filter p, l.entry? e.id = some e :=
    fun e he => h.entry?_of_mem (List.mem_of_mem_filter he)
  rw [lookup, List.filterMap_map]
  exact (List.filterMap_congr hsome).trans List.filterMap_some

theorem entriesByAccount_eq (h : l.Indexed) (account : String) :
    l.entriesByAccount account = Entry.newestLive (l.entries.filter fun e => e.account = account) := by
  rw [MemoryLedger.entriesByAccount, h.accounts, h.lookup_filter]

theorem entriesBySide_eq (h : l.Indexed) (side : Side) (account : String) :
    l.entriesBySide side account =
      Entry.newestLive (l.entries.filter fun e => (e.side, e.account) = (side, account)) := by
  rw [MemoryLedger.entriesBySide, h.sides, h.lookup_filter]

theorem entriesByTransaction_eq (h : l.Indexed) (id : String) :
    l.entriesByTransaction id = Entry.debitsFirst (l.entries.filter fun e => e.transactionId = id) := by
  rw [MemoryLedger.entriesByTransaction, h.transactions, h.lookup_filter]

theorem accountBalance_eq (h : l.Indexed) (account : String) :
    l.accountBalance account = Decimal.sum ((Entry.liveOf l.entries account).map (·.balance)) := by
  rw [MemoryLedger.accountBalance, h.accounts, h.lookup_filter, List.filter_filter]
  refine congrArg (fun es : List Entry => Decimal.sum (es.map (·.balance))) (List.filter_congr fun e _ => ?_)
  rw [Bool.and_comm, beq_eq_decide]

end Indexed

end MemoryLedger

end TransferLedger
