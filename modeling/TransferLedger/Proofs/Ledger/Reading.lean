import Mathlib.Data.Set.Image
import Mathlib.Data.List.Basic
import TransferLedger.Proofs.Decimal.Value
import TransferLedger.Proofs.Ledger.Pairs

/-! # The entries that a ledger lists

* `EntryRow.toEntry_ofEntry`: an entry is read back from its row as it is, so a table may be taken for
  the list of its entries (`TableLedger.listing`).
* `Entry.Pairing`: these entries are, up to marks of deletion, the pairs of some writings. A table of
  pairs lists such entries (`TableLedger.Holds.exists_listing`); those of one transaction are none or
  its two (`Pairing.absent`, `Pairing.written`).
-/

namespace TransferLedger
set_option autoImplicit false

/-! ## Rows read back -/

theorem Side.ofName?_name (s : Side) : ofName? s.name = some s := by
  cases s <;> rfl

namespace EntryRow

theorem readDecimal_text (d : Decimal) : readDecimal d.text = .ok d := by
  rw [readDecimal, Decimal.read_text]

theorem toEntry_ofEntry (x : Entry) : (ofEntry x).toEntry = .ok x := by
  unfold toEntry
  simp only [ofEntry, Side.ofName?_name, readDecimal_text]
  rfl

theorem ofEntry_injective : Function.Injective ofEntry := by
  intro x y h
  have hread := congrArg toEntry h
  rwa [toEntry_ofEntry, toEntry_ofEntry, Except.ok.injEq] at hread

theorem mapM_toEntry (es : List Entry) : (es.map ofEntry).mapM toEntry = .ok es := by
  induction es with
  | nil => rfl
  | cons x es ih =>
    rw [List.map_cons, List.mapM_cons, toEntry_ofEntry, ih]
    rfl

end EntryRow

/-- The table that lists these entries. -/
def TableLedger.listing (es : List Entry) : TableLedger := ⟨es.map .ofEntry⟩

/-! ## Entries in pairs -/

/-- The entry as it was inserted. -/
def Entry.original (x : Entry) : Entry := { x with updatedAt := x.createdAt, deletedAt := none }

/-- The two entries, the debit first. -/
def Writing.pair (w : Writing) : List Entry := [w.entry .debit, w.entry .credit]

/-- The entries are, up to marks of deletion, the pairs of these writings, one for each record. -/
structure Entry.Pairing (es : List Entry) (ws : List Writing) : Prop where
  originals : es.map original = ws.flatMap Writing.pair
  distinct : (ws.map (·.record.id)).Nodup

theorem EntryRow.exists_of_original {r : EntryRow} {x : Entry} (h : r.original = ofEntry x) :
    ∃ y, ofEntry y = r := by
  refine ⟨{ x with updatedAt := r.updatedAt, deletedAt := r.deletedAt }, ?_⟩
  cases r
  cases x
  simp_all [ofEntry, original]

theorem Writing.map_pair (ws : List Writing) :
    (ws.flatMap pair).map EntryRow.ofEntry = ws.flatMap rows := by
  rw [List.map_flatMap]
  rfl

theorem TableLedger.Holds.exists_listing {l : TableLedger} {ws : List Writing} (h : l.Holds ws) :
    ∃ es, l = listing es ∧ Entry.Pairing es ws := by
  have hrows : l.rows ∈ Set.range (List.map EntryRow.ofEntry) := by
    rw [Set.range_list_map]
    intro r hr
    obtain ⟨w, -, side, hrow⟩ := h.exists_writing hr
    exact EntryRow.exists_of_original hrow
  obtain ⟨es, hes⟩ := hrows
  refine ⟨es, congrArg TableLedger.mk hes.symm, ?_, h.distinct⟩
  apply List.map_injective_iff.2 EntryRow.ofEntry_injective
  rw [Writing.map_pair, ← h.rows_eq, ← hes, List.map_map, List.map_map]
  rfl

namespace Entry.Pairing

variable {es : List Entry} {ws : List Writing}

/-- A property of entries that deletion does not touch picks what it picks among the pairs. -/
theorem filter_originals (h : Pairing es ws) {p : Entry → Bool} (hp : ∀ x, p x.original = p x) :
    (es.filter p).map original = (ws.flatMap Writing.pair).filter p := by
  rw [← h.originals, List.filter_map]
  exact congrArg (List.map original) (List.filter_congr fun x _ => (hp x).symm)

theorem filter_pairs (id : String) (ws : List Writing) :
    (ws.flatMap Writing.pair).filter (fun x => x.transactionId == id) =
      (ws.filter fun w => w.record.id == id).flatMap Writing.pair := by
  induction ws with
  | nil => rfl
  | cons w ws ih =>
    have hside : ∀ side, (w.entry side).transactionId = w.record.id := fun _ => rfl
    rw [List.flatMap_cons, List.filter_append, ih, List.filter_cons]
    by_cases hid : w.record.id = id
    · simp [Writing.pair, hside, hid]
    · simp [Writing.pair, hside, hid]

/-- The entries of one transaction, as they were inserted. -/
theorem filter_transaction (h : Pairing es ws) (id : String) :
    (es.filter fun x => x.transactionId == id).map original =
      (ws.filter fun w => w.record.id == id).flatMap Writing.pair := by
  rw [h.filter_originals fun _ => rfl, filter_pairs]

theorem absent (h : Pairing es ws) {id : String} (hid : id ∉ ws.map (·.record.id)) :
    es.filter (fun x => x.transactionId == id) = [] := by
  have hnone : ws.filter (fun w => w.record.id == id) = [] := by
    rw [List.filter_eq_nil_iff]
    intro w hw heq
    exact hid (List.mem_map.2 ⟨w, hw, eq_of_beq heq⟩)
  have hmap := h.filter_transaction id
  rw [hnone, List.flatMap_nil, List.map_eq_nil_iff] at hmap
  exact hmap

theorem filter_writing (h : Pairing es ws) {w : Writing} (hw : w ∈ ws) :
    ws.filter (fun v => v.record.id == w.record.id) = [w] := by
  have hcongr : ws.filter (fun v => v.record.id == w.record.id) = ws.filter (fun v => v == w) := by
    apply List.filter_congr
    intro v hv
    rw [Bool.eq_iff_iff, beq_iff_eq, beq_iff_eq]
    exact ⟨List.inj_on_of_nodup_map h.distinct hv hw, fun heq => congrArg (·.record.id) heq⟩
  rw [hcongr, List.filter_beq, List.count_eq_one_of_mem h.distinct.of_map hw]
  rfl

/-- The entries of a written transaction are its two. -/
theorem written (h : Pairing es ws) {w : Writing} (hw : w ∈ ws) :
    ∃ debit credit, es.filter (fun x => x.transactionId == w.record.id) = [debit, credit] ∧
      debit.original = w.entry .debit ∧ credit.original = w.entry .credit := by
  have hmap := h.filter_transaction w.record.id
  rw [h.filter_writing hw, List.flatMap_singleton, Writing.pair, List.map_eq_cons_iff] at hmap
  obtain ⟨debit, rest, hes, hdebit, hrest⟩ := hmap
  rw [List.map_eq_cons_iff] at hrest
  obtain ⟨credit, rest', rfl, hcredit, hnil⟩ := hrest
  rw [List.map_eq_nil_iff] at hnil
  subst hnil
  exact ⟨debit, credit, hes, hdebit, hcredit⟩

/-- Every entry is one side of a writing. -/
theorem exists_writing (h : Pairing es ws) {x : Entry} (hx : x ∈ es) :
    ∃ w ∈ ws, ∃ side, x.original = w.entry side := by
  have hmem : x.original ∈ ws.flatMap Writing.pair := by
    rw [← h.originals]
    exact List.mem_map_of_mem hx
  obtain ⟨w, hw, hpair⟩ := List.mem_flatMap.1 hmem
  rcases List.mem_cons.1 hpair with hside | hside
  · exact ⟨w, hw, .debit, hside⟩
  · exact ⟨w, hw, .credit, List.mem_singleton.1 hside⟩

end Entry.Pairing

/-! ## Queries -/

namespace TableLedger

/-- The number of entries of a transaction, deleted ones included. -/
def count (l : TableLedger) (id : String) : Nat := l.rows.countP fun r => r.transactionId == id

/-- The number of entries of a transaction that are not deleted. -/
def liveCount (l : TableLedger) (id : String) : Nat :=
  l.rows.countP fun r => r.transactionId == id && r.isLive

theorem readRows_sound (es : List Entry) : readRows .sound (es.map .ofEntry) = .ok es :=
  EntryRow.mapM_toEntry es

theorem side_eq_debit (x : Entry) :
    ((EntryRow.ofEntry x).side == Side.debit.name) = (x.side == .debit) := by
  obtain ⟨_, _, _, side⟩ := x
  cases side <;> rfl

/-- The entries of a transaction, the debit first. -/
theorem entriesByTransaction_listing (es : List Entry) (id : String) :
    entriesByTransaction .sound id (listing es) =
      .ok (Entry.debitsFirst (es.filter fun x => x.transactionId == id)) := by
  have hside : (fun r : EntryRow => r.side == Side.debit.name) ∘ EntryRow.ofEntry =
      fun x => x.side == .debit := funext side_eq_debit
  have hother : (fun r : EntryRow => r.side != Side.debit.name) ∘ EntryRow.ofEntry =
      fun x => x.side != .debit := funext fun x => congrArg not (side_eq_debit x)
  unfold entriesByTransaction listing
  simp only [List.filter_map, hside, hother]
  rw [← List.map_append, readRows_sound]
  rfl

theorem debitsFirst_perm (es : List Entry) : (Entry.debitsFirst es).Perm es :=
  List.filter_append_perm (fun x : Entry => x.side == Side.debit) es

theorem count_listing (es : List Entry) (id : String) :
    (listing es).count id = (es.filter fun x => x.transactionId == id).length := by
  rw [count, listing, List.countP_map, List.countP_eq_length_filter]
  rfl

theorem liveCount_listing (es : List Entry) (id : String) :
    (listing es).liveCount id =
      (es.filter fun x => x.transactionId == id).countP fun x => !x.isDeleted := by
  rw [liveCount, listing, List.countP_map, List.countP_filter]
  apply List.countP_congr
  intro x _
  simp [EntryRow.ofEntry, EntryRow.isLive, Entry.isDeleted, and_comm]

end TableLedger

end TransferLedger
