import Mathlib.Data.List.Nodup
import TransferLedger.Proofs.Ledger.Entry
import TransferLedger.Proofs.Ledger.Table

/-! # A ledger of pairs

A `Writing` is a record and the time at which its two entries were made. `Holds` says that the table
is, up to marks of deletion, the pairs of a list of writings, one for each record. Adding the pair of
a record again changes nothing and adding a new one lengthens the list (`Holds.adding`); deleting
marks rows of it only (`Holds.softDelete`).
-/

namespace TransferLedger
set_option autoImplicit false

/-- A record and the time at which its entries were made. -/
structure Writing where
  record : Transaction
  time : Instant
deriving DecidableEq, Repr

namespace Writing

/-- One of the two entries. -/
def entry (w : Writing) (side : Side) : Entry :=
  .ofEvent (.ofTransaction w.record) w.record.amount w.time side

/-- The rows of the two entries. -/
def rows (w : Writing) : List EntryRow := [.ofEntry (w.entry .debit), .ofEntry (w.entry .credit)]

theorem mem_rows {w : Writing} {r : EntryRow} : r ∈ w.rows ↔ ∃ side, r = .ofEntry (w.entry side) := by
  refine ⟨?_, ?_⟩
  · intro h
    rcases List.mem_cons.1 h with rfl | h
    · exact ⟨.debit, rfl⟩
    · exact ⟨.credit, List.mem_singleton.1 h⟩
  · rintro ⟨side, rfl⟩
    cases side with
    | debit => exact List.mem_cons_self
    | credit => exact List.mem_cons_of_mem _ (List.mem_singleton.2 rfl)

end Writing

/-- The row as it was inserted. -/
def EntryRow.original (r : EntryRow) : EntryRow := { r with updatedAt := r.createdAt, deletedAt := none }

namespace TableLedger

/-- Both entries of a record are in the table; deleted ones count. -/
def Ledgered (l : TableLedger) (t : Transaction) : Prop :=
  ∃ time, ∀ side, ∃ r ∈ l.rows, r.original = .ofEntry (Writing.entry ⟨t, time⟩ side)

/-- The table consists of the pairs of these writings. -/
structure Holds (l : TableLedger) (ws : List Writing) : Prop where
  rows_eq : l.rows.map EntryRow.original = ws.flatMap Writing.rows
  distinct : (ws.map (·.record.id)).Nodup

theorem empty_holds : empty.Holds [] := ⟨rfl, List.nodup_nil⟩

namespace Holds

variable {l : TableLedger} {ws : List Writing}

theorem exists_row (h : l.Holds ws) {w : Writing} (hw : w ∈ ws) (side : Side) :
    ∃ r ∈ l.rows, r.original = .ofEntry (w.entry side) := by
  have hmem : EntryRow.ofEntry (w.entry side) ∈ l.rows.map EntryRow.original := by
    rw [h.rows_eq]
    exact List.mem_flatMap.2 ⟨w, hw, Writing.mem_rows.2 ⟨side, rfl⟩⟩
  exact List.mem_map.1 hmem

theorem ledgered (h : l.Holds ws) {w : Writing} (hw : w ∈ ws) : l.Ledgered w.record :=
  ⟨w.time, fun side => h.exists_row hw side⟩

theorem exists_writing (h : l.Holds ws) {r : EntryRow} (hr : r ∈ l.rows) :
    ∃ w ∈ ws, ∃ side, r.original = .ofEntry (w.entry side) := by
  have hmem : r.original ∈ ws.flatMap Writing.rows := by
    rw [← h.rows_eq]
    exact List.mem_map_of_mem hr
  obtain ⟨w, hw, hrow⟩ := List.mem_flatMap.1 hmem
  exact ⟨w, hw, Writing.mem_rows.1 hrow⟩

/-- An id of an entry is stored if and only if its record was written. -/
theorem row?_isSome (h : l.Holds ws) (id : String) (side : Side) :
    (l.row? (Entry.idOf id side)).isSome = true ↔ id ∈ ws.map (·.record.id) := by
  unfold row?
  rw [List.find?_isSome]
  refine ⟨?_, ?_⟩
  · rintro ⟨r, hr, hid⟩
    obtain ⟨w, hw, side', hrow⟩ := h.exists_writing hr
    have hrid : Entry.idOf w.record.id side' = r.id := (congrArg EntryRow.id hrow).symm
    rw [eq_of_beq hid] at hrid
    exact List.mem_map.2 ⟨w, hw, (Entry.idOf_inj hrid).1⟩
  · intro hmem
    obtain ⟨w, hw, rfl⟩ := List.mem_map.1 hmem
    obtain ⟨r, hr, hrow⟩ := h.exists_row hw side
    have hrid : r.id = Entry.idOf w.record.id side := congrArg EntryRow.id hrow
    exact ⟨r, hr, beq_iff_eq.2 hrid⟩

theorem fresh_eq (h : l.Holds ws) (w : Writing) :
    l.fresh [w.entry .debit, w.entry .credit] =
      if w.record.id ∈ ws.map (·.record.id) then [] else [w.entry .debit, w.entry .credit] := by
  have hrow : ∀ side, (l.row? (w.entry side).id).isNone =
      decide (w.record.id ∉ ws.map (·.record.id)) := by
    intro side
    have hsome := h.row?_isSome w.record.id side
    rw [Bool.eq_iff_iff, decide_eq_true_eq, ← hsome, Option.isNone_iff_eq_none,
      Option.not_isSome_iff_eq_none]
    rfl
  unfold fresh
  by_cases hid : w.record.id ∈ ws.map (·.record.id)
  · rw [if_pos hid, List.filter_eq_nil_iff]
    intro x hx
    rcases List.mem_cons.1 hx with rfl | hx
    · simp [hrow, hid]
    · rw [List.mem_singleton.1 hx]
      simp [hrow, hid]
  · rw [if_neg hid, List.filter_eq_self]
    intro x hx
    rcases List.mem_cons.1 hx with rfl | hx
    · simp [hrow, hid]
    · rw [List.mem_singleton.1 hx]
      simp [hrow, hid]

theorem adding_written (h : l.Holds ws) {w : Writing} (hid : w.record.id ∈ ws.map (·.record.id)) :
    l.adding [w.entry .debit, w.entry .credit] = l := by
  rw [adding, h.fresh_eq, if_pos hid, List.map_nil, List.append_nil]

theorem adding_new (h : l.Holds ws) {w : Writing} (hid : w.record.id ∉ ws.map (·.record.id)) :
    (l.adding [w.entry .debit, w.entry .credit]).Holds (ws ++ [w]) where
  rows_eq := by
    rw [adding, h.fresh_eq, if_neg hid, List.map_append, h.rows_eq, List.flatMap_append,
      List.flatMap_singleton]
    rfl
  distinct := by
    rw [List.map_append, List.nodup_append]
    refine ⟨h.distinct, List.nodup_singleton _, ?_⟩
    intro x hx y hy
    rw [List.map_singleton, List.mem_singleton] at hy
    exact fun heq => hid (hy ▸ heq ▸ hx)

theorem softDelete (h : l.Holds ws) {e : Engine} {now : Instant} {id : String} :
    (softDelete e now id l).2.Holds ws := by
  have hdelete : TableLedger.softDelete e now id l = (_, (TableLedger.softDelete e now id l).2) := rfl
  refine ⟨?_, h.distinct⟩
  rcases softDelete_rows hdelete with hl | hl
  · rw [hl]
    exact h.rows_eq
  · rw [hl, ← h.rows_eq, List.map_map]
    apply List.map_congr_left
    intro r _
    simp only [Function.comp_apply, marked]
    split
    · rfl
    · rfl

end Holds

end TableLedger

end TransferLedger
