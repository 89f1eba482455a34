import TransferLedger.Proofs.Instant.Order
import TransferLedger.Proofs.Ledger.Indexes

/-! # A table that lists the entries in memory

Where a table has a row for each entry in memory, in their order, it answers as the memory does and goes on
having these rows: what is inserted is new to both (`insertEntries_listing`), what is deleted is one entry
(`softDelete_listing`), and what a query picks comes in the same order, since dates are ordered as their texts
(`EntryRow.newerFirst_eq`, `readNewest`).
-/

namespace TransferLedger
set_option autoImplicit false

/-! ## Reading -/

theorem Side.name_beq (s t : Side) : (s.name == t.name) = decide (s = t) := by
  cases s <;> cases t <;> rfl

namespace EntryRow

/-- Where dates are written with four digits of the year, their texts order rows as they do. -/
theorem newerFirst_eq {a b : EntryRow} (ha : a.createdAt.Writable) (hb : b.createdAt.Writable) :
    newerFirst a b = match Instant.cmp b.createdAt a.createdAt with
      | .lt => true
      | .eq => decide (a.id ≤ b.id)
      | .gt => false := by
  have hlt := Instant.columnText_lt_iff hb ha
  have heq := Instant.columnText_inj ha hb
  have hsame : a.createdAt = b.createdAt ↔ b.createdAt.cmp a.createdAt = .eq := by
    rw [Instant.cmp_eq_eq, eq_comm]
  unfold newerFirst
  cases hcmp : Instant.cmp b.createdAt a.createdAt with
  | lt => rw [if_neg (by rw [heq, hsame, hcmp]; decide), decide_eq_true (hlt.2 hcmp)]
  | eq => rw [if_pos (heq.2 (hsame.2 hcmp))]
  | gt =>
    rw [if_neg (by rw [heq, hsame, hcmp]; decide), decide_eq_false_iff_not, hlt, hcmp]
    decide

theorem newerFirst_ofEntry {x y : Entry} (hx : x.createdAt.Writable) (hy : y.createdAt.Writable) :
    newerFirst (ofEntry x) (ofEntry y) = Entry.newerFirst x y := newerFirst_eq hx hy

end EntryRow

namespace TableLedger

variable {es : List Entry}

/-- Reading the rows that a filter picks, newest first, gives the entries that it picks, newest first. -/
theorem readNewest (hes : ∀ x ∈ es, x.createdAt.Writable) {p : EntryRow → Bool} {q : Entry → Bool}
    (hpq : ∀ x, p (.ofEntry x) = (q x && !x.isDeleted)) :
    readRows .sound (((listing es).rows.filter p).mergeSort EntryRow.newerFirst) =
      .ok (Entry.newestLive (es.filter q)) := by
  have hfilter : (listing es).rows.filter p =
      ((es.filter q).filter fun e => !e.isDeleted).map EntryRow.ofEntry := by
    rw [listing, List.filter_map, List.filter_filter]
    refine congrArg _ (List.filter_congr fun x _ => ?_)
    exact (hpq x).trans (Bool.and_comm _ _)
  have hmem : ∀ x ∈ (es.filter q).filter fun e => !e.isDeleted, x.createdAt.Writable :=
    fun x hx => hes x (List.mem_of_mem_filter (List.mem_of_mem_filter hx))
  have hsort := List.map_mergeSort (r := Entry.newerFirst) (s := EntryRow.newerFirst)
    (f := EntryRow.ofEntry) (l := (es.filter q).filter fun e => !e.isDeleted)
    fun x hx y hy => (EntryRow.newerFirst_ofEntry (hmem x hx) (hmem y hy)).symm
  rw [hfilter, ← hsort, readRows_sound]
  rfl

theorem isLive_ofEntry (x : Entry) : (EntryRow.ofEntry x).isLive = !x.isDeleted := by
  obtain ⟨_, _, _, _, _, _, _, _, _, _, deletedAt⟩ := x
  cases deletedAt <;> rfl

theorem entriesByAccount_listing (hes : ∀ x ∈ es, x.createdAt.Writable) (account : String) :
    entriesByAccount .sound account (listing es) =
      .ok (Entry.newestLive (es.filter fun x => x.account = account)) := by
  refine readNewest hes fun x => ?_
  rw [isLive_ofEntry, beq_eq_decide]
  rfl

theorem entriesBySide_listing (hes : ∀ x ∈ es, x.createdAt.Writable) (side : Side) (account : String) :
    entriesBySide .sound side account (listing es) =
      .ok (Entry.newestLive (es.filter fun x => (x.side, x.account) = (side, account))) := by
  refine readNewest hes fun x => ?_
  rw [isLive_ofEntry]
  refine congrArg (· && !x.isDeleted) ?_
  have hside : ((EntryRow.ofEntry x).side == side.name) = decide (x.side = side) := x.side.name_beq side
  have haccount : ((EntryRow.ofEntry x).account == account) = decide (x.account = account) := beq_eq_decide ..
  rw [hside, haccount, Bool.eq_iff_iff]
  simp

/-! ## Writing -/

theorem row?_listing (es : List Entry) (id : String) :
    (listing es).row? id = (es.find? fun e => e.id == id).map EntryRow.ofEntry := by
  rw [row?, listing, List.find?_map]
  rfl

theorem insertEach_listing : ∀ (batch : List Entry) (n : Nat) (m : MemoryLedger),
    insertEach .sound n batch (listing m.entries) =
      .ok ((MemoryLedger.addNew batch m).1, listing (MemoryLedger.addNew batch m).2.entries)
  | [], _, _ => rfl
  | x :: xs, n, m => by
    have hrow : ((listing m.entries).row? x.id).isNone = !(m.entry? x.id).isSome := by
      rw [row?_listing, MemoryLedger.entry?]
      cases m.entries.find? fun e => e.id == x.id <;> rfl
    rw [insertEach, MemoryLedger.addNew]
    refine bind_eq_ok.2 ⟨true, rfl, ?_⟩
    rw [Bool.true_and, hrow]
    cases hstored : (m.entry? x.id).isSome with
    | true => exact insertEach_listing xs (n + 1) m
    | false =>
      have hadded : (⟨(listing m.entries).rows ++ [.ofEntry x]⟩ : TableLedger) = listing (m.add x).entries := by
        simp [listing, MemoryLedger.add]
      simp only [Bool.not_false, if_true, Bool.false_eq_true, if_false]
      rw [hadded, insertEach_listing xs (n + 1) (m.add x)]
      rfl

theorem insertEntries_listing (batch : List Entry) (m : MemoryLedger) :
    insertEntries .sound batch (listing m.entries) =
      ((MemoryLedger.insertEntries batch m).1, listing (MemoryLedger.insertEntries batch m).2.entries) := by
  rw [insertEntries, insertUnit, MemoryLedger.insertEntries]
  cases checkDistinctIds batch with
  | error e => rfl
  | ok u =>
    rw [insertEach_listing]
    rfl

theorem softDelete_sound (now : Instant) (id : String) (l : TableLedger) :
    softDelete .sound now id l =
      if l.rows.any fun r => r.id == id && r.isLive then (.ok (), ⟨l.rows.map (marked now id)⟩)
      else (if (l.row? id).isSome then .ok () else .error (.notFound id), l) := by
  have hunit : deleteUnit .sound now id l =
      if l.rows.any fun r => r.id == id && r.isLive then .ok ((), ⟨l.rows.map (marked now id)⟩)
      else if (l.row? id).isSome then .ok ((), l) else .error (.notFound id) := rfl
  rw [softDelete, hunit]
  split
  · rfl
  · split <;> rfl

theorem softDelete_listing {m : MemoryLedger} (h : m.Indexed) (now : Instant) (id : String) :
    softDelete .sound now id (listing m.entries) =
      ((MemoryLedger.softDelete now id m).1, listing (MemoryLedger.softDelete now id m).2.entries) := by
  have htarget : ∀ x : Entry, ((EntryRow.ofEntry x).id == id && (EntryRow.ofEntry x).isLive) =
      (x.id == id && !x.isDeleted) := fun x => congrArg _ (isLive_ofEntry x)
  have hany : ((listing m.entries).rows.any fun r => r.id == id && r.isLive) =
      m.entries.any fun x => x.id == id && !x.isDeleted := by
    rw [listing, List.any_map]
    exact congrArg (List.any m.entries) (funext htarget)
  rw [softDelete_sound, hany, row?_listing, Option.isSome_map, MemoryLedger.softDelete]
  cases hx : m.entry? id with
  | none =>
    have hnone : ∀ x ∈ m.entries, ¬ (x.id == id) = true := List.find?_eq_none.1 hx
    have hfound : (m.entries.any fun x => x.id == id && !x.isDeleted) = false := by
      rw [List.any_eq_false]
      intro x hmem
      simp [hnone x hmem]
    have hrow : (m.entries.find? fun x => x.id == id) = none := hx
    rw [hfound, hrow]
    rfl
  | some e =>
    obtain ⟨hmem, hid⟩ := MemoryLedger.entry?_eq_some hx
    -- The table marks all rows of the id that are live, the memory marks what it found; it is one entry.
    have honly : ∀ x ∈ m.entries, x.id = id → x = e :=
      fun x hxm hxid => List.inj_on_of_nodup_map h.ids_nodup hxm hmem (hxid.trans hid.symm)
    have hrow : (m.entries.find? fun x => x.id == id) = some e := hx
    dsimp only
    cases hdeleted : e.isDeleted with
    | true =>
      have hfound : (m.entries.any fun x => x.id == id && !x.isDeleted) = false := by
        rw [List.any_eq_false]
        intro x hxm hboth
        rw [Bool.and_eq_true, beq_iff_eq] at hboth
        rw [honly x hxm hboth.1, hdeleted] at hboth
        exact Bool.false_ne_true hboth.2
      rw [hfound, hrow]
      rfl
    | false =>
      have hfound : (m.entries.any fun x => x.id == id && !x.isDeleted) = true :=
        List.any_eq_true.2 ⟨e, hmem, by simp [hid, hdeleted]⟩
      have hmark : (listing m.entries).rows.map (marked now id) =
          (m.entries.map fun x => if x.id = id then x.markDeleted now else x).map EntryRow.ofEntry := by
        rw [listing, List.map_map, List.map_map]
        refine List.map_congr_left fun x hxm => ?_
        simp only [Function.comp_apply, marked, htarget]
        by_cases hxid : x.id = id
        · rw [honly x hxm hxid, hdeleted]
          simp [hid, Entry.markDeleted, EntryRow.ofEntry]
        · simp [hxid]
      rw [hfound, hmark]
      rfl

end TableLedger

end TransferLedger
