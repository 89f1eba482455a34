import TransferLedger.Ledger.Table
import TransferLedger.Proofs.Store.Engine

/-! # What the ledger table keeps

* `insertEntries_eq_ok`: a batch that is inserted adds a row for each entry whose id is new, in order,
  and touches no row that is there; it carries no id twice.
* `insertEntries_eq_error`: a batch that is refused changes nothing.
* `softDelete_rows`: deleting marks the rows of one id at most.
-/

namespace TransferLedger
set_option autoImplicit false

/-- An insertion of an entry that does not fail adds its row, unless its id is there. -/
def Engine.KeepsEntries (e : Engine) : Prop := ∀ n side, e n (.insertEntry side) ≠ .skip

theorem Engine.sound_keepsEntries : sound.KeepsEntries := fun _ _ h => by cases h

theorem Engine.failing_keepsEntries (faults : Nat → Statement → Option EngineError) :
    (failing faults).KeepsEntries := by
  intro n side
  unfold failing
  split <;> exact fun h => by cases h

theorem Engine.KeepsEntries.takesEffect {e : Engine} (h : e.KeepsEntries) {n : Nat} {side : String}
    {b : Bool} (hb : e.askChange n (.insertEntry side) = .ok b) : b = true := by
  have hne := h n side
  unfold askChange at hb
  split at hb
  · cases hb
    rfl
  · contradiction
  · cases hb

/-! ## Distinct ids -/

theorem repeatedId?_eq_none : ∀ {batch : List Entry} {seen : List String},
    repeatedId? seen batch = none →
      (batch.map (·.id)).Nodup ∧ ∀ x ∈ batch, x.id ∉ seen
  | [], _, _ => ⟨List.nodup_nil, fun _ h => nomatch h⟩
  | x :: xs, seen, h => by
    rw [repeatedId?] at h
    split at h
    · cases h
    next hx =>
    obtain ⟨hnodup, hseen⟩ := repeatedId?_eq_none h
    have hx' : x.id ∉ seen := by simpa using hx
    refine ⟨?_, ?_⟩
    · rw [List.map_cons, List.nodup_cons]
      refine ⟨?_, hnodup⟩
      intro hmem
      obtain ⟨y, hy, hid⟩ := List.mem_map.1 hmem
      exact hseen y hy (hid ▸ List.mem_cons_self)
    · intro y hy
      rcases List.mem_cons.1 hy with rfl | hy
      · exact hx'
      · exact fun hmem => hseen y hy (List.mem_cons_of_mem _ hmem)

theorem checkDistinctIds_eq_ok {batch : List Entry} {u : Unit}
    (h : checkDistinctIds batch = .ok u) : (batch.map (·.id)).Nodup := by
  unfold checkDistinctIds at h
  split at h
  · cases h
  · next hnone => exact (repeatedId?_eq_none hnone).1

namespace TableLedger

/-! ## Insertion -/

/-- The entries of a batch whose ids are not stored. -/
def fresh (l : TableLedger) (batch : List Entry) : List Entry :=
  batch.filter fun x => (l.row? x.id).isNone

/-- The table with the new entries of a batch added. -/
def adding (l : TableLedger) (batch : List Entry) : TableLedger :=
  ⟨l.rows ++ (l.fresh batch).map .ofEntry⟩

theorem row?_append_of_ne {l : TableLedger} {x : Entry} {id : String} (h : x.id ≠ id) :
    (TableLedger.mk (l.rows ++ [.ofEntry x])).row? id = l.row? id := by
  have hx : ((EntryRow.ofEntry x).id == id) = false := by simpa [EntryRow.ofEntry] using h
  simp only [row?, List.find?_append, List.find?_cons, hx, List.find?_nil, Option.or_none]

theorem insertEach_eq_ok {e : Engine} (he : e.KeepsEntries) :
    ∀ {batch : List Entry} {n k : Nat} {l l' : TableLedger}, (batch.map (·.id)).Nodup →
      insertEach e n batch l = .ok (k, l') → k = (l.fresh batch).length ∧ l' = l.adding batch
  | [], _, _, l, _, _, h => by
    cases h
    exact ⟨rfl, by simp [adding, fresh]⟩
  | x :: xs, n, k, l, l', hnodup, h => by
    rw [List.map_cons, List.nodup_cons] at hnodup
    rw [insertEach] at h
    obtain ⟨takesEffect, ht, h⟩ := bind_eq_ok.1 h
    have ht := he.takesEffect (mapError_eq_ok.1 ht)
    subst ht
    rw [Bool.true_and] at h
    split at h
    · next hnew =>
      obtain ⟨⟨k', l₁⟩, hrest, h⟩ := bind_eq_ok.1 h
      cases h
      obtain ⟨hk, hl⟩ := insertEach_eq_ok he hnodup.2 hrest
      -- What is new among the rest does not depend on the row that was added.
      have hfresh : fresh ⟨l.rows ++ [.ofEntry x]⟩ xs = l.fresh xs := by
        apply List.filter_congr
        intro y hy
        rw [row?_append_of_ne]
        exact fun heq => hnodup.1 (heq ▸ List.mem_map_of_mem hy)
      have hcons : l.fresh (x :: xs) = x :: l.fresh xs := List.filter_cons_of_pos hnew
      rw [hfresh] at hk
      rw [adding, hfresh] at hl
      refine ⟨?_, ?_⟩
      · rw [hcons, List.length_cons, hk]
      · rw [hl, adding, hcons, List.map_cons, List.append_assoc]
        rfl
    · next hold =>
      obtain ⟨hk, hl⟩ := insertEach_eq_ok he hnodup.2 h
      have hcons : l.fresh (x :: xs) = l.fresh xs := List.filter_cons_of_neg hold
      rw [adding, hcons]
      exact ⟨hk, hl⟩

theorem insertEntries_eq_ok {e : Engine} (he : e.KeepsEntries) {batch : List Entry} {k : Nat}
    {l l' : TableLedger} (h : insertEntries e batch l = (.ok k, l')) :
    (batch.map (·.id)).Nodup ∧ k = (l.fresh batch).length ∧ l' = l.adding batch := by
  have h := atomically_eq_ok h
  unfold insertUnit at h
  obtain ⟨_, hdistinct, h⟩ := bind_eq_ok.1 h
  obtain ⟨_, -, h⟩ := bind_eq_ok.1 h
  obtain ⟨⟨k', l₁⟩, heach, h⟩ := bind_eq_ok.1 h
  obtain ⟨_, -, h⟩ := bind_eq_ok.1 h
  cases h
  have hnodup := checkDistinctIds_eq_ok hdistinct
  exact ⟨hnodup, insertEach_eq_ok he hnodup heach⟩

theorem insertEntries_eq_error {e : Engine} {batch : List Entry} {l l' : TableLedger}
    {c : StoreError} (h : insertEntries e batch l = (.error c, l')) : l' = l :=
  (atomically_eq_error h).2

/-- Once a batch is in, each of its ids is stored. -/
theorem exists_row_adding (l : TableLedger) {batch : List Entry} {x : Entry} (hx : x ∈ batch) :
    ∃ r ∈ (l.adding batch).rows, r.id = x.id := by
  cases hrow : l.row? x.id with
  | some r =>
    have hmem := List.mem_of_find?_eq_some hrow
    exact ⟨r, List.mem_append_left _ hmem, by simpa using List.find?_some hrow⟩
  | none =>
    refine ⟨.ofEntry x, List.mem_append_right _ (List.mem_map_of_mem ?_), rfl⟩
    exact List.mem_filter.2 ⟨hx, by rw [hrow]; rfl⟩

/-! ## Deletion -/

/-- The row, marked deleted if it is a live one of this id. -/
def marked (now : Instant) (id : String) (r : EntryRow) : EntryRow :=
  if r.id == id && r.isLive then { r with deletedAt := some now, updatedAt := now } else r

theorem softDelete_rows {e : Engine} {now : Instant} {id : String} {l l' : TableLedger}
    {outcome : Except StoreError Unit} (h : softDelete e now id l = (outcome, l')) :
    l' = l ∨ l' = ⟨l.rows.map (marked now id)⟩ := by
  cases outcome with
  | error c => exact .inl (atomically_eq_error h).2
  | ok u =>
    have h := atomically_eq_ok h
    unfold deleteUnit at h
    obtain ⟨takesEffect, -, h⟩ := bind_eq_ok.1 h
    split at h
    · cases h
      exact .inr rfl
    · obtain ⟨_, -, h⟩ := bind_eq_ok.1 h
      split at h
      · cases h
        exact .inl rfl
      · cases h

end TableLedger

end TransferLedger
