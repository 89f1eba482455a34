import TransferLedger.Proofs.Ledger.AppendOnly

/-! # What a ledger holds of what arrived

However the writes of a run split, order and repeat what they bring, the store ends up with what arrived first
under each id, deleted where a deletion succeeded (`Keeping.contents_run_eq`). One write is accounted for by
`Keeping.find_perform_eq`, a run by `Keeping.find_run_eq`.
-/

namespace TransferLedger
set_option autoImplicit false

/-! ## The first of each id -/

namespace Entry

/-- Of the entries of each id, the first. -/
def firsts : List Entry → List Entry
  | [] => []
  | x :: xs => x :: (firsts xs).filter fun y => y.id != x.id

theorem firsts_nodup : ∀ es : List Entry, ((firsts es).map (·.id)).Nodup
  | [] => List.nodup_nil
  | x :: xs => by
    rw [firsts, List.map_cons, List.nodup_cons]
    refine ⟨fun hx => ?_, (firsts_nodup xs).sublist (List.filter_sublist.map _)⟩
    obtain ⟨y, hy, hid⟩ := List.mem_map.1 hx
    exact bne_iff_ne.1 (List.mem_filter.1 hy).2 hid

theorem find?_firsts (id : String) : ∀ es : List Entry,
    ((firsts es).find? fun x => x.id == id) = es.find? fun x => x.id == id
  | [] => rfl
  | x :: xs => by
    rw [firsts, List.find?_cons, List.find?_cons]
    by_cases hx : x.id = id
    · simp only [hx, beq_self_eq_true]
    · rw [beq_false_of_ne hx, List.find?_filter, ← find?_firsts id xs]
      -- An entry with this id has another one than `x`.
      refine congrArg (fun p => (firsts xs).find? p) (funext fun y => ?_)
      by_cases hy : y.id = id
      · simp [hy, Ne.symm hx]
      · simp [hy]

theorem firsts_of_nodup : ∀ {es : List Entry}, (es.map (·.id)).Nodup → firsts es = es
  | [], _ => rfl
  | x :: xs, h => by
    rw [List.map_cons, List.nodup_cons] at h
    rw [firsts, firsts_of_nodup h.2, List.filter_eq_self.2]
    intro y hy
    rw [bne_iff_ne]
    rintro hid
    exact h.1 (hid ▸ List.mem_map_of_mem hy)

theorem firsts_append (ys : List Entry) : ∀ xs : List Entry,
    firsts (xs ++ ys) = firsts xs ++ (firsts ys).filter fun y => !(xs.map (·.id)).contains y.id
  | [] => by simp [firsts]
  | x :: xs => by
    rw [List.cons_append, firsts, firsts_append ys xs, List.filter_append, List.filter_filter, firsts,
      List.cons_append]
    refine congrArg (fun l => x :: (_ ++ l)) (List.filter_congr fun y _ => ?_)
    rw [List.map_cons, List.contains_cons, Bool.not_or]
    rfl

end Entry

/-! ## What writes bring -/

namespace LedgerWrite

variable {ι σ : Type} (store : ι → LedgerStore σ)

/-- What the write brings: the batch of an insertion that succeeds, the pair of an event that is written. -/
def brought (s : σ) : LedgerWrite ι → List Entry
  | insert i batch =>
    match (store i).insertEntries batch s with
    | (.ok _, _) => batch
    | (.error _, _) => []
  | delete _ _ _ => []
  | deliver i policy cancelled now e =>
    match writeEvent policy (fun n => (store (i n)).insertEntries) cancelled now e s with
    | (.ok (debit, credit), _) => [debit, credit]
    | (.error _, _) => []

/-- All that the writes bring, in the order in which it arrives. -/
def arrivals : σ → List (LedgerWrite ι) → List Entry
  | _, [] => []
  | s, w :: ws => brought store s w ++ arrivals (perform store s w) ws

end LedgerWrite

namespace Keeping

variable {ι σ ρ : Type} (k : Keeping σ ρ)

/-- Deleting leaves the ids in the contents as they are. -/
def DeletesInPlace (store : ι → LedgerStore σ) : Prop := ∀ i now id s,
  (k.contents ((store i).softDelete now id s).2).map k.id = (k.contents s).map k.id

variable {k} {store : ι → LedgerStore σ} {calm : ι → Prop} {s : σ} {id : String}

theorem find_eq_none_iff : k.find s id = none ↔ id ∉ (k.contents s).map k.id := by
  simp [find]

theorem id_aged (r : ρ) (d : Option Instant) : k.id (k.aged r d) = k.id r := by
  cases d with
  | none => rfl
  | some now =>
    rw [aged]
    split
    · exact k.id_mark now r
    · rfl

theorem isLive_aged (r : ρ) (d : Option Instant) : k.isLive (k.aged r d) = (k.isLive r && d.isNone) := by
  cases d with
  | none => exact (Bool.and_true _).symm
  | some now =>
    rw [aged]
    split
    · rw [k.isLive_mark, Option.isNone_some, Bool.and_false]
    · next hlive => rw [Bool.eq_false_iff.2 hlive, Bool.false_and]

/-! ### One write -/

/-- A write is a deletion, or it adds what it brings and deletes nothing. -/
theorem Inserts.perform_cases (hs : k.Inserts store calm) (s : σ) (w : LedgerWrite ι) :
    (∃ i now id, w = .delete i now id) ∨
      (∀ id, w.deletion store id s = none) ∧ ((w.brought store s).map (·.id)).Nodup ∧
        k.contents (w.perform store s) = k.contents s ++ (k.fresh s (w.brought store s)).map k.form := by
  have hnothing : k.contents s = k.contents s ++ (k.fresh s []).map k.form := (List.append_nil _).symm
  cases w with
  | delete i now id => exact .inl ⟨i, now, id, rfl⟩
  | insert i batch =>
    refine .inr ⟨fun _ => rfl, ?_⟩
    rw [LedgerWrite.perform, LedgerWrite.brought]
    cases hinsert : (store i).insertEntries batch s with
    | mk outcome s' =>
      cases outcome with
      | error c => exact ⟨List.nodup_nil, (hs.refused i batch s s' c hinsert).symm ▸ hnothing⟩
      | ok n =>
        obtain ⟨hnodup, -, hcontents⟩ := hs.added i batch s n s' hinsert
        exact ⟨hnodup, hcontents⟩
  | deliver i policy cancelled now e =>
    refine .inr ⟨fun _ => rfl, ?_⟩
    rw [LedgerWrite.perform, LedgerWrite.brought]
    obtain ⟨c, hwrite⟩ | ⟨debit, credit, n, m, s', hwrite, hinsert⟩ :=
      writeEvent_cases policy cancelled now e (fun n batch s c s' h => hs.refused (i n) batch s s' c h) s
    · rw [hwrite]
      exact ⟨List.nodup_nil, hnothing⟩
    · obtain ⟨hnodup, -, hcontents⟩ := hs.added (i m) [debit, credit] s n s' hinsert
      rw [hwrite]
      exact ⟨hnodup, hcontents⟩

/-- What is not stored is not deleted. -/
theorem deletion_eq_none (hd : k.Deletes store calm) (w : LedgerWrite ι) (h : k.find s id = none) :
    w.deletion store id s = none := by
  cases w with
  | insert i batch => rfl
  | deliver i policy cancelled now e => rfl
  | delete i now other =>
    have hdelete := hd i now other s
    rw [LedgerWrite.deletion]
    generalize (store i).softDelete now other s = answer at hdelete ⊢
    cases hdelete with
    | failed hcalm hc => rfl
    | absent hid => rfl
    | marked hid hfind =>
      refine if_neg ?_
      rintro rfl
      rw [h] at hid
      cases hid

theorem find_perform_eq (hs : k.Inserts store calm) (hd : k.Deletes store calm) (w : LedgerWrite ι)
    (s : σ) (id : String) :
    k.find (w.perform store s) id =
      ((k.find s id).or (((w.brought store s).find? fun x => x.id == id).map k.form)).map
        (k.aged · (w.deletion store id s)) := by
  obtain ⟨i, now, other, rfl⟩ | ⟨hdeletion, -, hadded⟩ := hs.perform_cases s w
  · cases hfound : k.find s id with
    | some r => exact find_perform hs hd _ hfound
    | none =>
      have hdelete := hd i now other s
      rw [LedgerWrite.perform, LedgerWrite.brought]
      generalize (store i).softDelete now other s = answer at hdelete ⊢
      cases hdelete with
      | failed hcalm hc => exact hfound
      | absent hid => exact hfound
      | marked hid hfind => exact (hfind id).trans (by rw [hfound]; rfl)
  · rw [find_added hadded, hdeletion]
    exact (Option.map_id' ..).symm

/-- A write appends the ids that it brings and that are new. -/
theorem ids_perform (hs : k.Inserts store calm) (hp : k.DeletesInPlace store) (s : σ) (w : LedgerWrite ι) :
    (k.contents (w.perform store s)).map k.id =
      (k.contents s).map k.id ++ (k.fresh s (w.brought store s)).map (·.id) := by
  obtain ⟨i, now, id, rfl⟩ | ⟨-, -, hadded⟩ := hs.perform_cases s w
  · rw [LedgerWrite.brought, fresh, List.filter_nil, List.map_nil, List.append_nil]
    exact hp i now id s
  · rw [hadded, List.map_append, List.map_map]
    exact congrArg _ (List.map_congr_left fun x _ => k.id_form x)

theorem brought_nodup (hs : k.Inserts store calm) (s : σ) (w : LedgerWrite ι) :
    ((w.brought store s).map (·.id)).Nodup := by
  obtain ⟨i, now, id, rfl⟩ | ⟨-, hnodup, -⟩ := hs.perform_cases s w
  · exact List.nodup_nil
  · exact hnodup

theorem isNone_find_perform (hs : k.Inserts store calm) (hp : k.DeletesInPlace store) (s : σ)
    (w : LedgerWrite ι) (id : String) : (k.find (w.perform store s) id).isNone =
      ((k.find s id).isNone && !((w.brought store s).map (·.id)).contains id) := by
  rw [Bool.eq_iff_iff, Option.isNone_iff_eq_none, find_eq_none_iff, ids_perform hs hp, Bool.and_eq_true,
    Option.isNone_iff_eq_none, List.mem_append, not_or, ← find_eq_none_iff, Bool.not_eq_true',
    Bool.eq_false_iff, Ne, List.contains_iff_mem]
  refine and_congr_right fun hnone => not_congr ?_
  simp only [fresh, List.mem_map, List.mem_filter]
  refine exists_congr fun x => ⟨fun h => ⟨h.1.1, h.2⟩, fun h => ⟨⟨h.1, ?_⟩, h.2⟩⟩
  rw [h.2, hnone]
  rfl

/-! ### A run -/

theorem find_run_eq (hs : k.Inserts store calm) (hd : k.Deletes store calm) (id : String) :
    ∀ (writes : List (LedgerWrite ι)) (s : σ), k.find (LedgerWrite.run store s writes) id =
      ((k.find s id).or (((LedgerWrite.arrivals store s writes).find? fun x => x.id == id).map k.form)).map
        (k.aged · (LedgerWrite.firstDeletion store id s writes))
  | [], s => by
    rw [LedgerWrite.arrivals, LedgerWrite.firstDeletion, List.find?_nil, Option.map_none, Option.or_none]
    exact (Option.map_id' ..).symm
  | w :: ws, s => by
    have hrest := find_run_eq hs hd id ws (w.perform store s)
    rw [find_perform_eq hs hd] at hrest
    rw [LedgerWrite.arrivals, LedgerWrite.firstDeletion, List.find?_append, Option.map_or (f := k.form),
      ← Option.or_assoc]
    refine hrest.trans ?_
    cases hfound : (k.find s id).or (((w.brought store s).find? fun x => x.id == id).map k.form) with
    | some r => exact congrArg some (aged_aged r ..)
    | none =>
      rw [deletion_eq_none hd w (Option.or_eq_none_iff.1 hfound).1]
      rfl

/-- A run appends the ids that arrive and were not stored before, each where it comes first. -/
theorem ids_run (hs : k.Inserts store calm) (hp : k.DeletesInPlace store) (writes : List (LedgerWrite ι))
    (s : σ) : (k.contents (LedgerWrite.run store s writes)).map k.id =
      (k.contents s).map k.id ++ (k.fresh s (Entry.firsts (LedgerWrite.arrivals store s writes))).map (·.id) := by
  induction writes generalizing s with
  | nil => exact (List.append_nil _).symm
  | cons w ws ih =>
    have hrest : k.fresh (w.perform store s) (Entry.firsts (LedgerWrite.arrivals store (w.perform store s) ws)) =
        k.fresh s ((Entry.firsts (LedgerWrite.arrivals store (w.perform store s) ws)).filter
          fun y => !((w.brought store s).map (·.id)).contains y.id) := by
      rw [fresh, fresh, List.filter_filter]
      exact List.filter_congr fun x _ => isNone_find_perform hs hp s w x.id
    refine (ih (w.perform store s)).trans ?_
    rw [hrest, ids_perform hs hp, List.append_assoc, ← List.map_append, LedgerWrite.arrivals, Entry.firsts_append,
      Entry.firsts_of_nodup (brought_nodup hs s w), fresh, fresh, fresh, List.filter_append]

/-- A store that was empty holds what arrived first under each id, with the deletions that succeeded. -/
theorem contents_run_eq (hs : k.Inserts store calm) (hd : k.Deletes store calm)
    (hp : k.DeletesInPlace store) (h : k.contents s = []) (writes : List (LedgerWrite ι)) :
    k.contents (LedgerWrite.run store s writes) =
      (Entry.firsts (LedgerWrite.arrivals store s writes)).map fun x =>
        k.aged (k.form x) (LedgerWrite.firstDeletion store x.id s writes) := by
  have hnone : ∀ id, k.find s id = none := by
    intro id
    rw [find, h, List.find?_nil]
  have hid : ∀ x, k.id (k.aged (k.form x) (LedgerWrite.firstDeletion store x.id s writes)) = x.id :=
    fun x => (id_aged ..).trans (k.id_form x)
  have hids : (k.contents (LedgerWrite.run store s writes)).map k.id =
      (Entry.firsts (LedgerWrite.arrivals store s writes)).map (·.id) := by
    rw [ids_run hs hp, h, fresh, List.filter_eq_self.2 fun x _ => Option.isNone_iff_eq_none.2 (hnone x.id)]
    rfl
  refine eq_of_find? k.id ?_ ?_ fun id => ?_
  · rw [hids, List.map_map]
    exact List.map_congr_left fun x _ => (hid x).symm
  · rw [hids]
    exact Entry.firsts_nodup _
  · refine (find_run_eq hs hd id writes s).trans ?_
    rw [hnone, Option.none_or, Option.map_map, List.find?_map]
    simp only [Function.comp_def, hid]
    rw [Entry.find?_firsts]
    refine Option.map_congr fun x hx => ?_
    have hx : x.id = id := by simpa using List.find?_some hx
    rw [hx]

end Keeping

/-! ## The two stores -/

theorem MemoryLedger.keeping_deletesInPlace : keeping.DeletesInPlace fun _ : Unit => store := by
  intro _ now id l
  show (softDelete now id l).2.entries.map (·.id) = l.entries.map (·.id)
  unfold softDelete
  split
  · rfl
  split
  · rfl
  · rw [List.map_map]
    refine List.map_congr_left fun x _ => ?_
    show (if x.id = id then x.markDeleted now else x).id = x.id
    split <;> rfl

/-- A deletion changes nothing but the times of deletion and of update. -/
theorem MemoryLedger.key_aged {κ : Type} {key : Entry → κ} (hkey : ∀ now x, key (x.markDeleted now) = key x)
    (x : Entry) (d : Option Instant) : key (keeping.aged x d) = key x := by
  cases d with
  | none => rfl
  | some now =>
    rw [Keeping.aged]
    split
    · exact hkey now x
    · rfl

theorem TableLedger.keeping_deletesInPlace :
    keeping.DeletesInPlace fun faults => store (.failing faults) := by
  intro faults now id l
  show (softDelete (.failing faults) now id l).2.rows.map (·.id) = l.rows.map (·.id)
  obtain ⟨-, cause, hfailed⟩ | hsound := softDelete_failing faults now id l
  · rw [hfailed]
  · rw [hsound, softDelete_sound]
    split
    · rw [List.map_map]
      refine List.map_congr_left fun r _ => ?_
      show (marked now id r).id = r.id
      unfold marked
      split <;> rfl
    · split <;> rfl

/-- An entry is marked deleted in its row as it is in memory. -/
theorem EntryRow.ofEntry_aged (x : Entry) (d : Option Instant) :
    TableLedger.keeping.aged (EntryRow.ofEntry x) d = EntryRow.ofEntry (MemoryLedger.keeping.aged x d) := by
  cases d with
  | none => rfl
  | some now =>
    have hlive : TableLedger.keeping.isLive (EntryRow.ofEntry x) = MemoryLedger.keeping.isLive x := by
      show x.deletedAt.isNone = !x.deletedAt.isSome
      cases x.deletedAt <;> rfl
    rw [Keeping.aged, Keeping.aged, hlive]
    split <;> rfl

end TransferLedger
