import TransferLedger.Proofs.Ledger.Insertion

/-! # A ledger only grows

Whatever is inserted, delivered and deleted, an entry that is stored stays. It is what it was, or it carries the
time of the first deletion that succeeded (`Keeping.AppendOnly`), whether what comes later is another deletion,
a batch with its id or its event once more. Each write does this (`Keeping.find_perform`), and so does a run of
them (`Keeping.find_run`).
-/

namespace TransferLedger
set_option autoImplicit false

/-! ## Writes -/

/-- What changes a ledger store; `ι` says what befalls a call. A delivered event is written with retries. -/
inductive LedgerWrite (ι : Type)
  | insert (i : ι) (batch : List Entry)
  | delete (i : ι) (now : Instant) (id : String)
  | deliver (i : Nat → ι) (policy : RetryPolicy) (cancelled : Nat → Bool) (now : Instant) (e : Event)

namespace LedgerWrite

variable {ι σ : Type} (store : ι → LedgerStore σ)

def perform (s : σ) : LedgerWrite ι → σ
  | insert i batch => ((store i).insertEntries batch s).2
  | delete i now id => ((store i).softDelete now id s).2
  | deliver i policy cancelled now e =>
    (writeEvent policy (fun n => (store (i n)).insertEntries) cancelled now e s).2

def run (s : σ) (writes : List (LedgerWrite ι)) : σ := writes.foldl (perform store) s

/-- When the write deletes what is stored under the id, if it does. -/
def deletion (id : String) (s : σ) : LedgerWrite ι → Option Instant
  | delete i now other =>
    match (store i).softDelete now other s with
    | (.ok _, _) => if other = id then some now else none
    | (.error _, _) => none
  | _ => none

/-- When the first of the writes that succeeds in deleting what is stored under the id does so. -/
def firstDeletion (id : String) : σ → List (LedgerWrite ι) → Option Instant
  | _, [] => none
  | s, w :: ws => (deletion store id s w).or (firstDeletion id (perform store s w) ws)

end LedgerWrite

namespace Keeping

variable {ι σ ρ : Type} (k : Keeping σ ρ)

/-! ## Deletions -/

/-- Marked, if it is stored under the id and not deleted. -/
def markIf (now : Instant) (id : String) (r : ρ) : ρ :=
  if k.id r = id ∧ k.isLive r = true then k.mark now r else r

/-- How a deletion under an id can end. -/
inductive Deletion (calm : Prop) (now : Instant) (id : String) (s : σ) :
    Except StoreError Unit × σ → Prop
  | failed {c : StoreError} (hcalm : ¬ calm) (hc : ∀ other, c ≠ .notFound other) :
    Deletion calm now id s (.error c, s)
  | absent (hid : k.find s id = none) : Deletion calm now id s (.error (.notFound id), s)
  | marked {s' : σ} (hid : (k.find s id).isSome = true)
      (hfind : ∀ other, k.find s' other = (k.find s other).map (k.markIf now id)) :
    Deletion calm now id s (.ok (), s')

def Deletes (store : ι → LedgerStore σ) (calm : ι → Prop) : Prop :=
  ∀ i now id s, k.Deletion (calm i) now id s ((store i).softDelete now id s)

/-- What is stored, after a deletion at this time or none at all. -/
def aged (r : ρ) : Option Instant → ρ
  | some now => if k.isLive r = true then k.mark now r else r
  | none => r

/-- Nothing has been stored under the id in the course of the writes. -/
def NeverStored (store : ι → LedgerStore σ) (s : σ) (writes : List (LedgerWrite ι)) (id : String) : Prop :=
  ∀ earlier, earlier <+: writes → k.find (LedgerWrite.run store s earlier) id = none

/-- What is stored is never removed, and the first deletion is all that changes it. -/
structure AppendOnly (store : ι → LedgerStore σ) (calm : ι → Prop) : Prop where
  stored : ∀ s i batch n s', (store i).insertEntries batch s = (.ok n, s') →
    ∀ x ∈ batch, k.find s' x.id = some ((k.find s x.id).getD (k.form x))
  kept : ∀ s writes id r, k.find s id = some r → k.find (LedgerWrite.run store s writes) id =
    some (k.aged r (LedgerWrite.firstDeletion store id s writes))
  not_found : ∀ s writes i now id other,
    ((store i).softDelete now id (LedgerWrite.run store s writes)).1 = .error (.notFound other) →
      other = id ∧ k.NeverStored store s writes id
  refused : ∀ s writes i now id, k.NeverStored store s writes id →
    ∃ c, ((store i).softDelete now id (LedgerWrite.run store s writes)).1 = .error c ∧
      (calm i → c = .notFound id)
  deleted : ∀ s writes i now id, ¬ k.NeverStored store s writes id → calm i →
    ((store i).softDelete now id (LedgerWrite.run store s writes)).1 = .ok ()

variable {k} {store : ι → LedgerStore σ} {calm : ι → Prop} {s s' : σ} {id : String} {r : ρ}

theorem id_of_find (h : k.find s id = some r) : k.id r = id := by
  simpa using List.find?_some h

theorem find_map {f : ρ → ρ} (hf : ∀ r, k.id (f r) = k.id r) (h : k.contents s' = (k.contents s).map f)
    (id : String) : k.find s' id = (k.find s id).map f := by
  rw [find, h, List.find?_map]
  simp only [Function.comp_def, hf]
  rfl

/-- Where what is found under the id is deleted already, there is nothing to mark. -/
theorem map_markIf (h : ∀ r, k.find s id = some r → k.isLive r = false) (now : Instant) (other : String) :
    (k.find s other).map (k.markIf now id) = k.find s other := by
  cases hr : k.find s other with
  | none => rfl
  | some r =>
    rw [Option.map_some, markIf, if_neg]
    rintro ⟨rfl, hlive⟩
    rw [← id_of_find hr] at hr
    exact Bool.false_ne_true ((h r hr).symm.trans hlive)

theorem aged_aged (r : ρ) (d d' : Option Instant) : k.aged (k.aged r d) d' = k.aged r (d.or d') := by
  cases d with
  | none => rfl
  | some now =>
    -- What was deleted is not live any more.
    have hdead : k.isLive (k.aged r (some now)) = false := by
      rw [aged]
      split
      · exact k.isLive_mark now r
      · next hlive => exact Bool.eq_false_iff.2 hlive
    rw [Option.some_or]
    cases d' with
    | none => rfl
    | some now' => rw [aged, hdead, if_neg Bool.false_ne_true]

/-! ## What a write keeps -/

theorem Inserts.find_insert (hs : k.Inserts store calm) (i : ι) (batch : List Entry)
    (h : k.find s id = some r) : k.find ((store i).insertEntries batch s).2 id = some r := by
  cases hinsert : (store i).insertEntries batch s with
  | mk outcome s' =>
    cases outcome with
    | error c => exact hs.refused i batch s s' c hinsert ▸ h
    | ok n => rw [hs.find_eq hinsert, h, Option.some_or]

theorem find_perform (hs : k.Inserts store calm) (hd : k.Deletes store calm) (w : LedgerWrite ι)
    (h : k.find s id = some r) :
    k.find (w.perform store s) id = some (k.aged r (w.deletion store id s)) := by
  cases w with
  | insert i batch => exact hs.find_insert i batch h
  | deliver i policy cancelled now e =>
    exact writeEvent_keeps (P := fun s => k.find s id = some r)
      (fun debit credit _ n s hr => hs.find_insert (i n) [debit, credit] hr) h
  | delete i now other =>
    have hdelete := hd i now other s
    rw [LedgerWrite.perform, LedgerWrite.deletion]
    generalize (store i).softDelete now other s = answer at hdelete ⊢
    cases hdelete with
    | failed hcalm hc => exact h
    | absent hid => exact h
    | marked hid hfind =>
      dsimp only
      rw [hfind, h, Option.map_some, markIf, id_of_find h]
      by_cases hother : id = other
      · simp [hother, aged]
      · simp [hother, Ne.symm hother, aged]

theorem find_run (hs : k.Inserts store calm) (hd : k.Deletes store calm) (writes : List (LedgerWrite ι))
    (h : k.find s id = some r) : k.find (LedgerWrite.run store s writes) id =
      some (k.aged r (LedgerWrite.firstDeletion store id s writes)) := by
  induction writes generalizing s r with
  | nil => exact h
  | cons w ws ih =>
    rw [LedgerWrite.firstDeletion, ← aged_aged]
    exact ih (find_perform hs hd w h)

theorem neverStored_iff (hs : k.Inserts store calm) (hd : k.Deletes store calm)
    (writes : List (LedgerWrite ι)) :
    k.NeverStored store s writes id ↔ k.find (LedgerWrite.run store s writes) id = none := by
  refine ⟨fun h => h writes (List.prefix_refl _), ?_⟩
  rintro hnone earlier ⟨later, rfl⟩
  rw [LedgerWrite.run, List.foldl_append] at hnone
  cases hfound : k.find (LedgerWrite.run store s earlier) id with
  | none => rfl
  | some r =>
    have hkept := find_run hs hd later hfound
    rw [LedgerWrite.run, LedgerWrite.run, hnone] at hkept
    cases hkept

theorem Inserts.appendOnly (hs : k.Inserts store calm) (hd : k.Deletes store calm) :
    k.AppendOnly store calm where
  stored s i batch n s' h x hx := by
    rw [hs.find_eq h, Entry.find?_of_mem (hs.added i batch s n s' h).1 hx]
    cases k.find s x.id <;> rfl
  kept s writes id r h := find_run hs hd writes h
  not_found s writes i now id other := by
    have hdelete := hd i now id (LedgerWrite.run store s writes)
    rw [neverStored_iff hs hd]
    generalize (store i).softDelete now id _ = answer at hdelete ⊢
    cases hdelete with
    | failed hcalm hc => exact fun h => absurd (Except.error.inj h) (hc other)
    | absent hid =>
      rintro h
      cases h
      exact ⟨rfl, hid⟩
    | marked hid hfind => exact nofun
  refused s writes i now id := by
    have hdelete := hd i now id (LedgerWrite.run store s writes)
    rw [neverStored_iff hs hd]
    generalize (store i).softDelete now id _ = answer at hdelete ⊢
    intro hnone
    cases hdelete with
    | failed hcalm hc => exact ⟨_, rfl, fun h => absurd h hcalm⟩
    | absent hid => exact ⟨_, rfl, fun _ => rfl⟩
    | marked hid hfind =>
      rw [hnone] at hid
      cases hid
  deleted s writes i now id := by
    have hdelete := hd i now id (LedgerWrite.run store s writes)
    rw [neverStored_iff hs hd]
    generalize (store i).softDelete now id _ = answer at hdelete ⊢
    intro hstored hcalm
    cases hdelete with
    | failed hnot hc => exact absurd hcalm hnot
    | absent hid => exact absurd hid hstored
    | marked hid hfind => rfl

end Keeping

/-! ## The store in memory -/

namespace MemoryLedger

theorem keeping_deletes : keeping.Deletes (fun _ : Unit => store) fun _ => True := by
  intro _ now id l
  show keeping.Deletion True now id l (softDelete now id l)
  unfold softDelete
  cases he : l.entry? id with
  | none => exact .absent he
  | some e =>
    have hstored : (keeping.find l id).isSome = true := Option.isSome_iff_exists.2 ⟨e, he⟩
    have honly : ∀ x, keeping.find l id = some x → x = e := fun x hx => Option.some.inj (hx.symm.trans he)
    dsimp only
    split
    · next hdeleted =>
      refine .marked hstored fun other => (Keeping.map_markIf (fun x hx => ?_) now other).symm
      rw [honly x hx]
      exact congrArg not hdeleted
    · next hlive =>
      refine .marked hstored fun other => ?_
      rw [Keeping.find_map (k := keeping) (fun x => ?_) rfl]
      · refine Option.map_congr fun x hx => ?_
        by_cases hid : x.id = id
        · -- Marking looks at the id only, and the entry of this id is not deleted.
          obtain rfl : x.id = other := Keeping.id_of_find hx
          rw [hid] at hx
          have hmark : keeping.isLive x = true := by
            rw [honly x hx]
            exact congrArg not (Bool.eq_false_iff.2 hlive)
          rw [if_pos hid, Keeping.markIf, if_pos ⟨hid, hmark⟩]
          rfl
        · rw [if_neg hid, Keeping.markIf, if_neg fun h => hid h.1]
      · split <;> rfl

end MemoryLedger

/-! ## The store on a table -/

theorem Engine.ask_failing (faults : Faults) (n : Nat) (s : Statement) :
    (failing faults).ask n s = match faults n s with
      | some cause => .error cause
      | none => .ok () := by
  unfold ask failing
  cases faults n s <;> rfl

theorem Engine.askChange_failing (faults : Faults) (n : Nat) (s : Statement) :
    (failing faults).askChange n s = match faults n s with
      | some cause => .error cause
      | none => .ok true := by
  unfold askChange failing
  cases faults n s <;> rfl

theorem StoreError.ofEngine_ne_notFound (cause : EngineError) (id : String) : ofEngine cause ≠ .notFound id := by
  unfold ofEngine
  split
  all_goals repeat' split
  all_goals exact nofun

namespace TableLedger

/-- A deletion fails, or no statement of it does. -/
theorem softDelete_failing (faults : Faults) (now : Instant) (id : String) (l : TableLedger) :
    (¬ faults.None ∧ ∃ cause, softDelete (.failing faults) now id l = (.error (.ofEngine cause), l)) ∨
      softDelete (.failing faults) now id l = softDelete .sound now id l := by
  rw [softDelete, softDelete, deleteUnit, deleteUnit, Engine.askChange_failing, Engine.ask_failing]
  cases hupdate : faults 0 (.updateEntry (l.rows.any fun r => r.id == id && r.isLive)) with
  | some cause => exact .inl ⟨fun h => by simp [h 0] at hupdate, cause, rfl⟩
  | none =>
    cases hread : faults 1 .read with
    | none => exact .inr rfl
    | some cause =>
      -- The second statement is only there when the first has found nothing to mark.
      cases htarget : l.rows.any fun r => r.id == id && r.isLive with
      | true => exact .inr rfl
      | false => exact .inl ⟨fun h => by simp [h 1] at hread, cause, rfl⟩

theorem marked_eq (now : Instant) (id : String) : marked now id = keeping.markIf now id := by
  funext r
  simp only [marked, Keeping.markIf, Bool.and_eq_true, beq_iff_eq]
  rfl

theorem softDelete_sound_deletion (now : Instant) (id : String) (l : TableLedger) (calm : Prop) :
    keeping.Deletion calm now id l (softDelete .sound now id l) := by
  rw [softDelete_sound]
  split
  · next htarget =>
    obtain ⟨r, hr, hid⟩ := List.any_eq_true.1 htarget
    rw [Bool.and_eq_true] at hid
    refine .marked (List.find?_isSome.2 ⟨r, hr, hid.1⟩) fun other => ?_
    rw [marked_eq]
    refine Keeping.find_map (fun r => ?_) rfl other
    rw [Keeping.markIf]
    split <;> rfl
  · next htarget =>
    cases hrow : l.row? id with
    | none => exact .absent hrow
    | some r =>
      refine .marked (Option.isSome_iff_exists.2 ⟨r, hrow⟩) fun other =>
        (Keeping.map_markIf (fun r hr => ?_) now other).symm
      have hmem := List.mem_of_find?_eq_some hr
      have hid : (r.id == id) = true := beq_iff_eq.2 (Keeping.id_of_find hr)
      have hnone := List.any_eq_false.1 (Bool.eq_false_iff.2 htarget) r hmem
      rw [hid, Bool.true_and] at hnone
      exact Bool.eq_false_iff.2 hnone

theorem keeping_deletes :
    keeping.Deletes (fun faults => store (.failing faults)) Faults.None := by
  intro faults now id l
  show keeping.Deletion (Faults.None faults) now id l (softDelete (.failing faults) now id l)
  obtain ⟨hfaults, cause, hfailed⟩ | hsound := softDelete_failing faults now id l
  · rw [hfailed]
    exact .failed hfaults (StoreError.ofEngine_ne_notFound cause)
  · rw [hsound]
    exact softDelete_sound_deletion now id l _

/-- A row that was marked is read as the marked entry, if it is read. -/
theorem toEntry_mark (now : Instant) (r : EntryRow) :
    (keeping.mark now r).toEntry = r.toEntry.map (Entry.markDeleted · now) := by
  unfold EntryRow.toEntry
  dsimp only [keeping]
  cases Side.ofName? r.side with
  | none => rfl
  | some side =>
    cases EntryRow.readDecimal r.amount with
    | error c => rfl
    | ok amount =>
      cases EntryRow.readDecimal r.balance with
      | error c => rfl
      | ok balance => rfl

end TableLedger

/-- **The ledger is append-only.** -/
theorem LedgerStore.ledger_appendOnly :
    MemoryLedger.keeping.AppendOnly (fun _ : Unit => MemoryLedger.store) (fun _ => True) ∧
    TableLedger.keeping.AppendOnly (fun faults => TableLedger.store (.failing faults)) Faults.None ∧
    (∀ x, (EntryRow.ofEntry x).toEntry = .ok x) ∧
    ∀ now r, (TableLedger.keeping.mark now r).toEntry = r.toEntry.map (Entry.markDeleted · now) :=
  ⟨MemoryLedger.keeping_inserts.appendOnly MemoryLedger.keeping_deletes,
    TableLedger.keeping_inserts.appendOnly TableLedger.keeping_deletes, EntryRow.toEntry_ofEntry,
    TableLedger.toEntry_mark⟩

/-- An entry that is deleted, inserted again and deleted again carries the time of the first deletion. -/
example :
    let x : Entry :=
      { id := "t:debit", account := "A", transactionId := "t", side := .debit, amount := .zero, balance := .zero
        currency := "USD", description := "", createdAt := ⟨0, 0⟩, updatedAt := ⟨0, 0⟩, deletedAt := none }
    let calm : Faults := fun _ _ => none
    (LedgerWrite.run (fun faults => TableLedger.store (.failing faults)) .empty
      [.insert calm [x], .delete calm ⟨1, 0⟩ x.id, .insert calm [x], .delete calm ⟨2, 0⟩ x.id]).rows =
        [.ofEntry (x.markDeleted ⟨1, 0⟩)] := by
  decide +kernel

end TransferLedger
