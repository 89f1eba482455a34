import Mathlib.Data.List.Find
import TransferLedger.Proofs.Ledger.Arrivals

/-! # Transactions apart

The id of an entry ends in its side, and no side's name ends in another one after a colon. So ids are equal only
for one transaction and one side, whatever texts the transactions are called by (`Entry.idOf_eq_iff`), and what
events bring can be told by these two instead of the id (`Entry.find?_idOf`). A ledger that is written from events
then has under the ids of a transaction what came first of this transaction (`Keeping.find_run_ofEvents`), and an
entry is passed over only if one of its own transaction and side came before (`Keeping.Separates`).
-/

namespace TransferLedger
set_option autoImplicit false

/-! ## Entries of events -/

namespace Entry

theorem idOf_eq_iff {t t' : String} {side side' : Side} :
    idOf t side = idOf t' side' ↔ t = t' ∧ side = side' :=
  ⟨idOf_inj, fun ⟨ht, hside⟩ => ht ▸ hside ▸ rfl⟩

theorem pair_ids_nodup {e : Event} {now : Instant} {debit credit : Entry}
    (h : pairOfEvent e now = .ok (debit, credit)) : ([debit, credit].map (·.id)).Nodup := by
  obtain ⟨amount, -, -, rfl, rfl⟩ := pairOfEvent_eq_ok h
  have hne : idOf e.transactionId .debit ≠ idOf e.transactionId .credit :=
    fun heq => nomatch (idOf_eq_iff.1 heq).2
  simpa [ofEvent] using hne

/-- Two events are of different transactions exactly if their four entries have four ids. -/
theorem pairs_ids_nodup_iff {e e' : Event} {now now' : Instant} {debit credit debit' credit' : Entry}
    (h : pairOfEvent e now = .ok (debit, credit)) (h' : pairOfEvent e' now' = .ok (debit', credit')) :
    [debit.id, credit.id, debit'.id, credit'.id].Nodup ↔ e.transactionId ≠ e'.transactionId := by
  obtain ⟨amount, -, -, rfl, rfl⟩ := pairOfEvent_eq_ok h
  obtain ⟨amount', -, -, rfl, rfl⟩ := pairOfEvent_eq_ok h'
  simp [ofEvent, idOf_eq_iff]

/-- One of the two entries that an event yields. -/
def FromEvent (x : Entry) : Prop :=
  ∃ e now debit credit, pairOfEvent e now = .ok (debit, credit) ∧ x ∈ [debit, credit]

theorem mem_pair {e : Event} {now : Instant} {debit credit x : Entry}
    (h : pairOfEvent e now = .ok (debit, credit)) (hx : x ∈ [debit, credit]) :
    x.transactionId = e.transactionId ∧ x.id = idOf x.transactionId x.side := by
  obtain ⟨amount, -, -, rfl, rfl⟩ := pairOfEvent_eq_ok h
  obtain rfl | hx := List.mem_cons.1 hx
  · exact ⟨rfl, rfl⟩
  · rw [List.mem_singleton.1 hx]
    exact ⟨rfl, rfl⟩

theorem FromEvent.id_eq {x : Entry} (h : x.FromEvent) : x.id = idOf x.transactionId x.side := by
  obtain ⟨e, now, debit, credit, hpair, hx⟩ := h
  exact (mem_pair hpair hx).2

/-- Among entries of events, an id picks a transaction and a side. -/
theorem find?_idOf {es : List Entry} (h : ∀ x ∈ es, x.FromEvent) (t : String) (side : Side) :
    (es.find? fun x => x.id == idOf t side) = es.find? fun x => x.transactionId == t && x.side == side := by
  refine List.find?_congr fun x hx => ?_
  rw [Bool.eq_iff_iff, Bool.and_eq_true, beq_iff_eq, beq_iff_eq, beq_iff_eq, (h x hx).id_eq, idOf_eq_iff]

end Entry

/-! ## Writes of events -/

namespace LedgerWrite

variable {ι σ : Type} {store : ι → LedgerStore σ}

/-- Whatever the write inserts, events have yielded. -/
def OfEvents : LedgerWrite ι → Prop
  | insert _ batch => ∀ x ∈ batch, x.FromEvent
  | delete _ _ _ => True
  | deliver _ _ _ _ _ => True

theorem mem_brought_deliver {i : Nat → ι} {policy : RetryPolicy} {cancelled : Nat → Bool} {now : Instant}
    {e : Event} {s : σ} {x : Entry} (hx : x ∈ (deliver i policy cancelled now e).brought store s) :
    ∃ debit credit, Entry.pairOfEvent e now = .ok (debit, credit) ∧ x ∈ [debit, credit] := by
  rw [brought] at hx
  split at hx
  · next debit credit s' hwrite => exact ⟨debit, credit, writeEvent_pair hwrite, hx⟩
  · cases hx

theorem OfEvents.brought {w : LedgerWrite ι} (h : w.OfEvents) (s : σ) :
    ∀ x ∈ w.brought store s, x.FromEvent := by
  intro x hx
  cases w with
  | insert i batch =>
    rw [LedgerWrite.brought] at hx
    split at hx
    · exact h x hx
    · cases hx
  | delete i now id => cases hx
  | deliver i policy cancelled now e =>
    obtain ⟨debit, credit, hpair, hx⟩ := mem_brought_deliver hx
    exact ⟨e, now, debit, credit, hpair, hx⟩

theorem arrivals_fromEvent {writes : List (LedgerWrite ι)} (h : ∀ w ∈ writes, w.OfEvents) (s : σ) :
    ∀ x ∈ arrivals store s writes, x.FromEvent := by
  induction writes generalizing s with
  | nil => exact nofun
  | cons w ws ih =>
    intro x hx
    obtain hx | hx := List.mem_append.1 hx
    · exact (h w List.mem_cons_self).brought s x hx
    · exact ih (fun w' hw' => h w' (List.mem_cons_of_mem w hw')) (w.perform store s) x hx

end LedgerWrite

namespace Keeping

variable {ι σ ρ : Type} (k : Keeping σ ρ)

/-- An entry of this one's transaction and side is stored under its id at first or arrives with the writes. -/
def cameBefore (store : ι → LedgerStore σ) (s : σ) (writes : List (LedgerWrite ι)) (x : Entry) : Bool :=
  (k.find s x.id).isSome || (LedgerWrite.arrivals store s writes).any fun y =>
    y.transactionId == x.transactionId && y.side == x.side

/-- What is written of one transaction makes no difference to another one. -/
structure Separates (store : ι → LedgerStore σ) (calm : ι → Prop) : Prop where
  spared : ∀ i policy cancelled now e s t side, e.transactionId ≠ t →
    k.find ((LedgerWrite.deliver i policy cancelled now e).perform store s) (Entry.idOf t side) =
      k.find s (Entry.idOf t side)
  found : ∀ s writes, (∀ w ∈ writes, w.OfEvents) → ∀ t side,
    k.find (LedgerWrite.run store s writes) (Entry.idOf t side) =
      ((k.find s (Entry.idOf t side)).or (((LedgerWrite.arrivals store s writes).find? fun x =>
          x.transactionId == t && x.side == side).map k.form)).map
        (k.aged · (LedgerWrite.firstDeletion store (Entry.idOf t side) s writes))
  stored : ∀ s writes, (∀ w ∈ writes, w.OfEvents) → ∀ w : LedgerWrite ι, w.OfEvents →
    ∀ x ∈ w.brought store (LedgerWrite.run store s writes),
      k.find (LedgerWrite.run store s (writes ++ [w])) x.id =
        if k.cameBefore store s writes x then k.find (LedgerWrite.run store s writes) x.id
        else some (k.form x)
  counted : ∀ s writes, (∀ w ∈ writes, w.OfEvents) → ∀ i batch n s', (∀ x ∈ batch, x.FromEvent) →
    (store i).insertEntries batch (LedgerWrite.run store s writes) = (.ok n, s') →
      n = batch.countP fun x => !k.cameBefore store s writes x
  written : ∀ i policy cancelled now e s debit credit, calm (i 1) → cancelled 1 = false →
    Entry.pairOfEvent e now = .ok (debit, credit) →
      (LedgerWrite.deliver i policy cancelled now e).brought store s = [debit, credit]

variable {k} {store : ι → LedgerStore σ} {calm : ι → Prop}

theorem find_run_ofEvents (hs : k.Inserts store calm) (hd : k.Deletes store calm)
    {writes : List (LedgerWrite ι)} (h : ∀ w ∈ writes, w.OfEvents) (s : σ) (t : String) (side : Side) :
    k.find (LedgerWrite.run store s writes) (Entry.idOf t side) =
      ((k.find s (Entry.idOf t side)).or (((LedgerWrite.arrivals store s writes).find? fun x =>
          x.transactionId == t && x.side == side).map k.form)).map
        (k.aged · (LedgerWrite.firstDeletion store (Entry.idOf t side) s writes)) := by
  rw [find_run_eq hs hd, Entry.find?_idOf (LedgerWrite.arrivals_fromEvent h s)]

/-- An id of an entry is taken exactly if an entry of its transaction and side came before. -/
theorem isSome_find_run (hs : k.Inserts store calm) (hd : k.Deletes store calm)
    {writes : List (LedgerWrite ι)} (h : ∀ w ∈ writes, w.OfEvents) (s : σ) {x : Entry} (hx : x.FromEvent) :
    (k.find (LedgerWrite.run store s writes) x.id).isSome = k.cameBefore store s writes x := by
  rw [cameBefore, hx.id_eq, find_run_ofEvents hs hd h, Option.isSome_map, Option.isSome_or, Option.isSome_map,
    List.isSome_find?]

namespace Inserts

variable (hs : k.Inserts store calm)

include hs

/-- What a write brings under an id that is not stored is stored as it is, and else what is stored stays. -/
theorem find_brought {s : σ} {w : LedgerWrite ι} {x : Entry} (hx : x ∈ w.brought store s) :
    k.find (w.perform store s) x.id = (k.find s x.id).or (some (k.form x)) := by
  obtain ⟨i, now, id, rfl⟩ | ⟨-, hnodup, hadded⟩ := hs.perform_cases s w
  · cases hx
  · rw [find_added hadded, Entry.find?_of_mem hnodup hx, Option.map_some]

/-- A delivery touches no id but those of its own event's transaction. -/
theorem find_deliver (i : Nat → ι) (policy : RetryPolicy) (cancelled : Nat → Bool) (now : Instant) (e : Event)
    (s : σ) {t : String} (ht : e.transactionId ≠ t) (side : Side) :
    k.find ((LedgerWrite.deliver i policy cancelled now e).perform store s) (Entry.idOf t side) =
      k.find s (Entry.idOf t side) := by
  obtain ⟨j, now, id, hdelete⟩ | ⟨-, -, hadded⟩ :=
    hs.perform_cases s (LedgerWrite.deliver i policy cancelled now e)
  · cases hdelete
  · have hnone : (((LedgerWrite.deliver i policy cancelled now e).brought store s).find? fun x =>
        x.id == Entry.idOf t side) = none := by
      -- What an event brings is of its own transaction.
      refine List.find?_eq_none.2 fun x hx hid => ht ?_
      obtain ⟨debit, credit, hpair, hmem⟩ := LedgerWrite.mem_brought_deliver hx
      obtain ⟨htransaction, heq⟩ := Entry.mem_pair hpair hmem
      rw [beq_iff_eq, heq, Entry.idOf_eq_iff, htransaction] at hid
      exact hid.1
    rw [find_added hadded, hnone, Option.map_none, Option.or_none]

theorem brought_deliver {i : Nat → ι} (policy : RetryPolicy) {cancelled : Nat → Bool} {now : Instant}
    {e : Event} (s : σ) {debit credit : Entry} (hcalm : calm (i 1)) (hcancelled : cancelled 1 = false)
    (hpair : Entry.pairOfEvent e now = .ok (debit, credit)) :
    (LedgerWrite.deliver i policy cancelled now e).brought store s = [debit, credit] := by
  obtain ⟨n, s', hinsert⟩ := hs.taken (i 1) [debit, credit] s hcalm (Entry.pair_ids_nodup hpair)
  have hrun : Retry.run policy insertOperation cancelled
      (fun n => (store (i n)).insertEntries [debit, credit]) s = (.ok n, s') := by
    rw [Retry.run, Retry.attempt, hcancelled, if_neg Bool.false_ne_true, hinsert]
  have hwrite : writeEvent policy (fun n => (store (i n)).insertEntries) cancelled now e s =
      (.ok (debit, credit), s') := by
    rw [writeEvent, hpair]
    dsimp only
    rw [hrun]
  rw [LedgerWrite.brought, hwrite]

theorem separates (hd : k.Deletes store calm) : k.Separates store calm where
  spared i policy cancelled now e s t side ht := hs.find_deliver i policy cancelled now e s ht side
  found s writes h t side := find_run_ofEvents hs hd h s t side
  stored s writes h w hw x hx := by
    have hrun : LedgerWrite.run store s (writes ++ [w]) = w.perform store (LedgerWrite.run store s writes) :=
      List.foldl_concat ..
    rw [hrun, hs.find_brought hx, ← isSome_find_run hs hd h s (hw.brought _ x hx)]
    cases k.find (LedgerWrite.run store s writes) x.id <;> rfl
  counted s writes h i batch n s' hbatch hinsert := by
    obtain ⟨-, hcount, -⟩ := hs.added i batch _ n s' hinsert
    rw [hcount, fresh, ← List.countP_eq_length_filter]
    refine List.countP_congr fun x hx => ?_
    rw [← isSome_find_run hs hd h s (hbatch x hx), Option.not_isSome]
  written i policy cancelled now e s debit credit hcalm hcancelled hpair :=
    hs.brought_deliver policy s hcalm hcancelled hpair

end Inserts

end Keeping

/-- **Entries of different transactions never collide.** -/
theorem LedgerStore.entries_never_collide :
    (∀ t t' side side', Entry.idOf t side = Entry.idOf t' side' ↔ t = t' ∧ side = side') ∧
    (∀ e e' now now' debit credit debit' credit', Entry.pairOfEvent e now = .ok (debit, credit) →
      Entry.pairOfEvent e' now' = .ok (debit', credit') →
        ([debit.id, credit.id, debit'.id, credit'.id].Nodup ↔ e.transactionId ≠ e'.transactionId)) ∧
    MemoryLedger.keeping.Separates (fun _ : Unit => MemoryLedger.store) (fun _ => True) ∧
    TableLedger.keeping.Separates (fun faults => TableLedger.store (.failing faults)) Faults.None ∧
    ∀ x, (EntryRow.ofEntry x).toEntry = .ok x :=
  ⟨fun _ _ _ _ => Entry.idOf_eq_iff, fun _ _ _ _ _ _ _ _ => Entry.pairs_ids_nodup_iff,
    MemoryLedger.keeping_inserts.separates MemoryLedger.keeping_deletes,
    TableLedger.keeping_inserts.separates TableLedger.keeping_deletes, EntryRow.toEntry_ofEntry⟩

/-- A transfer under this id. -/
def sampleNamed (transaction : String) : Event :=
  { transactionId := transaction, fromAccount := "A", toAccount := "B", type := "transfer", amount := "1.50"
    currency := "USD", status := "success", description := "", timestamp := 1700000000 }

def sampleSide (transaction : String) (side : Side) : Entry :=
  .ofEvent (sampleNamed transaction) ((Decimal.ofParts? 150 2).getD .zero) ⟨1700000000, 0⟩ side

def sampleArrival (transaction : String) : LedgerWrite Faults :=
  .deliver (fun _ _ _ => none) {} (fun _ => false) ⟨1700000000, 0⟩ (sampleNamed transaction)

/-- The transaction that arrives first is called what the debit of the second one is. -/
theorem sample_never_collide :
    (∀ transaction ∈ ["t:debit", "t"], Entry.pairOfEvent (sampleNamed transaction) ⟨1700000000, 0⟩ =
      .ok (sampleSide transaction .debit, sampleSide transaction .credit)) ∧
    (sampleSide "t" .debit).id = (sampleNamed "t:debit").transactionId ∧
    [(sampleSide "t:debit" .debit).id, (sampleSide "t:debit" .credit).id, (sampleSide "t" .debit).id,
      (sampleSide "t" .credit).id].Nodup ∧
    ∀ side, TableLedger.keeping.find (LedgerWrite.run (fun faults => TableLedger.store (.failing faults)) .empty
      [sampleArrival "t:debit", sampleArrival "t"]) (sampleSide "t" side).id =
        some (.ofEntry (sampleSide "t" side)) := by
  have hpair : ∀ transaction ∈ ["t:debit", "t"], Entry.pairOfEvent (sampleNamed transaction) ⟨1700000000, 0⟩ =
      .ok (sampleSide transaction .debit, sampleSide transaction .credit) := by
    decide +kernel
  obtain ⟨-, hids, -, htable, -⟩ := LedgerStore.entries_never_collide
  have hfour := hids _ _ _ _ _ _ _ _ (hpair "t:debit" (by decide)) (hpair "t" (by decide))
  have hof : ∀ w ∈ [sampleArrival "t:debit"], w.OfEvents := by
    intro w hw
    rw [List.mem_singleton.1 hw]
    trivial
  have hwritten : (sampleArrival "t").brought (fun faults => TableLedger.store (.failing faults))
      (LedgerWrite.run (fun faults => TableLedger.store (.failing faults)) .empty [sampleArrival "t:debit"]) =
        [sampleSide "t" .debit, sampleSide "t" .credit] :=
    htable.written _ _ _ _ _ _ _ _ (fun _ _ => rfl) rfl (hpair "t" (by decide))
  refine ⟨hpair, by decide, hfour.2 (by decide), fun side => ?_⟩
  have hmem : sampleSide "t" side ∈ (sampleArrival "t").brought
      (fun faults => TableLedger.store (.failing faults))
      (LedgerWrite.run (fun faults => TableLedger.store (.failing faults)) .empty [sampleArrival "t:debit"]) := by
    rw [hwritten]
    cases side <;> decide
  have hstored := htable.stored .empty _ hof (sampleArrival "t") trivial _ hmem
  have hfirst : TableLedger.keeping.cameBefore (fun faults => TableLedger.store (.failing faults)) .empty
      [sampleArrival "t:debit"] (sampleSide "t" side) = false := by
    cases side <;> decide +kernel
  rw [hfirst] at hstored
  exact hstored

end TransferLedger
