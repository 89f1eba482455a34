import TransferLedger.Proofs.Ledger.Agreement
import TransferLedger.Proofs.Ledger.Arrivals

/-! # Balances after any history of writes

An account has the balance that its entries add up to exactly, whichever way these reached the store
(`LedgerStore.accountBalance_exact`). What is stored is, up to its order, what arrived first under each id
(`Keeping.contents_run_eq`); and as the magnitudes of all the entries fit together, no partial sum in any
order is rounded (`Decimal.sum_value`).
-/

namespace TransferLedger
set_option autoImplicit false

theorem Decimal.sum_units_div {k : ℕ} {ds : List Decimal} (h : ∀ d ∈ ds, d.scale ≤ k) :
    ((ds.map (·.units k)).sum : ℤ) / (10 ^ k : ℚ) = (ds.map value).sum := by
  induction ds with
  | nil => simp
  | cons d ds ih =>
    rw [List.map_cons, List.sum_cons, List.map_cons, List.sum_cons, Int.cast_add, add_div,
      ih fun x hx => h x (List.mem_cons_of_mem d hx), value_eq_units (h d List.mem_cons_self)]

/-- Decimals among some that fit together add up to exactly what they stand for. -/
theorem Decimal.sum_value {ds all : List Decimal} (hfit : Fit all) (h : ds.Subperm all) :
    ∃ d, sum ds = .ok d ∧ d.value = (ds.map value).sum := by
  obtain ⟨part, hperm, hsub⟩ := h
  have hscale : ∀ d ∈ ds, d.scale ≤ topScale all :=
    fun d hd => scale_le_topScale (hsub.subset (hperm.mem_iff.2 hd))
  have hmagnitude : magnitude (topScale all) ds < bound :=
    (magnitude_perm hperm ▸ magnitude_le_of_sublist hsub).trans_lt hfit
  obtain ⟨d, hsum, hd, hunits⟩ := sum_units (topScale_le all) hscale hmagnitude
  refine ⟨d, hsum, ?_⟩
  rw [value_eq_units hd, hunits, sum_units_div hscale]

namespace Entry

/-! ## What counts -/

/-- What arrived first under each id, for an account, is this in some order. -/
def Collected (arrived : List Entry) (account : String) (es : List Entry) : Prop :=
  ((firsts arrived).filter fun x => x.account == account).Perm es
deriving Decidable

/-- The entries that are not deleted, neither as they arrived nor by the deletion of their id. -/
def undeleted (deletion : String → Option Instant) (es : List Entry) : List Entry :=
  es.filter fun x => !x.isDeleted && (deletion x.id).isNone

/-- What the entries contribute to a balance. -/
def total (es : List Entry) : ℚ := (es.map (·.balance.value)).sum

/-- What is stored of what arrived: the first of each id, deleted where the id is. -/
def settled (arrived : List Entry) (deletion : String → Option Instant) : List Entry :=
  (firsts arrived).map fun x => MemoryLedger.keeping.aged x (deletion x.id)

variable {arrived es : List Entry} {account : String} {deletion : String → Option Instant}

theorem Collected.contributions_perm (h : Collected arrived account es) :
    (contributions (settled arrived deletion) account).Perm ((undeleted deletion es).map (·.balance)) := by
  have haccount : ∀ x d, (MemoryLedger.keeping.aged x d).account = x.account :=
    MemoryLedger.key_aged fun _ _ => rfl
  have hbalance : ∀ x d, (MemoryLedger.keeping.aged x d).balance = x.balance :=
    MemoryLedger.key_aged fun _ _ => rfl
  have hlive : ∀ x d, (!(MemoryLedger.keeping.aged x d).isDeleted) = (!x.isDeleted && d.isNone) :=
    fun x d => MemoryLedger.keeping.isLive_aged x d
  rw [contributions, liveOf, settled, List.filter_map, List.map_map]
  simp only [Function.comp_def, haccount, hbalance, hlive]
  refine List.Perm.map _ ?_
  have hes := h.filter fun x => !x.isDeleted && (deletion x.id).isNone
  rw [List.filter_filter] at hes
  exact (List.filter_congr fun x _ => Bool.and_comm ..) ▸ hes

/-- The contributions add up exactly, in whatever order they are stored. -/
theorem Collected.sum_contributions (h : Collected arrived account es)
    (hfit : Decimal.Fit (es.map (·.balance))) {sorted : List Entry}
    (hsorted : sorted.Perm (liveOf (settled arrived deletion) account)) :
    ∃ d, Decimal.sum (sorted.map (·.balance)) = .ok d ∧ d.value = total (undeleted deletion es) := by
  have hperm : (sorted.map (·.balance)).Perm ((undeleted deletion es).map (·.balance)) :=
    (hsorted.map _).trans h.contributions_perm
  obtain ⟨d, hsum, hvalue⟩ := Decimal.sum_value hfit
    (hperm.subperm.trans ((List.filter_sublist.map _).subperm))
  refine ⟨d, hsum, hvalue.trans ?_⟩
  rw [(hperm.map _).sum_eq, List.map_map]
  rfl

end Entry

/-! ## The store in memory -/

namespace MemoryLedger

/-- The indexes go on listing the entries, whatever is written. -/
theorem Indexed.run {l : MemoryLedger} (h : l.Indexed) (writes : List (LedgerWrite Unit)) :
    (LedgerWrite.run (fun _ => store) l writes).Indexed := by
  induction writes generalizing l with
  | nil => exact h
  | cons w ws ih =>
    refine ih ?_
    cases w with
    | insert i batch => exact h.insertEntries batch
    | delete i now id => exact h.softDelete now id
    | deliver i policy cancelled now e =>
      exact writeEvent_keeps (P := Indexed) (fun debit credit _ _ _ hs => hs.insertEntries [debit, credit]) h

theorem accountBalance_run {account : String} {es : List Entry}
    (hfit : Decimal.Fit (es.map (·.balance))) (writes : List (LedgerWrite Unit))
    (h : Entry.Collected (LedgerWrite.arrivals (fun _ => store) .empty writes) account es) :
    ∃ d, store.accountBalance account (LedgerWrite.run (fun _ => store) .empty writes) = .ok d ∧
      d.value = Entry.total
        (Entry.undeleted (LedgerWrite.firstDeletion (fun _ => store) · .empty writes) es) := by
  have hstored : (LedgerWrite.run (fun _ => store) empty writes).entries =
      Entry.settled (LedgerWrite.arrivals (fun _ => store) empty writes)
        (LedgerWrite.firstDeletion (fun _ => store) · empty writes) :=
    Keeping.contents_run_eq keeping_inserts keeping_deletes keeping_deletesInPlace rfl writes
  obtain ⟨d, hsum, hvalue⟩ := h.sum_contributions hfit (List.Perm.refl _)
  refine ⟨d, ?_, hvalue⟩
  have hbalance := (empty_indexed.run writes).accountBalance_eq account
  rw [hstored, hsum] at hbalance
  generalize LedgerWrite.run (fun _ => store) empty writes = l at hbalance ⊢
  simp only [store, hbalance]

end MemoryLedger

/-! ## The store on a table -/

namespace TableLedger

/-- The query reads in one statement. -/
theorem accountBalance_failing (faults : Faults) (account : String) (l : TableLedger) :
    (¬ faults.None ∧
      ∃ cause, accountBalance (.failing faults) account l = .error (.refused (.ofEngine cause))) ∨
      accountBalance (.failing faults) account l = accountBalance .sound account l := by
  rw [accountBalance, accountBalance, Engine.ask_failing]
  cases hread : faults 0 .read with
  | some cause => exact .inl ⟨fun h => by simp [h 0] at hread, cause, rfl⟩
  | none => exact .inr rfl

/-- The rows are those of what arrived first under each id. -/
theorem run_eq_listing (writes : List (LedgerWrite Faults)) :
    LedgerWrite.run (fun faults => store (.failing faults)) .empty writes = listing (Entry.settled
      (LedgerWrite.arrivals (fun faults => store (.failing faults)) .empty writes)
      (LedgerWrite.firstDeletion (fun faults => store (.failing faults)) · .empty writes)) := by
  have hrows := Keeping.contents_run_eq (s := empty) keeping_inserts keeping_deletes
    keeping_deletesInPlace rfl writes
  refine congrArg TableLedger.mk (hrows.trans ?_)
  rw [Entry.settled, List.map_map]
  exact List.map_congr_left fun x _ => EntryRow.ofEntry_aged x _

theorem accountBalance_run {account : String} {es : List Entry}
    (hfit : Decimal.Fit (es.map (·.balance))) (writes : List (LedgerWrite Faults))
    (h : Entry.Collected
      (LedgerWrite.arrivals (fun faults => store (.failing faults)) .empty writes) account es) :
    ∃ d, accountBalance .sound account
        (LedgerWrite.run (fun faults => store (.failing faults)) .empty writes) = .ok d ∧
      d.value = Entry.total (Entry.undeleted
        (LedgerWrite.firstDeletion (fun faults => store (.failing faults)) · .empty writes) es) := by
  obtain ⟨sorted, hsorted, hbalance⟩ := accountBalance_listing (Entry.settled
    (LedgerWrite.arrivals (fun faults => store (.failing faults)) .empty writes)
    (LedgerWrite.firstDeletion (fun faults => store (.failing faults)) · .empty writes)) account
  obtain ⟨d, hsum, hvalue⟩ := h.sum_contributions hfit hsorted
  refine ⟨d, ?_, hvalue⟩
  rw [run_eq_listing, hbalance, hsum]
  rfl

end TableLedger

/-- **A balance is the exact sum, however its entries arrived.** The table answers so whenever it can be read. -/
theorem LedgerStore.accountBalance_exact (account : String) {es : List Entry}
    (hfit : Decimal.Fit (es.map (·.balance))) :
    (∀ writes : List (LedgerWrite Unit),
      let store := fun _ : Unit => MemoryLedger.store
      Entry.Collected (LedgerWrite.arrivals store .empty writes) account es →
      ∃ d, MemoryLedger.store.accountBalance account (LedgerWrite.run store .empty writes) = .ok d ∧
        d.value =
          Entry.total (Entry.undeleted (LedgerWrite.firstDeletion store · .empty writes) es)) ∧
    ∀ writes : List (LedgerWrite Faults),
      let store := fun faults : Faults => TableLedger.store (.failing faults)
      Entry.Collected (LedgerWrite.arrivals store .empty writes) account es →
      ∃ d, d.value =
          Entry.total (Entry.undeleted (LedgerWrite.firstDeletion store · .empty writes) es) ∧
        ∀ faults, (store faults).accountBalance account (LedgerWrite.run store .empty writes) = .ok d ∨
          ¬ faults.None ∧ ∃ cause, (store faults).accountBalance account
            (LedgerWrite.run store .empty writes) = .error (.refused (.ofEngine cause)) := by
  refine ⟨fun writes h => MemoryLedger.accountBalance_run hfit writes h, fun writes h => ?_⟩
  obtain ⟨d, hbalance, hvalue⟩ := TableLedger.accountBalance_run hfit writes h
  refine ⟨d, hvalue, fun faults => ?_⟩
  obtain hfailed | hsound := TableLedger.accountBalance_failing faults account
    (LedgerWrite.run (fun faults => TableLedger.store (.failing faults)) .empty writes)
  · exact .inr hfailed
  · exact .inl (hsound.trans hbalance)

/-- Four entries of an account at three scales. -/
def sampleEntries : List Entry :=
  let entry (transaction : String) (side : Side) (amount : Decimal) : Entry :=
    { id := Entry.idOf transaction side, account := "A", transactionId := transaction, side := side
      amount := amount, balance := Entry.contribution amount side, currency := "USD", description := ""
      createdAt := ⟨1700000000, 0⟩, updatedAt := ⟨1700000000, 0⟩, deletedAt := none }
  let amount (mantissa : Int) (scale : Nat) : Decimal := (Decimal.ofParts? mantissa scale).getD .zero
  [entry "t" .credit (amount 15 1), entry "u" .debit (amount 25 2), entry "v" .credit (amount 10 0),
    entry "w" .debit (amount 200 2)]

/-- They arrive split over batches, with another account's and with repetitions, one of them by its event; one
is deleted. -/
def sampleHistory {ι : Type} (i : ι) : List (LedgerWrite ι) :=
  let other (x : Entry) : Entry := { x with id := "b-" ++ x.id, account := "B" }
  let changed (x : Entry) : Entry := { x with balance := x.amount.neg }
  let event : Event :=
    { transactionId := "w", fromAccount := "A", toAccount := "B", type := "transfer", amount := "2.00"
      currency := "USD", status := "success", description := "", timestamp := 1700000000 }
  [.insert i ((sampleEntries.take 1).map other ++ (sampleEntries.drop 2).take 1),
    .deliver (fun _ => i) {} (fun _ => false) ⟨1700000000, 0⟩ event, .delete i ⟨1700000001, 0⟩ "v:credit",
    .insert i (sampleEntries.take 2).reverse, .insert i (sampleEntries.map changed),
    .insert i (sampleEntries ++ sampleEntries)]

theorem sample_accountBalance_exact : Decimal.Fit (sampleEntries.map (·.balance)) ∧
    (∃ d, MemoryLedger.store.accountBalance "A"
        (LedgerWrite.run (fun _ => MemoryLedger.store) .empty (sampleHistory ())) = .ok d ∧
      d.value = -3/4) ∧
    ∃ d, (TableLedger.store .sound).accountBalance "A"
        (LedgerWrite.run (fun faults => TableLedger.store (.failing faults)) .empty
          (sampleHistory fun _ _ => none)) = .ok d ∧ d.value = -3/4 := by
  have hfit : Decimal.Fit (sampleEntries.map (·.balance)) := by decide +kernel
  obtain ⟨hmemory, htable⟩ := LedgerStore.accountBalance_exact "A" hfit
  obtain ⟨d, hd, hvalue⟩ := hmemory (sampleHistory ()) (by decide +kernel)
  obtain ⟨d', hvalue', hd'⟩ := htable (sampleHistory fun _ _ => none) (by decide +kernel)
  refine ⟨hfit, ⟨d, hd, hvalue.trans (by decide +kernel)⟩, d', ?_, hvalue'.trans (by decide +kernel)⟩
  have hcalm : Faults.None fun _ _ => none := fun _ _ => rfl
  obtain hok | ⟨hfaults, -⟩ := hd' fun _ _ => none
  · rwa [← Engine.failing_eq_sound hcalm]
  · exact absurd hcalm hfaults

end TransferLedger
