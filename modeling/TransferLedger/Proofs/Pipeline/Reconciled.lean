import TransferLedger.Proofs.Pipeline.DoubleEntry
import TransferLedger.Proofs.Pipeline.Report

/-! # Reconciliation is right

The balances, the records and the ledger of a pipeline are written at different times, the ledger possibly
late, in another order, or not at all, and its entries may be deleted. A report compares the three without
rounding, and if it finds nothing missing, then what it works out as the opening balance is the balance with
which the account was opened.
-/

namespace TransferLedger.Pipeline
set_option autoImplicit false

/-- What a report of an account says about the books and the ledger. -/
structure Reconciles (s : Pipeline) (row : AccountRow) (r : ReconciliationReport) : Prop where
  account : r.account = row.id
  balance : readDecimalColumn row.balance = .ok r.accountBalance
  ledger : s.ledger.accountBalance .sound row.id = .ok r.ledgerBalance
  exact : ∃ entries, s.ledger.rows.mapM EntryRow.toEntry = .ok entries ∧
    r.ledgerBalance.value = ((Entry.liveOf entries row.id).map (·.balance.value)).sum
  difference : r.openingBalance.value = r.accountBalance.value - r.ledgerBalance.value
  missing_nodup : r.missing.Nodup
  missing : ∀ id, id ∈ r.missing ↔ ∃ t, t.id = id ∧ s.Committed t ∧ t.touches row.id = true ∧
    s.ledger.liveCount t.id ≠ 2
  opened : ∃ o ∈ s.books.opened, o.id = row.id
  consistent : r.consistent = true → ∀ o ∈ s.books.opened, o.id = row.id →
    r.openingBalance.value = o.balance.value

variable {s : Pipeline} {x : Parts}

/-- The openings and the committed amounts, counted in units. -/
theorem Sound.units_lt_bound (h : s.Sound x)
    (hsum : ((s.books.opened.map (·.balance.value)).sum +
      (x.register.successes.map (·.amount.value)).sum) * 10 ^ 8 < 2 ^ 96) :
    totalUnits x.register.opened + x.register.committedUnits < Decimal.bound := by
  have hg := h.register
  have hopened : s.books.opened = x.register.opened := congrArg Books.opened h.books_eq
  have hscale : ∀ t ∈ x.register.successes, t.amount.scale ≤ 8 :=
    fun t ht => (hg.records t (Register.mem_successes.1 ht).1).scale_le
  rw [hopened, sum_value Account.balance fun o ho => (hg.openings o ho).2,
    sum_value Transaction.amount hscale, ← add_div, div_mul_cancel₀ _ (by norm_num),
    ← hg.committedUnits_eq] at hsum
  have hbound : ((Decimal.bound : ℤ) : ℚ) = 2 ^ 96 := by norm_num [Decimal.bound]
  rw [← hbound] at hsum
  exact_mod_cast hsum

/-- The missing records of a report. -/
theorem Sound.mem_missing (h : s.Sound x) {a : Account} {balance opening : Decimal} {id : String} :
    id ∈ (Reconciliation.reportOf x.register s.ledger a balance opening).missing ↔
      ∃ t, t.id = id ∧ s.Committed t ∧ t.touches a.id = true ∧ s.ledger.liveCount t.id ≠ 2 := by
  have hmem : ∀ t, t ∈ s.ledger.incomplete (Reconciliation.committedOf x.register a.id) ↔
      s.Committed t ∧ t.touches a.id = true ∧ s.ledger.liveCount t.id ≠ 2 := by
    intro t
    rw [TableLedger.incomplete, List.mem_filter, Reconciliation.mem_committedOf, Committed, h.mem_records,
      decide_eq_true_eq]
    tauto
  simp only [Reconciliation.reportOf, List.mem_map, hmem]
  exact exists_congr fun t => and_comm

theorem Sound.missing_nodup (h : s.Sound x) {a : Account} {balance opening : Decimal} :
    (Reconciliation.reportOf x.register s.ledger a balance opening).missing.Nodup := by
  have hsub : (s.ledger.incomplete (Reconciliation.committedOf x.register a.id)).Sublist
      (x.register.recordsOf a.id) := List.filter_sublist.trans List.filter_sublist
  exact (h.register.recordsOf_nodup a.id).sublist (hsub.map _)

/-- A report that finds nothing missing is about a complete ledger. -/
theorem Sound.complete (h : s.Sound x) {a : Account} {balance opening : Decimal}
    (hconsistent : (Reconciliation.reportOf x.register s.ledger a balance opening).consistent = true) :
    ∀ t ∈ x.register.successes, t.touches a.id = true → s.ledger.liveCount t.id = 2 := by
  intro t ht htouches
  by_contra htwo
  rw [Register.mem_successes] at ht
  have hmem : t.id ∈ (Reconciliation.reportOf x.register s.ledger a balance opening).missing :=
    h.mem_missing.2 ⟨t, rfl, ⟨h.mem_records.2 ht.1, ht.2⟩, htouches, htwo⟩
  rw [ReconciliationReport.consistent, List.isEmpty_iff] at hconsistent
  rw [hconsistent] at hmem
  cases hmem

theorem Reachable.reconciled (h : s.Reachable) {records : List Transaction}
    (hrecords : s.books.bank.transactions.mapM TransactionRow.toTransaction = .ok records)
    (hsum : ((s.books.opened.map (·.balance.value)).sum +
      ((records.filter fun t => t.status = .success).map (·.amount.value)).sum) * 10 ^ 8 < 2 ^ 96) :
    ∀ row ∈ s.books.bank.accounts, row.isLive = true →
      ∃ r, Reconciliation.report .sound row.id s.world = .ok r ∧ s.Reconciles row r := by
  intro row hrow hlive
  obtain ⟨x, hx⟩ := h.sound
  obtain ⟨es, hledger, hes⟩ := hx.exists_listing
  have hg := hx.register
  have hw := hx.wrote
  have hbooks := hx.bank_eq
  have hopened : s.books.opened = x.register.opened := congrArg Books.opened hx.books_eq
  have hread : records = x.register.records := by
    rw [hbooks] at hrecords
    exact (Except.ok.inj ((TransactionRow.mapM_toTransaction _).symm.trans hrecords)).symm
  subst hread
  have hfit := hx.units_lt_bound hsum
  have hnonneg : (0 : ℤ) ≤ x.register.committedUnits := Int.natCast_nonneg _
  have hexplained : x.register.Explained := Register.Reachable.explained hx.reachable (by omega)
  obtain ⟨a, rfl, ha⟩ := hx.exists_live hrow hlive
  rw [hledger] at hw
  obtain ⟨balance, opening, hreport, hbalance, hscale, hunits, hopening, hdifference⟩ :=
    hw.report_exact hes hg hexplained hfit ha s.broker
  have hrow : (AccountRow.ofAccount a).id = a.id := rfl
  have hholdable := (hg.balances a ha.mem).2
  rw [← hbooks, ← hledger] at hreport
  rw [← hledger] at hbalance
  refine ⟨_, hreport, ?_⟩
  refine
    { account := rfl
      balance := readDecimalColumn_text a.balance
      ledger := hbalance
      exact := ⟨es, by rw [hledger]; exact EntryRow.mapM_toEntry es, ?_⟩
      difference := ?_
      missing_nodup := hx.missing_nodup
      missing := fun id => hx.mem_missing
      opened := ?_
      consistent := ?_ }
  · have hlivescale : ∀ y ∈ Entry.liveOf es a.id, y.balance.scale ≤ 8 :=
      fun y hy => hw.scale_le hg hes y (List.mem_of_mem_filter hy)
    rw [hrow, sum_value Entry.balance hlivescale, ← hunits, ← Decimal.value_eq_units hscale]
    rfl
  · show opening.value = a.balance.value - balance.value
    rw [Decimal.value_eq_units hopening, hdifference, Decimal.value_eq_units hholdable,
      Decimal.value_eq_units hscale]
    push_cast
    ring
  · have hid : a.id ∈ x.register.opened.map (·.id) := by
      rw [hg.openedIds]
      exact List.mem_map_of_mem ha.mem
    rw [hopened]
    exact List.mem_map.1 hid
  · intro hconsistent o ho hid
    rw [hopened] at ho
    have hcomplete : ∀ t ∈ x.register.successes, t.touches a.id = true →
        (TableLedger.listing es).liveCount t.id = 2 := hledger ▸ hx.complete hconsistent
    have hunitsEq := hw.difference_complete hes hg hexplained ho ha.mem hid hcomplete
    show opening.value = o.balance.value
    rw [Decimal.value_eq_units hopening, Decimal.value_eq_units (hg.openings o ho).2, hdifference, hunits,
      hunitsEq]

/-- Both accounts of the sample are reconciled, one after a payment and one after a receipt. -/
theorem sample_reconciled : (sample.books.bank.accounts.filter (·.isLive)).map (·.id) = ["alice", "bob"] ∧
    ∀ row ∈ sample.books.bank.accounts, row.isLive = true →
      ∃ r, Reconciliation.report .sound row.id sample.world = .ok r ∧ sample.Reconciles row r := by
  have hrecords : sample.books.bank.transactions.mapM TransactionRow.toTransaction =
      .ok [Books.samplePlan.record .success default] := by
    decide +kernel
  have hopenings : sample.books.opened.map (·.balance) = [⟨1050, 2, by decide, by decide⟩, .zero] := by
    decide +kernel
  have hsum : ((sample.books.opened.map (·.balance.value)).sum +
      (([Books.samplePlan.record .success default].filter fun t => t.status = .success).map
        (·.amount.value)).sum) * 10 ^ 8 < 2 ^ 96 := by
    have hvalues : sample.books.opened.map (·.balance.value) =
        (sample.books.opened.map (·.balance)).map Decimal.value := by
      rw [List.map_map]
      rfl
    rw [hvalues, hopenings]
    norm_num [Decimal.value, Decimal.zero, TransferPlan.record, Books.samplePlan]
  exact ⟨by decide +kernel, Reachable.reconciled sample_reachable hrecords hsum⟩

end TransferLedger.Pipeline
