import TransferLedger.Proofs.Books.Balances
import TransferLedger.Proofs.Ledger.Balance
import TransferLedger.Proofs.Pipeline.Invariant
import TransferLedger.Proofs.Service.Reconciliation

/-! # What a report is worth

The ledger holds the pairs of some of the committed transfers of a register.

* `Wrote.accountBalance_eq`: if the committed amounts together fit into a decimal, the balance that the
  ledger has of an account is exactly the sum over its live entries.
* `Wrote.sum_complete`: if the ledger has two live entries of every committed transfer of the account,
  this sum is what the account received, less what it sent.
* `Wrote.report_exact`, `Wrote.difference_complete`: if the openings added to the amounts fit too, so is the
  difference to the stored balance, and in a complete ledger it is what the account was opened with.
-/

namespace TransferLedger
set_option autoImplicit false

/-! ## Amounts -/

namespace Decimal

theorem magnitude_le_of_subperm {k : ℕ} {ds ds' : List Decimal} (h : ds.Subperm ds') :
    magnitude k ds ≤ magnitude k ds' := by
  obtain ⟨l, hperm, hsub⟩ := h
  rw [← magnitude_perm hperm]
  exact magnitude_le_of_sublist hsub

theorem natAbs_sum_le_magnitude (k : ℕ) (ds : List Decimal) :
    Int.natAbs (ds.map (·.units k)).sum ≤ magnitude k ds := by
  induction ds with
  | nil => exact Nat.le_refl 0
  | cons d ds ih =>
    have hcons : magnitude k (d :: ds) = (d.units k).natAbs + magnitude k ds := rfl
    have hadd := Int.natAbs_add_le (d.units k) (ds.map (·.units k)).sum
    rw [List.map_cons, List.sum_cons, hcons]
    omega

theorem magnitude_of_nonneg {k : ℕ} {ds : List Decimal} (h : ∀ d ∈ ds, 0 ≤ d.mantissa) :
    (magnitude k ds : ℤ) = (ds.map (·.units k)).sum := by
  induction ds with
  | nil => rfl
  | cons d ds ih =>
    have hcons : magnitude k (d :: ds) = (d.units k).natAbs + magnitude k ds := rfl
    have hd := units_nonneg (k := k) (h d List.mem_cons_self)
    have hds := ih fun x hx => h x (List.mem_cons_of_mem d hx)
    rw [List.map_cons, List.sum_cons, hcons, ← hds]
    omega

end Decimal

theorem Transaction.net_of_not_touches {t : Transaction} {account : String}
    (h : t.touches account = false) : t.net account = 0 := by
  rw [touches, Bool.or_eq_false_iff, beq_eq_false_iff_ne, beq_eq_false_iff_ne] at h
  rw [net, if_neg h.1, if_neg h.2, Int.sub_zero]

/-- Only the records of the account count. -/
theorem sum_net_touching (records : List Transaction) (account : String) :
    ((records.filter (·.touches account)).map (·.net account)).sum =
      (records.map (·.net account)).sum := by
  induction records with
  | nil => rfl
  | cons t records ih =>
    rw [List.filter_cons, List.map_cons, List.sum_cons, ← ih]
    cases htouches : t.touches account with
    | true => rw [if_pos rfl, List.map_cons, List.sum_cons]
    | false => rw [if_neg Bool.false_ne_true, t.net_of_not_touches htouches, Int.zero_add]

/-! ## Live entries -/

namespace Entry.Pairing

variable {es : List Entry} {ws : List Writing}

/-- Where two entries of a transaction are live, none of its entries is deleted. -/
theorem not_deleted (h : Pairing es ws) {w : Writing} (hmem : w ∈ ws)
    (htwo : (TableLedger.listing es).liveCount w.record.id = 2) {x : Entry} (hx : x ∈ es)
    (hid : x.transactionId = w.record.id) : x.isDeleted = false := by
  obtain ⟨debit, credit, hfilter, -, -⟩ := h.written hmem
  have hlength : (es.filter fun x => x.transactionId == w.record.id).length = 2 := by
    rw [hfilter]
    rfl
  rw [TableLedger.liveCount_listing, ← hlength, List.countP_eq_length] at htwo
  simpa using htwo x (List.mem_filter.2 ⟨hx, beq_iff_eq.2 hid⟩)

theorem records_nodup (h : Pairing es ws) : (ws.map (·.record)).Nodup := by
  have hids : ((ws.map (·.record)).map (·.id)).Nodup := by
    rw [List.map_map]
    exact h.distinct
  exact hids.of_map

/-- A transaction with live entries was written. -/
theorem written_of_live (h : Pairing es ws) {id : String}
    (htwo : (TableLedger.listing es).liveCount id = 2) : id ∈ ws.map (·.record.id) := by
  by_contra hid
  rw [TableLedger.liveCount_listing, h.absent hid] at htwo
  cases htwo

end Entry.Pairing

namespace Register

variable {g : Register} {es : List Entry} {ws : List Writing}

/-- The committed transfers in the order in which they were carried out. -/
def successes (g : Register) : List Transaction := g.records.filter fun t => t.status = .success

/-- The committed amounts, added up in units of `10^-8`. -/
def committedUnits (g : Register) : ℕ := Decimal.magnitude 8 (g.successes.map (·.amount))

theorem mem_successes {t : Transaction} : t ∈ g.successes ↔ t ∈ g.records ∧ t.status = .success := by
  rw [successes, List.mem_filter, decide_eq_true_eq]

theorem Sound.committedUnits_eq (hg : g.Sound) :
    (g.committedUnits : ℤ) = (g.successes.map (·.amount.units 8)).sum := by
  rw [committedUnits, Decimal.magnitude_of_nonneg, List.map_map]
  · rfl
  · intro d hd
    obtain ⟨t, ht, rfl⟩ := List.mem_map.1 hd
    exact (hg.records t (mem_successes.1 ht).1).positive.le

theorem Sound.successes_nodup (hg : g.Sound) : g.successes.Nodup :=
  hg.recordIds.of_map.filter _

/-- What was received less what was sent. -/
theorem turnover_sub_turnover (records : List Transaction) (account : String) :
    turnover (·.amount.units 8) (·.toAccount) records account -
        turnover (·.amount.units 8) (·.fromAccount) records account =
      ((records.filter fun t => t.status = .success).map (·.net account)).sum := by
  unfold turnover
  induction records with
  | nil => rfl
  | cons t records ih =>
    by_cases hs : t.status = .success
    · by_cases hto : t.toAccount = account <;> by_cases hfrom : t.fromAccount = account <;>
        simp [hs, hto, hfrom, Transaction.net] at ih ⊢ <;> omega
    · simpa [hs] using ih

namespace Wrote

/-! ## The balance in the ledger -/

theorem records_subperm (hw : g.Wrote (.listing es) ws) (hes : Entry.Pairing es ws) :
    (ws.map (·.record)).Subperm g.successes := by
  refine List.subperm_of_subset hes.records_nodup ?_
  intro t ht
  obtain ⟨w, hmem, rfl⟩ := List.mem_map.1 ht
  exact mem_successes.2 (hw.committed w hmem)

/-- Every contribution is that of a committed amount. -/
theorem scale_le (hw : g.Wrote (.listing es) ws) (hg : g.Sound) (hes : Entry.Pairing es ws) :
    ∀ x ∈ es, x.balance.scale ≤ 8 := by
  intro x hx
  obtain ⟨w, hmem, side, hside⟩ := hes.exists_writing hx
  have hbalance : x.original.balance = (w.entry side).balance := congrArg Entry.balance hside
  have hscale : (w.entry side).balance.scale = w.record.amount.scale := by
    cases side with
    | debit => rfl
    | credit => rfl
  show x.original.balance.scale ≤ 8
  rw [hbalance, hscale]
  exact (hg.records _ (hw.committed w hmem).1).scale_le

/-- The live entries of an account contribute no more than what was committed. -/
theorem magnitude_live_le (hw : g.Wrote (.listing es) ws) (hg : g.Sound) (hes : Entry.Pairing es ws)
    (account : String) :
    Decimal.magnitude 8 ((Entry.liveOf es account).map (·.balance)) ≤ g.committedUnits := by
  have hlive : (Entry.liveOf es account).Sublist (es.filter fun x => x.account == account) :=
    List.monotone_filter_right es fun x hx => (Bool.and_eq_true_iff.1 hx).1
  have hne : ∀ w ∈ ws, w.record.fromAccount ≠ w.record.toAccount :=
    fun w hmem => (hg.records _ (hw.committed w hmem).1).distinct
  have hamounts : (ws.map (·.record.amount)).Subperm (g.successes.map (·.amount)) := by
    obtain ⟨records, hperm, hsub⟩ := hw.records_subperm hes
    have hmap : ws.map (·.record.amount) = (ws.map (·.record)).map (·.amount) := by
      rw [List.map_map]
      rfl
    rw [hmap]
    exact ⟨records.map (·.amount), hperm.map _, hsub.map _⟩
  calc Decimal.magnitude 8 ((Entry.liveOf es account).map (·.balance))
      ≤ Decimal.magnitude 8 ((es.filter fun x => x.account == account).map (·.balance)) :=
        Decimal.magnitude_le_of_sublist (hlive.map _)
    _ ≤ Decimal.magnitude 8 (ws.map (·.record.amount)) := hes.magnitude_account_le hne account
    _ ≤ g.committedUnits := Decimal.magnitude_le_of_subperm hamounts

theorem accountBalance_eq (hw : g.Wrote (.listing es) ws) (hg : g.Sound) (hes : Entry.Pairing es ws)
    (hfit : g.committedUnits < Decimal.bound) (account : String) :
    ∃ total, TableLedger.accountBalance .sound account (.listing es) = .ok total ∧ total.scale ≤ 8 ∧
      total.units 8 = ((Entry.liveOf es account).map (·.balance.units 8)).sum := by
  obtain ⟨sorted, hperm, hbalance⟩ := TableLedger.accountBalance_listing es account
  have hscale : ∀ d ∈ sorted.map (·.balance), d.scale ≤ 8 := by
    intro d hd
    obtain ⟨x, hx, rfl⟩ := List.mem_map.1 hd
    exact hw.scale_le hg hes x (List.mem_of_mem_filter (hperm.mem_iff.1 hx))
  have hmagnitude : Decimal.magnitude 8 (sorted.map (·.balance)) ≤ g.committedUnits := by
    rw [Decimal.magnitude_perm (hperm.map _)]
    exact hw.magnitude_live_le hg hes account
  obtain ⟨total, hsum, htotal, hunits⟩ :=
    Decimal.sum_units (by decide) hscale (hmagnitude.trans_lt hfit)
  refine ⟨total, ?_, htotal, ?_⟩
  · rw [hbalance, hsum]
    rfl
  · rw [hunits, List.map_map]
    exact (hperm.map _).sum_eq

/-! ## Complete ledgers -/

variable {account : String}

/-- The writings of an account whose transfers are complete are its committed transfers. -/
theorem touching_perm (hw : g.Wrote (.listing es) ws) (hg : g.Sound) (hes : Entry.Pairing es ws)
    (hcomplete : ∀ t ∈ g.successes, t.touches account = true →
      (TableLedger.listing es).liveCount t.id = 2) :
    ((ws.map (·.record)).filter (·.touches account)).Perm
      (g.successes.filter (·.touches account)) := by
  have hsub := hw.records_subperm hes
  rw [List.perm_ext_iff_of_nodup (hes.records_nodup.filter _) (hg.successes_nodup.filter _)]
  intro t
  rw [List.mem_filter, List.mem_filter]
  refine and_congr_left fun htouches => ⟨fun ht => hsub.subset ht, fun ht => ?_⟩
  obtain ⟨w, hmem, hid⟩ := List.mem_map.1 (hes.written_of_live (hcomplete t ht htouches))
  have hrecord : w.record = t :=
    hg.record_eq (hw.committed w hmem).1 (mem_successes.1 ht).1 hid
  exact List.mem_map.2 ⟨w, hmem, hrecord⟩

theorem liveOf_complete (hw : g.Wrote (.listing es) ws) (hes : Entry.Pairing es ws)
    (hcomplete : ∀ t ∈ g.successes, t.touches account = true →
      (TableLedger.listing es).liveCount t.id = 2) :
    Entry.liveOf es account = es.filter fun x => x.account == account := by
  apply List.filter_congr
  intro x hx
  by_cases haccount : x.account = account
  · obtain ⟨w, hmem, side, hside⟩ := hes.exists_writing hx
    have hid : x.transactionId = w.record.id := congrArg Entry.transactionId hside
    have htouches : w.record.touches account = true := by
      have hentry : x.original.account = (w.entry side).account := congrArg Entry.account hside
      have hof : account = (w.entry side).account := haccount.symm.trans hentry
      rw [Transaction.touches, Bool.or_eq_true, beq_iff_eq, beq_iff_eq, hof]
      cases side with
      | debit => exact .inl rfl
      | credit => exact .inr rfl
    have htwo := hcomplete w.record (mem_successes.2 (hw.committed w hmem)) htouches
    rw [hes.not_deleted hmem htwo hx hid]
    exact Bool.and_true _
  · have hfalse : (x.account == account) = false := by simpa using haccount
    rw [hfalse, Bool.false_and]

theorem sum_complete (hw : g.Wrote (.listing es) ws) (hg : g.Sound) (hes : Entry.Pairing es ws)
    (hcomplete : ∀ t ∈ g.successes, t.touches account = true →
      (TableLedger.listing es).liveCount t.id = 2) :
    ((Entry.liveOf es account).map (·.balance.units 8)).sum =
      turnover (·.amount.units 8) (·.toAccount) g.records account -
        turnover (·.amount.units 8) (·.fromAccount) g.records account := by
  have hws : ws.map (fun w => w.record.net account) = (ws.map (·.record)).map (·.net account) := by
    rw [List.map_map]
    rfl
  rw [hw.liveOf_complete hes hcomplete, hes.sum_account, turnover_sub_turnover, hws, ← sum_net_touching,
    ← successes, ← sum_net_touching g.successes]
  exact ((hw.touching_perm hg hes hcomplete).map _).sum_eq

end Wrote

/-! ## Reports -/

/-- No account holds more than all of them. -/
theorem Sound.units_le_total (hg : g.Sound) {a : Account} (ha : a ∈ g.accounts) :
    a.balance.units 8 ≤ totalUnits g.accounts := by
  refine List.single_le_sum ?_ _ (List.mem_map_of_mem ha)
  intro n hn
  obtain ⟨c, hc, rfl⟩ := List.mem_map.1 hn
  exact hg.units_nonneg hc

/-- The report of a live account, whose sums are exact. -/
theorem Wrote.report_exact (hw : g.Wrote (.listing es) ws) (hes : Entry.Pairing es ws) (hg : g.Sound)
    (hx : g.Explained) (hfit : totalUnits g.opened + g.committedUnits < Decimal.bound) {id : String}
    {a : Account} (ha : g.Live id a) (broker : Broker) :
    ∃ balance opening, Reconciliation.report .sound id ⟨g.books.bank, .listing es, broker⟩ =
        .ok (Reconciliation.reportOf g (.listing es) a balance opening) ∧
      TableLedger.accountBalance .sound id (.listing es) = .ok balance ∧
      balance.scale ≤ 8 ∧ balance.units 8 = ((Entry.liveOf es id).map (·.balance.units 8)).sum ∧
      opening.scale ≤ 8 ∧ opening.units 8 = a.balance.units 8 - balance.units 8 := by
  have hnonneg : 0 ≤ totalUnits g.opened := by
    rw [← hx.total]
    exact sum_nonneg fun c hc => hg.units_nonneg hc
  obtain ⟨balance, hbalance, hscale, hunits⟩ := hw.accountBalance_eq hg hes (by omega) id
  have hown := hg.units_nonneg ha.mem
  have htotal := hg.units_le_total ha.mem
  have hmagnitude : (balance.units 8).natAbs ≤ g.committedUnits := by
    have hsum := Decimal.natAbs_sum_le_magnitude 8 ((Entry.liveOf es id).map (·.balance))
    rw [List.map_map] at hsum
    rw [hunits]
    exact hsum.trans (hw.magnitude_live_le hg hes id)
  rw [hx.total] at htotal
  obtain ⟨opening, hsub, hopening, hdifference⟩ :=
    Decimal.sub?_units (by decide) (hg.balances a ha.mem).2 hscale (by omega)
  have hreport := Reconciliation.report_eq_ok es hg ha broker hbalance (Decimal.sub_eq_ok.2 hsub)
  exact ⟨balance, opening, hreport, hbalance, hscale, hunits, hopening, hdifference⟩

/-- In a complete ledger the difference is what the account was opened with. -/
theorem Wrote.difference_complete (hw : g.Wrote (.listing es) ws) (hes : Entry.Pairing es ws)
    (hg : g.Sound) (hx : g.Explained) {o a : Account} (ho : o ∈ g.opened) (ha : a ∈ g.accounts)
    (hid : o.id = a.id) (hcomplete : ∀ t ∈ g.successes, t.touches a.id = true →
      (TableLedger.listing es).liveCount t.id = 2) :
    a.balance.units 8 - ((Entry.liveOf es a.id).map (·.balance.units 8)).sum = o.balance.units 8 := by
  rw [hx.each o ho a ha hid.symm, hw.sum_complete hg hes hcomplete, hid]
  omega

end Register

end TransferLedger
