import Mathlib.Algebra.BigOperators.Group.List.Basic
import Mathlib.Algebra.Order.BigOperators.Group.List
import TransferLedger.Proofs.Ledger.Reading

/-! # The balance that the ledger has of an account

* `Decimal.sum_units`: decimals of a common scale whose magnitudes together fit are added up exactly, in
  whatever order.
* `TableLedger.accountBalance_listing`: the balance of an account is the sum over its live entries.
* `Entry.Pairing.sum_account`, `Entry.Pairing.magnitude_account_le`: over the entries of an account in pairs this
  is what its records move (`Transaction.net`), and the magnitudes are at most those of the amounts.
-/

namespace TransferLedger
set_option autoImplicit false

/-! ## Exact sums -/

namespace Decimal

/-- The magnitudes of some decimals, added up in units of `10^-k`. -/
def magnitude (k : ℕ) (ds : List Decimal) : ℕ := (ds.map fun d => (d.units k).natAbs).sum

theorem magnitude_append (k : ℕ) (ds ds' : List Decimal) :
    magnitude k (ds ++ ds') = magnitude k ds + magnitude k ds' := by
  rw [magnitude, List.map_append, List.sum_append]
  rfl

theorem magnitude_le_of_sublist {k : ℕ} {ds ds' : List Decimal} (h : ds.Sublist ds') :
    magnitude k ds ≤ magnitude k ds' :=
  (h.map _).sum_le_sum fun _ _ => Nat.zero_le _

theorem magnitude_perm {k : ℕ} {ds ds' : List Decimal} (h : ds.Perm ds') :
    magnitude k ds = magnitude k ds' :=
  (h.map _).sum_eq

theorem foldlM_add_units {k : ℕ} (hk : k ≤ 28) : ∀ {ds : List Decimal} {start : Decimal},
    start.scale ≤ k → (∀ d ∈ ds, d.scale ≤ k) → (start.units k).natAbs + magnitude k ds < bound →
    ∃ total, ds.foldlM add start = .ok total ∧ total.scale ≤ k ∧
      total.units k = start.units k + (ds.map (·.units k)).sum
  | [], start, hstart, _, _ => ⟨start, rfl, hstart, (Int.add_zero _).symm⟩
  | d :: ds, start, hstart, hscale, hfit => by
    have hcons : magnitude k (d :: ds) = (d.units k).natAbs + magnitude k ds := rfl
    have hnext : (start.units k + d.units k).natAbs ≤ (start.units k).natAbs + (d.units k).natAbs :=
      Int.natAbs_add_le _ _
    obtain ⟨next, hadd, hnextScale, hunits⟩ :=
      add?_units hk hstart (hscale d List.mem_cons_self) (by omega)
    obtain ⟨total, hfold, htotalScale, htotal⟩ :=
      foldlM_add_units hk hnextScale (fun x hx => hscale x (List.mem_cons_of_mem d hx))
        (by rw [hunits]; omega)
    refine ⟨total, ?_, htotalScale, ?_⟩
    · rw [List.foldlM_cons, add_eq_ok.2 hadd]
      exact hfold
    · rw [htotal, hunits, List.map_cons, List.sum_cons, Int.add_assoc]

theorem sum_units {k : ℕ} (hk : k ≤ 28) {ds : List Decimal} (hscale : ∀ d ∈ ds, d.scale ≤ k)
    (hfit : magnitude k ds < bound) :
    ∃ total, sum ds = .ok total ∧ total.scale ≤ k ∧ total.units k = (ds.map (·.units k)).sum := by
  have hzero : zero.units k = 0 := Int.zero_mul _
  have hscaleZero : zero.scale ≤ k := Nat.zero_le k
  have hfitZero : (zero.units k).natAbs + magnitude k ds < bound := by
    rw [hzero, Int.natAbs_zero, Nat.zero_add]
    exact hfit
  obtain ⟨total, hsum, htotal, hunits⟩ := foldlM_add_units hk hscaleZero hscale hfitZero
  exact ⟨total, hsum, htotal, by rw [hunits, hzero, Int.zero_add]⟩

end Decimal

/-! ## Balances -/

/-- The live entries of an account. -/
def Entry.liveOf (es : List Entry) (account : String) : List Entry :=
  es.filter fun x => x.account == account && !x.isDeleted

/-- The live entries of an account as the table adds them up: from the newest to the oldest. -/
def Entry.newestOf (es : List Entry) (account : String) : List Entry :=
  (liveOf es account).mergeSort fun x y => EntryRow.notOlder (.ofEntry x) (.ofEntry y)

theorem Entry.newestOf_perm (es : List Entry) (account : String) :
    (newestOf es account).Perm (liveOf es account) := List.mergeSort_perm ..

namespace TableLedger

/-- Texts of decimals are added up as the decimals are. -/
theorem foldlM_addBalance : ∀ (ds : List Decimal) (start : Decimal),
    (ds.map (·.text)).foldlM addBalance start = (ds.foldlM Decimal.add start).mapError Halt.overflow
  | [], _ => rfl
  | d :: ds, start => by
    have hread : addBalance start d.text = (start.add d).mapError Halt.overflow := by
      rw [addBalance, EntryRow.readDecimal_text]
      rfl
    rw [List.map_cons, List.foldlM_cons, List.foldlM_cons, hread]
    cases start.add d with
    | error o => rfl
    | ok next => exact foldlM_addBalance ds next

theorem accountBalance_eq (es : List Entry) (account : String) :
    accountBalance .sound account (listing es) =
      (Decimal.sum ((Entry.newestOf es account).map (·.balance))).mapError Halt.overflow := by
  have hlive : (fun r : EntryRow => r.account == account && r.isLive) ∘ EntryRow.ofEntry =
      fun x => x.account == account && !x.isDeleted := by
    funext x
    obtain ⟨_, _, _, _, _, _, _, _, _, _, deletedAt⟩ := x
    cases deletedAt <;> rfl
  have hsort := List.map_mergeSort (r := fun x y => EntryRow.notOlder (.ofEntry x) (.ofEntry y))
    (s := EntryRow.notOlder) (f := EntryRow.ofEntry) (l := Entry.liveOf es account) fun _ _ _ _ => rfl
  have htexts : (((listing es).rows.filter fun r => r.account == account && r.isLive).mergeSort
      EntryRow.notOlder).map (·.balance) =
        ((Entry.newestOf es account).map (·.balance)).map (·.text) := by
    rw [listing, List.filter_map, hlive, ← Entry.liveOf, ← hsort, List.map_map, List.map_map]
    rfl
  rw [accountBalance, Decimal.sum, ← foldlM_addBalance, ← htexts]
  rfl

/-- The balance of an account is the sum over its live entries in some order. -/
theorem accountBalance_listing (es : List Entry) (account : String) :
    ∃ sorted : List Entry, sorted.Perm (Entry.liveOf es account) ∧ accountBalance .sound account (listing es) =
      (Decimal.sum (sorted.map (·.balance))).mapError Halt.overflow :=
  ⟨_, Entry.newestOf_perm es account, accountBalance_eq es account⟩

end TableLedger

/-! ## What records move -/

/-- What a committed transfer adds to the units of an account. -/
def Transaction.net (t : Transaction) (account : String) : ℤ :=
  (if t.toAccount = account then t.amount.units 8 else 0) -
    if t.fromAccount = account then t.amount.units 8 else 0

namespace Writing

variable (w : Writing) (account : String)

/-- The entries of a writing for one account contribute what its record moves there. -/
theorem sum_account : ((w.pair.filter fun x => x.account == account).map (·.balance.units 8)).sum =
    w.record.net account := by
  have hdebit : (w.entry .debit).account = w.record.fromAccount := rfl
  have hcredit : (w.entry .credit).account = w.record.toAccount := rfl
  have hdebited : (w.entry .debit).balance.units 8 = -w.record.amount.units 8 :=
    Decimal.neg_units 8 w.record.amount
  have hcredited : (w.entry .credit).balance.units 8 = w.record.amount.units 8 := rfl
  unfold pair Transaction.net
  by_cases hfrom : w.record.fromAccount = account <;> by_cases hto : w.record.toAccount = account <;>
    simp [hdebit, hcredit, hdebited, hcredited, hfrom, hto]

/-- At most one side of a transfer between two accounts is of one of them. -/
theorem magnitude_account_le (h : w.record.fromAccount ≠ w.record.toAccount) :
    Decimal.magnitude 8 ((w.pair.filter fun x => x.account == account).map (·.balance)) ≤
      (w.record.amount.units 8).natAbs := by
  have hdebit : (w.entry .debit).account = w.record.fromAccount := rfl
  have hcredit : (w.entry .credit).account = w.record.toAccount := rfl
  have hdebited : (w.entry .debit).balance.units 8 = -w.record.amount.units 8 :=
    Decimal.neg_units 8 w.record.amount
  have hcredited : (w.entry .credit).balance.units 8 = w.record.amount.units 8 := rfl
  unfold pair Decimal.magnitude
  by_cases hfrom : w.record.fromAccount = account
  · have hto : w.record.toAccount ≠ account := fun hto => h (hfrom.trans hto.symm)
    simp [hdebit, hcredit, hdebited, hfrom, hto]
  · by_cases hto : w.record.toAccount = account <;>
      simp [hdebit, hcredit, hcredited, hfrom, hto]

end Writing

namespace Entry.Pairing

variable {es : List Entry} {ws : List Writing}

/-- The contributions to an account are those of the pairs. -/
theorem account_balances (h : Pairing es ws) (account : String) :
    (es.filter fun x => x.account == account).map (·.balance) =
      ws.flatMap fun w => (w.pair.filter fun x => x.account == account).map (·.balance) := by
  have horiginals := h.filter_originals (p := fun x => x.account == account) fun _ => rfl
  have hmap := congrArg (List.map (·.balance)) horiginals
  rw [List.map_map] at hmap
  rw [← List.map_flatMap, ← List.filter_flatMap, ← hmap]
  rfl

theorem sum_account (h : Pairing es ws) (account : String) :
    ((es.filter fun x => x.account == account).map (·.balance.units 8)).sum =
      (ws.map fun w => w.record.net account).sum := by
  have hunits : (es.filter fun x => x.account == account).map (·.balance.units 8) =
      ((es.filter fun x => x.account == account).map (·.balance)).map (·.units 8) := by
    rw [List.map_map]
    rfl
  rw [hunits, h.account_balances]
  clear h hunits
  induction ws with
  | nil => rfl
  | cons w ws ih =>
    have hw := w.sum_account account
    rw [List.flatMap_cons, List.map_append, List.sum_append, ih, List.map_cons, List.sum_cons, ← hw,
      List.map_map]
    rfl

theorem magnitude_account_le (h : Pairing es ws)
    (hne : ∀ w ∈ ws, w.record.fromAccount ≠ w.record.toAccount) (account : String) :
    Decimal.magnitude 8 ((es.filter fun x => x.account == account).map (·.balance)) ≤
      Decimal.magnitude 8 (ws.map (·.record.amount)) := by
  rw [h.account_balances]
  clear h
  induction ws with
  | nil => exact Nat.le_refl 0
  | cons w ws ih =>
    have hw := w.magnitude_account_le account (hne w List.mem_cons_self)
    have hws := ih fun v hv => hne v (List.mem_cons_of_mem w hv)
    rw [List.flatMap_cons, Decimal.magnitude_append]
    exact Nat.add_le_add hw hws

end Entry.Pairing

end TransferLedger
