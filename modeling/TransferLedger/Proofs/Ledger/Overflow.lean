import TransferLedger.Proofs.Decimal.Rounding
import TransferLedger.Proofs.Ledger.Agreement

/-! # Sums that overflow

A sum is added up term by term, so it is missing where some partial sum is, whatever the terms come to in the
end (`Decimal.sum_eq_error_iff`). The table adds from the newest entry to the oldest and the store in memory
in the order of insertion, so of the same entries one may have a balance and the other none
(`TableLedger.accountBalance_eq_error_iff`, `MemoryLedger.Indexed.accountBalance_eq_error_iff`).
-/

namespace TransferLedger
set_option autoImplicit false

namespace Decimal

variable {a b : Decimal} {o : Overflow}

theorem add_eq_error_iff_abs :
    a.add b = .error o ↔ o = .addition ∧ (bound : ℚ) - 1 / 2 ≤ |a.value + b.value| := by
  rw [← add?_eq_none_iff_abs, add]
  cases a.add? b <;> simp [eq_comm]

theorem sub_eq_error_iff_abs :
    a.sub b = .error o ↔ o = .subtraction ∧ (bound : ℚ) - 1 / 2 ≤ |a.value - b.value| := by
  rw [← sub?_eq_none_iff_abs, sub]
  cases a.sub? b <;> simp [eq_comm]

/-- Added to the sum of the terms before it, some term leads out of range. -/
def Overruns (ds : List Decimal) : Prop :=
  ∃ front d rest total, ds = front ++ d :: rest ∧ sum front = .ok total ∧
    (bound : ℚ) - 1 / 2 ≤ |total.value + d.value|

theorem foldlM_add_eq_error_iff (ds : List Decimal) : ∀ {start : Decimal},
    ds.foldlM add start = .error o ↔ o = .addition ∧ ∃ front d rest total, ds = front ++ d :: rest ∧
      front.foldlM add start = .ok total ∧ (bound : ℚ) - 1 / 2 ≤ |total.value + d.value| := by
  induction ds with
  | nil =>
    intro start
    apply iff_of_false nofun
    rintro ⟨-, front, d, rest, total, hnil, -⟩
    simp at hnil
  | cons d ds ih =>
    intro start
    rw [List.foldlM_cons]
    cases hadd : start.add d with
    | error o' =>
      obtain ⟨rfl, hlarge⟩ := add_eq_error_iff_abs.1 hadd
      constructor
      · rintro ⟨⟩
        exact ⟨rfl, [], d, ds, start, rfl, rfl, hlarge⟩
      · rintro ⟨rfl, -⟩
        rfl
    | ok next =>
      have hnext : (Except.ok next >>= fun next => ds.foldlM add next) = ds.foldlM add next := rfl
      rw [hnext, ih]
      refine and_congr_right fun _ => ⟨?_, ?_⟩
      · rintro ⟨front, d', rest, total, rfl, hfront, hlarge⟩
        refine ⟨d :: front, d', rest, total, rfl, ?_, hlarge⟩
        rw [List.foldlM_cons, hadd]
        exact hfront
      · rintro ⟨front, d', rest, total, heq, hfront, hlarge⟩
        cases front with
        | nil =>
          -- The first term has been added, so it does not lead out of range.
          cases heq
          cases hfront
          rw [add_eq_error_iff_abs.2 ⟨rfl, hlarge⟩] at hadd
          cases hadd
        | cons d₁ front =>
          cases heq
          rw [List.foldlM_cons, hadd] at hfront
          exact ⟨front, d', rest, total, rfl, hfront, hlarge⟩

theorem sum_eq_error_iff {ds : List Decimal} : sum ds = .error o ↔ o = .addition ∧ Overruns ds :=
  foldlM_add_eq_error_iff ds

/-! ## Small sums -/

theorem abs_value_units {k : ℕ} {d : Decimal} (h : d.scale ≤ k) :
    |d.value| * 10 ^ k = ((d.units k).natAbs : ℚ) := by
  rw [value_eq_units h, abs_div, abs_of_pos (show (0 : ℚ) < 10 ^ k by positivity),
    div_mul_cancel₀ _ (by positivity), Nat.cast_natAbs, Int.cast_abs]

theorem sum_abs_value {k : ℕ} {ds : List Decimal} (h : ∀ d ∈ ds, d.scale ≤ k) :
    (ds.map fun d => |d.value|).sum * 10 ^ k = (magnitude k ds : ℚ) := by
  induction ds with
  | nil => simp [magnitude]
  | cons d ds ih =>
    have hcons : magnitude k (d :: ds) = (d.units k).natAbs + magnitude k ds := rfl
    rw [List.map_cons, List.sum_cons, add_mul, abs_value_units (h d List.mem_cons_self),
      ih fun x hx => h x (List.mem_cons_of_mem d hx), hcons]
    push_cast
    rfl

end Decimal

/-! ## Balances -/

theorem TableLedger.accountBalance_eq_error_iff {es : List Entry} {account : String}
    {c : Halt StoreError} : accountBalance .sound account (listing es) = .error c ↔
      c = .overflow .addition ∧ Decimal.Overruns ((Entry.newestOf es account).map (·.balance)) := by
  rw [accountBalance_eq, mapError_eq_error]
  constructor
  · rintro ⟨o, hsum, rfl⟩
    obtain ⟨rfl, hover⟩ := Decimal.sum_eq_error_iff.1 hsum
    exact ⟨rfl, hover⟩
  · rintro ⟨rfl, hover⟩
    exact ⟨.addition, Decimal.sum_eq_error_iff.2 ⟨rfl, hover⟩, rfl⟩

theorem mergeSort_of_rising {α : Type} {le : α → α → Bool}
    (htrans : ∀ a b c, le a b = true → le b c = true → le a c = true)
    (htotal : ∀ a b, (le a b || le b a) = true) {l : List α}
    (h : l.Pairwise fun a b => le a b = false) : l.mergeSort le = l.reverse := by
  have hsymm : Std.Symm fun a b => le a b = false ∨ le b a = false := ⟨fun _ _ => Or.symm⟩
  have hpairs : l.Pairwise fun a b => le a b = false ∨ le b a = false := h.imp fun hle => .inl hle
  refine List.Perm.eq_of_pairwise ?_ (List.pairwise_mergeSort htrans htotal l) ?_
    ((List.mergeSort_perm l le).trans (List.reverse_perm l).symm)
  · intro a b ha hb hab hba
    by_contra hne
    rcases hpairs.forall (List.mem_mergeSort.1 ha) (List.mem_reverse.1 hb) hne with hfalse | hfalse
    · rw [hfalse] at hab
      cases hab
    · rw [hfalse] at hba
      cases hba
  · rw [List.pairwise_reverse]
    refine h.imp fun {a b} hle => ?_
    simpa [hle] using htotal a b

/-- Where every row is younger than those before it, the last row comes first. -/
theorem TableLedger.accountBalance_of_rising {l : TableLedger} {account : String}
    (h : (l.rows.filter fun r => r.account == account && r.isLive).Pairwise fun r r' =>
      r.notOlder r' = false) :
    accountBalance .sound account l =
      ((l.rows.filter fun r => r.account == account && r.isLive).reverse.map (·.balance)).foldlM
        addBalance .zero := by
  have htrans : ∀ a b c : EntryRow, a.notOlder b = true → b.notOlder c = true →
      a.notOlder c = true := by
    intro a b c hab hbc
    exact decide_eq_true (String.le_trans (of_decide_eq_true hbc) (of_decide_eq_true hab))
  have htotal : ∀ a b : EntryRow, (a.notOlder b || b.notOlder a) = true := by
    intro a b
    rw [Bool.or_eq_true]
    exact (String.le_total b.createdAt.columnText a.createdAt.columnText).imp decide_eq_true
      decide_eq_true
  rw [← mergeSort_of_rising htrans htotal h]
  rfl

theorem MemoryLedger.Indexed.accountBalance_eq_error_iff {m : MemoryLedger} (h : m.Indexed)
    {account : String} {o : Overflow} : m.accountBalance account = .error o ↔
      o = .addition ∧ Decimal.Overruns (Entry.contributions m.entries account) := by
  rw [h.accountBalance_eq]
  exact Decimal.sum_eq_error_iff

end TransferLedger
