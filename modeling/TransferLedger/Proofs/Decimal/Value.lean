import Mathlib.Algebra.Order.Field.Rat
import Mathlib.Tactic.FieldSimp
import Mathlib.Tactic.Linarith
import Mathlib.Tactic.Positivity
import Mathlib.Tactic.Ring
import TransferLedger.Decimal.Arithmetic

/-! # The values of decimals

`value` is the number a decimal stands for. Decimals of scale at most `k` are whole numbers of units
of `10^-k`, so order, sums and differences of such decimals are those of the integers `units k`:

* `below_iff_units`: the order by value is the order of the units.
* `add?_units`, `sub?_units`: where the exact result fits at scale `k`, it is the result.
* `add?_nonneg`, `sub?_nonneg`: where the result does not fit and is rounded, it is still not
  negative and its scale does not grow.
-/

namespace TransferLedger.Decimal
set_option autoImplicit false

/-- The number a decimal stands for. -/
def value (d : Decimal) : ℚ := d.mantissa / 10 ^ d.scale

/-- The value in units of `10^-k`; exact for decimals of scale at most `k`. -/
def units (k : ℕ) (d : Decimal) : ℤ := d.mantissa * 10 ^ (k - d.scale)

/-! ## Units -/

theorem ten_pow_pos (n : ℕ) : (0 : ℤ) < 10 ^ n := Int.pow_pos (by decide)

theorem ten_pow_split {s k : ℕ} (h : s ≤ k) : (10 : ℤ) ^ k = 10 ^ (k - s) * 10 ^ s := by
  rw [← Int.pow_add, Nat.sub_add_cancel h]

theorem units_mul_pow {k : ℕ} {d : Decimal} (h : d.scale ≤ k) :
    d.units k * 10 ^ d.scale = d.mantissa * 10 ^ k := by
  rw [units, ten_pow_split h, Int.mul_assoc]

theorem value_eq_units {k : ℕ} {d : Decimal} (h : d.scale ≤ k) :
    d.value = (d.units k : ℚ) / 10 ^ k := by
  have hu : (d.units k : ℚ) * 10 ^ d.scale = d.mantissa * 10 ^ k := by
    exact_mod_cast units_mul_pow h
  rw [value]
  field_simp
  linarith

theorem units_nonneg {k : ℕ} {d : Decimal} (h : 0 ≤ d.mantissa) : 0 ≤ d.units k :=
  Int.mul_nonneg h (ten_pow_pos _).le

theorem units_pos {k : ℕ} {d : Decimal} (h : 0 < d.mantissa) : 0 < d.units k :=
  Int.mul_pos h (ten_pow_pos _)

theorem value_nonneg {d : Decimal} (h : 0 ≤ d.mantissa) : 0 ≤ d.value :=
  div_nonneg (by exact_mod_cast h) (by positivity)

theorem value_pos {d : Decimal} (h : 0 < d.mantissa) : 0 < d.value :=
  div_pos (by exact_mod_cast h) (by positivity)

theorem int_pow_eq (n : ℕ) : Int.pow 10 n = 10 ^ n := rfl

theorem below_iff_units {k : ℕ} {a b : Decimal} (ha : a.scale ≤ k) (hb : b.scale ≤ k) :
    a.below b = true ↔ a.units k < b.units k := by
  have hpa := units_mul_pow ha
  have hpb := units_mul_pow hb
  have hk := ten_pow_pos k
  have hs := Int.mul_pos (ten_pow_pos a.scale) (ten_pow_pos b.scale)
  rw [below, decide_eq_true_eq, int_pow_eq, int_pow_eq]
  have h1 : a.units k * (10 ^ a.scale * 10 ^ b.scale) = a.mantissa * 10 ^ b.scale * 10 ^ k := by
    rw [← Int.mul_assoc, hpa]; ring
  have h2 : b.units k * (10 ^ a.scale * 10 ^ b.scale) = b.mantissa * 10 ^ a.scale * 10 ^ k := by
    rw [Int.mul_comm (10 ^ a.scale), ← Int.mul_assoc, hpb]; ring
  rw [← Int.mul_lt_mul_right hk, ← h1, ← h2, Int.mul_lt_mul_right hs]

theorem below_eq_false_iff_units {k : ℕ} {a b : Decimal} (ha : a.scale ≤ k) (hb : b.scale ≤ k) :
    a.below b = false ↔ b.units k ≤ a.units k := by
  rw [← Bool.not_eq_true, below_iff_units ha hb, Int.not_lt]

theorem below_iff_value {a b : Decimal} : a.below b = true ↔ a.value < b.value := by
  have ha := Nat.le_max_left a.scale b.scale
  have hb := Nat.le_max_right a.scale b.scale
  rw [below_iff_units ha hb, value_eq_units ha, value_eq_units hb,
    div_lt_div_iff_of_pos_right (by positivity), Int.cast_lt]

/-! ## Rounding -/

theorem ofParts?_eq_some {m : ℤ} {s : ℕ} {d : Decimal} (h : ofParts? m s = some d) :
    d.mantissa = m ∧ d.scale = s := by
  unfold ofParts? at h
  split at h
  · cases h
    exact ⟨rfl, rfl⟩
  · cases h

theorem ofParts?_of_lt {m : ℤ} {s : ℕ} (hm : m.natAbs < bound) (hs : s ≤ 28) :
    ofParts? m s = some ⟨m, s, hm, hs⟩ := dif_pos ⟨hm, hs⟩

theorem roundHalfEven_one (n : ℕ) : roundHalfEven n 1 = n := by
  simp [roundHalfEven, Nat.mod_one]

theorem dropDigits_zero (m : ℤ) : dropDigits m 0 = m := by
  unfold dropDigits
  rw [Nat.pow_eq, Nat.pow_zero, roundHalfEven_one]
  split <;> omega

theorem dropDigits_nonneg {m : ℤ} (h : 0 ≤ m) (n : ℕ) : 0 ≤ dropDigits m n := by
  unfold dropDigits
  rw [if_neg (by omega)]
  exact Int.natCast_nonneg _

theorem fit?_self {m : ℤ} {s : ℕ} (hm : m.natAbs < bound) (hs : s ≤ 28) :
    fit? m s s = some ⟨m, s, hm, hs⟩ := by
  cases s with
  | zero => rw [fit?, dropDigits_zero, ofParts?_of_lt hm hs]
  | succ s => rw [fit?, Nat.sub_self, dropDigits_zero, ofParts?_of_lt hm hs]

/-- What fits is the number with its last digits dropped, at the scale that is left. -/
theorem fit?_eq_some {m : ℤ} {s : ℕ} {d : Decimal} :
    ∀ {t : ℕ}, fit? m s t = some d → d.scale ≤ t ∧ d.mantissa = dropDigits m (s - d.scale)
  | 0, h => by
    rw [fit?] at h
    obtain ⟨hm, hs⟩ := ofParts?_eq_some h
    exact ⟨hs.le, by rw [hm, hs, Nat.sub_zero]⟩
  | t + 1, h => by
    rw [fit?] at h
    split at h
    · next hd =>
      cases h
      obtain ⟨hm, hs⟩ := ofParts?_eq_some hd
      exact ⟨hs.le, by rw [hm, hs]⟩
    · obtain ⟨hs, hm⟩ := fit?_eq_some h
      exact ⟨hs.trans (Nat.le_succ t), hm⟩

theorem fit?_nonneg {m : ℤ} {s t : ℕ} {d : Decimal} (hm : 0 ≤ m) (h : fit? m s t = some d) :
    0 ≤ d.mantissa := by
  rw [(fit?_eq_some h).2]
  exact dropDigits_nonneg hm _

/-! ## Sums and differences -/

theorem neg_value (d : Decimal) : d.neg.value = -d.value := by
  simp only [value, neg, Int.cast_neg, neg_div]

theorem neg_units (k : ℕ) (d : Decimal) : d.neg.units k = -d.units k := by
  simp only [units, neg, Int.neg_mul]

/-- Mantissas brought to a common scale, in units of a scale above it. -/
theorem units_at_scale {k s : ℕ} {d : Decimal} (hd : d.scale ≤ s) (hs : s ≤ k) :
    d.mantissa * 10 ^ (s - d.scale) * 10 ^ (k - s) = d.units k := by
  rw [units, Int.mul_assoc, ← Int.pow_add]
  congr 2
  omega

/-- A mantissa that fits at scale `k` fits at every smaller scale at which the number is exact. -/
theorem natAbs_lt_of_units {m u : ℤ} {n : ℕ} (h : m * 10 ^ n = u) (hu : u.natAbs < bound) :
    m.natAbs < bound := by
  have hn : m.natAbs * 10 ^ n = u.natAbs := by
    rw [← h, Int.natAbs_mul, Int.natAbs_pow]
    rfl
  have := Nat.le_mul_of_pos_right m.natAbs (Nat.pow_pos (n := n) (by decide : 0 < 10))
  omega

/-- The exact number at scale `s` is kept if it fits at the scale `k` above it. -/
theorem fit?_units {k s : ℕ} {m u : ℤ} (hs : s ≤ k) (hk : k ≤ 28) (hm : m * 10 ^ (k - s) = u)
    (hu : u.natAbs < bound) : ∃ d, fit? m s s = some d ∧ d.scale ≤ k ∧ d.units k = u :=
  ⟨_, fit?_self (natAbs_lt_of_units hm hu) (hs.trans hk), hs, hm⟩

theorem add?_units {k : ℕ} {a b : Decimal} (hk : k ≤ 28) (ha : a.scale ≤ k) (hb : b.scale ≤ k)
    (hfit : (a.units k + b.units k).natAbs < bound) :
    ∃ d, a.add? b = some d ∧ d.scale ≤ k ∧ d.units k = a.units k + b.units k := by
  unfold add?
  split
  · next h0 => exact ⟨b, rfl, hb, by simp [units, h0]⟩
  split
  · next h0 => exact ⟨a, rfl, ha, by simp [units, h0]⟩
  have hs := Nat.max_le.2 ⟨ha, hb⟩
  refine fit?_units hs hk ?_ hfit
  rw [int_pow_eq, int_pow_eq, Int.add_mul, units_at_scale (Nat.le_max_left ..) hs,
    units_at_scale (Nat.le_max_right ..) hs]

theorem sub?_units {k : ℕ} {a b : Decimal} (hk : k ≤ 28) (ha : a.scale ≤ k) (hb : b.scale ≤ k)
    (hfit : (a.units k - b.units k).natAbs < bound) :
    ∃ d, a.sub? b = some d ∧ d.scale ≤ k ∧ d.units k = a.units k - b.units k := by
  unfold sub?
  split
  · next h0 => exact ⟨b.neg, rfl, hb, by rw [neg_units]; simp [units, h0]⟩
  split
  · next h0 => exact ⟨a, rfl, ha, by simp [units, h0]⟩
  have hs := Nat.max_le.2 ⟨ha, hb⟩
  refine fit?_units hs hk ?_ hfit
  rw [int_pow_eq, int_pow_eq, Int.sub_mul, units_at_scale (Nat.le_max_left ..) hs,
    units_at_scale (Nat.le_max_right ..) hs]

theorem add?_nonneg {a b d : Decimal} (ha : 0 ≤ a.mantissa) (hb : 0 ≤ b.mantissa)
    (h : a.add? b = some d) : 0 ≤ d.mantissa ∧ d.scale ≤ max a.scale b.scale := by
  unfold add? at h
  split at h
  · cases h
    exact ⟨hb, Nat.le_max_right ..⟩
  split at h
  · cases h
    exact ⟨ha, Nat.le_max_left ..⟩
  have hsum := Int.add_nonneg (Int.mul_nonneg ha (ten_pow_pos (max a.scale b.scale - a.scale)).le)
    (Int.mul_nonneg hb (ten_pow_pos (max a.scale b.scale - b.scale)).le)
  exact ⟨fit?_nonneg hsum h, (fit?_eq_some h).1⟩

theorem sub?_nonneg {a b d : Decimal} (hba : a.below b = false) (h : a.sub? b = some d) :
    0 ≤ d.mantissa ∧ d.scale ≤ max a.scale b.scale := by
  have hle := (below_eq_false_iff_units (Nat.le_max_left ..) (Nat.le_max_right ..)).1 hba
  unfold sub? at h
  split at h
  · next h0 =>
    cases h
    have hb : ¬ 0 < b.mantissa := fun hb => by
      have := units_pos (k := max a.scale b.scale) hb
      simp only [units, h0, Int.zero_mul] at hle this
      omega
    exact ⟨Int.neg_nonneg.2 (Int.not_lt.1 hb), Nat.le_max_right ..⟩
  split at h
  · next h0 =>
    cases h
    exact ⟨by simpa [units, h0, ten_pow_pos] using hle, Nat.le_max_left ..⟩
  exact ⟨fit?_nonneg (Int.sub_nonneg.2 hle) h, (fit?_eq_some h).1⟩

theorem add_eq_ok {a b d : Decimal} : a.add b = .ok d ↔ a.add? b = some d := by
  unfold add
  split <;> simp_all

theorem sub_eq_ok {a b d : Decimal} : a.sub b = .ok d ↔ a.sub? b = some d := by
  unfold sub
  split <;> simp_all

end TransferLedger.Decimal
