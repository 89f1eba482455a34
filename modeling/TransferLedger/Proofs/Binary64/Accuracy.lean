import TransferLedger.Proofs.Binary64.Rounding

/-! # How exact the operations are

Finite products and quotients are what the exact ones round to (`mul_eq_finite`, `div_eq_finite`). A number of 53
binary digits is not changed by rounding (`RoundsTo.exact`); any other one is kept to a part in `2^52`
(`RoundsTo.within_of_le`), unless it is too small for a mantissa with all digits.
-/

namespace TransferLedger.Binary64
set_option autoImplicit false

/-! ## Operations -/

theorem ofScaled_rounded (negative : Bool) (num : ℕ) {den : ℕ} (hden : 0 < den) (q : ℤ) :
    Rounded negative (num / den * 2 ^ q) (ofScaled negative num den q) := by
  unfold ofScaled
  split
  · next h =>
    rw [zpow_of_nonneg 2 h, div_mul_eq_mul_div, ← Nat.cast_mul]
    exact ofRatio_rounded negative _ hden
  · next h =>
    rw [zpow_of_neg 2 h, ← div_eq_mul_inv, div_div, ← Nat.cast_mul]
    exact ofRatio_rounded negative num (Nat.mul_pos hden (two_pow_pos _))

theorem ofNat_rounded (n : ℕ) : Rounded false n (ofNat n) := by
  have h := ofRatio_rounded false n one_pos
  rwa [Nat.cast_one, div_one] at h

section
variable {s : Bool} {m : ℕ} {q : ℤ} {x y : Binary64}

theorem finite_of_rounded {negative : Bool} {r : ℚ} (h : Rounded negative r (.finite s m q)) :
    RoundsTo r m q := by
  cases h with
  | finite h => exact h

theorem sign_of_rounded {negative : Bool} {r : ℚ} (h : Rounded negative r (.finite s m q)) :
    s = negative := by
  cases h with
  | finite h => rfl

theorem ofNat_eq_finite {n : ℕ} (h : ofNat n = .finite s m q) : RoundsTo n m q :=
  finite_of_rounded (h ▸ ofNat_rounded n)

theorem ofNat_isNegative (n : ℕ) : (ofNat n).isNegative = false := by
  have h := ofNat_rounded n
  generalize ofNat n = x at h
  cases h with
  | infinite => rfl
  | finite h => rfl

/-- A finite product has finite factors. -/
theorem sign_ofNat {n : ℕ} {negative : Bool} {m : ℕ} {q : ℤ} (h : Binary64.ofNat n = .finite negative m q) :
    negative = false := by
  have hsign := ofNat_isNegative n
  rwa [h] at hsign

theorem mul_eq_finite (h : x.mul y = .finite s m q) : ∃ s₁ m₁ q₁ s₂ m₂ q₂, x = .finite s₁ m₁ q₁ ∧
    y = .finite s₂ m₂ q₂ ∧ s = (s₁ != s₂) ∧ RoundsTo (m₁ * 2 ^ q₁ * (m₂ * 2 ^ q₂)) m q := by
  cases x with
  | nan => cases h
  | infinite s₁ =>
    cases y with
    | nan => cases h
    | infinite s₂ => cases h
    | finite s₂ m₂ q₂ =>
      rw [mul] at h
      split at h
      · cases h
      · cases h
  | finite s₁ m₁ q₁ =>
    cases y with
    | nan => cases h
    | infinite s₂ =>
      rw [mul] at h
      split at h
      · cases h
      · cases h
    | finite s₂ m₂ q₂ =>
      have hround := ofScaled_rounded (s₁ != s₂) (m₁ * m₂) one_pos (q₁ + q₂)
      rw [Nat.cast_one, div_one, Nat.cast_mul, zpow_add₀ two_ne_zero, mul_mul_mul_comm] at hround
      rw [mul] at h
      rw [h] at hround
      exact ⟨s₁, m₁, q₁, s₂, m₂, q₂, rfl, rfl, sign_of_rounded hround, finite_of_rounded hround⟩

/-- A finite quotient has a finite dividend, and unless it is zero a finite divisor. -/
theorem div_eq_finite (h : x.div y = .finite s m q) : ∃ s₁ m₁ q₁, x = .finite s₁ m₁ q₁ ∧
    s = (s₁ != y.isNegative) ∧
    (m = 0 ∨ ∃ s₂ m₂ q₂, y = .finite s₂ m₂ q₂ ∧ RoundsTo (m₁ * 2 ^ q₁ / (m₂ * 2 ^ q₂)) m q) := by
  cases x with
  | nan => cases h
  | infinite s₁ => cases y <;> cases h
  | finite s₁ m₁ q₁ =>
    refine ⟨s₁, m₁, q₁, rfl, ?_⟩
    cases y with
    | nan => cases h
    | infinite s₂ =>
      cases h
      exact ⟨rfl, .inl rfl⟩
    | finite s₂ m₂ q₂ =>
      rw [div] at h
      split at h
      · split at h
        · cases h
        · cases h
      · next hn =>
        have hround := ofScaled_rounded (s₁ != s₂) m₁ (Nat.pos_of_ne_zero hn) (q₁ - q₂)
        rw [zpow_sub₀ two_ne_zero, div_mul_div_comm, h] at hround
        exact ⟨sign_of_rounded hround, .inr ⟨s₂, m₂, q₂, rfl, finite_of_rounded hround⟩⟩

end

/-! ## Exact and inexact results -/

namespace Near

variable {m : ℕ} {q : ℤ} {x y z : ℚ}

theorem between (hx : Near m q x) (hz : Near m q z) (hxy : x ≤ y) (hyz : y ≤ z) : Near m q y where
  low := hx.low.trans hxy
  high := hyz.trans hz.high
  odd := by
    intro h
    constructor
    · rintro rfl
      exact (hx.odd h).1 (le_antisymm hxy hx.low)
    · rintro rfl
      exact (hz.odd h).2 (le_antisymm hz.high hyz)

/-- The interval is at most one unit of the mantissa wide. -/
theorem sub_le (hx : Near m q x) (hy : Near m q y) : x - y ≤ 2 ^ q := by
  have hpos : (0 : ℚ) < 2 ^ q := by positivity
  have hhigh := hx.high
  have hlow := hy.low
  have hreach := mul_le_mul_of_nonneg_right (reach_bounds m q).2 hpos.le
  rw [quarter] at hhigh hlow
  linarith

theorem self (m : ℕ) (q : ℤ) : Near m q (m * 2 ^ q) := by
  have hreach := (reach_bounds m q).1
  refine near_units (by linarith) (by linarith) fun _ => ⟨?_, ?_⟩
  · intro h
    linarith
  · intro h
    linarith

theorem close (hx : Near m q x) : |x - m * 2 ^ q| ≤ 2 ^ q / 2 := by
  have hpos : (0 : ℚ) < 2 ^ q := by positivity
  have hhigh := hx.high
  have hlow := hx.low
  have hreach := mul_le_mul_of_nonneg_right (reach_bounds m q).2 hpos.le
  rw [quarter] at hhigh hlow
  rw [abs_le]
  constructor <;> linarith

end Near

/-- Neither of two numbers is more than `c` times the other. -/
structure Within (c x y : ℚ) : Prop where
  le : x ≤ c * y
  ge : y ≤ c * x

namespace Within

variable {c d x y z w : ℚ}

theorem of_eq (hc : 1 ≤ c) (hx : 0 ≤ x) (h : x = y) : Within c x y := by
  subst h
  exact ⟨le_mul_of_one_le_left hx hc, le_mul_of_one_le_left hx hc⟩

theorem symm (h : Within c x y) : Within c y x := ⟨h.ge, h.le⟩

theorem trans (hc : 0 ≤ c) (hd : 0 ≤ d) (h : Within c x y) (h' : Within d y z) : Within (c * d) x z where
  le := by
    rw [mul_assoc]
    exact h.le.trans (mul_le_mul_of_nonneg_left h'.le hc)
  ge := by
    rw [mul_comm c, mul_assoc]
    exact h'.ge.trans (mul_le_mul_of_nonneg_left h.ge hd)

theorem mul (hx : 0 ≤ x) (hy : 0 ≤ y) (hz : 0 ≤ z) (hw : 0 ≤ w) (h : Within c x y) (h' : Within d z w) :
    Within (c * d) (x * z) (y * w) where
  le := by
    rw [mul_mul_mul_comm]
    exact mul_le_mul h.le h'.le hz (hx.trans h.le)
  ge := by
    rw [mul_mul_mul_comm]
    exact mul_le_mul h.ge h'.ge hw (hy.trans h.ge)

theorem pos (hc : 0 ≤ c) (hy : 0 < y) (h : Within c x y) : 0 < x :=
  pos_of_mul_pos_right (hy.trans_le h.ge) hc

theorem inv (hx : 0 < x) (hy : 0 < y) (h : Within c x y) : Within c x⁻¹ y⁻¹ where
  le := by
    rw [← div_eq_mul_inv, le_div_iff₀ hy, inv_mul_le_iff₀ hx, mul_comm]
    exact h.ge
  ge := by
    rw [← div_eq_mul_inv, le_div_iff₀ hx, inv_mul_le_iff₀ hy, mul_comm]
    exact h.le

theorem mul_right (hx : 0 ≤ x) (hy : 0 ≤ y) (hz : 0 ≤ z) (h : Within c x y) : Within c (x * z) (y * z) := by
  have hprod := h.mul hx hy hz hz (.of_eq le_rfl hz rfl)
  rwa [mul_one] at hprod

/-- A factor close to one is a small distance. -/
theorem abs_sub_le {ε : ℚ} (hε : 0 ≤ ε) (hx : 0 ≤ x) (hy : 0 ≤ y) (hc : c ≤ 1 + ε) (h : Within c x y) :
    |x - y| ≤ ε * y := by
  have hle := h.le.trans (mul_le_mul_of_nonneg_right hc hy)
  have hge := h.ge.trans (mul_le_mul_of_nonneg_right hc hx)
  rw [abs_le]
  constructor
  · rcases le_or_gt x y with hxy | hxy
    · have := mul_le_mul_of_nonneg_left hxy hε
      linarith
    · have := mul_nonneg hε hy
      linarith
  · linarith

end Within

/-- The relative error of a rounding to 53 binary digits. -/
def precision : ℚ := 1 + 1 / 2 ^ 52

theorem precision_nonneg : 0 ≤ precision := by
  unfold precision
  norm_num

theorem Near.within {r : ℚ} {m : ℕ} {q : ℤ} (h : Near m q r) (hm : 4503599627370496 ≤ m) :
    Within precision (m * 2 ^ q) r := by
  have hclose := h.close
  have hpos : (0 : ℚ) < 2 ^ q := by positivity
  have hm : (4503599627370496 : ℚ) ≤ m := by exact_mod_cast hm
  have hunit : 4503599627370496 * 2 ^ q ≤ (m : ℚ) * 2 ^ q := mul_le_mul_of_nonneg_right hm hpos.le
  rw [abs_le] at hclose
  unfold precision
  constructor <;> linarith

/-- A mantissa is short of digits only at the least exponent. -/
theorem Canonical.exponent_of_lt {m : ℕ} {q : ℤ} (h : Canonical m q) (hm : m < 4503599627370496) :
    q = minExponent := by
  by_contra hne
  have := h.full (lt_of_le_of_ne h.least (Ne.symm hne))
  omega

theorem Canonical.full_of_le {m : ℕ} {q : ℤ} (h : Canonical m q) (hle : 2 ^ (-1022 : ℤ) ≤ (m : ℚ) * 2 ^ q) :
    4503599627370496 ≤ m := by
  by_contra hlt
  have hpow : (2 : ℚ) ^ (-1022 : ℤ) = 4503599627370496 * 2 ^ minExponent := by
    rw [show (-1022 : ℤ) = 52 + minExponent from rfl, zpow_add₀ two_ne_zero]
    norm_num
  rw [h.exponent_of_lt (not_le.1 hlt), hpow, mul_le_mul_iff_of_pos_right (by positivity)] at hle
  exact hlt (by exact_mod_cast hle)

namespace RoundsTo

variable {r : ℚ} {m : ℕ} {q : ℤ}

/-- What rounds to a number above the least exponent has more than 53 binary digits in smaller units. -/
theorem lt_of_least_lt (h : RoundsTo r m q) (hmin : minExponent < q) : 9007199254740991 * 2 ^ (q - 1) < r := by
  have hpos : (0 : ℚ) < 2 ^ q := by positivity
  have hm : (4503599627370496 : ℚ) ≤ m := by exact_mod_cast h.full hmin
  have hlow := h.low
  rw [quarter] at hlow
  rw [zpow_sub_one₀ two_ne_zero]
  refine lt_of_lt_of_le ?_ hlow
  have hunits : (2 * 9007199254740991 : ℚ) < 4 * m - reach m q := by
    unfold reach
    split
    · push_cast
      linarith
    · next hnot =>
      have hlt : 4503599627370496 < m := lt_of_le_of_ne (h.full hmin) fun heq => hnot ⟨heq.symm, hmin⟩
      have : (4503599627370497 : ℚ) ≤ m := by exact_mod_cast hlt
      push_cast
      linarith
  have := mul_lt_mul_of_pos_right hunits hpos
  linarith

/-- A number that has 53 binary digits is not changed. -/
theorem exact {a : ℕ} {b : ℤ} (ha : a < 9007199254740992) (hb : minExponent ≤ b)
    (h : RoundsTo (a * 2 ^ b) m q) : (m : ℚ) * 2 ^ q = a * 2 ^ b := by
  have hpos : (0 : ℚ) < 2 ^ q := by positivity
  rcases le_or_gt q b with hle | hlt
  · -- In units of the mantissa the number is whole.
    obtain ⟨k, rfl⟩ := Int.le.dest hle
    have hwhole : (a : ℚ) * 2 ^ (q + k) = (a * 2 ^ k : ℕ) * 2 ^ q := by
      rw [zpow_add₀ two_ne_zero, zpow_natCast, Nat.cast_mul, Nat.cast_pow, Nat.cast_ofNat]
      ring
    have hclose := h.close
    rw [hwhole] at hclose ⊢
    rw [← sub_mul, abs_mul, abs_of_pos hpos, div_eq_inv_mul, mul_le_mul_iff_of_pos_right hpos, abs_le] at hclose
    have hlow : (m : ℚ) < ((a * 2 ^ k : ℕ) : ℚ) + 1 := by linarith
    have hhigh : ((a * 2 ^ k : ℕ) : ℚ) < m + 1 := by linarith
    have hlow : m < a * 2 ^ k + 1 := by exact_mod_cast hlow
    have hhigh : a * 2 ^ k < m + 1 := by exact_mod_cast hhigh
    have heq : m = a * 2 ^ k := by omega
    rw [heq]
  · exfalso
    have hsmall : (a : ℚ) * 2 ^ b ≤ 9007199254740991 * 2 ^ (q - 1) := by
      refine mul_le_mul ?_ (zpow_le_zpow_right₀ one_le_two (by omega)) (by positivity) (by norm_num)
      exact_mod_cast Nat.le_of_lt_succ ha
    exact absurd hsmall (not_le.2 (h.lt_of_least_lt (by omega)))

theorem zero (h : RoundsTo 0 m q) : (m : ℚ) * 2 ^ q = 0 := by
  rw [← zero_mul ((2 : ℚ) ^ (0 : ℤ)), ← Nat.cast_zero] at h
  rw [h.exact (by decide) (by decide), Nat.cast_zero, zero_mul]

theorem full_of_le (h : RoundsTo r m q) (hr : 2 ^ (-1022 : ℤ) ≤ r) : 4503599627370496 ≤ m := by
  by_contra hlt
  have hhigh := h.high
  have hm : (m : ℚ) ≤ 4503599627370495 := by exact_mod_cast Nat.le_of_lt_succ (not_le.1 hlt)
  have hpow : (2 : ℚ) ^ (-1022 : ℤ) = 4 * 4503599627370496 * 2 ^ (q - 2) := by
    rw [h.exponent_of_lt (not_le.1 hlt), show (-1022 : ℤ) = 54 + (minExponent - 2) from rfl,
      zpow_add₀ two_ne_zero]
    norm_num
  rw [hpow] at hr
  have hpos : (0 : ℚ) < 2 ^ (q - 2) := by positivity
  have := le_of_mul_le_mul_right (hr.trans hhigh) hpos
  linarith

theorem within_of_le (h : RoundsTo r m q) (hr : 2 ^ (-1022 : ℤ) ≤ r) : Within precision (m * 2 ^ q) r :=
  h.toNear.within (h.full_of_le hr)

/-- What a number is rounded to is at most twice the number, but for numbers that no mantissa reaches. -/
theorem le_double (h : RoundsTo r m q) (hr : 0 ≤ r) : (m : ℚ) * 2 ^ q ≤ 2 * r + 2 ^ (-1075 : ℤ) := by
  have htiny : (0 : ℚ) < 2 ^ (-1075 : ℤ) := by positivity
  rcases le_or_gt 4503599627370496 m with hfull | hlt
  · have hwithin := (h.toNear.within hfull).le
    unfold precision at hwithin
    linarith
  · have hclose := (abs_le.1 h.close).1
    have hhalf : (2 : ℚ) ^ q / 2 = 2 ^ (-1075 : ℤ) := by
      rw [h.exponent_of_lt hlt, div_eq_mul_inv, ← zpow_sub_one₀ (two_ne_zero : (2 : ℚ) ≠ 0)]
      rfl
    rw [hhalf] at hclose
    linarith

end RoundsTo

end TransferLedger.Binary64
