import TransferLedger.Json.Number
import TransferLedger.Proofs.Binary64.Accuracy

/-! # The binary number of a significand and a power of ten

A number is computed from its significand and a power of ten in one multiplication or division, each operand
rounded before (`Computed`); only numbers far below any amount take several steps (`floatOfParts_eq_finite`). So
it is off by three roundings at most (`Computed.within`), and by one if both operands are binary numbers
themselves (`Computed.roundsTo`).
-/

namespace TransferLedger.Json
set_option autoImplicit false

open Binary64

/-- The binary number is the product or the quotient of a rounded significand and a rounded power of ten. -/
inductive Computed (s : ℕ) (k : ℤ) (m : ℕ) (q : ℤ) : Prop
  | product {m₁ m₂ : ℕ} {q₁ q₂ : ℤ} (hk : 0 ≤ k) (hs : RoundsTo s m₁ q₁)
    (hp : RoundsTo (Nat.pow 10 k.natAbs : ℕ) m₂ q₂) (h : RoundsTo (m₁ * 2 ^ q₁ * (m₂ * 2 ^ q₂)) m q)
  | quotient {m₁ m₂ : ℕ} {q₁ q₂ : ℤ} (hk : ¬ 0 ≤ k) (hs : RoundsTo s m₁ q₁)
    (hp : RoundsTo (Nat.pow 10 k.natAbs : ℕ) m₂ q₂) (h : RoundsTo (m₁ * 2 ^ q₁ / (m₂ * 2 ^ q₂)) m q)

/-! ## Very small numbers -/

/-- The number, if it is finite at all, is not below zero and far below any amount. -/
def Small (x : Binary64) : Prop :=
  ∀ s m q, x = .finite s m q → s = false ∧ m < 9007199254740992 ∧ (m : ℚ) * 2 ^ q ≤ 1 / 10 ^ 60

theorem small_zero : Small (.zero false) := by
  rintro s m q ⟨⟩
  norm_num

theorem ten_pow_le (j : ℕ) {i : ℕ} (h : i ≤ j) : (10 : ℚ) ^ i ≤ (Nat.pow 10 j : ℕ) := by
  exact_mod_cast Nat.pow_le_pow_right (show 0 < 10 by decide) h

theorem within_of_one_le {r : ℚ} {m : ℕ} {q : ℤ} (h : RoundsTo r m q) (hr : 1 ≤ r) :
    Within precision (m * 2 ^ q) r :=
  h.within_of_le ((zpow_le_one_of_nonpos₀ one_le_two (by decide)).trans hr)

/-- A quotient by a power of ten, where the dividend is not too large for that power. -/
theorem small_div {x : Binary64} {j : ℕ}
    (hx : ∀ s m q, x = .finite s m q → s = false ∧ (m : ℚ) * 2 ^ q ≤ Nat.pow 10 j / 10 ^ 61) :
    Small (x.div (.ofNat (Nat.pow 10 j))) := by
  intro s m q h
  obtain ⟨s₁, m₁, q₁, rfl, hsign, hvalue⟩ := div_eq_finite h
  obtain ⟨rfl, hle⟩ := hx _ _ _ rfl
  refine ⟨by rw [hsign, ofNat_isNegative]; rfl, ?_⟩
  rcases hvalue with rfl | ⟨s₂, m₂, q₂, hy, hround⟩
  · rw [Nat.cast_zero, zero_mul]
    exact ⟨by decide, by positivity⟩
  · refine ⟨hround.mantissa_lt, ?_⟩
    have hone : (1 : ℚ) ≤ (Nat.pow 10 j : ℕ) := ten_pow_le j (Nat.zero_le j)
    have hpower := (within_of_one_le (ofNat_eq_finite hy) hone).ge
    unfold precision at hpower
    have hpos : (0 : ℚ) < m₂ * 2 ^ q₂ := by linarith
    have hquotient : (m₁ : ℚ) * 2 ^ q₁ / (m₂ * 2 ^ q₂) ≤ 2 / 10 ^ 61 := by
      rw [div_le_iff₀ hpos]
      linarith
    have hdouble := hround.le_double (by positivity)
    have htiny : (2 : ℚ) ^ (-1075 : ℤ) ≤ 1 / 10 ^ 61 := by
      refine (zpow_le_zpow_right₀ one_le_two (by decide : -1075 ≤ (-250 : ℤ))).trans ?_
      norm_num
    linarith

theorem Small.div {x : Binary64} (hx : Small x) {j : ℕ} (hj : 0 < j) :
    Small (x.div (.ofNat (Nat.pow 10 j))) := by
  refine small_div fun s m q h => ?_
  obtain ⟨hs, -, hle⟩ := hx s m q h
  have hten := ten_pow_le j hj
  rw [pow_one] at hten
  refine ⟨hs, ?_⟩
  linarith

/-- From a small number on every step leads to a small one. -/
theorem floatOfParts_small {y : Binary64} : ∀ {fuel : ℕ} {x : Binary64} {k : ℤ}, Small x → k < 0 →
    floatOfParts x k fuel = .ok y → Small y
  | 0, _, _, _, _, h => by
    cases h
    exact small_zero
  | fuel + 1, x, k, hx, hk, h => by
    rw [floatOfParts] at h
    split at h
    · rw [if_neg (by omega)] at h
      cases h
      exact hx.div (by omega)
    split at h
    · cases h
      exact hx
    · rw [if_neg (by omega)] at h
      exact floatOfParts_small (hx.div (by decide)) (by omega) h

/-! ## Results -/

variable {s : ℕ} {k : ℤ} {m : ℕ} {q : ℤ}

theorem small_first (hs : s ≤ maxWord) {j : ℕ} (hj : 100 ≤ j) :
    Small ((Binary64.ofNat s).div (.ofNat (Nat.pow 10 j))) := by
  refine small_div fun t m q h => ?_
  have hround := ofNat_eq_finite h
  have hdouble := hround.le_double (by positivity)
  have htiny : (2 : ℚ) ^ (-1075 : ℤ) ≤ 1 := zpow_le_one_of_nonpos₀ one_le_two (by decide)
  have hs : (s : ℚ) ≤ 10 ^ 20 := by
    have : s ≤ 10 ^ 20 := hs.trans (by decide)
    exact_mod_cast this
  have hten := ten_pow_le j hj
  refine ⟨sign_ofNat h, ?_⟩
  rw [le_div_iff₀ (by positivity)]
  linarith

theorem product_eq_finite {t : Bool} (hk : 0 ≤ k)
    (h : (Binary64.ofNat s).mul (.ofNat (Nat.pow 10 k.natAbs)) = .finite t m q) :
    t = false ∧ m < 9007199254740992 ∧ Computed s k m q := by
  obtain ⟨s₁, m₁, q₁, s₂, m₂, q₂, hs, hp, hsign, hround⟩ := mul_eq_finite h
  obtain rfl := sign_ofNat hs
  obtain rfl := sign_ofNat hp
  exact ⟨hsign, hround.mantissa_lt, .product hk (ofNat_eq_finite hs) (ofNat_eq_finite hp) hround⟩

theorem quotient_eq_finite {t : Bool} (hk : ¬ 0 ≤ k)
    (h : (Binary64.ofNat s).div (.ofNat (Nat.pow 10 k.natAbs)) = .finite t m q) :
    t = false ∧ m < 9007199254740992 ∧ (m = 0 ∨ Computed s k m q) := by
  obtain ⟨s₁, m₁, q₁, hs, hsign, hvalue⟩ := div_eq_finite h
  obtain rfl := sign_ofNat hs
  refine ⟨by rw [hsign, ofNat_isNegative]; rfl, ?_⟩
  rcases hvalue with rfl | ⟨s₂, m₂, q₂, hp, hround⟩
  · exact ⟨by decide, .inl rfl⟩
  · exact ⟨hround.mantissa_lt, .inr (.quotient hk (ofNat_eq_finite hs) (ofNat_eq_finite hp) hround)⟩

/-- A finite result is not below zero, and small or computed in one step. -/
theorem floatOfParts_eq_finite {t : Bool} {fuel : ℕ} (hs : s ≤ maxWord)
    (h : floatOfParts (.ofNat s) k fuel = .ok (.finite t m q)) :
    t = false ∧ m < 9007199254740992 ∧ ((m : ℚ) * 2 ^ q ≤ 1 / 10 ^ 60 ∨ Computed s k m q) := by
  have hsmall : Small (.finite t m q) → t = false ∧ m < 9007199254740992 ∧
      ((m : ℚ) * 2 ^ q ≤ 1 / 10 ^ 60 ∨ Computed s k m q) := by
    intro hsmall
    obtain ⟨ht, hlt, hle⟩ := hsmall t m q rfl
    exact ⟨ht, hlt, .inl hle⟩
  have hnothing : m = 0 → (m : ℚ) * 2 ^ q ≤ 1 / 10 ^ 60 := by
    rintro rfl
    rw [Nat.cast_zero, zero_mul]
    positivity
  cases fuel with
  | zero =>
    cases h
    exact hsmall small_zero
  | succ fuel =>
    rw [floatOfParts] at h
    split at h
    · split at h
      · next hk =>
        simp only at h
        split at h
        · cases h
        · obtain ⟨hsign, hlt, hcomputed⟩ := product_eq_finite hk (Except.ok.inj h)
          exact ⟨hsign, hlt, .inr hcomputed⟩
      · next hk =>
        obtain ⟨hsign, hlt, hcomputed⟩ := quotient_eq_finite hk (Except.ok.inj h)
        exact ⟨hsign, hlt, hcomputed.imp_left hnothing⟩
    split at h
    · next hzero =>
      have heq := Except.ok.inj h
      rw [heq] at hzero
      obtain rfl := beq_iff_eq.1 hzero
      exact ⟨sign_ofNat heq, by decide, .inl (hnothing rfl)⟩
    split at h
    · cases h
    · exact hsmall (floatOfParts_small (small_first hs (by decide)) (by omega) h)

theorem pow_natAbs_of_nonneg (hk : 0 ≤ k) : ((Nat.pow 10 k.natAbs : ℕ) : ℚ) = 10 ^ k := by
  rw [Nat.pow_eq, Nat.cast_pow, Nat.cast_ofNat, ← zpow_natCast, Int.natAbs_of_nonneg hk]

theorem pow_natAbs_of_neg (hk : ¬ 0 ≤ k) : ((Nat.pow 10 k.natAbs : ℕ) : ℚ)⁻¹ = 10 ^ k := by
  rw [Nat.pow_eq, Nat.cast_pow, Nat.cast_ofNat, ← zpow_natCast, Int.ofNat_natAbs_of_nonpos (by omega), zpow_neg,
    inv_inv]

theorem value_of_whole {n a b : ℕ} (h : RoundsTo n m q) (hn : n = a * 2 ^ b) (ha : a < 9007199254740992) :
    (m : ℚ) * 2 ^ q = n := by
  have hvalue : (n : ℚ) = a * 2 ^ (b : ℤ) := by
    rw [zpow_natCast]
    exact_mod_cast hn
  rw [hvalue] at h ⊢
  exact h.exact ha (by unfold minExponent; omega)

theorem value_of_power {j : ℕ} (h : RoundsTo (Nat.pow 10 j : ℕ) m q) (hj : j ≤ 22) :
    (m : ℚ) * 2 ^ q = (Nat.pow 10 j : ℕ) := by
  have hfive : ∀ i ≤ 22, 5 ^ i < 9007199254740992 := by decide
  exact value_of_whole h (Nat.mul_pow 5 2 j) (hfive j hj)

namespace Computed

theorem significand_pos (h : Computed s k m q) (hm : 0 < (m : ℚ) * 2 ^ q) : (1 : ℚ) ≤ s := by
  rcases Nat.eq_zero_or_pos s with rfl | hpos
  · exfalso
    have hzero : RoundsTo 0 m q := by
      cases h with
      | product hk hs hp h =>
        rw [Nat.cast_zero] at hs
        rwa [hs.zero, zero_mul] at h
      | quotient hk hs hp h =>
        rw [Nat.cast_zero] at hs
        rwa [hs.zero, zero_div] at h
    rw [hzero.zero] at hm
    exact lt_irrefl 0 hm
  · exact_mod_cast hpos

theorem full (h : Computed s k m q) (hm : 1 / 10 ^ 60 < (m : ℚ) * 2 ^ q) : 4503599627370496 ≤ m := by
  have hcanonical : Canonical m q := by
    cases h with
    | product hk hs hp h => exact h.toCanonical
    | quotient hk hs hp h => exact h.toCanonical
  refine hcanonical.full_of_le (le_trans ?_ hm.le)
  refine (zpow_le_zpow_right₀ one_le_two (by decide : -1022 ≤ (-250 : ℤ))).trans ?_
  norm_num

/-- A result that is not small is off by three roundings at most. -/
theorem within (h : Computed s k m q) (hm : 1 / 10 ^ 60 < (m : ℚ) * 2 ^ q) :
    Within (precision * (precision * precision)) (m * 2 ^ q) (s * 10 ^ k) := by
  have hfull := h.full hm
  have hone := h.significand_pos (lt_trans (by norm_num) hm)
  have hten : (1 : ℚ) ≤ (Nat.pow 10 k.natAbs : ℕ) := ten_pow_le _ (Nat.zero_le _)
  have hproduct := mul_nonneg precision_nonneg precision_nonneg
  cases h with
  | product hk hs hp h =>
    have hoperands := (within_of_one_le hs hone).mul (by positivity) (by positivity) (by positivity)
      (by positivity) (within_of_one_le hp hten)
    rw [pow_natAbs_of_nonneg hk] at hoperands
    exact (h.toNear.within hfull).trans precision_nonneg hproduct hoperands
  | quotient hk hs hp h =>
    have hdivisor := within_of_one_le hp hten
    have hpower : (0 : ℚ) < (Nat.pow 10 k.natAbs : ℕ) := one_pos.trans_le hten
    have hpos := hdivisor.pos precision_nonneg hpower
    have hoperands := (within_of_one_le hs hone).mul (by positivity) (by positivity) (by positivity)
      (by positivity) (hdivisor.inv hpos hpower)
    rw [pow_natAbs_of_neg hk, ← div_eq_mul_inv] at hoperands
    exact (h.toNear.within hfull).trans precision_nonneg hproduct hoperands

/-- A significand and a power of ten that are binary numbers make the result the rounded exact number. -/
theorem roundsTo (h : Computed s k m q) (hs : s < 9007199254740992) (hk : -22 ≤ k) (hk' : k ≤ 22) :
    RoundsTo (s * 10 ^ k) m q := by
  have hsignificand : ∀ {m₁ : ℕ} {q₁ : ℤ}, RoundsTo s m₁ q₁ → (m₁ : ℚ) * 2 ^ q₁ = s := fun h =>
    value_of_whole (b := 0) h (Nat.mul_one s).symm hs
  cases h with
  | product hsign hs hp h =>
    rwa [hsignificand hs, value_of_power hp (by omega), pow_natAbs_of_nonneg hsign] at h
  | quotient hsign hs hp h =>
    rwa [hsignificand hs, value_of_power hp (by omega), div_eq_mul_inv, pow_natAbs_of_neg hsign] at h

end Computed

end TransferLedger.Json
