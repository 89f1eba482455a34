import Mathlib.Algebra.Order.Field.Power
import Mathlib.Tactic.NormNum
import TransferLedger.Binary64.Basic
import TransferLedger.Proofs.Decimal.Rounding

/-! # What is rounded to a binary number

`RoundsTo r m q` says that `r` lies where the numbers are that round to `m · 2^q`: half a unit of the mantissa
to both sides, but only a quarter of one below a power of two, where the numbers lie twice as close. The number
made of a quotient is one that the quotient rounds to, or infinite (`ofRatio_rounded`).
-/

namespace TransferLedger
set_option autoImplicit false

/-! ## Powers -/

section
variable (b : ℕ) [b.AtLeastTwo] {e : ℤ}

theorem zpow_of_nonneg (h : 0 ≤ e) : (OfNat.ofNat b : ℚ) ^ e = (Nat.pow (OfNat.ofNat b) e.toNat : ℕ) := by
  rw [Nat.pow_eq, Nat.cast_pow, Nat.cast_ofNat, ← zpow_natCast, Int.toNat_of_nonneg h]

theorem zpow_of_neg (h : ¬ 0 ≤ e) :
    (OfNat.ofNat b : ℚ) ^ e = ((Nat.pow (OfNat.ofNat b) (-e).toNat : ℕ) : ℚ)⁻¹ := by
  rw [Nat.pow_eq, Nat.cast_pow, Nat.cast_ofNat, ← zpow_natCast, Int.toNat_of_nonneg (by omega), zpow_neg,
    inv_inv]

end

namespace Binary64

theorem two_pow_pos (k : ℕ) : 0 < Nat.pow 2 k := Nat.pow_pos (by decide)

/-- The quotient is at most half a unit off, and less than that if it is odd. -/
theorem roundHalfEven_near (n : ℕ) {d : ℕ} (hd : 0 < d) :
    |(n : ℚ) / d - Decimal.roundHalfEven n d| ≤ 1 / 2 ∧
      (Decimal.roundHalfEven n d % 2 = 1 → |(n : ℚ) / d - Decimal.roundHalfEven n d| ≠ 1 / 2) := by
  have hclose := Decimal.roundHalfEven_close (n := n) hd
  have htie : ∀ q, 2 * n = 2 * (q * d) + d → Decimal.roundHalfEven n d = q + q % 2 :=
    fun q => Decimal.roundHalfEven_tie hd
  generalize Decimal.roundHalfEven n d = m at *
  have hd' : (0 : ℚ) < d := by exact_mod_cast hd
  have hoff : |(n : ℚ) / d - m| = |2 * (n : ℚ) - 2 * (m * d)| / (2 * d) := by
    have hunits : (n : ℚ) / d - m = (2 * n - 2 * (m * d)) / (2 * d) := by
      field_simp
    rw [hunits, abs_div, abs_of_pos (show (0 : ℚ) < 2 * d by positivity)]
  have hclose : |2 * (n : ℚ) - 2 * (m * d)| ≤ d := by
    obtain ⟨hhigh, hlow⟩ := hclose
    have hhigh : 2 * ((m : ℚ) * d) ≤ 2 * n + d := by exact_mod_cast hhigh
    have hlow : 2 * (n : ℚ) ≤ 2 * (m * d) + d := by exact_mod_cast hlow
    rw [abs_le]
    constructor <;> linarith
  rw [hoff, div_le_div_iff₀ (by positivity) (by norm_num), ne_eq, div_eq_div_iff (by positivity) (by norm_num)]
  refine ⟨by linarith, fun hodd heq => ?_⟩
  -- Halfway between two the even one is taken.
  rcases abs_cases (2 * (n : ℚ) - 2 * (m * d)) with ⟨habs, -⟩ | ⟨habs, -⟩
  · have hn : 2 * (n : ℚ) = 2 * (m * d) + d := by linarith
    have := htie m (by exact_mod_cast hn)
    omega
  · have hpos : 1 ≤ m := by omega
    have hn : 2 * (n : ℚ) = 2 * ((m - 1 : ℕ) * d) + d := by
      rw [Nat.cast_sub hpos]
      push_cast
      linarith
    have := htie (m - 1) (by exact_mod_cast hn)
    omega

/-! ## The leading binary digit -/

theorem le_ratio_iff {num den : ℕ} (hden : 0 < den) (e : ℤ) :
    (if 0 ≤ e then den * Nat.pow 2 e.toNat ≤ num else den ≤ num * Nat.pow 2 (-e).toNat) ↔
      (2 : ℚ) ^ e ≤ num / den := by
  have hden : (0 : ℚ) < den := by exact_mod_cast hden
  rw [le_div_iff₀ hden]
  split
  · next h =>
    rw [zpow_of_nonneg 2 h, Nat.mul_comm]
    exact_mod_cast Iff.rfl
  · next h =>
    have hpos : (0 : ℚ) < (Nat.pow 2 (-e).toNat : ℕ) := by exact_mod_cast two_pow_pos _
    rw [zpow_of_neg 2 h, inv_mul_le_iff₀ hpos, mul_comm (_ : ℚ) (num : ℚ)]
    exact_mod_cast Iff.rfl

theorem log2_bounds {n : ℕ} (h : 0 < n) : (2 : ℚ) ^ (n.log2 : ℤ) ≤ n ∧ (n : ℚ) < 2 ^ ((n.log2 : ℤ) + 1) := by
  have hlow : 2 ^ n.log2 ≤ n := Nat.log2_self_le (by omega)
  have hhigh : n < 2 ^ (n.log2 + 1) := Nat.lt_log2_self
  constructor
  · exact_mod_cast hlow
  · exact_mod_cast hhigh

theorem leadingExponent_bounds {num den : ℕ} (hnum : 0 < num) (hden : 0 < den) :
    (2 : ℚ) ^ leadingExponent num den ≤ num / den ∧ (num : ℚ) / den < 2 ^ (leadingExponent num den + 1) := by
  obtain ⟨hnlow, hnhigh⟩ := log2_bounds hnum
  obtain ⟨hdlow, hdhigh⟩ := log2_bounds hden
  have hden' : (0 : ℚ) < den := by exact_mod_cast hden
  have hnpow : (0 : ℚ) < 2 ^ (num.log2 : ℤ) := by positivity
  have hdpow : (0 : ℚ) < 2 ^ (den.log2 : ℤ) := by positivity
  rw [zpow_add_one₀ two_ne_zero] at hnhigh hdhigh
  -- The quotient of the leading powers is at most a factor of two off, to either side.
  have hlow : (2 : ℚ) ^ ((num.log2 : ℤ) - den.log2 - 1) ≤ num / den := by
    rw [zpow_sub_one₀ two_ne_zero, zpow_sub₀ two_ne_zero, le_div_iff₀ hden', ← div_eq_mul_inv, div_div,
      div_mul_eq_mul_div, div_le_iff₀ (by positivity)]
    calc (2 : ℚ) ^ (num.log2 : ℤ) * den
        ≤ num * (2 ^ (den.log2 : ℤ) * 2) := mul_le_mul hnlow hdhigh.le hden'.le (by positivity)
      _ = num * (2 ^ (den.log2 : ℤ) * 2) := rfl
  have hhigh : (num : ℚ) / den < 2 ^ ((num.log2 : ℤ) - den.log2 + 1) := by
    rw [zpow_add_one₀ two_ne_zero, zpow_sub₀ two_ne_zero, div_lt_iff₀ hden', div_mul_eq_mul_div,
      div_mul_eq_mul_div, lt_div_iff₀ hdpow]
    calc (num : ℚ) * 2 ^ (den.log2 : ℤ)
        < 2 ^ (num.log2 : ℤ) * 2 * 2 ^ (den.log2 : ℤ) := mul_lt_mul_of_pos_right hnhigh hdpow
      _ ≤ 2 ^ (num.log2 : ℤ) * 2 * den := mul_le_mul_of_nonneg_left hdlow (by positivity)
  unfold leadingExponent
  simp only [le_ratio_iff hden]
  split
  · next hle => exact ⟨hle, hhigh⟩
  · next hlt =>
    rw [Int.sub_add_cancel]
    exact ⟨hlow, not_le.1 hlt⟩

/-! ## Numbers that round to a binary number -/

/-- The parts of a binary number in their only form. -/
structure Canonical (m : ℕ) (q : ℤ) : Prop where
  least : minExponent ≤ q
  mantissa_lt : m < 9007199254740992
  full : minExponent < q → 4503599627370496 ≤ m

/-- How far the numbers that round to `m · 2^q` reach below it, in quarters of a unit of the mantissa. -/
def reach (m : ℕ) (q : ℤ) : ℕ := if m = 4503599627370496 ∧ minExponent < q then 1 else 2

/-- The numbers that round to `m · 2^q`. The ends belong to them if the mantissa is even. -/
structure Near (m : ℕ) (q : ℤ) (r : ℚ) : Prop where
  low : (4 * m - reach m q) * 2 ^ (q - 2) ≤ r
  high : r ≤ (4 * m + 2) * 2 ^ (q - 2)
  odd : m % 2 = 1 → r ≠ (4 * m - reach m q) * 2 ^ (q - 2) ∧ r ≠ (4 * m + 2) * 2 ^ (q - 2)

structure RoundsTo (r : ℚ) (m : ℕ) (q : ℤ) : Prop extends Canonical m q, Near m q r

theorem reach_bounds (m : ℕ) (q : ℤ) : (1 : ℚ) ≤ reach m q ∧ (reach m q : ℚ) ≤ 2 := by
  unfold reach
  split <;> norm_num

theorem quarter (q : ℤ) : (2 : ℚ) ^ (q - 2) = 2 ^ q / 4 := by
  rw [zpow_sub₀ two_ne_zero]
  norm_num

theorem near_units {m : ℕ} {q : ℤ} {u : ℚ} (hlow : 4 * m - reach m q ≤ 4 * u) (hhigh : 4 * u ≤ 4 * m + 2)
    (hodd : m % 2 = 1 → 4 * u ≠ 4 * m - reach m q ∧ 4 * u ≠ 4 * m + 2) : Near m q (u * 2 ^ q) := by
  have hpos : (0 : ℚ) < 2 ^ q / 4 := by positivity
  have hu : u * 2 ^ q = 4 * u * (2 ^ q / 4) := by ring
  constructor
  · rw [quarter, hu]
    exact mul_le_mul_of_nonneg_right hlow hpos.le
  · rw [quarter, hu]
    exact mul_le_mul_of_nonneg_right hhigh hpos.le
  · intro h
    rw [quarter, hu, ne_eq, ne_eq, mul_left_inj' hpos.ne', mul_left_inj' hpos.ne']
    exact hodd h

/-- Rounding up to the next power of two takes the first mantissa of the next exponent. -/
theorem roundsTo_carry {q : ℤ} {u : ℚ} (hq : minExponent ≤ q) (hu : |u - 9007199254740992| ≤ 1 / 2)
    (hlt : u < 9007199254740992) : RoundsTo (u * 2 ^ q) 4503599627370496 (q + 1) := by
  have hfull : minExponent < q + 1 := by omega
  have hreach : reach 4503599627370496 (q + 1) = 1 := if_pos ⟨rfl, hfull⟩
  have hhalf : u * 2 ^ q = u / 2 * 2 ^ (q + 1) := by
    rw [zpow_add_one₀ two_ne_zero]
    ring
  rw [abs_le] at hu
  rw [hhalf]
  refine { toCanonical := ⟨by omega, by decide, fun _ => le_rfl⟩, toNear := near_units ?_ ?_ nofun }
  · rw [hreach]
    push_cast
    linarith
  · push_cast
    linarith

/-- What is half a unit off at most rounds to the number, if it is not below the first number of an exponent. -/
theorem near_of_close {m : ℕ} {q : ℤ} {u : ℚ} (hu : |u - m| ≤ 1 / 2 ∧ (m % 2 = 1 → |u - m| ≠ 1 / 2))
    (hfirst : m = 4503599627370496 → minExponent < q → m ≤ u) : Near m q (u * 2 ^ q) := by
  obtain ⟨hclose, hodd⟩ := hu
  have hbounds := abs_le.1 hclose
  refine near_units ?_ (by linarith) fun hm => ?_
  · unfold reach
    split
    · next h =>
      push_cast
      linarith [hfirst h.1 h.2]
    · push_cast
      linarith
  · have hreach : reach m q = 2 := by
      refine if_neg fun h => ?_
      rw [h.1] at hm
      cases hm
    have hne := hodd hm
    rw [hreach]
    constructor
    · intro heq
      have hoff : u - m = -(1 / 2) := by
        push_cast at heq
        linarith
      rw [hoff] at hne
      norm_num at hne
    · intro heq
      have hoff : u - m = 1 / 2 := by linarith
      rw [hoff] at hne
      norm_num at hne

theorem roundsTo_of_near {m : ℕ} {q : ℤ} {u : ℚ} (hq : minExponent ≤ q)
    (hu : |u - m| ≤ 1 / 2 ∧ (m % 2 = 1 → |u - m| ≠ 1 / 2)) (hlt : u < 9007199254740992)
    (hle : minExponent < q → 4503599627370496 ≤ u) (hm : m ≠ 9007199254740992) :
    RoundsTo (u * 2 ^ q) m q := by
  have hbounds := abs_le.1 hu.1
  have hmle : m ≤ 9007199254740992 := by
    have : (m : ℚ) < 9007199254740993 := by linarith
    have : m < 9007199254740993 := by exact_mod_cast this
    omega
  have hfull : minExponent < q → 4503599627370496 ≤ m := by
    intro hmin
    have := hle hmin
    have : (4503599627370495 : ℚ) < m := by linarith
    have : 4503599627370495 < m := by exact_mod_cast this
    omega
  refine { toCanonical := ⟨hq, by omega, hfull⟩, toNear := near_of_close hu ?_ }
  rintro rfl hmin
  exact_mod_cast hle hmin

theorem scaled_near (num : ℕ) {den : ℕ} (hden : 0 < den) (q : ℤ) :
    ∃ m : ℕ, (if 0 ≤ q then Decimal.roundHalfEven num (den * Nat.pow 2 q.toNat)
      else Decimal.roundHalfEven (num * Nat.pow 2 (-q).toNat) den) = m ∧
      |num / den / 2 ^ q - (m : ℚ)| ≤ 1 / 2 ∧ (m % 2 = 1 → |num / den / 2 ^ q - (m : ℚ)| ≠ 1 / 2) := by
  split
  · next h =>
    refine ⟨_, rfl, ?_⟩
    rw [zpow_of_nonneg 2 h, div_div, ← Nat.cast_mul]
    exact roundHalfEven_near num (Nat.mul_pos hden (two_pow_pos _))
  · next h =>
    refine ⟨_, rfl, ?_⟩
    rw [zpow_of_neg 2 h, div_inv_eq_mul, div_mul_eq_mul_div, ← Nat.cast_mul]
    exact roundHalfEven_near _ hden

/-- What a number is rounded to: a binary number nearest to it, or an infinite one. -/
inductive Rounded (negative : Bool) (r : ℚ) : Binary64 → Prop
  | infinite : Rounded negative r (.infinite negative)
  | finite {m : ℕ} {q : ℤ} (h : RoundsTo r m q) : Rounded negative r (.finite negative m q)

theorem ofRatio_rounded (negative : Bool) (num : ℕ) {den : ℕ} (hden : 0 < den) :
    Rounded negative (num / den) (ofRatio negative num den) := by
  unfold ofRatio
  split
  · next hzero =>
    refine .finite ?_
    rw [hzero, Nat.cast_zero, zero_div, ← zero_mul ((2 : ℚ) ^ minExponent)]
    refine roundsTo_of_near le_rfl ⟨by norm_num, nofun⟩ (by norm_num) ?_ (by decide)
    exact fun h => absurd h (lt_irrefl _)
  next hnum =>
  obtain ⟨hlow, hhigh⟩ := leadingExponent_bounds (Nat.pos_of_ne_zero hnum) hden
  obtain ⟨m, hm, hnear⟩ := scaled_near num hden (max (leadingExponent num den - 52) minExponent)
  simp only [hm]
  generalize hq : max (leadingExponent num den - 52) minExponent = q at *
  have hpos : (0 : ℚ) < 2 ^ q := by positivity
  have hr : (num : ℚ) / den = num / den / 2 ^ q * 2 ^ q := (div_mul_cancel₀ _ hpos.ne').symm
  have hlt : (num : ℚ) / den / 2 ^ q < 9007199254740992 := by
    rw [div_lt_iff₀ hpos]
    calc (num : ℚ) / den < 2 ^ (leadingExponent num den + 1) := hhigh
      _ ≤ 2 ^ (53 + q) := zpow_le_zpow_right₀ one_le_two (by omega)
      _ = 9007199254740992 * 2 ^ q := by rw [zpow_add₀ two_ne_zero]; norm_num
  have hle : minExponent < q → 4503599627370496 ≤ (num : ℚ) / den / 2 ^ q := by
    intro hmin
    rw [le_div_iff₀ hpos]
    calc (4503599627370496 : ℚ) * 2 ^ q = 2 ^ (52 + q) := by rw [zpow_add₀ two_ne_zero]; norm_num
      _ = 2 ^ leadingExponent num den := by congr 1; omega
      _ ≤ num / den := hlow
  rw [hr]
  split
  · next hcarry =>
    rw [hcarry] at hnear
    simp only
    split
    · exact .infinite
    · exact .finite (roundsTo_carry (by omega) (by exact_mod_cast hnear.1) hlt)
  · next hcarry =>
    simp only
    split
    · exact .infinite
    · exact .finite (roundsTo_of_near (by omega) hnear hlt hle hcarry)

end Binary64

end TransferLedger
