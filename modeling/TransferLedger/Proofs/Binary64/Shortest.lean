import TransferLedger.Binary64.Shortest
import TransferLedger.Proofs.Binary64.Accuracy

/-! # The shortest digits of a binary number

The digits that stand for a binary number round to it (`shortest_near`), and of all grids on which there are
such digits they lie on the coarsest. Decimals with up to 15 digits lie farther apart than a binary number
reaches, so such a decimal is what the number it rounds to is written as (`shortest_roundsTo`).
-/

namespace TransferLedger
set_option autoImplicit false

namespace DecimalDigits

/-- The number that the digits stand for. -/
def value (d : DecimalDigits) : ℚ := d.digits * 10 ^ d.exponent

theorem stripZeros_value (fuel : ℕ) : ∀ d : DecimalDigits, (d.stripZeros fuel).value = d.value ∧
    d.exponent ≤ (d.stripZeros fuel).exponent := by
  induction fuel with
  | zero => exact fun d => ⟨rfl, le_rfl⟩
  | succ fuel ih =>
    intro d
    rw [stripZeros]
    split
    · next h =>
      obtain ⟨hvalue, hexponent⟩ := ih ⟨d.digits / 10, d.exponent + 1⟩
      refine ⟨?_, (Int.le_add_one le_rfl).trans hexponent⟩
      have hdigits : ((d.digits / 10 : ℕ) : ℚ) * 10 = d.digits := by
        exact_mod_cast Nat.div_mul_cancel (Nat.dvd_of_mod_eq_zero h.2)
      rw [hvalue, value, value, zpow_add_one₀ (by norm_num), ← hdigits]
      ring
    · exact ⟨rfl, le_rfl⟩

end DecimalDigits

namespace Binary64

/-! ## The leading decimal digit -/

theorem toDigits_bounds {n : ℕ} (h : 0 < n) :
    10 ^ ((Nat.toDigits 10 n).length - 1) ≤ n ∧ n < 10 ^ (Nat.toDigits 10 n).length := by
  have hpos : 0 < (Nat.toDigits 10 n).length := List.length_pos_iff.2 Nat.toDigits_ne_nil
  refine ⟨?_, (Nat.length_toDigits_le_iff (by decide) hpos).1 le_rfl⟩
  by_cases hone : (Nat.toDigits 10 n).length - 1 = 0
  · rw [hone]
    exact h
  · by_contra hlt
    have := (Nat.length_toDigits_le_iff (by decide) (Nat.pos_of_ne_zero hone)).2 (not_le.1 hlt)
    omega

/-- A quotient lies between the powers of ten that its digits tell. -/
theorem quotient_bounds {num den : ℕ} (hden : 0 < den) (h : den ≤ num) : ∃ k,
    (Nat.toDigits 10 (num / den)).length = k + 1 ∧ den * 10 ^ k ≤ num ∧ num < den * 10 ^ (k + 1) := by
  obtain ⟨hlow, hhigh⟩ := toDigits_bounds (Nat.div_pos h hden)
  have hpos : 0 < (Nat.toDigits 10 (num / den)).length := List.length_pos_iff.2 Nat.toDigits_ne_nil
  obtain ⟨k, hk⟩ := Nat.exists_eq_add_one.2 hpos
  rw [hk, Nat.add_sub_cancel, Nat.le_div_iff_mul_le hden, Nat.mul_comm] at hlow
  rw [hk, Nat.div_lt_iff_lt_mul hden, Nat.mul_comm] at hhigh
  exact ⟨k, hk, hlow, hhigh⟩

theorem leadingPower_bounds {num den : ℕ} (hnum : 0 < num) (hden : 0 < den) :
    (10 : ℚ) ^ leadingPower num den ≤ num / den ∧ (num : ℚ) / den < 10 ^ (leadingPower num den + 1) := by
  have hnum' : (0 : ℚ) < num := by exact_mod_cast hnum
  have hden' : (0 : ℚ) < den := by exact_mod_cast hden
  unfold leadingPower
  split
  · next hle =>
    obtain ⟨k, hk, hlow, hhigh⟩ := quotient_bounds hden hle
    rw [hk, Int.sub_add_cancel, Int.natCast_succ, Int.add_sub_cancel, ← Int.natCast_succ, zpow_natCast,
      zpow_natCast, le_div_iff₀' hden', div_lt_iff₀' hden']
    constructor
    · exact_mod_cast hlow
    · exact_mod_cast hhigh
  · next hlt =>
    obtain ⟨k, hk, hlow, hhigh⟩ := quotient_bounds hnum (not_le.1 hlt).le
    simp only [hk, Nat.add_sub_cancel, Int.natCast_succ, Int.add_sub_cancel]
    split
    · next heq =>
      have heq : (den : ℚ) = num * 10 ^ k := by
        rw [Nat.pow_eq] at heq
        exact_mod_cast heq
      have hratio : (num : ℚ) / den = (10 ^ k)⁻¹ := by
        rw [heq]
        field_simp
      rw [hratio, zpow_add₀ (by norm_num), zpow_neg, zpow_natCast]
      refine ⟨le_rfl, ?_⟩
      have : (0 : ℚ) < (10 ^ k)⁻¹ := by positivity
      norm_num
    · next hne =>
      have hlow : num * 10 ^ k < den := lt_of_le_of_ne hlow (Ne.symm hne)
      have hlow : (num : ℚ) * 10 ^ k < den := by exact_mod_cast hlow
      have hhigh : (den : ℚ) < num * 10 ^ (k + 1) := by exact_mod_cast hhigh
      rw [show -((k : ℤ) + 1) + 1 = -k by omega, ← Int.natCast_succ, zpow_neg, zpow_neg, zpow_natCast, zpow_natCast,
        le_div_iff₀ hden', div_lt_iff₀ hden', inv_mul_le_iff₀ (by positivity), lt_inv_mul_iff₀ (by positivity),
        mul_comm _ (num : ℚ), mul_comm _ (num : ℚ)]
      exact ⟨hhigh.le, hlow⟩

/-! ## The numbers that round to a binary number -/

/-- The ends of the interval and the number, over one denominator. -/
structure Hood (m : ℕ) (q : ℤ) (low mid high den : ℕ) : Prop where
  den_pos : 0 < den
  low_eq : (low : ℚ) / den = (4 * m - reach m q) * 2 ^ (q - 2)
  mid_eq : (mid : ℚ) / den = m * 2 ^ q
  high_eq : (high : ℚ) / den = (4 * m + 2) * 2 ^ (q - 2)

theorem exists_hood {m : ℕ} (hm : 0 < m) (q : ℤ) : ∃ low mid high den,
    neighbourhood m q = (low, mid, high, den) ∧ Hood m q low mid high den := by
  have hscaled : ∀ n : ℕ, ((n * (if 0 ≤ q - 2 then Nat.pow 2 (q - 2).toNat else 1) : ℕ) : ℚ) /
      (if 0 ≤ q - 2 then 1 else Nat.pow 2 (-(q - 2)).toNat : ℕ) = n * 2 ^ (q - 2) := by
    intro n
    split
    · next h => rw [zpow_of_nonneg 2 h, Nat.cast_mul, Nat.cast_one, div_one]
    · next h => rw [zpow_of_neg 2 h, Nat.mul_one, div_eq_mul_inv]
  refine ⟨_, _, _, _, rfl, ?_, ?_, ?_, ?_⟩
  · split
    · exact one_pos
    · exact two_pow_pos _
  · rw [hscaled, Nat.cast_sub]
    · push_cast [reach]
      rfl
    · split <;> omega
  · rw [hscaled, quarter]
    push_cast
    ring
  · rw [hscaled]
    push_cast
    rfl

theorem near_iff {m : ℕ} {q : ℤ} {x : ℚ} : Near m q x ↔
    if m % 2 = 0 then (4 * m - reach m q) * 2 ^ (q - 2) ≤ x ∧ x ≤ (4 * m + 2) * 2 ^ (q - 2)
    else (4 * m - reach m q) * 2 ^ (q - 2) < x ∧ x < (4 * m + 2) * 2 ^ (q - 2) := by
  split
  · next heven => exact ⟨fun h => ⟨h.low, h.high⟩, fun h => ⟨h.1, h.2, fun hodd => by omega⟩⟩
  · next hodd =>
    have hodd : m % 2 = 1 := by omega
    refine ⟨fun h => ⟨lt_of_le_of_ne h.low (h.odd hodd).1.symm, lt_of_le_of_ne h.high (h.odd hodd).2⟩, ?_⟩
    exact fun h => ⟨h.1.le, h.2.le, fun _ => ⟨h.1.ne', h.2.ne⟩⟩

/-! ## One grid -/

section
variable {m low mid high den : ℕ} {q : ℤ} (k : ℤ)

/-- A unit of the grid, in units of the common denominator enlarged by `up`. -/
theorem grid_unit (hden : 0 < den) :
    ∃ unit up : ℕ, unit = (if 0 ≤ k then den * Nat.pow 10 k.toNat else den) ∧
      up = (if 0 ≤ k then 1 else Nat.pow 10 (-k).toNat) ∧ 0 < unit ∧ 0 < up ∧
      (unit : ℚ) = 10 ^ k * (den * up) := by
  refine ⟨_, _, rfl, rfl, ?_⟩
  split
  · next h =>
    refine ⟨Nat.mul_pos hden (Decimal.pow_pos_nat _), one_pos, ?_⟩
    rw [zpow_of_nonneg 10 h]
    push_cast
    ring
  · next h =>
    have hpos : (0 : ℚ) < (Nat.pow 10 (-k).toNat : ℕ) := by exact_mod_cast Decimal.pow_pos_nat _
    refine ⟨hden, Decimal.pow_pos_nat _, ?_⟩
    rw [zpow_of_neg 10 h]
    field_simp

theorem grid_le_iff {k : ℤ} {unit up : ℕ} (hden : 0 < den) (hup : 0 < up)
    (hunit : (unit : ℚ) = 10 ^ k * (den * up)) (c n : ℕ) :
    ((n : ℚ) / den ≤ c * 10 ^ k ↔ n * up ≤ c * unit) ∧ (c * 10 ^ k ≤ (n : ℚ) / den ↔ c * unit ≤ n * up) := by
  have hden : (0 : ℚ) < den := by exact_mod_cast hden
  have hup : (0 : ℚ) < up := by exact_mod_cast hup
  have hscale : (c * 10 ^ k * den * up : ℚ) = (c * unit : ℕ) := by
    rw [Nat.cast_mul, hunit]
    ring
  rw [div_le_iff₀ hden, le_div_iff₀ hden, ← mul_le_mul_iff_of_pos_right hup,
    ← mul_le_mul_iff_of_pos_right (b := _ * _ * _) hup, hscale]
  constructor
  · exact_mod_cast Iff.rfl
  · exact_mod_cast Iff.rfl

theorem inside_iff {k : ℤ} {unit up : ℕ} (hood : Hood m q low mid high den) (hup : 0 < up)
    (hunit : (unit : ℚ) = 10 ^ k * (den * up)) (c : ℕ) :
    (if m % 2 = 0 then decide (low * up ≤ c * unit) && decide (c * unit ≤ high * up)
      else decide (low * up < c * unit) && decide (c * unit < high * up)) = true ↔
      Near m q (c * 10 ^ k) := by
  obtain ⟨hlow, hlow'⟩ := grid_le_iff hood.den_pos hup hunit c low
  obtain ⟨hhigh, hhigh'⟩ := grid_le_iff hood.den_pos hup hunit c high
  rw [near_iff, ← hood.low_eq, ← hood.high_eq]
  split
  · rw [Bool.and_eq_true, decide_eq_true_eq, decide_eq_true_eq, hlow, hhigh']
  · rw [Bool.and_eq_true, decide_eq_true_eq, decide_eq_true_eq, ← not_le, ← not_le, ← hlow', ← hhigh,
      not_le, not_le]

/-- Of the two neighbours on the grid one is taken if it rounds to the number. -/
theorem onGrid?_spec (hood : Hood m q low mid high den) : ∃ floor : ℕ,
    (floor : ℚ) * 10 ^ k ≤ m * 2 ^ q ∧ (m : ℚ) * 2 ^ q < (floor + 1 : ℕ) * 10 ^ k ∧
    match onGrid? m k (low, mid, high, den) with
    | some d => d.exponent = k ∧ Near m q d.value
    | none => (Near m q (floor * 10 ^ k) → floor = 0) ∧ ¬ Near m q ((floor + 1 : ℕ) * 10 ^ k) := by
  obtain ⟨unit, up, hunit, hup, hunitpos, hpos, hscale⟩ := grid_unit k hood.den_pos
  have hgrid := fun c => grid_le_iff hood.den_pos hpos hscale c mid
  have hdiv := Nat.div_add_mod' (mid * up) unit
  have hmod := Nat.mod_lt (mid * up) hunitpos
  obtain ⟨inside, hdef⟩ : ∃ inside : ℕ → Bool, ∀ c,
      (if m % 2 = 0 then decide (low * up ≤ c * unit) && decide (c * unit ≤ high * up)
        else decide (low * up < c * unit) && decide (c * unit < high * up)) = inside c :=
    ⟨_, fun _ => rfl⟩
  have hinside : ∀ c, inside c = true ↔ Near m q (c * 10 ^ k) := fun c =>
    hdef c ▸ inside_iff hood hpos hscale c
  unfold onGrid?
  simp only [← hunit, ← hup, hdef]
  generalize mid * up / unit = floor at *
  refine ⟨floor, ?_, ?_, ?_⟩
  · rw [← hood.mid_eq, (hgrid floor).2]
    omega
  · rw [← hood.mid_eq, ← not_le, (hgrid (floor + 1)).2, Nat.add_mul]
    omega
  simp only [← hinside]
  cases hlower : inside floor && floor != 0 with
  | false =>
    have hzero : inside floor = true → floor = 0 := by simpa using hlower
    cases hupper : inside (floor + 1) with
    | false => exact ⟨hzero, Bool.false_ne_true⟩
    | true => exact ⟨rfl, (hinside (floor + 1)).1 hupper⟩
  | true =>
    have hnear := (hinside floor).1 (Bool.and_eq_true_iff.1 hlower).1
    cases hupper : inside (floor + 1) with
    | false => exact ⟨rfl, hnear⟩
    | true =>
      have hnear' := (hinside (floor + 1)).1 hupper
      simp only [if_true]
      split_ifs
      · exact ⟨rfl, hnear⟩
      · exact ⟨rfl, hnear'⟩
      · exact ⟨rfl, hnear⟩
      · exact ⟨rfl, hnear'⟩

theorem onGrid?_eq_some {k : ℤ} {d : DecimalDigits} (hood : Hood m q low mid high den)
    (h : onGrid? m k (low, mid, high, den) = some d) : d.exponent = k ∧ Near m q d.value := by
  obtain ⟨_, -, -, hspec⟩ := onGrid?_spec k hood
  rwa [h] at hspec

/-- If any number of the grid rounds to the binary number, one of the two neighbours does. -/
theorem onGrid?_ne_none {k : ℤ} (hood : Hood m q low mid high den) {c : ℕ} (hc : 0 < c)
    (h : Near m q (c * 10 ^ k)) : onGrid? m k (low, mid, high, den) ≠ none := by
  intro hnone
  obtain ⟨floor, hle, hlt, hspec⟩ := onGrid?_spec k hood
  rw [hnone] at hspec
  have hpos : (0 : ℚ) < 10 ^ k := by positivity
  rcases Nat.lt_or_ge floor c with hcase | hcase
  · refine hspec.2 ((Near.self m q).between h hlt.le (mul_le_mul_of_nonneg_right ?_ hpos.le))
    exact_mod_cast hcase
  · have hzero := hspec.1 (h.between (Near.self m q) (mul_le_mul_of_nonneg_right (by exact_mod_cast hcase)
      hpos.le) hle)
    omega

end

/-! ## The search -/

section
variable {m low mid high den : ℕ} {q top : ℤ}

/-- The first grid on which there are numbers that round to the binary number is the one taken. -/
theorem searchGrids_spec (hood : Hood m q low mid high den) {j c : ℕ} (hc : 0 < c)
    (h : Near m q (c * 10 ^ (top - j))) : ∀ {fuel digits : ℕ}, digits ≤ j → j < digits + fuel →
    Near m q (searchGrids m (low, mid, high, den) top fuel digits).value ∧
      top - j ≤ (searchGrids m (low, mid, high, den) top fuel digits).exponent
  | 0, digits, hle, hlt => by omega
  | fuel + 1, digits, hle, hlt => by
    rw [searchGrids]
    split
    · next d hd =>
      obtain ⟨hexponent, hnear⟩ := onGrid?_eq_some hood hd
      exact ⟨hnear, by omega⟩
    · next hnone =>
      have hne : digits ≠ j := by
        rintro rfl
        exact onGrid?_ne_none hood hc h hnone
      exact searchGrids_spec hood hc h (by omega) (by omega)

/-- On the last grid that is searched there always is a number, since a unit of it is smaller than the part of
the interval below the binary number. -/
theorem exists_near (hood : Hood m q low mid high den) (hm : m < 9007199254740992)
    (hle : (10 : ℚ) ^ top ≤ m * 2 ^ q) : ∃ c : ℕ, 0 < c ∧ Near m q (c * 10 ^ (top - 17)) := by
  obtain ⟨floor, hfloor, hnext, -⟩ := onGrid?_spec (top - 17) hood
  have hpos : (0 : ℚ) < 2 ^ q := by positivity
  have hunit : (0 : ℚ) < 10 ^ (top - 17) := by positivity
  have htop : (10 : ℚ) ^ top = 10 ^ 17 * 10 ^ (top - 17) := by
    rw [← zpow_natCast, ← zpow_add₀ (by norm_num)]
    congr 1
    omega
  have hm : (m : ℚ) ≤ 9007199254740992 := by exact_mod_cast hm.le
  have hmax := mul_le_mul_of_nonneg_right hm hpos.le
  rw [htop] at hle
  push_cast at hnext
  refine ⟨floor, ?_, ?_, ?_, ?_⟩
  · have hone : (1 : ℚ) * 10 ^ (top - 17) < (floor + 1) * 10 ^ (top - 17) := by linarith
    have := lt_of_mul_lt_mul_right hone hunit.le
    have : (0 : ℚ) < floor := by linarith
    exact_mod_cast this
  · have hreach := mul_le_mul_of_nonneg_right (reach_bounds m q).1 hpos.le
    rw [quarter]
    linarith
  · rw [quarter]
    linarith
  · have hreach := mul_le_mul_of_nonneg_right (reach_bounds m q).1 hpos.le
    rw [quarter]
    intro _
    constructor
    · intro heq
      linarith
    · intro heq
      linarith

/-- Two numbers of one grid do not both round to the binary number if a unit of the grid is larger than one of
the mantissa. -/
theorem eq_of_near {g : ℤ} {a b : ℕ} (hwide : (2 : ℚ) ^ q < 10 ^ g) (ha : Near m q (a * 10 ^ g))
    (hb : Near m q (b * 10 ^ g)) : a = b := by
  have hpos : (0 : ℚ) < 10 ^ g := by positivity
  have hle : ∀ {a b : ℕ}, Near m q (a * 10 ^ g) → Near m q (b * 10 ^ g) → a ≤ b := by
    intro a b ha hb
    have hsub := (ha.sub_le hb).trans_lt hwide
    rw [← sub_mul, mul_lt_iff_lt_one_left hpos] at hsub
    have : (a : ℚ) < b + 1 := by linarith
    exact Nat.le_of_lt_succ (by exact_mod_cast this)
  exact le_antisymm (hle ha hb) (hle hb ha)

end

section
variable {m : ℕ} {q : ℤ}

theorem shortest_search (hm : 0 < m) (q : ℤ) : ∃ low mid high den top, Hood m q low mid high den ∧
    (10 : ℚ) ^ top ≤ m * 2 ^ q ∧ (m : ℚ) * 2 ^ q < 10 ^ (top + 1) ∧
    shortest m q = (searchGrids m (low, mid, high, den) top 18 0).stripZeros 20 := by
  obtain ⟨low, mid, high, den, heq, hood⟩ := exists_hood hm q
  have hmid : 0 < mid := by
    have hpos : (0 : ℚ) < mid / den := by
      rw [hood.mid_eq]
      positivity
    rcases Nat.eq_zero_or_pos mid with hzero | hpos'
    · rw [hzero, Nat.cast_zero, zero_div] at hpos
      exact absurd hpos (lt_irrefl _)
    · exact hpos'
  obtain ⟨hlow, hhigh⟩ := leadingPower_bounds hmid hood.den_pos
  rw [hood.mid_eq] at hlow hhigh
  refine ⟨low, mid, high, den, _, hood, hlow, hhigh, ?_⟩
  rw [shortest, heq]

/-- The digits stand for a number that rounds to the binary number, and there are at most 18 of them. -/
theorem shortest_near (hm : 0 < m) (hlt : m < 9007199254740992) :
    Near m q (shortest m q).value ∧ (m : ℚ) * 2 ^ q < 10 ^ 18 * 10 ^ (shortest m q).exponent := by
  obtain ⟨low, mid, high, den, top, hood, hlow, hhigh, heq⟩ := shortest_search hm q
  obtain ⟨c, hc, hnear⟩ := exists_near hood hlt hlow
  obtain ⟨hvalue, hexponent⟩ := DecimalDigits.stripZeros_value 20 (searchGrids m (low, mid, high, den) top 18 0)
  obtain ⟨hfound, hgrid⟩ := searchGrids_spec hood hc hnear (Nat.zero_le 17) (by decide : 17 < 0 + 18)
  change top - 17 ≤ _ at hgrid
  rw [heq, hvalue]
  refine ⟨hfound, hhigh.trans_le ?_⟩
  rw [← zpow_natCast, ← zpow_add₀ (by norm_num)]
  exact zpow_le_zpow_right₀ (by norm_num) (by omega)

/-- A decimal of up to 15 digits lies on a grid that is searched, and a unit of that grid is larger than one of
the mantissa of the binary number it rounds to. -/
theorem exists_grid {n : ℕ} {e top : ℤ} (h : RoundsTo (n * 10 ^ e) m q) (hpos : 0 < n) (hn : n < 10 ^ 15)
    (hm : 4503599627370496 ≤ m) (hlow : (10 : ℚ) ^ top ≤ m * 2 ^ q) (hhigh : (m : ℚ) * 2 ^ q < 10 ^ (top + 1)) :
    ∃ j c : ℕ, j < 18 ∧ 0 < c ∧ (n : ℚ) * 10 ^ e = c * 10 ^ (top - j) ∧ (2 : ℚ) ^ q < 10 ^ (top - j) := by
  have hclose := (h.toNear.within hm).le
  have hten : (0 : ℚ) < 10 ^ e := by positivity
  have hdigits : (n : ℚ) * 10 ^ e ≤ 10 ^ 15 * 10 ^ e :=
    mul_le_mul_of_nonneg_right (by exact_mod_cast hn.le) hten.le
  have hunit : 4503599627370496 * 2 ^ q ≤ (m : ℚ) * 2 ^ q :=
    mul_le_mul_of_nonneg_right (by exact_mod_cast hm) (by positivity)
  unfold precision at hclose
  rcases le_or_gt top e with hle | hlt
  · obtain ⟨k, rfl⟩ := Int.le.dest hle
    refine ⟨0, n * 10 ^ k, by decide, by positivity, ?_, ?_⟩
    · rw [zpow_add₀ (by norm_num), zpow_natCast, Nat.cast_zero, sub_zero]
      push_cast
      ring
    · rw [zpow_add_one₀ (by norm_num)] at hhigh
      rw [Nat.cast_zero, sub_zero]
      linarith
  · obtain ⟨k, rfl⟩ := Int.le.dest hlt.le
    have hk : k < 18 := by
      by_contra hmore
      have hpow : (10 : ℚ) ^ (e + 18) ≤ 10 ^ (e + k) := zpow_le_zpow_right₀ (by norm_num) (by omega)
      rw [zpow_add₀ (by norm_num)] at hpow
      norm_num at hpow
      linarith
    refine ⟨k, n, hk, hpos, by rw [Int.add_sub_cancel], ?_⟩
    rw [Int.add_sub_cancel]
    linarith

/-- A decimal of up to 15 digits is what the binary number it rounds to is written as. -/
theorem shortest_roundsTo {n : ℕ} {e : ℤ} (h : RoundsTo (n * 10 ^ e) m q) (hpos : 0 < n)
    (hn : n < 10 ^ 15) (hm : 4503599627370496 ≤ m) : (shortest m q).value = n * 10 ^ e := by
  obtain ⟨low, mid, high, den, top, hood, hlow, hhigh, heq⟩ := shortest_search (q := q) (by omega : 0 < m)
  obtain ⟨hvalue, -⟩ := DecimalDigits.stripZeros_value 20 (searchGrids m (low, mid, high, den) top 18 0)
  obtain ⟨j, c, hj, hc, hdecimal, hwide⟩ := exists_grid h hpos hn hm hlow hhigh
  have hnear := h.toNear
  rw [hdecimal] at hnear ⊢
  obtain ⟨hfound, hgrid⟩ := searchGrids_spec hood hc hnear (Nat.zero_le j) (by omega : j < 0 + 18)
  rw [heq, hvalue]
  generalize searchGrids m (low, mid, high, den) top 18 0 = d at hfound hgrid
  -- What is found lies on that grid too, and the decimal is the only number of it in the interval.
  obtain ⟨k, hk⟩ := Int.le.dest hgrid
  have hd : d.value = (d.digits * 10 ^ k : ℕ) * 10 ^ (top - j) := by
    rw [DecimalDigits.value, ← hk, zpow_add₀ (by norm_num), zpow_natCast]
    push_cast
    ring
  rw [hd] at hfound ⊢
  rw [eq_of_near hwide hfound hnear]

end

end Binary64

end TransferLedger
