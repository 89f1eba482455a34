import TransferLedger.Proofs.Decimal.Value

/-! # Where sums and differences are rounded

A sum or a difference is the exact number wherever a decimal stands for it, and otherwise one that is
off by at most half a unit of its last digit (`Approximates`); whether a number has a decimal at all
depends on its size and its digits together (`Representable`). A sum of numbers that are not negative
is missing exactly where it would round to a mantissa out of range at scale zero (`add?_eq_none_iff`).
-/

namespace TransferLedger.Decimal
set_option autoImplicit false

/-- There is a decimal of this value. -/
def Representable (q : ℚ) : Prop := ∃ x : Decimal, x.value = q

/-- The decimal is the number itself if there is a decimal of it, and otherwise near it. -/
structure Approximates (d : Decimal) (q : ℚ) : Prop where
  exact : Representable q → d.value = q
  close : |d.value - q| * 10 ^ d.scale ≤ 1 / 2

namespace Approximates

variable {d : Decimal} {q : ℚ}

theorem exact_iff (h : d.Approximates q) : d.value = q ↔ Representable q :=
  ⟨fun heq => ⟨d, heq⟩, h.exact⟩

theorem of_eq (h : d.value = q) : d.Approximates q where
  exact := fun _ => h
  close := by
    rw [h, sub_self, abs_zero, zero_mul]
    norm_num

end Approximates

/-- A number with few enough digits in units of `10^-k` has a decimal. -/
theorem representable_of_natAbs_lt {k : ℕ} {u : ℤ} (hk : k ≤ 28) (hu : u.natAbs < bound) :
    Representable (u / 10 ^ k) :=
  ⟨⟨u, k, hu, hk⟩, rfl⟩

theorem representable_of_lt {k : ℕ} {u : ℤ} (hk : k ≤ 28) (h0 : (0 : ℚ) ≤ u / 10 ^ k)
    (hlt : (u : ℚ) / 10 ^ k < bound / 10 ^ k) : Representable (u / 10 ^ k) := by
  have hpos : (0 : ℚ) < 10 ^ k := by positivity
  rw [le_div_iff₀ hpos, zero_mul] at h0
  rw [div_lt_div_iff_of_pos_right hpos] at hlt
  have h0 : 0 ≤ u := by exact_mod_cast h0
  have hlt : u < bound := by exact_mod_cast hlt
  exact representable_of_natAbs_lt hk (by omega)

theorem representable_add {k : ℕ} {a b : Decimal} (hk : k ≤ 28) (ha : a.scale ≤ k)
    (hb : b.scale ≤ k) (h0 : 0 ≤ a.value + b.value) (hlt : a.value + b.value < bound / 10 ^ k) :
    Representable (a.value + b.value) := by
  rw [value_eq_units ha, value_eq_units hb, ← add_div, ← Int.cast_add] at h0 hlt ⊢
  exact representable_of_lt hk h0 hlt

theorem representable_sub {k : ℕ} {a b : Decimal} (hk : k ≤ 28) (ha : a.scale ≤ k)
    (hb : b.scale ≤ k) (h0 : 0 ≤ a.value - b.value) (hlt : a.value - b.value < bound / 10 ^ k) :
    Representable (a.value - b.value) := by
  rw [value_eq_units ha, value_eq_units hb, ← sub_div, ← Int.cast_sub] at h0 hlt ⊢
  exact representable_of_lt hk h0 hlt

theorem value_le (d : Decimal) : d.value ≤ bound - 1 := by
  have hm : d.mantissa ≤ bound - 1 := by
    have := d.mantissa_lt
    unfold bound
    omega
  have hm : (d.mantissa : ℚ) ≤ bound - 1 := by exact_mod_cast hm
  rw [value, div_le_iff₀ (by positivity)]
  have hone : (1 : ℚ) ≤ 10 ^ d.scale := one_le_pow₀ (by norm_num)
  have hbound : (0 : ℚ) ≤ bound - 1 := by norm_num [bound]
  exact hm.trans (le_mul_of_one_le_right hbound hone)

/-! ## Rounding a quotient -/

section
variable {n d : ℕ}

theorem roundHalfEven_mul (q : ℕ) (hd : 0 < d) : roundHalfEven (q * d) d = q := by
  simp [roundHalfEven, Nat.mul_mod_left, Nat.mul_div_cancel q hd, hd]

/-- The quotient is at most half a divisor off. -/
theorem roundHalfEven_close (hd : 0 < d) :
    2 * (roundHalfEven n d * d) ≤ 2 * n + d ∧ 2 * n ≤ 2 * (roundHalfEven n d * d) + d := by
  have hdiv := Nat.div_add_mod' n d
  have hmod := Nat.mod_lt n hd
  unfold roundHalfEven
  simp only
  split
  · omega
  split
  · rw [Nat.add_mul, Nat.one_mul]
    omega
  · rcases Nat.mod_two_eq_zero_or_one (n / d) with h | h
    · rw [h, Nat.add_zero]
      omega
    · rw [h, Nat.add_mul, Nat.one_mul]
      omega

theorem roundHalfEven_tie {q : ℕ} (hd : 0 < d) (h : 2 * n = 2 * (q * d) + d) :
    roundHalfEven n d = q + q % 2 := by
  have hq : n / d = q := by
    apply Nat.div_eq_of_lt_le
    · omega
    · rw [Nat.add_mul, Nat.one_mul]
      omega
  have hdiv := Nat.div_add_mod' n d
  rw [hq] at hdiv
  unfold roundHalfEven
  simp only [hq]
  rw [if_neg (by omega), if_neg (by omega)]

/-- An even quotient is reached from half a divisor below it on. -/
theorem le_roundHalfEven_iff {b : ℕ} (hd : 0 < d) (hb : b % 2 = 0) :
    b ≤ roundHalfEven n d ↔ 2 * (b * d) ≤ 2 * n + d := by
  have hclose := roundHalfEven_close (n := n) hd
  constructor
  · intro h
    have := Nat.mul_le_mul_right d h
    omega
  · intro h
    by_contra hlt
    -- Then `n` is halfway between `b - 1` and `b`, and would not have been rounded to the odd one.
    have hle : (roundHalfEven n d + 1) * d ≤ b * d := Nat.mul_le_mul_right d (by omega)
    have hsucc : (roundHalfEven n d + 1) * d = b * d := by
      rw [Nat.add_mul, Nat.one_mul] at hle ⊢
      omega
    have hodd : roundHalfEven n d + 1 = b := Nat.eq_of_mul_eq_mul_right hd hsucc
    rw [Nat.add_mul, Nat.one_mul] at hsucc
    have := roundHalfEven_tie (n := n) (q := roundHalfEven n d) hd (by omega)
    omega

end

/-! ## Dropping digits -/

theorem pow_pos_nat (k : ℕ) : 0 < Nat.pow 10 k := Nat.pow_pos (by decide)

theorem cast_pow (k : ℕ) : ((Nat.pow 10 k : ℕ) : ℤ) = 10 ^ k := by
  rw [Nat.pow_eq]
  exact Nat.cast_pow 10 k

theorem dropDigits_mul (m : ℤ) (k : ℕ) : dropDigits (m * 10 ^ k) k = m := by
  have hk := ten_pow_pos k
  have habs : (m * 10 ^ k).natAbs = m.natAbs * Nat.pow 10 k := by
    rw [Int.natAbs_mul, Int.natAbs_pow]
    rfl
  unfold dropDigits
  rw [habs, roundHalfEven_mul _ (pow_pos_nat k)]
  by_cases h : m < 0
  · rw [if_pos (Int.mul_neg_of_neg_of_pos h hk)]
    omega
  · rw [if_neg (Int.not_lt.2 (Int.mul_nonneg (by omega) hk.le))]
    omega

theorem dropDigits_close (m : ℤ) (k : ℕ) : 2 * |dropDigits m k * 10 ^ k - m| ≤ 10 ^ k := by
  have hclose := roundHalfEven_close (n := m.natAbs) (pow_pos_nat k)
  zify at hclose
  rw [cast_pow] at hclose
  obtain ⟨hhigh, hlow⟩ := hclose
  have htwo : ∀ x : ℤ, 2 * |x| ≤ 10 ^ k ↔ -10 ^ k ≤ 2 * x ∧ 2 * x ≤ 10 ^ k := by
    intro x
    rw [← abs_le, abs_mul]
    rfl
  rw [htwo]
  unfold dropDigits
  split
  · next h =>
    rw [abs_of_neg h] at hhigh hlow
    constructor <;> linarith
  · next h =>
    rw [abs_of_nonneg (Int.not_lt.1 h)] at hhigh hlow
    constructor <;> linarith

/-! ## The largest scale that fits -/

theorem fit?_close {m : ℤ} {s : ℕ} {d : Decimal} (h : fit? m s s = some d) :
    |d.value - m / 10 ^ s| * 10 ^ d.scale ≤ 1 / 2 := by
  obtain ⟨hs, hm⟩ := fit?_eq_some h
  have hclose : 2 * |(d.mantissa : ℚ) * 10 ^ (s - d.scale) - m| ≤ 10 ^ (s - d.scale) := by
    rw [hm]
    exact_mod_cast dropDigits_close m (s - d.scale)
  have hsplit : (10 : ℚ) ^ s = 10 ^ (s - d.scale) * 10 ^ d.scale := by
    rw [← pow_add, Nat.sub_add_cancel hs]
  have hoff : (d.value - m / 10 ^ s) * 10 ^ d.scale =
      (d.mantissa * 10 ^ (s - d.scale) - m) / 10 ^ (s - d.scale) := by
    rw [value, hsplit]
    field_simp
  have hpos : (0 : ℚ) < 10 ^ (s - d.scale) := by positivity
  calc |d.value - m / 10 ^ s| * 10 ^ d.scale
      = |(d.value - m / 10 ^ s) * 10 ^ d.scale| := by
        rw [abs_mul, abs_of_pos (show (0 : ℚ) < 10 ^ d.scale by positivity)]
    _ = |(d.mantissa : ℚ) * 10 ^ (s - d.scale) - m| / 10 ^ (s - d.scale) := by
        rw [hoff, abs_div, abs_of_pos hpos]
    _ ≤ 1 / 2 := by
        rw [div_le_div_iff₀ hpos (by norm_num)]
        linarith

/-- A number that is exact at some scale is kept at any scale from there on. -/
theorem fit?_of_scale_le (x : Decimal) {s : ℕ} : ∀ {t : ℕ}, x.scale ≤ t → t ≤ s →
    ∃ d, fit? (x.mantissa * 10 ^ (s - x.scale)) s t = some d ∧ d.value = x.value := by
  intro t hx
  induction t, hx using Nat.le_induction with
  | base =>
    intro _
    have hparts : ofParts? (dropDigits (x.mantissa * 10 ^ (s - x.scale)) (s - x.scale)) x.scale =
        some x := by
      rw [dropDigits_mul]
      exact ofParts?_of_lt x.mantissa_lt x.scale_le
    refine ⟨x, ?_, rfl⟩
    generalize x.scale = t at hparts ⊢
    cases t with
    | zero => exact hparts
    | succ t => rw [fit?, hparts]
  | succ t hx ih =>
    intro ht
    obtain ⟨d, hd, hvalue⟩ := ih (by omega)
    rw [fit?]
    split
    · next d' hd' =>
      -- Also at this scale all the digits that are dropped are zeros.
      obtain ⟨hm, hs⟩ := ofParts?_eq_some hd'
      have hsplit : x.mantissa * 10 ^ (s - x.scale) =
          x.units (t + 1) * 10 ^ (s - (t + 1)) := by
        rw [units, Int.mul_assoc, ← Int.pow_add]
        congr 2
        omega
      rw [hsplit, dropDigits_mul] at hm
      refine ⟨d', rfl, ?_⟩
      rw [value_eq_units (d := x) (k := t + 1) (by omega), value, hm, hs]
    · exact ⟨d, hd, hvalue⟩

theorem fit?_of_representable {m : ℤ} {s : ℕ} (hs : s ≤ 28) (h : Representable (m / 10 ^ s)) :
    ∃ d, fit? m s s = some d ∧ d.value = m / 10 ^ s := by
  obtain ⟨x, hx⟩ := h
  rcases Nat.le_total s x.scale with hle | hle
  · -- The mantissa has no more digits than that of `x`.
    have hm : m * 10 ^ (x.scale - s) = x.mantissa := by
      rw [value, div_eq_div_iff (by positivity) (by positivity)] at hx
      have hx : x.mantissa * 10 ^ s = m * 10 ^ x.scale := by exact_mod_cast hx
      rw [ten_pow_split hle, ← Int.mul_assoc] at hx
      exact (Int.eq_of_mul_eq_mul_right (ten_pow_pos s).ne' hx).symm
    exact ⟨_, fit?_self (natAbs_lt_of_units hm x.mantissa_lt) hs, rfl⟩
  · have hm : x.mantissa * 10 ^ (s - x.scale) = m := by
      rw [value_eq_units hle, div_left_inj' (by positivity)] at hx
      exact_mod_cast hx
    obtain ⟨d, hd, hvalue⟩ := fit?_of_scale_le x hle (Nat.le_refl s)
    exact ⟨d, hm ▸ hd, hvalue.trans hx⟩

theorem fit?_approximates {m : ℤ} {s : ℕ} {d : Decimal} (hs : s ≤ 28) (h : fit? m s s = some d) :
    d.Approximates (m / 10 ^ s) where
  exact := by
    intro hrep
    obtain ⟨d', hd', hvalue⟩ := fit?_of_representable hs hrep
    rw [h, Option.some.injEq] at hd'
    rw [hd', hvalue]
  close := fit?_close h

theorem ofParts?_eq_none_iff {m s : ℕ} (hs : s ≤ 28) : ofParts? m s = none ↔ bound ≤ m := by
  unfold ofParts?
  split
  · next h =>
    have := h.1
    unfold bound
    constructor
    · intro hnone
      cases hnone
    · omega
  · next h =>
    unfold bound
    constructor
    · intro _
      by_contra hlt
      exact h ⟨by omega, hs⟩
    · exact fun _ => rfl

/-- If a number that is not negative does not fit at scale zero, it fits at no other scale either. -/
theorem fit?_eq_none_iff {m s : ℕ} (hs : s ≤ 28) : ∀ {t : ℕ}, t ≤ s →
    (fit? m s t = none ↔ 2 * (bound * 10 ^ s) ≤ 2 * m + 10 ^ s)
  | 0, _ => by
    have hdrop : dropDigits m s = (roundHalfEven m (10 ^ s) : ℕ) := rfl
    rw [fit?, hdrop, ofParts?_eq_none_iff (Nat.zero_le 28),
      le_roundHalfEven_iff (Nat.pow_pos (by decide)) (by decide)]
  | t + 1, ht => by
    have ih := fit?_eq_none_iff (m := m) hs (t := t) (by omega)
    have hdrop : dropDigits m (s - (t + 1)) = (roundHalfEven m (10 ^ (s - (t + 1))) : ℕ) := rfl
    rw [fit?]
    split
    · next d hd =>
      constructor
      · intro hnone
        cases hnone
      · intro h
        have hpow : 10 ^ (s - (t + 1)) ≤ 10 ^ s := Nat.pow_le_pow_right (by decide) (by omega)
        have hlarge : 2 * (bound * 10 ^ (s - (t + 1))) ≤ 2 * m + 10 ^ (s - (t + 1)) := by
          have := Nat.mul_le_mul_left (2 * bound - 1) hpow
          unfold bound at *
          omega
        rw [hdrop, (ofParts?_eq_none_iff (by omega)).2] at hd
        · cases hd
        · exact (le_roundHalfEven_iff (Nat.pow_pos (by decide)) (by decide)).2 hlarge
    · exact ih

/-! ## Sums and differences -/

theorem value_eq_zero {d : Decimal} (h : d.mantissa = 0) : d.value = 0 := by
  rw [value, h, Int.cast_zero, zero_div]

section
variable {a b d : Decimal}

theorem scale_max_le (a b : Decimal) : max a.scale b.scale ≤ 28 := Nat.max_le.2 ⟨a.scale_le, b.scale_le⟩

theorem aligned_sum (a b : Decimal) :
    ((a.mantissa * Int.pow 10 (max a.scale b.scale - a.scale) +
      b.mantissa * Int.pow 10 (max a.scale b.scale - b.scale) : ℤ) : ℚ) / 10 ^ max a.scale b.scale =
        a.value + b.value := by
  rw [value_eq_units (Nat.le_max_left a.scale b.scale), value_eq_units (Nat.le_max_right a.scale b.scale),
    ← add_div, ← Int.cast_add]
  rfl

theorem aligned_difference (a b : Decimal) :
    ((a.mantissa * Int.pow 10 (max a.scale b.scale - a.scale) -
      b.mantissa * Int.pow 10 (max a.scale b.scale - b.scale) : ℤ) : ℚ) / 10 ^ max a.scale b.scale =
        a.value - b.value := by
  rw [value_eq_units (Nat.le_max_left a.scale b.scale), value_eq_units (Nat.le_max_right a.scale b.scale),
    ← sub_div, ← Int.cast_sub]
  rfl

theorem add?_approximates (h : a.add? b = some d) : d.Approximates (a.value + b.value) := by
  unfold add? at h
  split at h
  · next h0 =>
    cases h
    exact .of_eq (by rw [value_eq_zero h0, zero_add])
  split at h
  · next h0 =>
    cases h
    exact .of_eq (by rw [value_eq_zero h0, add_zero])
  rw [← aligned_sum]
  exact fit?_approximates (scale_max_le a b) h

theorem sub?_approximates (h : a.sub? b = some d) : d.Approximates (a.value - b.value) := by
  unfold sub? at h
  split at h
  · next h0 =>
    cases h
    exact .of_eq (by rw [neg_value, value_eq_zero h0, zero_sub])
  split at h
  · next h0 =>
    cases h
    exact .of_eq (by rw [value_eq_zero h0, sub_zero])
  rw [← aligned_difference]
  exact fit?_approximates (scale_max_le a b) h

theorem fit?_eq_none_iff_value {m : ℤ} {s : ℕ} (hm : 0 ≤ m) (hs : s ≤ 28) :
    fit? m s s = none ↔ (bound : ℚ) - 1 / 2 ≤ m / 10 ^ s := by
  obtain ⟨n, rfl⟩ := Int.eq_ofNat_of_zero_le hm
  rw [fit?_eq_none_iff hs (Nat.le_refl s), le_div_iff₀ (by positivity), Int.cast_natCast]
  have hcast : (2 * (bound * 10 ^ s) ≤ 2 * n + 10 ^ s) ↔
      (2 * (bound * 10 ^ s) : ℚ) ≤ 2 * n + 10 ^ s := by
    exact_mod_cast Iff.rfl
  rw [hcast]
  constructor
  · intro h
    linarith
  · intro h
    linarith

theorem dropDigits_neg (m : ℤ) (k : ℕ) : dropDigits (-m) k = -dropDigits m k := by
  unfold dropDigits
  rw [Int.natAbs_neg]
  rcases lt_trichotomy m 0 with h | rfl | h
  · rw [if_neg (by omega), if_pos h, Int.neg_neg]
  · have hzero := roundHalfEven_mul 0 (pow_pos_nat k)
    rw [Nat.zero_mul, Nat.pow_eq] at hzero
    simp [hzero]
  · rw [if_pos (by omega), if_neg (by omega)]

theorem ofParts?_neg (m : ℤ) (s : ℕ) : ofParts? (-m) s = (ofParts? m s).map neg := by
  unfold ofParts?
  by_cases h : m.natAbs < 79228162514264337593543950336 ∧ s ≤ 28
  · rw [dif_pos h, dif_pos (by rwa [Int.natAbs_neg])]
    rfl
  · rw [dif_neg h, dif_neg (by rwa [Int.natAbs_neg])]
    rfl

theorem fit?_neg (m : ℤ) (s t : ℕ) : fit? (-m) s t = (fit? m s t).map neg := by
  induction t with
  | zero => rw [fit?, fit?, dropDigits_neg, ofParts?_neg]
  | succ t ih =>
    rw [fit?, fit?, dropDigits_neg, ofParts?_neg]
    cases ofParts? (dropDigits m (s - (t + 1))) (t + 1) with
    | some d => rfl
    | none => exact ih

theorem fit?_eq_none_iff_abs {m : ℤ} {s : ℕ} (hs : s ≤ 28) :
    fit? m s s = none ↔ (bound : ℚ) - 1 / 2 ≤ |(m : ℚ) / 10 ^ s| := by
  have hpow : (0 : ℚ) < 10 ^ s := by positivity
  rcases le_total 0 m with h | h
  · rw [fit?_eq_none_iff_value h hs, abs_of_nonneg (div_nonneg (by exact_mod_cast h) hpow.le)]
  · have hopposite := fit?_eq_none_iff_value (m := -m) (by omega) hs
    rw [fit?_neg, Option.map_eq_none_iff] at hopposite
    rw [hopposite, abs_of_nonpos (div_nonpos_of_nonpos_of_nonneg (by exact_mod_cast h) hpow.le)]
    push_cast
    rw [neg_div]

theorem abs_value_lt (d : Decimal) : |d.value| < bound - 1 / 2 := by
  have hhigh := d.value_le
  have hlow := d.neg.value_le
  rw [neg_value] at hlow
  rw [abs_lt]
  constructor <;> linarith

/-- Sums are missing from half a unit below the bound on, on either side of zero. -/
theorem add?_eq_none_iff_abs : a.add? b = none ↔ (bound : ℚ) - 1 / 2 ≤ |a.value + b.value| := by
  unfold add?
  split
  · next h0 =>
    rw [value_eq_zero h0, zero_add]
    exact iff_of_false nofun (not_le.2 b.abs_value_lt)
  split
  · next h0 =>
    rw [value_eq_zero h0, add_zero]
    exact iff_of_false nofun (not_le.2 a.abs_value_lt)
  rw [← aligned_sum]
  exact fit?_eq_none_iff_abs (scale_max_le a b)

theorem sub?_eq_none_iff_abs : a.sub? b = none ↔ (bound : ℚ) - 1 / 2 ≤ |a.value - b.value| := by
  unfold sub?
  split
  · next h0 =>
    rw [value_eq_zero h0, zero_sub, abs_neg]
    exact iff_of_false nofun (not_le.2 b.abs_value_lt)
  split
  · next h0 =>
    rw [value_eq_zero h0, sub_zero]
    exact iff_of_false nofun (not_le.2 a.abs_value_lt)
  rw [← aligned_difference]
  exact fit?_eq_none_iff_abs (scale_max_le a b)

theorem add?_eq_none_iff (ha : 0 ≤ a.mantissa) (hb : 0 ≤ b.mantissa) :
    a.add? b = none ↔ (bound : ℚ) - 1 / 2 ≤ a.value + b.value := by
  rw [add?_eq_none_iff_abs, abs_of_nonneg (add_nonneg (value_nonneg ha) (value_nonneg hb))]

/-- The sum has a decimal: before it is rounded, it lies more than half a unit below the bound. -/
def SumFits (a b : Decimal) : Prop := a.value + b.value < bound - 1 / 2

theorem add_eq_error_iff (ha : 0 ≤ a.mantissa) (hb : 0 ≤ b.mantissa) {o : Overflow} :
    a.add b = .error o ↔ o = .addition ∧ ¬ a.SumFits b := by
  rw [SumFits, not_lt, ← add?_eq_none_iff ha hb]
  unfold add
  cases a.add? b with
  | some d => exact ⟨nofun, fun h => nomatch h.2⟩
  | none => exact ⟨fun h => ⟨(Except.error.inj h).symm, rfl⟩, fun h => congrArg Except.error h.1.symm⟩

theorem sumFits_of_add (ha : 0 ≤ a.mantissa) (hb : 0 ≤ b.mantissa) (h : a.add b = .ok d) :
    a.SumFits b := by
  by_contra hnot
  have herror := (add_eq_error_iff ha hb).2 ⟨rfl, hnot⟩
  rw [h] at herror
  cases herror

/-- What is left of a number that is not negative is always there. -/
theorem exists_sub? (hb : 0 ≤ b.mantissa) (hba : a.below b = false) : ∃ d, a.sub? b = some d := by
  rw [← Option.ne_none_iff_exists', ne_eq, sub?_eq_none_iff_abs]
  intro hlarge
  rw [← Bool.not_eq_true, below_iff_value, not_lt] at hba
  rw [abs_of_nonneg (sub_nonneg.2 hba)] at hlarge
  linarith [a.value_le, value_nonneg hb]

end

end TransferLedger.Decimal
