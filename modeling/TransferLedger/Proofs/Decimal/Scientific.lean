import Mathlib.Data.List.TakeWhile
import TransferLedger.Proofs.Decimal.Denotation

/-! # Decimal texts with a power of ten

An exponent is applied to what was read before it. Shifting the point keeps every digit, unless digits fall
off at the last place; appending zeros takes room, which there is none of once a reading was rounded. So a
text whose decimal has fewer than 28 fraction digits is read for the number it denotes (`readChars_readFor`):
exactly wherever the digits before the exponent write a number that has a decimal.
-/

namespace TransferLedger.Decimal
set_option autoImplicit false

/-! ## Powers of ten -/

theorem readNat_foldl {cs : List Char} : ∀ {m n : ℕ},
    cs.foldl (fun n? c => n?.bind fun n => (digit? c).map (10 * n + ·)) (some m) = some n →
    n = Nat.ofDigitChars 10 (cs.filter Char.isDigit) m := by
  induction cs with
  | nil =>
    intro m n h
    simpa [eq_comm] using h
  | cons c cs ih =>
    intro m n h
    rw [List.foldl_cons] at h
    cases hd : digit? c with
    | none =>
      have hnone : ∀ ds : List Char, ds.foldl (fun n? c => n?.bind fun n =>
          (digit? c).map (10 * n + ·)) (none : Option ℕ) = none := by
        intro ds
        induction ds with
        | nil => rfl
        | cons _ ds ih => exact ih
      simp [hd, hnone] at h
    | some d =>
      obtain ⟨hc, rfl⟩ := isDigit_of_digit? hd
      rw [List.filter_cons_of_pos hc, Nat.ofDigitChars_cons]
      apply ih
      simpa [hd] using h

theorem readExponent?_eq_some {cs : List Char} {n : ℕ} (h : readExponent? cs = some n) :
    n = Nat.ofDigitChars 10 (cs.filter Char.isDigit) 0 := by
  have hread : ∀ {ds : List Char} {k : ℕ}, readNat? ds = some k →
      k = Nat.ofDigitChars 10 (ds.filter Char.isDigit) 0 := by
    intro ds k hk
    unfold readNat? at hk
    split at hk
    · cases hk
    · exact readNat_foldl hk
  unfold readExponent? at h
  simp only at h
  split at h
  · next k hk =>
    split at h
    · cases h
      split at hk
      · next rest => exact @hread rest _ hk
      · exact hread hk
    · cases h
  · cases h

theorem signed_isNegative {b d : Decimal} {k s : ℕ}
    (h : signed b.isNegative (b.mantissa.natAbs * k) s = .ok d) :
    d.mantissa = b.mantissa * k ∧ d.scale = s := by
  obtain ⟨hm, hs⟩ := signed_eq_ok h
  refine ⟨?_, hs⟩
  rw [hm, isNegative]
  push_cast
  by_cases hneg : b.mantissa < 0
  · rw [if_pos (decide_eq_true hneg), abs_of_neg hneg]
    ring
  · rw [if_neg (by simpa using hneg), abs_of_nonneg (Int.not_lt.1 hneg)]

/-- What a shift to the right leaves below the largest scale has kept its digits. -/
theorem shiftDown_eq_ok {b d : Decimal} {e : ℕ} (h : shiftDown b e = .ok d)
    (hscale : d.scale < maxScale) : d.mantissa = b.mantissa ∧ d.scale = b.scale + e := by
  unfold shiftDown at h
  split at h
  · cases h
  split at h
  · rw [← Nat.mul_one b.mantissa.natAbs] at h
    obtain ⟨hm, hs⟩ := signed_isNegative h
    exact ⟨hm.trans (Int.mul_one _), hs⟩
  · have hs := (signed_eq_ok h).2
    omega

theorem shiftUp_eq_ok {b d : Decimal} {e : ℕ} (h : shiftUp b e = .ok d) :
    (d.mantissa = b.mantissa ∧ d.scale + e = b.scale) ∨
      (b.scale < e ∧ e ≤ maxScale ∧ d.mantissa = b.mantissa * 10 ^ (e - b.scale) ∧ d.scale = 0) := by
  unfold shiftUp at h
  split at h
  · next hle =>
    rw [← Nat.mul_one b.mantissa.natAbs] at h
    obtain ⟨hm, hs⟩ := signed_isNegative h
    exact .inl ⟨hm.trans (Int.mul_one _), by omega⟩
  next hlt =>
  split at h
  · cases h
  · next hle =>
    obtain ⟨hm, hs⟩ := signed_isNegative h
    refine .inr ⟨by omega, by omega, ?_, hs⟩
    rw [hm, cast_pow]

/-! ## Texts -/

theorem Rounding.exact_iff {q : ℚ} {b : Decimal} (h : Rounding q b.mantissa b.scale) :
    (b.mantissa : ℚ) = q * 10 ^ b.scale ↔ Representable q := by
  refine ⟨fun heq => ⟨b, ?_⟩, h.exact⟩
  rw [value, heq]
  exact mul_div_cancel_right₀ q (by positivity)

/-- A decimal that was read for a number: how it is related to the digits `q` before the power of ten. -/
structure ReadFor (d : Decimal) (x q : ℚ) : Prop where
  exact_iff : d.value = x ↔ Representable q
  close : |d.value - x| * 10 ^ d.scale < 1

/-- A power of ten applied to what was read, `f` standing for zeros that are appended. -/
theorem Rounding.shifted {q : ℚ} {b d : Decimal} {k : ℤ} {f : ℕ} (h : Rounding q b.mantissa b.scale)
    (hm : d.mantissa = b.mantissa * f) (hk : (10 : ℚ) ^ k * 10 ^ d.scale = 10 ^ b.scale * f)
    (hf : f = 1 ∨ 0 < f ∧ (b.mantissa : ℚ) = q * 10 ^ b.scale) : d.ReadFor (q * 10 ^ k) q := by
  have hpos : (0 : ℚ) < 10 ^ d.scale := by positivity
  have hf0 : (f : ℚ) ≠ 0 := by
    rcases hf with rfl | ⟨hf, -⟩
    · norm_num
    · positivity
  have hoff : (d.value - q * 10 ^ k) * 10 ^ d.scale = (b.mantissa - q * 10 ^ b.scale) * f := by
    rw [sub_mul, mul_assoc, hk, value, div_mul_cancel₀ _ hpos.ne', hm]
    push_cast
    ring
  constructor
  · rw [← h.exact_iff, ← sub_eq_zero, ← mul_eq_zero_iff_right hpos.ne', hoff,
      mul_eq_zero_iff_right hf0, sub_eq_zero]
  · rw [← abs_of_pos hpos, ← abs_mul, hoff]
    rcases hf with rfl | ⟨-, hexact⟩
    · simpa using h.close
    · rw [hexact, sub_self, zero_mul, abs_zero]
      exact one_pos

theorem shiftDown_readFor {q : ℚ} {b d : Decimal} {e : ℕ} (hb : Rounding q b.mantissa b.scale)
    (h : shiftDown b e = .ok d) (hscale : d.scale < maxScale) :
    d.ReadFor (q * 10 ^ (-e : ℤ)) q := by
  obtain ⟨hm, hs⟩ := shiftDown_eq_ok h hscale
  refine hb.shifted (f := 1) (by simpa using hm) ?_ (.inl rfl)
  rw [hs, zpow_neg, zpow_natCast, pow_add]
  field_simp
  simp

theorem shiftUp_readFor {q : ℚ} {b d : Decimal} {e : ℕ} (hb : Rounding q b.mantissa b.scale)
    (h : shiftUp b e = .ok d) : d.ReadFor (q * 10 ^ (e : ℤ)) q := by
  rcases shiftUp_eq_ok h with ⟨hm, hs⟩ | ⟨hlt, hle, hm, hs⟩
  · refine hb.shifted (f := 1) (by simpa using hm) ?_ (.inl rfl)
    rw [zpow_natCast, ← pow_add, Nat.add_comm, hs]
    simp
  · refine hb.shifted (f := 10 ^ (e - b.scale)) (by simpa using hm) ?_ (.inr ⟨by positivity, ?_⟩)
    · rw [hs, zpow_natCast, pow_zero, mul_one, Nat.cast_pow, Nat.cast_ofNat, ← pow_add]
      congr 1
      omega
    -- A rounded mantissa would not have had room for another zero.
    refine hb.full.resolve_right fun hfull => ?_
    rcases hfull with hlast | hroom
    · omega
    · have hsmall := d.mantissa_lt
      have hten : 10 ^ 1 ≤ 10 ^ (e - b.scale) := Nat.pow_le_pow_right (by decide) (by omega)
      rw [hm, Int.natAbs_mul, Int.natAbs_pow] at hsmall
      have := Nat.mul_le_mul_left b.mantissa.natAbs hten
      unfold bound at hroom
      have hten : (10 : ℤ).natAbs = 10 := rfl
      rw [hten] at hsmall
      omega

theorem exponent_minus (cs : List Char) {e : ℕ} (h : readExponent? cs = some e) :
    exponent ('-' :: cs) = -e := by
  have hfilter : ('-' :: cs).filter Char.isDigit = cs.filter Char.isDigit := rfl
  rw [exponent, hfilter, ← readExponent?_eq_some h]
  rfl

theorem exponent_plus {cs : List Char} (hsign : ∀ rest, cs ≠ '-' :: rest) {e : ℕ}
    (h : readExponent? cs = some e) : exponent cs = e := by
  have hhead : cs.head? ≠ some '-' := by
    intro hhead
    obtain ⟨rest, rfl⟩ := List.head?_eq_some_iff.1 hhead
    exact hsign rest rfl
  rw [exponent, ← readExponent?_eq_some h]
  exact if_neg hhead

theorem readScientific_readFor {cs : List Char} {d : Decimal} (h : readScientific cs = .ok d)
    (hscale : d.scale < maxScale) : d.ReadFor (denoted cs) (significand (beforeMark cs)) := by
  unfold readScientific at h
  obtain ⟨b, hb, h⟩ := bind_eq_ok.1 h
  have hb := (readPlain_rounding hb).1
  rw [denoted, afterMark]
  split at h
  · next rest htail =>
    split at h
    · next e he =>
      rw [htail, exponent_minus rest he]
      exact shiftDown_readFor hb h hscale
    · cases h
  · next hsign =>
    split at h
    · next e he =>
      rw [exponent_plus hsign he]
      exact shiftUp_readFor hb h
    · cases h

theorem readPlain_readFor {cs : List Char} {d : Decimal} (h : readPlain cs = .ok d) :
    d.ReadFor (denoted cs) (significand (beforeMark cs)) := by
  obtain ⟨hd, hunmarked⟩ := readPlain_rounding h
  have hbefore : beforeMark cs = cs := List.takeWhile_eq_self_iff.2 (by simpa using hunmarked)
  have hafter : afterMark cs = [] := by
    rw [afterMark, List.dropWhile_eq_nil_iff.2 (by simpa using hunmarked)]
    rfl
  rw [denoted, hbefore, hafter]
  refine hd.shifted (f := 1) (by simp) ?_ (.inl rfl)
  simp [exponent]

theorem readChars_readFor {cs : List Char} {d : Decimal} (h : readChars cs = .ok d)
    (hscale : d.scale < maxScale) : d.ReadFor (denoted cs) (significand (beforeMark cs)) := by
  unfold readChars at h
  split at h
  · next hplain =>
    cases h
    exact readPlain_readFor hplain
  · split at h
    · exact readScientific_readFor h hscale
    · cases h

/-- Digits that are few enough always write a number that has a decimal. -/
theorem representable_significand {cs : List Char} (h : cs.countP Char.isDigit ≤ 28) :
    Representable (significand cs) := by
  have hlength : fractionLength cs ≤ 28 :=
    (List.dropWhile_sublist _).countP_le.trans h
  have hdigits : Nat.ofDigitChars 10 (cs.filter Char.isDigit) 0 < bound := by
    have hlt := ofDigitChars_lt (cs.filter Char.isDigit) fun c hc => (List.mem_filter.1 hc).2
    rw [← List.countP_eq_length_filter] at hlt
    have hpow := Nat.pow_le_pow_right (show 0 < 10 by decide) h
    unfold bound
    omega
  have hnumeral : Representable (numeral cs) :=
    representable_of_natAbs_lt (u := (Nat.ofDigitChars 10 (cs.filter Char.isDigit) 0 : ℕ)) hlength
      hdigits
  unfold significand
  split
  · exact hnumeral.neg
  · exact hnumeral

end TransferLedger.Decimal
