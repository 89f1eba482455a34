import TransferLedger.Proofs.Binary64.Text
import TransferLedger.Proofs.Json.Float
import TransferLedger.Proofs.Json.Literal
import TransferLedger.Proofs.Service.AcceptedText

/-! # What accepted JSON numbers mean

An amount may come as a JSON number. One that is not an unsigned integer of 64 bits goes through a binary number
and comes back as its shortest digits. So an accepted literal means the number it denotes if it is such an integer
or has up to 15 digits and no great exponent, and otherwise one that is at most a part in `10^15` away
(`Amount.ofJson_literal`): the least integer beyond 64 bits is accepted for another one, while the same digits are
kept as a text (`Amount.sampleWide_lost`).
-/

namespace TransferLedger
set_option autoImplicit false

open Json (Literal Number)

/-! ## Numbers as decimals -/

namespace Decimal

/-- What begins with a minus is not read as a number above zero. -/
theorem readChars_minus {cs : List Char} {d : Decimal} (hcs : ∀ c ∈ cs, isExponentMark c = false)
    (h : readChars ('-' :: cs) = .ok d) : d.mantissa ≤ 0 := by
  rw [readChars_unmarked (List.forall_mem_cons.2 ⟨rfl, hcs⟩)] at h
  exact readPlain_minus h

end Decimal

namespace Json

theorem decimalOfNumber_integer {i : ℤ} {d : Decimal} (h : decimalOfNumber (.integer i) = .ok d) :
    Decimal.readChars (toString i).toList = .ok d := by
  unfold decimalOfNumber at h
  simp only at h
  split at h
  · next hread =>
    cases h
    exact hread
  · cases h

theorem decimalOfNumber_float {x : Binary64} {d : Decimal} (h : decimalOfNumber (.float x) = .ok d) :
    Decimal.readChars x.plainChars = .ok d := by
  unfold decimalOfNumber at h
  simp only at h
  split at h
  · next hread =>
    cases h
    exact hread
  · cases h

theorem unmarked_digits (n : ℕ) : ∀ c ∈ Nat.toDigits 10 n, Decimal.isExponentMark c = false :=
  fun c hc => Decimal.isExponentMark_of_isDigit (toDigits_isDigit n c hc)

/-- An integer above zero is read exactly. -/
theorem integer_of_positive {i : ℤ} {d : Decimal} (h : Decimal.readChars (toString i).toList = .ok d)
    (hpos : 0 < d.mantissa) : ∃ k : ℕ, i = k ∧ d.value = k := by
  rcases lt_or_ge i 0 with hneg | hnonneg
  · obtain ⟨k, rfl⟩ : ∃ k : ℕ, i = -(k : ℤ) := ⟨i.natAbs, by omega⟩
    rw [toList_neg (by omega)] at h
    have := Decimal.readChars_minus (unmarked_digits k) h
    omega
  · obtain ⟨k, rfl⟩ : ∃ k : ℕ, i = (k : ℤ) := ⟨i.natAbs, by omega⟩
    have hchars : Nat.toDigits 10 k = DecimalDigits.positional ⟨k, 0⟩ := by
      simp [DecimalDigits.positional]
    rw [toList_natCast, hchars] at h
    have hread := DecimalDigits.readChars_positional h
    have hvalue : DecimalDigits.value ⟨k, 0⟩ = k := by
      rw [DecimalDigits.value, zpow_zero, mul_one]
    rw [hvalue] at hread
    refine ⟨k, rfl, ?_⟩
    rw [Decimal.value, hread.natural d.mantissa_lt]
    exact mul_div_cancel_right₀ _ (by positivity)

/-- A binary number above zero is finite and not below zero. -/
theorem float_of_positive {x : Binary64} {d : Decimal} (h : Decimal.readChars x.plainChars = .ok d)
    (hpos : 0 < d.mantissa) : ∃ m q, x = .finite false m q ∧ 0 < m ∧
      Decimal.readChars (Binary64.shortest m q).positional = .ok d := by
  cases x with
  | nan => cases h
  | infinite s => cases s <;> cases h
  | finite s m q =>
    cases s with
    | true =>
      have hunmarked : ∀ c ∈ (if m = 0 then ['0'] else (Binary64.shortest m q).positional),
          Decimal.isExponentMark c = false := by
        split
        · exact List.forall_mem_singleton.2 rfl
        · exact DecimalDigits.positional_unmarked _
      have := Decimal.readChars_minus hunmarked h
      omega
    | false =>
      change Decimal.readChars (if m = 0 then ['0'] else (Binary64.shortest m q).positional) = _ at h
      split at h
      · cases h
        exact absurd hpos (by decide)
      · next hm => exact ⟨m, q, rfl, Nat.pos_of_ne_zero hm, h⟩

theorem isNegative_of_neg {x : Binary64} {m : ℕ} {q : ℤ} (h : x.neg = .finite false m q) :
    x.isNegative = true := by
  cases x with
  | nan => cases h
  | infinite s => cases h
  | finite s m q =>
    cases s with
    | false => cases h
    | true => rfl

theorem integerNumber_of_positive {negative : Bool} {n : ℕ} {d : Decimal}
    (h : decimalOfNumber (integerNumber negative n) = .ok d) (hpos : 0 < d.mantissa) :
    negative = false ∧ d.value = n := by
  cases negative with
  | false =>
    obtain ⟨k, hk, hvalue⟩ := integer_of_positive (decimalOfNumber_integer h) hpos
    rw [hvalue, Int.natCast_inj.1 hk]
    exact ⟨rfl, rfl⟩
  | true =>
    exfalso
    simp only [integerNumber, Bool.not_true, Bool.false_eq_true, if_false] at h
    split at h
    · next hword =>
      rw [Bool.and_eq_true, decide_eq_true_eq] at hword
      obtain ⟨k, hk, -⟩ := integer_of_positive (decimalOfNumber_integer h) hpos
      omega
    · obtain ⟨m, q, hneg, -⟩ := float_of_positive (decimalOfNumber_float h) hpos
      have := isNegative_of_neg hneg
      rw [Binary64.ofNat_isNegative] at this
      cases this

end Json

/-! ## Literals -/

namespace Json.Literal

variable {L : Literal}

theorem bytes_eq_cons (L : Literal) : ∃ b bs, L.bytes = b :: bs ∧ (b = 0x2D ∨ isDigit b = true) := by
  obtain ⟨b, ds, hbytes, hds, -, -⟩ := leading_byte L
  rw [bytes, chars]
  cases L.negative with
  | true => exact ⟨0x2D, _, rfl, .inl rfl⟩
  | false =>
    refine ⟨b, ds ++ (Text.encodeAll L.fractionChars ++ Text.encodeAll L.exponentChars), ?_,
      .inr (hds b List.mem_cons_self)⟩
    change Text.encodeAll L.unsignedChars = _
    rw [unsignedChars_eq, hbytes, List.cons_append]

/-- A decimal of a literal is that of a number the literal is read as. -/
theorem readDecimal_eq_ok {d : Decimal} {rest : Bytes} (h : readDecimal L.bytes = .ok (d, rest)) :
    ∃ n, L.Reads n ∧ decimalOfNumber n = .ok d := by
  obtain ⟨b, bs, hbytes, hb⟩ := bytes_eq_cons L
  have hskip : skipSpace (b :: bs) = b :: bs := by
    rcases hb with rfl | hb
    · rfl
    · exact skipSpace_digit bs hb
  have hquote : b ≠ 0x22 := by
    rintro rfl
    rcases hb with hb | hb
    · exact absurd hb (by decide)
    · exact absurd hb (by decide)
  have hnumber : (decide (b = 0x2D) || isDigit b) = true := by
    rcases hb with rfl | hb
    · rfl
    · rw [hb, Bool.or_true]
  rw [hbytes, readDecimal, hskip] at h
  simp only [if_neg hquote, hnumber, if_true] at h
  obtain ⟨⟨n, rest'⟩, hn, h⟩ := bind_eq_ok.1 h
  obtain ⟨d', hd, h⟩ := bind_eq_ok.1 h
  cases h
  rw [← hbytes] at hn
  exact ⟨n, readNumber_eq_ok hn, hd⟩

theorem value_of_nonneg (hneg : L.negative = false) : L.value = L.magnitude := by
  rw [value, hneg]
  rfl

theorem magnitude_nonneg (L : Literal) : 0 ≤ L.magnitude := by
  unfold magnitude
  positivity

end Json.Literal

namespace Amount

variable {L : Literal} {a : Amount}

theorem ofJson_eq_ok (h : ofJson L.bytes = .ok a) : ∃ n, L.Reads n ∧ Json.decimalOfNumber n = .ok a.value := by
  obtain ⟨⟨a', rest⟩, hread, h⟩ := bind_eq_ok.1 h
  obtain ⟨⟨d, rest'⟩, hd, hread⟩ := bind_eq_ok.1 hread
  have ha : a' = a := by
    simp only at h
    split at h
    · exact Except.ok.inj h
    · cases h
  subst ha
  simp only at hread
  split at hread
  · next ha =>
    cases hread
    rw [ofDecimal_eq_ok ha]
    exact Literal.readDecimal_eq_ok hd
  · cases hread

/-- An amount is at least one unit of `10^-8`. -/
theorem value_ge (a : Amount) : 1 / 10 ^ 8 ≤ a.value.value := by
  have hm : (1 : ℚ) ≤ a.value.mantissa := by exact_mod_cast a.positive
  have hs : (10 : ℚ) ^ a.value.scale ≤ 10 ^ 8 := pow_le_pow_right₀ (by norm_num) a.scale_le
  rw [Decimal.value, div_le_div_iff₀ (by positivity) (by positivity)]
  nlinarith

/-- An amount is made of the shortest digits of a binary number that was computed in one step. -/
theorem exists_computed {negative : Bool} {s : ℕ} {k : ℤ} {n : Number} (hs : s ≤ Json.maxWord)
    (h : Json.signedFloat negative s k = .ok n) (hdecimal : Json.decimalOfNumber n = .ok a.value) :
    negative = false ∧ ∃ m q, a.value.value = (Binary64.shortest m q).value ∧
      Binary64.Near m q a.value.value ∧ Json.Computed s k m q ∧ 1 / 10 ^ 60 < (m : ℚ) * 2 ^ q := by
  obtain ⟨x, hx, h⟩ := bind_eq_ok.1 h
  cases h
  obtain ⟨m, q, hfinite, hm, hread⟩ :=
    Json.float_of_positive (Json.decimalOfNumber_float hdecimal) a.positive
  cases negative with
  | true =>
    -- The sign of what was computed is plus, and was turned over.
    exfalso
    have hsign := Json.isNegative_of_neg hfinite
    cases x with
    | nan => cases hsign
    | infinite t => cases hfinite
    | finite t m' q' =>
      obtain ⟨rfl, -⟩ := Json.floatOfParts_eq_finite hs hx
      cases hsign
  | false =>
    have hfinite : x = .finite false m q := hfinite
    subst hfinite
    obtain ⟨-, hlt, hcomputed⟩ := Json.floatOfParts_eq_finite hs hx
    have hvalue := Binary64.value_of_shortest hm hlt hread a.positive a.scale_le
    have hnear := (Binary64.shortest_near (q := q) hm hlt).1
    rw [← hvalue] at hnear
    have hlarge : 1 / 10 ^ 60 < (m : ℚ) * 2 ^ q := by
      have hunit : (1 : ℚ) * 2 ^ q ≤ m * 2 ^ q :=
        mul_le_mul_of_nonneg_right (by exact_mod_cast hm) (by positivity)
      have hclose := (abs_le.1 hnear.close).2
      have hleast := a.value_ge
      linarith
    exact ⟨rfl, m, q, hvalue, hnear, hcomputed.resolve_left (not_le.2 hlarge), hlarge⟩

theorem within_of_taken {s : ℕ} {k : ℤ} {m : ℕ} {q : ℤ} (htaken : Json.Taken L.whole L.fraction s k)
    (h : Json.Computed s (k + L.power) m q) (hlarge : 1 / 10 ^ 60 < (m : ℚ) * 2 ^ q)
    (hnear : Binary64.Near m q a.value.value) : |a.value.value - L.magnitude| ≤ 1 / 10 ^ 15 * L.magnitude := by
  have hdigits := htaken.within.mul_right (by positivity) (by positivity)
    (show (0 : ℚ) ≤ 10 ^ L.power by positivity)
  have hmagnitude : ((Nat.ofDigitChars 10 (L.whole ++ L.fraction) 0 : ℕ) : ℚ) * 10 ^ (-(L.fraction.length : ℤ)) *
      10 ^ L.power = L.magnitude := by
    rw [mul_assoc, ← zpow_add₀ (by norm_num), ← sub_eq_neg_add]
    rfl
  rw [hmagnitude, mul_assoc, ← zpow_add₀ (by norm_num)] at hdigits
  have hwritten := (hnear.within (h.full hlarge)).symm
  have hprecision := Binary64.precision_nonneg
  have hproduct := mul_nonneg hprecision (mul_nonneg hprecision hprecision)
  have htotal := (hwritten.trans hprecision hproduct (h.within hlarge)).trans (mul_nonneg hprecision hproduct)
    (by norm_num) hdigits
  refine htotal.abs_sub_le (by norm_num) ?_ L.magnitude_nonneg ?_
  · exact le_trans (by norm_num) a.value_ge
  · unfold Binary64.precision
    norm_num

/-- The last digit of a short literal stands for no smaller power of ten than is a binary number's reciprocal, or
the amount would be below the least one. -/
theorem lastPower_ge (hdigits : L.digits < 10 ^ 15)
    (hclose : |a.value.value - L.magnitude| ≤ 1 / 10 ^ 15 * L.magnitude) : -22 ≤ L.lastPower := by
  by_contra hlow
  have hpower : (10 : ℚ) ^ L.lastPower ≤ 10 ^ (-23 : ℤ) := zpow_le_zpow_right₀ (by norm_num) (by omega)
  have hmax : (L.digits : ℚ) ≤ 10 ^ 15 - 1 := by
    have : (L.digits : ℚ) + 1 ≤ 10 ^ 15 := by exact_mod_cast hdigits
    linarith
  have hmagnitude : L.magnitude ≤ (10 ^ 15 - 1) * 10 ^ (-23 : ℤ) :=
    mul_le_mul hmax hpower (by positivity) (by norm_num)
  have hhigh := (abs_le.1 hclose).2
  have hleast := a.value_ge
  norm_num at hmagnitude hhigh hleast
  linarith

theorem value_of_short {s : ℕ} {k : ℤ} {m : ℕ} {q : ℤ} (hdigits : L.digits < 10 ^ 15) (hlow : -22 ≤ L.lastPower)
    (hhigh : L.lastPower ≤ 22) (htaken : Json.Taken L.whole L.fraction s k)
    (h : Json.Computed s (k + L.power) m q) (hlarge : 1 / 10 ^ 60 < (m : ℚ) * 2 ^ q) :
    (Binary64.shortest m q).value = L.magnitude := by
  obtain ⟨rfl, rfl⟩ := htaken.exact (hdigits.le.trans (by decide))
  have hpower : -(L.fraction.length : ℤ) + L.power = L.lastPower := by
    rw [Literal.lastPower, sub_eq_neg_add]
  rw [hpower] at h
  have hone := h.significand_pos (lt_trans (by norm_num) hlarge)
  have hround := h.roundsTo (hdigits.trans (by decide)) hlow hhigh
  exact Binary64.shortest_roundsTo hround (by exact_mod_cast hone) hdigits (h.full hlarge)

/-- An accepted literal means the number it denotes if it is an integer of 64 bits or short, and otherwise one that
is at most a part in `10^15` away. -/
theorem ofJson_literal (h : ofJson L.bytes = .ok a) :
    (L.IsWord ∨ L.IsShort → a.value.value = L.value) ∧ |a.value.value - L.value| * 10 ^ 15 ≤ L.value := by
  obtain ⟨n, hreads, hdecimal⟩ := ofJson_eq_ok h
  cases hreads with
  | integer hfraction hexponent hfits =>
    obtain ⟨hneg, hvalue⟩ := Json.integerNumber_of_positive hdecimal a.positive
    have hlast : L.lastPower = 0 := by
      rw [Literal.lastPower, Literal.power, hexponent, hfraction]
      rfl
    have heq : a.value.value = L.value := by
      rw [Literal.value_of_nonneg hneg, Literal.magnitude, hlast, zpow_zero, mul_one, hvalue]
    rw [heq, sub_self, abs_zero, zero_mul, Literal.value_of_nonneg hneg]
    exact ⟨fun _ => rfl, L.magnitude_nonneg⟩
  | float htaken hword hfloat =>
    obtain ⟨hneg, m, q, hvalue, hnear, hcomputed, hlarge⟩ := exists_computed htaken.fits hfloat hdecimal
    have hclose := within_of_taken htaken hcomputed hlarge hnear
    rw [Literal.value_of_nonneg hneg]
    refine ⟨fun hexact => ?_, by linarith⟩
    obtain ⟨hdigits, hhigh⟩ := hexact.resolve_left hword
    rw [hvalue]
    exact value_of_short hdigits (lastPower_ge hdigits hclose) hhigh htaken hcomputed hlarge
  | zero =>
    obtain ⟨m, q, hzero, hm, -⟩ := Json.float_of_positive (Json.decimalOfNumber_float hdecimal) a.positive
    obtain ⟨-, rfl, -⟩ := Binary64.finite.inj hzero
    exact absurd hm (lt_irrefl 0)

/-- `12.50e-1` -/
def sampleShort : Literal where
  negative := false
  whole := ['1', '2']
  fraction := ['5', '0']
  exponent := some ⟨false, .minus, ['1'], by decide, List.all_eq_true.1 rfl⟩
  whole_ne_nil := by decide
  isDigit_whole := List.all_eq_true.1 rfl
  leading := by decide
  isDigit_fraction := List.all_eq_true.1 rfl

theorem sampleShort_kept : ofJson sampleShort.bytes = .ok ⟨⟨125, 2, by decide, by decide⟩, by decide, by decide⟩ ∧
    Decimal.value ⟨125, 2, by decide, by decide⟩ = sampleShort.value := by
  have hread : ofJson sampleShort.bytes =
      .ok ⟨⟨125, 2, by decide, by decide⟩, by decide, by decide⟩ := by decide +kernel
  have hshort : sampleShort.IsShort := ⟨by decide +kernel, by decide +kernel⟩
  exact ⟨hread, (ofJson_literal hread).1 (.inr hshort)⟩

/-! ## A literal that is too long -/

/-- The least whole number that does not fit into 64 bits. -/
def sampleWide : Literal where
  negative := false
  whole := "18446744073709551616".toList
  fraction := []
  exponent := none
  whole_ne_nil := by decide
  isDigit_whole := List.all_eq_true.1 rfl
  leading := by decide
  isDigit_fraction := List.all_eq_true.1 rfl

theorem sampleWide_lost : ∃ a b, ofJson sampleWide.bytes = .ok a ∧ a.value.value ≠ sampleWide.value ∧
    read (String.ofList sampleWide.chars) = .ok b ∧ b.value.value = sampleWide.value := by
  have hread : ofJson sampleWide.bytes =
      .ok ⟨⟨18446744073709552000, 0, by decide, by decide⟩, by decide, by decide⟩ := by decide +kernel
  have htext : read (String.ofList sampleWide.chars) =
      .ok ⟨⟨18446744073709551616, 0, by decide, by decide⟩, by decide, by decide⟩ := by decide +kernel
  have hdigits : sampleWide.digits = 18446744073709551616 := by decide +kernel
  have hvalue : sampleWide.value = 18446744073709551616 := by
    rw [Literal.value_of_nonneg rfl, Literal.magnitude, hdigits]
    simp [Literal.lastPower, Literal.power, sampleWide]
  refine ⟨_, _, hread, ?_, htext, ?_⟩
  · rw [hvalue, Decimal.value]
    norm_num
  · rw [hvalue, Decimal.value]
    norm_num

end Amount

end TransferLedger
