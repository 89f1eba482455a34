import Mathlib.Data.List.TakeWhile
import TransferLedger.Binary64.Text
import TransferLedger.Proofs.Binary64.Shortest
import TransferLedger.Proofs.Decimal.Denotation

/-! # Positional notation and the decimals read from it

Positional notation writes the number that the digits stand for, whatever their exponent
(`DecimalDigits.numeral_positional`), so a decimal is read from a binary number by rounding its shortest digits.
With few fraction digits left nothing was rounded: there are at most 18 digits, and a mantissa that they fill
belongs to a whole number (`value_of_shortest`).
-/

namespace TransferLedger
set_option autoImplicit false

namespace Decimal

/-! ## Digits and a point -/

section
variable {ws fs : List Char}

theorem point_ne_of_isDigit (hws : ∀ c ∈ ws, c.isDigit = true) : ∀ c ∈ ws, (c != '.') = true := by
  intro c hc
  rw [bne_iff_ne]
  rintro rfl
  exact absurd (hws _ hc) (by decide)

theorem filter_digits (hws : ∀ c ∈ ws, c.isDigit = true) : ws.filter Char.isDigit = ws :=
  List.filter_eq_self.2 hws

theorem numeral_digits (hws : ∀ c ∈ ws, c.isDigit = true) :
    numeral ws = (Nat.ofDigitChars 10 ws 0 : ℕ) := by
  rw [numeral, filter_digits hws, fractionLength, List.dropWhile_eq_nil_iff.2 (point_ne_of_isDigit hws)]
  simp

theorem numeral_point (hws : ∀ c ∈ ws, c.isDigit = true) (hfs : ∀ c ∈ fs, c.isDigit = true) :
    numeral (ws ++ '.' :: fs) = (Nat.ofDigitChars 10 (ws ++ fs) 0 : ℕ) / 10 ^ fs.length := by
  have hfraction : fractionLength (ws ++ '.' :: fs) = fs.length := by
    rw [fractionLength, List.dropWhile_append_of_pos (point_ne_of_isDigit hws)]
    change fractionLength ('.' :: fs) = _
    rw [fractionLength_point, List.countP_eq_length.2 hfs]
  have hdigits : (ws ++ '.' :: fs).filter Char.isDigit = ws ++ fs := by
    rw [List.filter_append, filter_digits hws, List.filter_cons_of_neg (by decide), filter_digits hfs]
  rw [numeral, hdigits, hfraction]

end

theorem readChars_unmarked {cs : List Char} (h : ∀ c ∈ cs, isExponentMark c = false) :
    readChars cs = readPlain cs := by
  have hany : cs.any isExponentMark = false := by
    rw [List.any_eq_false]
    exact fun c hc => by rw [h c hc]; decide
  unfold readChars
  cases readPlain cs with
  | ok d => rfl
  | error e => simp [hany]

/-- What follows a minus is not read as a number above zero. -/
theorem readPlain_minus {cs : List Char} {d : Decimal} (h : readPlain ('-' :: cs) = .ok d) :
    d.mantissa ≤ 0 := by
  obtain ⟨⟨m, s⟩, -, h⟩ := bind_eq_ok.1 h
  rw [(signed_eq_ok h).1]
  simp

end Decimal

namespace DecimalDigits

theorem isDigit_replicate (k : ℕ) : ∀ c ∈ List.replicate k '0', c.isDigit = true := by
  intro c hc
  rw [List.eq_of_mem_replicate hc]
  rfl

/-- Positional notation is made of digits, with a point between them or none. -/
theorem positional_cases (d : DecimalDigits) :
    ∃ ws fs : List Char, (∀ c ∈ ws, c.isDigit = true) ∧ (∀ c ∈ fs, c.isDigit = true) ∧
      (d.positional = ws ∧ d.value = (Nat.ofDigitChars 10 ws 0 : ℕ) ∨
        d.positional = ws ++ '.' :: fs ∧ d.value = (Nat.ofDigitChars 10 (ws ++ fs) 0 : ℕ) / 10 ^ fs.length) := by
  have hds : ∀ c ∈ Nat.toDigits 10 d.digits, c.isDigit = true := fun c hc =>
    Nat.isDigit_of_mem_toDigits (by decide) (by decide) hc
  have hvalue : Nat.ofDigitChars 10 (Nat.toDigits 10 d.digits) 0 = d.digits := Nat.ofDigitChars_ten_toDigits
  unfold positional value
  simp only
  generalize Nat.toDigits 10 d.digits = ds at *
  split
  · next h =>
    refine ⟨_, [], List.forall_mem_append.2 ⟨hds, isDigit_replicate _⟩, nofun, .inl ⟨rfl, ?_⟩⟩
    rw [Nat.ofDigitChars_append, hvalue, Nat.ofDigitChars_replicate_zero, zpow_of_nonneg 10 h, Nat.mul_comm,
      Nat.cast_mul]
    rfl
  next h =>
  rw [zpow_of_neg 10 h, ← div_eq_mul_inv, Nat.pow_eq, Nat.cast_pow, Nat.cast_ofNat]
  generalize (-d.exponent).toNat = k
  split
  · next hlt =>
    refine ⟨_, _, fun c hc => hds c (List.mem_of_mem_take hc), fun c hc => hds c (List.mem_of_mem_drop hc),
      .inr ⟨rfl, ?_⟩⟩
    rw [List.take_append_drop, hvalue, List.length_drop, Nat.sub_sub_self hlt.le]
  · next hge =>
    refine ⟨['0'], List.replicate (k - ds.length) '0' ++ ds, List.forall_mem_singleton.2 rfl,
      List.forall_mem_append.2 ⟨isDigit_replicate _, hds⟩, .inr ⟨by simp, ?_⟩⟩
    have hzeros : Nat.ofDigitChars 10 (['0'] ++ (List.replicate (k - ds.length) '0' ++ ds)) 0 = d.digits := by
      rw [Nat.ofDigitChars_append, Nat.ofDigitChars_append, Nat.ofDigitChars_replicate_zero,
        show Nat.ofDigitChars 10 ['0'] 0 = 0 from rfl, Nat.mul_zero, hvalue]
    rw [hzeros, List.length_append, List.length_replicate, Nat.sub_add_cancel (not_lt.1 hge)]

theorem positional_chars (d : DecimalDigits) : ∀ c ∈ d.positional, c.isDigit = true ∨ c = '.' := by
  obtain ⟨ws, fs, hws, hfs, ⟨heq, -⟩ | ⟨heq, -⟩⟩ := d.positional_cases
  · exact fun c hc => .inl (hws c (heq ▸ hc))
  · intro c hc
    rw [heq, List.mem_append, List.mem_cons] at hc
    rcases hc with hc | rfl | hc
    · exact .inl (hws c hc)
    · exact .inr rfl
    · exact .inl (hfs c hc)

theorem positional_unmarked (d : DecimalDigits) :
    ∀ c ∈ d.positional, Decimal.isExponentMark c = false := by
  intro c hc
  rcases d.positional_chars c hc with hdigit | rfl
  · exact Decimal.isExponentMark_of_isDigit hdigit
  · rfl

/-- Positional notation writes the number that the digits stand for. -/
theorem significand_positional (d : DecimalDigits) : Decimal.significand d.positional = d.value := by
  have hsign : d.positional.head? ≠ some '-' := by
    intro hhead
    rcases d.positional_chars '-' (List.mem_of_head? hhead) with h | h
    · exact absurd h (by decide)
    · exact absurd h (by decide)
  rw [Decimal.significand, if_neg hsign]
  obtain ⟨ws, fs, hws, hfs, ⟨heq, hvalue⟩ | ⟨heq, hvalue⟩⟩ := d.positional_cases
  · rw [heq, hvalue, Decimal.numeral_digits hws]
  · rw [heq, hvalue, Decimal.numeral_point hws hfs]

theorem readChars_positional {d : DecimalDigits} {x : Decimal} (h : Decimal.readChars d.positional = .ok x) :
    Decimal.Rounding d.value x.mantissa x.scale := by
  rw [Decimal.readChars_unmarked d.positional_unmarked] at h
  rw [← significand_positional]
  exact (Decimal.readPlain_rounding h).1

end DecimalDigits

namespace Decimal

/-- A whole number is read exactly if it is read at all. -/
theorem Rounding.natural {n : ℕ} {m : ℤ} {s : ℕ} (h : Rounding n m s) (hm : m.natAbs < bound) :
    (m : ℚ) = n * 10 ^ s := by
  apply h.exact
  have hclose := abs_lt.1 h.close
  have hm : (m : ℚ) + 1 ≤ bound := by
    have : m + 1 ≤ bound := by omega
    exact_mod_cast this
  have hle : (n : ℚ) ≤ n * 10 ^ s := le_mul_of_one_le_right (by positivity) (one_le_pow₀ (by norm_num))
  have hlt : (n : ℚ) < bound := by linarith
  have hlt : n < bound := by exact_mod_cast hlt
  exact ⟨⟨n, 0, hlt, Nat.zero_le _⟩, by simp [value]⟩

end Decimal

namespace Binary64

/-- A number too large for 18 digits to reach behind the point is whole. -/
theorem shortest_whole {m : ℕ} {q : ℤ} (hm : 0 < m) (hlt : m < 9007199254740992)
    (hlarge : 10 ^ 19 < (shortest m q).value) : 0 ≤ (shortest m q).exponent := by
  obtain ⟨hnear, hdigits⟩ := shortest_near (q := q) hm hlt
  have hunit : (1 : ℚ) * 2 ^ q ≤ m * 2 ^ q := mul_le_mul_of_nonneg_right (by exact_mod_cast hm) (by positivity)
  have hoff := (abs_le.1 hnear.close).2
  have hone : (1 : ℚ) < 10 ^ (shortest m q).exponent := by linarith
  by_contra hneg
  have := zpow_le_one_of_nonpos₀ (a := (10 : ℚ)) (by norm_num) (not_le.1 hneg).le
  linarith

/-- With up to eight fraction digits left, none of the shortest digits were rounded away. -/
theorem value_of_shortest {m : ℕ} {q : ℤ} {x : Decimal} (hm : 0 < m) (hlt : m < 9007199254740992)
    (h : Decimal.readChars (shortest m q).positional = .ok x) (hpos : 0 < x.mantissa) (hscale : x.scale ≤ 8) :
    x.value = (shortest m q).value := by
  have hread := DecimalDigits.readChars_positional h
  have hexact : (x.mantissa : ℚ) = (shortest m q).value * 10 ^ x.scale := by
    rcases hread.full with hexact | hlast | hfull
    · exact hexact
    · rw [hlast, Decimal.maxScale] at hscale
      omega
    -- A mantissa that is full belongs to a large number, and all its digits stand before the point.
    have hclose := abs_lt.1 hread.close
    have hlarge : (7922816251426433759354395033 : ℚ) ≤ x.mantissa := by
      have : (7922816251426433759354395033 : ℤ) ≤ x.mantissa := by
        unfold Decimal.bound at hfull
        omega
      exact_mod_cast this
    have hpow : (10 : ℚ) ^ x.scale ≤ 10 ^ 8 := pow_le_pow_right₀ (by norm_num) hscale
    have hvalue : (10 : ℚ) ^ 19 < (shortest m q).value := by
      by_contra hsmall
      have := mul_le_mul (not_lt.1 hsmall) hpow (by positivity) (by positivity)
      norm_num at this
      linarith
    have hnatural : (shortest m q).value =
        ((shortest m q).digits * Nat.pow 10 (shortest m q).exponent.toNat : ℕ) := by
      rw [DecimalDigits.value, zpow_of_nonneg 10 (shortest_whole hm hlt hvalue), Nat.cast_mul]
    rw [hnatural] at hread ⊢
    exact hread.natural x.mantissa_lt
  rw [Decimal.value, hexact]
  exact mul_div_cancel_right₀ _ (by positivity)

end Binary64

end TransferLedger
