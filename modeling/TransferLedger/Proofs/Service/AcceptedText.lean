import TransferLedger.Proofs.Decimal.Scientific
import TransferLedger.Service.Accounts

/-! # What accepted texts mean

Amounts and opening balances come as texts. A text that is accepted means the number it denotes if the
digits before its exponent write a number that has a decimal, as 28 digits or fewer always do; then it also
denotes a whole number of units of `10^-8` (`AcceptedText.denotes`). Longer texts may be rounded while they
are read, and what is examined afterwards is the scale that the rounding has left: such a text is accepted
for a number it does not denote (`sampleLong_rounded`).
-/

namespace TransferLedger
set_option autoImplicit false

/-- A text that was accepted for a decimal: as an amount, or as the opening balance of a new account. -/
inductive AcceptedText (text : String) (d : Decimal) : Prop
  | amount {a : Amount} (h : Amount.read text = .ok a) (hd : a.value = d)
  | opening {e : Engine} {now : Instant} {newId : String} {r : OpenAccount} {b b' : Bank} {a : Account}
    (h : Accounts.create e now newId r b = (.ok a, b')) (htext : r.balance = text)
    (hblank : Text.trim text ≠ "") (hd : a.balance = d)

/-- The number that a text denotes, white space around it aside. -/
def numberOf (text : String) : ℚ := Decimal.denoted (Text.trim text).toList

/-- What a text writes before its exponent. -/
def numeralOf (text : String) : List Char := Decimal.beforeMark (Text.trim text).toList

theorem Amount.ofDecimal_eq_ok {d : Decimal} {a : Amount} (h : ofDecimal d = .ok a) : a.value = d := by
  unfold ofDecimal at h
  split at h
  · split at h
    · cases h
      rfl
    · cases h
  · cases h

theorem Amount.read_eq_ok {text : String} {a : Amount} (h : Amount.read text = .ok a) :
    Decimal.read (Text.trim text) = .ok a.value := by
  unfold Amount.read at h
  split at h
  · next d hd => rw [hd, ofDecimal_eq_ok h]
  · cases h

theorem Accounts.readOpeningBalance_read {text : String} {d : Decimal}
    (h : readOpeningBalance text = .ok d) (hblank : Text.trim text ≠ "") :
    Decimal.read (Text.trim text) = .ok d ∧ d.scale ≤ 8 := by
  unfold readOpeningBalance at h
  simp only [if_neg hblank] at h
  split at h
  · cases h
  next d' hd' =>
  split at h
  · cases h
  next hrange =>
  cases h
  rw [Bool.or_eq_true, decide_eq_true_eq, not_or, Nat.not_lt] at hrange
  exact ⟨hd', hrange.2⟩

theorem Accounts.create_balance {e : Engine} {now : Instant} {newId : String} {r : OpenAccount}
    {b b' : Bank} {a : Account} (h : create e now newId r b = (.ok a, b')) :
    readOpeningBalance r.balance = .ok a.balance := by
  unfold create at h
  split at h
  · cases h
  next a' ha =>
  have hbalance : readOpeningBalance r.balance = .ok a'.balance := by
    unfold ofRequest at ha
    simp only at ha
    split at ha
    · cases ha
    split at ha
    · cases ha
    obtain ⟨d, hd, ha⟩ := bind_eq_ok.1 ha
    cases ha
    exact hd
  split at h
  · cases h
    exact hbalance
  · cases h

namespace AcceptedText

variable {text : String} {d : Decimal}

theorem read (h : AcceptedText text d) : Decimal.read (Text.trim text) = .ok d ∧ d.scale ≤ 8 := by
  cases h with
  | @amount a h hd =>
    subst hd
    exact ⟨Amount.read_eq_ok h, a.scale_le⟩
  | opening h htext hblank hd =>
    subst htext hd
    exact Accounts.readOpeningBalance_read (Accounts.create_balance h) hblank

theorem denotes (h : AcceptedText text d) :
    (d.value = numberOf text ↔ Decimal.Representable (Decimal.significand (numeralOf text))) ∧
    |d.value - numberOf text| * 10 ^ d.scale < 1 ∧
    (Decimal.Representable (Decimal.significand (numeralOf text)) →
      ∃ n : ℤ, numberOf text * 10 ^ 8 = n) ∧
    ((numeralOf text).countP Char.isDigit ≤ 28 → d.value = numberOf text) := by
  obtain ⟨hread, hscale⟩ := h.read
  have hd : d.ReadFor (numberOf text) (Decimal.significand (numeralOf text)) :=
    Decimal.readChars_readFor hread (Nat.lt_of_le_of_lt hscale (by decide))
  refine ⟨hd.exact_iff, hd.close, ?_, ?_⟩
  · intro hrep
    refine ⟨d.units 8, ?_⟩
    rw [← hd.exact_iff.2 hrep, Decimal.value_eq_units hscale]
    exact div_mul_cancel₀ _ (by positivity)
  · intro hdigits
    exact hd.exact_iff.2 (Decimal.representable_significand hdigits)

end AcceptedText

theorem sample_accepted_text : AcceptedText " +1_0.50e-1 " ⟨1050, 3, by decide, by decide⟩ ∧
    Decimal.value ⟨1050, 3, by decide, by decide⟩ = numberOf " +1_0.50e-1 " := by
  have hread : Amount.read " +1_0.50e-1 " =
      .ok ⟨⟨1050, 3, by decide, by decide⟩, by decide, by decide⟩ := by decide +kernel
  have haccepted : AcceptedText " +1_0.50e-1 " ⟨1050, 3, by decide, by decide⟩ := .amount hread rfl
  exact ⟨haccepted, haccepted.denotes.2.2.2 (by decide +kernel)⟩

/-! ## A text that is too long -/

/-- Nine fraction digits, and one digit more than a mantissa has room for. -/
def sampleLong : String := "7922816251426433759354.123456789"

theorem sampleLong_denoted :
    numberOf sampleLong = 7922816251426433759354123456789 / 10 ^ 9 := by
  have hbefore : Decimal.beforeMark (Text.trim sampleLong).toList = sampleLong.toList := by
    decide +kernel
  have hafter : Decimal.afterMark (Text.trim sampleLong).toList = [] := by decide +kernel
  have hdigits : Nat.ofDigitChars 10 (sampleLong.toList.filter Char.isDigit) 0 =
      7922816251426433759354123456789 := by decide +kernel
  have hfraction : Decimal.fractionLength sampleLong.toList = 9 := by decide +kernel
  have hsign : sampleLong.toList.head? ≠ some '-' := by decide +kernel
  rw [numberOf, Decimal.denoted, hbefore, hafter, Decimal.significand, if_neg hsign, Decimal.numeral, hdigits,
    hfraction]
  simp [Decimal.exponent]

theorem sampleLong_rounded : ∃ d, AcceptedText sampleLong d ∧
    d.value ≠ numberOf sampleLong ∧
    ¬ ∃ n : ℤ, numberOf sampleLong * 10 ^ 8 = n := by
  have hread : Amount.read sampleLong =
      .ok ⟨⟨79228162514264337593541234568, 7, by decide, by decide⟩, by decide, by decide⟩ := by
    decide +kernel
  refine ⟨_, .amount hread rfl, ?_, ?_⟩
  · rw [sampleLong_denoted, Decimal.value]
    norm_num
  · rintro ⟨n, hn⟩
    rw [sampleLong_denoted] at hn
    have hn : (7922816251426433759354123456789 : ℚ) = 10 * n := by linarith
    have hn : (7922816251426433759354123456789 : ℤ) = 10 * n := by exact_mod_cast hn
    omega

end TransferLedger
