import Mathlib.Algebra.Group.Nat.Defs
import TransferLedger.Decimal.Reader
import TransferLedger.Text.Blank

/-! # Reading the written form of a decimal

`read_text`: the written form of a decimal is read back as the same decimal, scale included. The
digits of the whole part are read before the point (`readDigits_whole`), the fraction digits after
it (`readDigits_fraction`); neither reaches the position where a reading is rounded.
-/

namespace TransferLedger.Decimal
set_option autoImplicit false

/-! ## Digits -/

theorem digit?_of_isDigit {c : Char} (h : c.isDigit = true) :
    digit? c = some (c.toNat - '0'.toNat) := by
  rw [Char.isDigit_iff_toNat] at h
  exact if_pos ⟨by rw [Char.le_def, UInt32.le_iff_toNat_le]; exact h.1,
    by rw [Char.le_def, UInt32.le_iff_toNat_le]; exact h.2⟩

theorem toNat_of_isDigit {c : Char} (h : c.isDigit = true) : 48 ≤ c.toNat ∧ c.toNat ≤ 57 :=
  Char.isDigit_iff_toNat.1 h

theorem ofDigitChars_cons (c : Char) (cs : List Char) : Nat.ofDigitChars 10 (c :: cs) 0 =
    10 ^ cs.length * (c.toNat - 48) + Nat.ofDigitChars 10 cs 0 := by
  rw [Nat.ofDigitChars_cons, Nat.ofDigitChars_eq_ofDigitChars_zero]
  simp

theorem ofDigitChars_lt (ds : List Char) (h : ∀ c ∈ ds, c.isDigit = true) :
    Nat.ofDigitChars 10 ds 0 < 10 ^ ds.length := by
  induction ds with
  | nil => exact Nat.zero_lt_one
  | cons c cs ih =>
    have hc := toNat_of_isDigit (h c List.mem_cons_self)
    have hcs := ih fun d hd => h d (List.mem_cons_of_mem c hd)
    have hle : 10 ^ cs.length * (c.toNat - 48) ≤ 10 ^ cs.length * 9 := Nat.mul_le_mul_left _ (by omega)
    rw [ofDigitChars_cons, List.length_cons, Nat.pow_succ]
    omega

theorem le_ofDigitChars (ds : List Char) (n : Nat) : n ≤ Nat.ofDigitChars 10 ds n := by
  rw [Nat.ofDigitChars_eq_ofDigitChars_zero]
  have := Nat.le_mul_of_pos_left n (Nat.pow_pos (n := ds.length) (by decide : 0 < 10))
  omega

theorem isDigit_paddedDigits {width n : Nat} {c : Char} (h : c ∈ paddedDigits width n) :
    c.isDigit = true := by
  simp only [paddedDigits, List.mem_append, List.mem_replicate] at h
  rcases h with ⟨-, rfl⟩ | h
  · decide
  · exact Nat.isDigit_of_mem_toDigits (by decide) (by decide) h

theorem isBlank_of_isDigit {c : Char} (h : c.isDigit = true) : Text.isBlank c = false := by
  have hrange := toNat_of_isDigit h
  simp only [Text.isBlank, Bool.or_eq_false_iff, Bool.and_eq_false_iff, decide_eq_false_iff_not,
    beq_eq_false_iff_ne]
  omega

theorem length_paddedDigits {width n : Nat} (hw : 0 < width) (h : n < 10 ^ width) :
    (paddedDigits width n).length = width := by
  have := (Nat.length_toDigits_le_iff (b := 10) (by decide) hw).2 h
  simp only [paddedDigits, List.length_append, List.length_replicate]
  omega

theorem value_paddedDigits (width n : Nat) : Nat.ofDigitChars 10 (paddedDigits width n) 0 = n := by
  simp [paddedDigits, Nat.ofDigitChars_append]

theorem ofDigitChars_paddedDigits {width n : Nat} (hw : 0 < width) (h : n < 10 ^ width) (m : Nat) :
    Nat.ofDigitChars 10 (paddedDigits width n) m = 10 ^ width * m + n := by
  rw [Nat.ofDigitChars_eq_ofDigitChars_zero, value_paddedDigits, length_paddedDigits hw h]

/-! ## Reading digits -/

theorem readDigits_whole (cs : List Char) : ∀ (ds : List Char) (r : Reading),
    (∀ c ∈ ds, c.isDigit = true) → Nat.ofDigitChars 10 ds r.mantissa < bound →
    r.point = false → r.scale = 0 → r.hasDigit = true ∨ ds ≠ [] →
    ∃ w, readDigits r (ds ++ cs) =
      readDigits ⟨Nat.ofDigitChars 10 ds r.mantissa, 0, false, true, w⟩ cs
  | [], ⟨m, s, p, d, w⟩, _, _, hp, hs, hd => by
    simp only [ne_eq, not_true, or_false] at hd hp hs
    subst hp hs hd
    exact ⟨w, rfl⟩
  | c :: ds, r, hds, hm, hp, hs, _ => by
    rw [Nat.ofDigitChars_cons, Nat.mul_comm] at hm
    have hlt := Nat.lt_of_le_of_lt (le_ofDigitChars ds _) hm
    rw [List.cons_append, readDigits, hp, digit?_of_isDigit (hds c (by simp))]
    simp only [Bool.false_and, Bool.false_eq_true, if_false, if_pos hlt]
    obtain ⟨w, hw⟩ := readDigits_whole cs ds
      ⟨r.mantissa * 10 + (c.toNat - '0'.toNat), 0, false, true,
        r.wide || (wideFrom ≤ r.mantissa * 10 + (c.toNat - '0'.toNat) && !false)⟩
      (fun x hx => hds x (by simp [hx])) hm rfl rfl (.inl rfl)
    refine ⟨w, ?_⟩
    rw [Nat.ofDigitChars_cons, Nat.mul_comm 10]
    simpa using hw

theorem readDigits_fraction : ∀ (ds : List Char) (r : Reading),
    (∀ c ∈ ds, c.isDigit = true) → Nat.ofDigitChars 10 ds r.mantissa < bound →
    r.point = true → r.hasDigit = true → r.scale + ds.length ≤ maxScale →
    readDigits r ds = .ok (Nat.ofDigitChars 10 ds r.mantissa, r.scale + ds.length)
  | [], r, _, _, _, hd, _ => by
    rw [readDigits, if_pos hd]
    rfl
  | c :: ds, r, hds, hm, hp, _, hs => by
    rw [Nat.ofDigitChars_cons, Nat.mul_comm] at hm
    have hlt := Nat.lt_of_le_of_lt (le_ofDigitChars ds _) hm
    rw [List.length_cons] at hs ⊢
    have hs' : (r.scale == maxScale) = false := by
      rw [beq_eq_false_iff_ne]
      omega
    rw [readDigits, hp, hs', digit?_of_isDigit (hds c (by simp))]
    simp only [Bool.and_false, Bool.false_and, Bool.false_eq_true, if_false, if_pos hlt, if_true]
    rw [readDigits_fraction ds _ (fun x hx => hds x (by simp [hx])) hm rfl rfl (by simp; omega),
      Nat.ofDigitChars_cons, Nat.mul_comm 10]
    simp only [Except.ok.injEq, Prod.mk.injEq, true_and]
    omega

/-! ## The written form -/

/-- The written form without its sign. -/
def unsignedChars (n s : Nat) : List Char :=
  Nat.toDigits 10 (n / 10 ^ s) ++ (if s = 0 then [] else '.' :: paddedDigits s (n % 10 ^ s))

theorem readDigits_unsignedChars {n s : Nat} (hn : n < bound) (hs : s ≤ 28) :
    readDigits .start (unsignedChars n s) = .ok (n, s) := by
  have hdigits : ∀ c ∈ Nat.toDigits 10 (n / 10 ^ s), c.isDigit = true := fun c hc =>
    Nat.isDigit_of_mem_toDigits (by decide) (by decide) hc
  have hvalue : Nat.ofDigitChars 10 (Nat.toDigits 10 (n / 10 ^ s)) 0 = n / 10 ^ s :=
    Nat.ofDigitChars_ten_toDigits
  have hwhole : Nat.ofDigitChars 10 (Nat.toDigits 10 (n / 10 ^ s)) Reading.start.mantissa < bound := by
    rw [show Reading.start.mantissa = 0 from rfl, hvalue]
    exact Nat.lt_of_le_of_lt (Nat.div_le_self ..) hn
  obtain ⟨w, hw⟩ := readDigits_whole (if s = 0 then [] else '.' :: paddedDigits s (n % 10 ^ s))
    _ .start hdigits hwhole rfl rfl (.inr Nat.toDigits_ne_nil)
  rw [unsignedChars, hw, show Reading.start.mantissa = 0 from rfl, hvalue]
  split
  · next h0 =>
    subst h0
    simp [readDigits]
  · next h0 =>
    have hpos : 0 < s := Nat.pos_of_ne_zero h0
    have hmod : n % 10 ^ s < 10 ^ s := Nat.mod_lt _ (Nat.pow_pos (by decide))
    have hall := ofDigitChars_paddedDigits hpos hmod (n / 10 ^ s)
    rw [Nat.div_add_mod] at hall
    -- The point is not a digit, so it is read as the point.
    rw [readDigits]
    simp only [Bool.false_and, Bool.false_eq_true, if_false, show digit? '.' = none from rfl]
    simp only [beq_self_eq_true, Bool.not_false, Bool.and_self, if_true]
    rw [readDigits_fraction _ _ (fun c hc => isDigit_paddedDigits hc)
      (Nat.lt_of_le_of_lt (Nat.le_of_eq hall) hn) rfl rfl, hall, length_paddedDigits hpos hmod]
    · simp
    · rw [length_paddedDigits hpos hmod]
      simpa [maxScale] using hs

theorem chars_eq (d : Decimal) : d.chars =
    (if d.mantissa < 0 then ['-'] else []) ++ unsignedChars d.mantissa.natAbs d.scale := by
  simp only [chars, unsignedChars, List.append_assoc]
  rfl

/-- The written form of a number that is not negative begins with a digit. -/
theorem unsignedChars_eq_cons (n s : Nat) :
    ∃ c cs, unsignedChars n s = c :: cs ∧ c.isDigit = true := by
  obtain ⟨c, cs, hc⟩ := List.exists_cons_of_ne_nil (Nat.toDigits_ne_nil (n := n / 10 ^ s) (b := 10))
  refine ⟨c, cs ++ _, by rw [unsignedChars, hc]; rfl, ?_⟩
  exact Nat.isDigit_of_mem_toDigits (b := 10) (n := n / 10 ^ s) (by decide) (by decide)
    (by rw [hc]; simp)

theorem signed_natAbs (d : Decimal) :
    signed (decide (d.mantissa < 0)) d.mantissa.natAbs d.scale = .ok d := by
  have hm : (if decide (d.mantissa < 0) = true then -(d.mantissa.natAbs : Int)
      else d.mantissa.natAbs) = d.mantissa := by
    by_cases h : d.mantissa < 0
    · rw [if_pos (decide_eq_true h)]
      omega
    · rw [if_neg (by rw [decide_eq_true_eq]; exact h)]
      omega
  rw [signed, hm, ofParts?, dif_pos ⟨d.mantissa_lt, d.scale_le⟩]

theorem readPlain_of_isDigit {c : Char} {cs : List Char} {m s : Nat} (hc : c.isDigit = true)
    (h : readDigits .start (c :: cs) = .ok (m, s)) : readPlain (c :: cs) = signed false m s := by
  unfold readPlain
  split
  · contradiction
  · next heq => cases heq; simp at hc
  · next heq => cases heq; simp at hc
  · rw [h]
    rfl

theorem readPlain_chars (d : Decimal) : readPlain d.chars = .ok d := by
  have hread := readDigits_unsignedChars d.mantissa_lt d.scale_le
  have hsigned := signed_natAbs d
  rw [chars_eq]
  by_cases h : d.mantissa < 0
  · rw [if_pos h, List.singleton_append, readPlain, hread]
    simpa [h, bind, Except.bind] using hsigned
  · obtain ⟨c, cs, hcs, hc⟩ := unsignedChars_eq_cons d.mantissa.natAbs d.scale
    rw [hcs] at hread
    rw [if_neg h, List.nil_append, hcs, readPlain_of_isDigit hc hread]
    simpa [h] using hsigned

/-- The written form is read back as the same decimal. -/
theorem read_text (d : Decimal) : read d.text = .ok d := by
  rw [read, text, String.toList_ofList, readChars, readPlain_chars]

/-! ## Signs -/

theorem minus_not_mem_unsignedChars (n s : Nat) : '-' ∉ unsignedChars n s := by
  have hminus : ('-' : Char).isDigit ≠ true := by decide
  intro h
  rcases List.mem_append.1 h with h | h
  · exact hminus (Nat.isDigit_of_mem_toDigits (by decide) (by decide) h)
  · split at h
    · cases h
    · rcases List.mem_cons.1 h with h | h
      · exact absurd h (by decide)
      · exact hminus (isDigit_paddedDigits h)

/-- A minus is written in front of negative decimals only. -/
theorem minus_mem_text_iff (d : Decimal) : '-' ∈ d.text.toList ↔ d.mantissa < 0 := by
  rw [text, String.toList_ofList, chars_eq, List.mem_append, or_iff_left (minus_not_mem_unsignedChars _ _)]
  split <;> simp_all

/-- A zero that was written with a minus is read back without it. -/
theorem read_minus_text {d : Decimal} (h : d.mantissa = 0) : read ("-" ++ d.text) = .ok d := by
  have hread := readDigits_unsignedChars d.mantissa_lt d.scale_le
  have htext : d.text.toList = unsignedChars d.mantissa.natAbs d.scale := by
    rw [text, String.toList_ofList, chars_eq, if_neg (by omega), List.nil_append]
  have hchars : ("-" ++ d.text).toList = '-' :: unsignedChars d.mantissa.natAbs d.scale := by
    rw [String.toList_append, htext]
    rfl
  have hsigned : signed true d.mantissa.natAbs d.scale = .ok d := by
    have hd := signed_natAbs d
    rw [h] at hd ⊢
    exact hd
  rw [read, hchars, readChars, readPlain, hread]
  simp only [bind, Except.bind, hsigned]

end TransferLedger.Decimal
