import TransferLedger.Proofs.Decimal.Rounding
import TransferLedger.Proofs.Decimal.Text
import TransferLedger.Proofs.Store.Engine

/-! # What decimal texts denote, and what is read

`denoted` is the number that a text writes: its digits in order, the point, the sign, the power of ten,
underscores being nothing. A reading that runs out of room after the point rounds there and drops the rest
(`Reading.Reads.rounding`), so plain notation is read exactly where the number has a decimal at all, and less
than a unit of the last digit off otherwise (`readPlain_rounding`).
-/

namespace TransferLedger.Decimal
set_option autoImplicit false

/-! ## Denotation -/

/-- How many digits stand after the first point. -/
def fractionLength (cs : List Char) : ℕ := (cs.dropWhile (· != '.')).countP Char.isDigit

/-- The number that digits, points and underscores write. -/
def numeral (cs : List Char) : ℚ :=
  (Nat.ofDigitChars 10 (cs.filter Char.isDigit) 0 : ℕ) / 10 ^ fractionLength cs

def significand (cs : List Char) : ℚ := if cs.head? = some '-' then -numeral cs else numeral cs

def exponent (cs : List Char) : ℤ :=
  let n : ℕ := Nat.ofDigitChars 10 (cs.filter Char.isDigit) 0
  if cs.head? = some '-' then -n else n

def beforeMark (cs : List Char) : List Char := cs.takeWhile fun c => !isExponentMark c

def afterMark (cs : List Char) : List Char := (cs.dropWhile fun c => !isExponentMark c).drop 1

/-- The number that a text in plain or scientific notation writes. -/
def denoted (cs : List Char) : ℚ := significand (beforeMark cs) * 10 ^ exponent (afterMark cs)

/-! ## Digits -/

theorem isDigit_of_digit? {c : Char} {d : ℕ} (h : digit? c = some d) :
    c.isDigit = true ∧ c.toNat - '0'.toNat = d := by
  unfold digit? at h
  split at h
  · next hc =>
    rw [Char.le_def, UInt32.le_iff_toNat_le, Char.le_def, UInt32.le_iff_toNat_le] at hc
    exact ⟨Char.isDigit_iff_toNat.2 hc, Option.some.inj h⟩
  · cases h

/-! ## Readings -/

/-- The number that is written by what has been read and what is still to come. -/
def Reading.completed (r : Reading) (cs : List Char) : ℚ :=
  (Nat.ofDigitChars 10 (cs.filter Char.isDigit) r.mantissa : ℕ) /
    10 ^ (r.scale + if r.point then cs.countP Char.isDigit else fractionLength cs)

theorem completed_start (cs : List Char) : Reading.start.completed cs = numeral cs := by
  simp [Reading.completed, Reading.start, numeral]

theorem fractionLength_cons {c : Char} (h : c ≠ '.') (cs : List Char) :
    fractionLength (c :: cs) = fractionLength cs := by
  rw [fractionLength, List.dropWhile_cons, if_pos (by simpa using h)]
  rfl

theorem fractionLength_point (cs : List Char) :
    fractionLength ('.' :: cs) = cs.countP Char.isDigit := by
  rw [fractionLength, List.dropWhile_cons, if_neg (by decide), List.countP_cons_of_neg (by decide)]

section
variable {r : Reading} {c : Char} {cs : List Char}

theorem completed_digit (hc : c.isDigit = true) (hwhole : r.point = false → r.scale = 0)
    (hasDigit wide : Bool) :
    Reading.completed ⟨r.mantissa * 10 + (c.toNat - '0'.toNat),
      if r.point then r.scale + 1 else 0, r.point, hasDigit, wide⟩ cs = r.completed (c :: cs) := by
  have hpoint : c ≠ '.' := by
    rintro rfl
    cases hc
  simp only [Reading.completed]
  rw [List.filter_cons_of_pos hc, Nat.ofDigitChars_cons, Nat.mul_comm 10,
    List.countP_cons_of_pos hc, fractionLength_cons hpoint]
  cases hp : r.point with
  | false => simp [hwhole hp]
  | true => simp [Nat.add_assoc, Nat.add_comm 1]

theorem completed_point (h : r.point = false) :
    Reading.completed { r with point := true } cs = r.completed ('.' :: cs) := by
  simp [Reading.completed, h, fractionLength_point]

theorem completed_underscore : r.completed ('_' :: cs) = r.completed cs := by
  simp [Reading.completed, fractionLength_cons]

end

/-! ## Rounding -/

/-- A mantissa and a scale that were read for a number: the number itself if there is a decimal of it, and
less than a unit off in any case. What is not the number has used up the room there is. -/
structure Rounding (q : ℚ) (m : ℤ) (s : ℕ) : Prop where
  exact : Representable q → (m : ℚ) = q * 10 ^ s
  close : |(m : ℚ) - q * 10 ^ s| < 1
  full : (m : ℚ) = q * 10 ^ s ∨ s = maxScale ∨ bound ≤ 10 * m.natAbs

theorem Rounding.of_eq {q : ℚ} {m : ℤ} {s : ℕ} (h : (m : ℚ) = q * 10 ^ s) : Rounding q m s where
  exact := fun _ => h
  close := by
    rw [h, sub_self, abs_zero]
    exact one_pos
  full := .inl h

theorem Representable.neg {q : ℚ} (h : Representable q) : Representable (-q) := by
  obtain ⟨x, rfl⟩ := h
  exact ⟨x.neg, neg_value x⟩

theorem Rounding.neg {q : ℚ} {m : ℤ} {s : ℕ} (h : Rounding q m s) : Rounding (-q) (-m) s where
  exact := by
    intro hrep
    have := h.exact (neg_neg q ▸ hrep.neg)
    push_cast
    linarith
  close := by
    have hclose := h.close
    rw [← abs_neg] at hclose
    push_cast
    convert hclose using 2
    ring
  full := by
    rw [Int.natAbs_neg]
    refine h.full.imp_left fun heq => ?_
    push_cast
    linarith

section
variable {x : Decimal} {M T N S : ℕ}

/-- A decimal with more fraction digits than a reading had room for would need more room as well. -/
theorem scale_le_of_full (hfull : S = maxScale ∨ bound * 10 ^ N ≤ 10 * (10 ^ N * M + T))
    (hx : x.mantissa * 10 ^ (S + N) = ((10 ^ N * M + T : ℕ) : ℤ) * 10 ^ x.scale) : x.scale ≤ S := by
  by_contra hmore
  have hlt : S < x.scale := Nat.lt_of_not_le hmore
  have hroom : bound * 10 ^ N ≤ 10 * (10 ^ N * M + T) := by
    refine hfull.resolve_left fun heq => ?_
    have := x.scale_le
    rw [heq, maxScale] at hlt
    omega
  have hmore : x.mantissa * 10 ^ N = ((10 ^ N * M + T : ℕ) : ℤ) * 10 ^ (x.scale - S) := by
    apply Int.eq_of_mul_eq_mul_right (ten_pow_pos S).ne'
    rw [Int.mul_assoc, ← Int.pow_add, Nat.add_comm, hx, Int.mul_assoc, ← Int.pow_add,
      Nat.sub_add_cancel hlt.le]
  have hten : (10 : ℤ) ≤ 10 ^ (x.scale - S) := by
    have := Nat.pow_le_pow_right (show 0 < 10 by decide) (show 1 ≤ x.scale - S by omega)
    exact_mod_cast this
  have hroom : (bound : ℤ) * 10 ^ N ≤ ((10 ^ N * M + T : ℕ) : ℤ) * 10 := by
    rw [Int.mul_comm _ 10]
    exact_mod_cast hroom
  have hbig : (bound : ℤ) * 10 ^ N ≤ x.mantissa * 10 ^ N := by
    rw [hmore]
    exact hroom.trans (Int.mul_le_mul_of_nonneg_left hten (Int.natCast_nonneg _))
  have hbig := Int.le_of_mul_le_mul_right hbig (ten_pow_pos N)
  have hsmall := x.mantissa_lt
  unfold bound at hbig
  omega

theorem dvd_tail (hle : x.scale ≤ S)
    (hx : x.mantissa * 10 ^ (S + N) = ((10 ^ N * M + T : ℕ) : ℤ) * 10 ^ x.scale) : 10 ^ N ∣ T := by
  have hless : x.mantissa * 10 ^ (S - x.scale) * 10 ^ N = ((10 ^ N * M + T : ℕ) : ℤ) := by
    apply Int.eq_of_mul_eq_mul_right (ten_pow_pos x.scale).ne'
    rw [← hx, Int.mul_assoc, Int.mul_assoc, ← Int.pow_add, ← Int.pow_add]
    congr 2
    omega
  have hdvd : (10 ^ N : ℕ) ∣ 10 ^ N * M + T := by
    rw [← Int.natCast_dvd_natCast, ← hless]
    exact Dvd.intro_left _ (by push_cast; rfl)
  exact (Nat.dvd_add_right (Nat.dvd_mul_right ..)).1 hdvd

/-- Of a number with a decimal nothing but zeros is left where a reading has run out of room: either all the
fraction digits there can be are read, or one digit more is too many. -/
theorem tail_eq_zero (hT : T < 10 ^ N)
    (hfull : S = maxScale ∨ bound * 10 ^ N ≤ 10 * (10 ^ N * M + T))
    (h : Representable ((10 ^ N * M + T : ℕ) / 10 ^ (S + N))) : T = 0 := by
  obtain ⟨x, hx⟩ := h
  rw [value, div_eq_div_iff (by positivity) (by positivity)] at hx
  have hx : x.mantissa * 10 ^ (S + N) = ((10 ^ N * M + T : ℕ) : ℤ) * 10 ^ x.scale := by
    exact_mod_cast hx
  exact Nat.eq_zero_of_dvd_of_lt (dvd_tail (scale_le_of_full hfull hx) hx) hT

end

theorem ignoreRest_eq_ok {result x : ℕ × ℕ} : ∀ {cs : List Char}, ignoreRest result cs = .ok x →
    x = result ∧ ∀ c ∈ cs, c.isDigit = true ∨ c = '_'
  | [], h => by
    cases h
    exact ⟨rfl, by simp⟩
  | c :: cs, h => by
    rw [ignoreRest] at h
    split at h
    · next hc =>
      obtain ⟨hx, hcs⟩ := ignoreRest_eq_ok h
      refine ⟨hx, List.forall_mem_cons.2 ⟨?_, hcs⟩⟩
      rw [Bool.or_eq_true, Option.isSome_iff_exists, beq_iff_eq] at hc
      exact hc.imp_left fun ⟨_, hd⟩ => (isDigit_of_digit? hd).1
    · cases h

/-- The digit at which a reading is rounded is the first of those that are left. -/
theorem le_tail {c : Char} {d : ℕ} (cs : List Char)
    (h : (if c == '_' then some 0 else digit? c) = some d) :
    d * 10 ^ ((c :: cs).filter Char.isDigit).length ≤
      10 * Nat.ofDigitChars 10 ((c :: cs).filter Char.isDigit) 0 := by
  split at h
  · cases h
    simp
  · obtain ⟨hc, rfl⟩ := isDigit_of_digit? h
    rw [List.filter_cons_of_pos hc, List.length_cons, Nat.ofDigitChars_cons,
      Nat.ofDigitChars_eq_ofDigitChars_zero, pow_succ, Nat.mul_zero, Nat.zero_add, Nat.mul_add,
      Nat.mul_comm _ 10, Nat.mul_comm (10 ^ _) (_ - _), ← Nat.mul_assoc,
      Nat.mul_comm _ 10, Nat.mul_assoc]
    omega

/-- A reading has run out of room before the number is finished: `d` is the first digit that is left, and
`t` is what is left in units of the last place. -/
structure Unfinished (q : ℚ) (M S d : ℕ) (t : ℚ) : Prop where
  value_eq : q * 10 ^ S = M + t
  nonneg : 0 ≤ t
  lt_one : t < 1
  digit_le : (d : ℚ) ≤ 10 * t
  exact : Representable q → t = 0
  fits : M < bound
  full : S = maxScale ∨ bound ≤ M * 10 + d

namespace Unfinished

variable {q t : ℚ} {M S d : ℕ}

theorem down (h : Unfinished q M S d t) (hd : d < 5) : Rounding q M S where
  exact := by
    intro hrep
    rw [h.value_eq, h.exact hrep, add_zero, Int.cast_natCast]
  close := by
    have hlow := h.nonneg
    have hhigh := h.lt_one
    rw [h.value_eq, Int.cast_natCast, abs_lt]
    constructor <;> linarith
  full := by
    refine .inr (h.full.imp_right fun hfull => ?_)
    unfold bound at hfull ⊢
    omega

theorem not_representable (h : Unfinished q M S d t) (hd : 5 ≤ d) : ¬ Representable q := by
  intro hrep
  have hdigit := h.digit_le
  have hfive : (5 : ℚ) ≤ d := by exact_mod_cast hd
  rw [h.exact hrep] at hdigit
  linarith

theorem lt_ten (h : Unfinished q M S d t) : d < 10 := by
  have hlt : (d : ℚ) < 10 := by linarith [h.digit_le, h.lt_one]
  exact_mod_cast hlt

theorem up (h : Unfinished q M S d t) (hd : 5 ≤ d) : Rounding q (M + 1 : ℕ) S where
  exact := fun hrep => absurd hrep (h.not_representable hd)
  close := by
    have hdigit := h.digit_le
    have hfive : (5 : ℚ) ≤ d := by exact_mod_cast hd
    have hhigh := h.lt_one
    rw [h.value_eq, Int.cast_natCast, abs_lt]
    push_cast
    constructor <;> linarith
  full := by
    refine .inr (h.full.imp_right fun hfull => ?_)
    have hten := h.lt_ten
    rw [Int.natAbs_natCast]
    omega

/-- One more would be out of range, so the last place is given up. -/
theorem shorten (h : Unfinished q M S d t) (hd : 5 ≤ d) (hlast : ¬ M + 1 < bound) (hS : S ≠ 0) :
    Rounding q ((M + 1 + 4) / 10 : ℕ) (S - 1) := by
  have hM : M = 79228162514264337593543950335 := by
    have hfits := h.fits
    unfold bound at hfits hlast
    omega
  have hscaled : q * 10 ^ (S - 1) = (M + t) / 10 := by
    have hS : (10 : ℚ) ^ S = 10 ^ (S - 1) * 10 := by
      rw [← pow_succ, Nat.sub_add_cancel (Nat.pos_of_ne_zero hS)]
    have hvalue := h.value_eq
    rw [hS, ← mul_assoc] at hvalue
    linarith
  exact {
    exact := fun hrep => absurd hrep (h.not_representable hd)
    close := by
      have hlow := h.nonneg
      have hhigh := h.lt_one
      rw [hscaled, hM, abs_lt]
      norm_num
      constructor <;> linarith
    full := by
      rw [hM]
      exact .inr (.inr (by decide)) }

end Unfinished

/-- There is no room for the next character: every fraction digit there can be is read, or the mantissa
would be too large with this one. -/
def Reading.FullAt (r : Reading) (c : Char) : Prop :=
  r.point = true ∧ (r.scale = maxScale ∨ ∃ d, digit? c = some d ∧ bound ≤ r.mantissa * 10 + d)

theorem exists_unfinished {r : Reading} {c : Char} {d : ℕ} (cs : List Char)
    (hd : (if c == '_' then some 0 else digit? c) = some d) (hfull : r.FullAt c)
    (hm : r.mantissa < bound) :
    ∃ t, Unfinished (r.completed (c :: cs)) r.mantissa r.scale d t := by
  obtain ⟨hpoint, hfull⟩ := hfull
  have hfull : r.scale = maxScale ∨ bound ≤ r.mantissa * 10 + d := by
    refine hfull.imp_right fun ⟨d', hd', hroom⟩ => ?_
    have hc : (c == '_') = false := by
      rw [beq_eq_false_iff_ne]
      rintro rfl
      cases hd'
    rw [hc, hd'] at hd
    cases hd
    exact hroom
  have hdigit := le_tail cs hd
  have htail := ofDigitChars_lt ((c :: cs).filter Char.isDigit) fun x hx => (List.mem_filter.1 hx).2
  have hcompleted : r.completed (c :: cs) =
      (10 ^ ((c :: cs).filter Char.isDigit).length * r.mantissa +
        Nat.ofDigitChars 10 ((c :: cs).filter Char.isDigit) 0 : ℕ) /
          10 ^ (r.scale + ((c :: cs).filter Char.isDigit).length) := by
    rw [Reading.completed, hpoint, Nat.ofDigitChars_eq_ofDigitChars_zero, if_pos rfl,
      List.countP_eq_length_filter]
  generalize ((c :: cs).filter Char.isDigit).length = N at *
  generalize Nat.ofDigitChars 10 ((c :: cs).filter Char.isDigit) 0 = T at *
  have hN : (0 : ℚ) < 10 ^ N := by positivity
  refine ⟨T / 10 ^ N, ?_⟩
  exact {
    value_eq := by
      rw [hcompleted, pow_add]
      push_cast
      field_simp
    nonneg := by positivity
    lt_one := by
      rw [div_lt_one hN]
      exact_mod_cast htail
    digit_le := by
      rw [← mul_div_assoc, le_div_iff₀ hN]
      exact_mod_cast hdigit
    exact := by
      intro hrep
      rw [hcompleted] at hrep
      have hroom : r.scale = maxScale ∨ bound * 10 ^ N ≤ 10 * (10 ^ N * r.mantissa + T) := by
        refine hfull.imp_right fun hroom => ?_
        calc bound * 10 ^ N
            ≤ (r.mantissa * 10 + d) * 10 ^ N := Nat.mul_le_mul_right _ hroom
          _ = 10 * (10 ^ N * r.mantissa) + d * 10 ^ N := by ring
          _ ≤ 10 * (10 ^ N * r.mantissa + T) := by omega
      rw [tail_eq_zero htail hroom hrep, Nat.cast_zero, zero_div]
    fits := hm
    full := hfull }

/-- What rounding at a character gives, `d` being what the character stands for. -/
theorem roundAt_eq_ok {r : Reading} {c : Char} {cs : List Char} {x : ℕ × ℕ}
    (h : roundAt r c cs = .ok x) :
    ∃ d, (if c == '_' then some 0 else digit? c) = some d ∧
      (∀ c' ∈ cs, c'.isDigit = true ∨ c' = '_') ∧
      (d < 5 ∧ x = (r.mantissa, r.scale) ∨
        5 ≤ d ∧ r.mantissa + 1 < bound ∧ x = (r.mantissa + 1, r.scale) ∨
        5 ≤ d ∧ ¬ r.mantissa + 1 < bound ∧ r.scale ≠ 0 ∧
          x = ((r.mantissa + 1 + 4) / 10, r.scale - 1)) := by
  unfold roundAt at h
  split at h
  · cases h
  next d hd =>
  refine ⟨d, hd, ?_⟩
  split at h
  · next hlt =>
    obtain ⟨hx, hcs⟩ := ignoreRest_eq_ok h
    exact ⟨hcs, .inl ⟨hlt, hx⟩⟩
  next hge =>
  have hge : 5 ≤ d := Nat.le_of_not_lt hge
  split at h
  · next hfits =>
    obtain ⟨hx, hcs⟩ := ignoreRest_eq_ok h
    exact ⟨hcs, .inr (.inl ⟨hge, hfits, hx⟩)⟩
  next hlast =>
  split at h
  · cases h
  next hS =>
  obtain ⟨hx, hcs⟩ := ignoreRest_eq_ok h
  exact ⟨hcs, .inr (.inr ⟨hge, hlast, hS, hx⟩)⟩

/-- What an accepted reading did, character by character. -/
inductive Reading.Reads : Reading → List Char → ℕ × ℕ → Prop
  | done (r : Reading) : Reads r [] (r.mantissa, r.scale)
  | digit {r : Reading} {c : Char} {cs : List Char} {x : ℕ × ℕ} {hasDigit wide : Bool}
      (hc : c.isDigit = true) (hfits : r.mantissa * 10 + (c.toNat - '0'.toNat) < bound)
      (hroom : r.point = true → r.scale ≠ maxScale)
      (h : Reads ⟨r.mantissa * 10 + (c.toNat - '0'.toNat), if r.point then r.scale + 1 else 0,
        r.point, hasDigit, wide⟩ cs x) : Reads r (c :: cs) x
  | point {r : Reading} {cs : List Char} {x : ℕ × ℕ} (hpoint : r.point = false)
      (h : Reads { r with point := true } cs x) : Reads r ('.' :: cs) x
  | underscore {r : Reading} {cs : List Char} {x : ℕ × ℕ} (h : Reads r cs x) : Reads r ('_' :: cs) x
  | rounded {r : Reading} {c : Char} {cs : List Char} {x : ℕ × ℕ} (hfull : r.FullAt c)
      (h : roundAt r c cs = .ok x) : Reads r (c :: cs) x

theorem readDigits_eq_ok {cs : List Char} : ∀ {r : Reading} {x : ℕ × ℕ},
    readDigits r cs = .ok x → r.Reads cs x := by
  induction cs with
  | nil =>
    intro r x h
    rw [readDigits] at h
    split at h
    · cases h
      exact .done r
    · cases h
  | cons c cs ih =>
    intro r x h
    rw [readDigits] at h
    split at h
    · next hlast =>
      simp only [Bool.and_eq_true, beq_iff_eq] at hlast
      exact .rounded ⟨hlast.1.1, .inl hlast.1.2⟩ h
    next hlast =>
    simp only at h
    split at h
    · next d hd =>
      obtain ⟨hc, rfl⟩ := isDigit_of_digit? hd
      by_cases hfits : r.mantissa * 10 + (c.toNat - '0'.toNat) < bound
      · rw [if_pos hfits] at h
        refine .digit hc hfits ?_ (ih h)
        -- A digit at the last place would have been rounded.
        intro hpoint heq
        have hc' : (c == '_') = false := by
          rw [beq_eq_false_iff_ne]
          rintro rfl
          cases hc
        simp [hpoint, heq, hc'] at hlast
      · rw [if_neg hfits] at h
        split at h
        · next hpoint =>
          exact .rounded ⟨hpoint, .inr ⟨_, hd, Nat.le_of_not_lt hfits⟩⟩ h
        · cases h
    split at h
    · next hc =>
      simp only [Bool.and_eq_true, beq_iff_eq, Bool.not_eq_true'] at hc
      rw [hc.1]
      exact .point hc.2 (ih h)
    split at h
    · next hc =>
      simp only [Bool.and_eq_true, beq_iff_eq] at hc
      rw [hc.1]
      exact .underscore (ih h)
    · cases h

theorem roundAt_rounding {r : Reading} {c : Char} {cs : List Char} {x : ℕ × ℕ}
    (h : roundAt r c cs = .ok x) (hfull : r.FullAt c) (hm : r.mantissa < bound) :
    Rounding (r.completed (c :: cs)) x.1 x.2 := by
  obtain ⟨d, hd, -, hx⟩ := roundAt_eq_ok h
  obtain ⟨t, hr⟩ := exists_unfinished cs hd hfull hm
  rcases hx with ⟨hlt, rfl⟩ | ⟨hge, -, rfl⟩ | ⟨hge, hlast, hS, rfl⟩
  · exact hr.down hlt
  · exact hr.up hge
  · exact hr.shorten hge hlast hS

theorem Reading.Reads.rounding {r : Reading} {cs : List Char} {x : ℕ × ℕ} (h : r.Reads cs x)
    (hm : r.mantissa < bound) (hscale : r.scale ≤ maxScale) (hwhole : r.point = false → r.scale = 0) :
    Rounding (r.completed cs) x.1 x.2 := by
  induction h with
  | done r =>
    apply Rounding.of_eq
    simp [Reading.completed, fractionLength]
  | @digit r c cs x hasDigit wide hc hfits hroom h ih =>
    rw [← completed_digit hc hwhole hasDigit wide]
    refine ih hfits ?_ ?_
    · show (if r.point then r.scale + 1 else 0) ≤ maxScale
      split
      · next hpoint =>
        have := hroom hpoint
        omega
      · exact Nat.zero_le _
    · intro hpoint
      exact if_neg (by simpa using hpoint)
  | point hpoint h ih =>
    rw [← completed_point hpoint]
    refine ih hm hscale ?_
    rintro ⟨⟩
  | underscore h ih =>
    rw [completed_underscore]
    exact ih hm hscale hwhole
  | rounded hfull h => exact roundAt_rounding h hfull hm

/-! ## Plain notation -/

theorem isExponentMark_of_isDigit {c : Char} (h : c.isDigit = true) : isExponentMark c = false := by
  rw [← Bool.not_eq_true]
  intro hmark
  rw [isExponentMark, Bool.or_eq_true, beq_iff_eq, beq_iff_eq] at hmark
  rcases hmark with rfl | rfl <;> cases h

/-- No exponent mark is read in plain notation. -/
theorem Reading.Reads.unmarked {r : Reading} {cs : List Char} {x : ℕ × ℕ} (h : r.Reads cs x) :
    ∀ c ∈ cs, isExponentMark c = false := by
  have hpassed : ∀ {c : Char}, c.isDigit = true ∨ c = '_' → isExponentMark c = false := by
    rintro c (hdigit | rfl)
    · exact isExponentMark_of_isDigit hdigit
    · rfl
  induction h with
  | done r => simp
  | digit hc hfits hroom h ih => exact List.forall_mem_cons.2 ⟨isExponentMark_of_isDigit hc, ih⟩
  | point hpoint h ih => exact List.forall_mem_cons.2 ⟨rfl, ih⟩
  | underscore h ih => exact List.forall_mem_cons.2 ⟨rfl, ih⟩
  | @rounded r c cs x hfull h =>
    obtain ⟨d, hd, hcs, -⟩ := roundAt_eq_ok h
    refine List.forall_mem_cons.2 ⟨hpassed ?_, fun c' hc' => hpassed (hcs c' hc')⟩
    split at hd
    · next hc => exact .inr (beq_iff_eq.1 hc)
    · exact .inl (isDigit_of_digit? hd).1

theorem signed_eq_ok {negative : Bool} {m s : ℕ} {d : Decimal} (h : signed negative m s = .ok d) :
    d.mantissa = (if negative then -(m : ℤ) else m) ∧ d.scale = s := by
  unfold signed at h
  split at h
  · next hparts =>
    cases h
    exact ofParts?_eq_some hparts
  · cases h

theorem numeral_sign {c : Char} (hc : c = '-' ∨ c = '+') (cs : List Char) :
    numeral (c :: cs) = numeral cs := by
  rcases hc with rfl | rfl <;> simp [numeral, fractionLength_cons]

theorem readDigits_start {cs : List Char} {m s : ℕ} (h : readDigits .start cs = .ok (m, s)) :
    Rounding (numeral cs) m s ∧ ∀ c ∈ cs, isExponentMark c = false := by
  have hreads := readDigits_eq_ok h
  rw [← completed_start]
  exact ⟨hreads.rounding (by decide) (by decide) fun _ => rfl, hreads.unmarked⟩

theorem readPlain_rounding {cs : List Char} {d : Decimal} (h : readPlain cs = .ok d) :
    Rounding (significand cs) d.mantissa d.scale ∧ ∀ c ∈ cs, isExponentMark c = false := by
  unfold readPlain at h
  split at h
  · cases h
  · next rest =>
    obtain ⟨⟨m, s⟩, hread, h⟩ := bind_eq_ok.1 h
    obtain ⟨hm, hs⟩ := signed_eq_ok h
    rw [hm, hs, significand, if_pos (by rfl), numeral_sign (.inl rfl)]
    obtain ⟨hrounding, hunmarked⟩ := readDigits_start hread
    exact ⟨hrounding.neg, List.forall_mem_cons.2 ⟨rfl, hunmarked⟩⟩
  · next rest =>
    obtain ⟨⟨m, s⟩, hread, h⟩ := bind_eq_ok.1 h
    obtain ⟨hm, hs⟩ := signed_eq_ok h
    rw [hm, hs, significand, if_neg (by simp), numeral_sign (.inr rfl)]
    obtain ⟨hrounding, hunmarked⟩ := readDigits_start hread
    exact ⟨hrounding, List.forall_mem_cons.2 ⟨rfl, hunmarked⟩⟩
  · next hminus hplus =>
    obtain ⟨⟨m, s⟩, hread, h⟩ := bind_eq_ok.1 h
    obtain ⟨hm, hs⟩ := signed_eq_ok h
    have hsign : cs.head? ≠ some '-' := by
      intro hhead
      obtain ⟨rest, rfl⟩ := List.head?_eq_some_iff.1 hhead
      exact hminus rest rfl
    rw [hm, hs, significand, if_neg hsign]
    exact readDigits_start hread

end TransferLedger.Decimal
