import Mathlib.Data.List.TakeWhile
import TransferLedger.Proofs.Binary64.Accuracy
import TransferLedger.Proofs.Decimal.Denotation
import TransferLedger.Proofs.Json.Number

/-! # Number literals

A literal is a number as JSON writes it, and denotes an exact number whatever its length. Of its digits as many
are taken up as fit into 64 bits; what is left is off by less than one part in `10^18` (`Literal.exists_parts`).
A literal is read as an integer, as the binary number of the digits taken up, or as zero
(`Literal.readNumber_eq_ok`).
-/

namespace TransferLedger.Json
set_option autoImplicit false

open Text (encodeAll encodeAll_cons encodeAll_append)

inductive ExponentSign
  | absent
  | plus
  | minus
deriving DecidableEq

def ExponentSign.chars : ExponentSign → List Char
  | .absent => []
  | .plus => ['+']
  | .minus => ['-']

/-- The power of ten behind the digits of a number. -/
structure Exponent where
  capital : Bool
  sign : ExponentSign
  digits : List Char
  digits_ne_nil : digits ≠ []
  isDigit : ∀ c ∈ digits, c.isDigit = true

namespace Exponent

def mark (x : Exponent) : Char := if x.capital then 'E' else 'e'

/-- What follows the mark. -/
def signed (x : Exponent) : List Char := x.sign.chars ++ x.digits

def size (x : Exponent) : ℕ := Nat.ofDigitChars 10 x.digits 0

def power (x : Exponent) : ℤ := if x.sign = .minus then -x.size else x.size

end Exponent

/-- A number as JSON writes it. The whole part has no zero in front of other digits; a point stands only before
digits. -/
structure Literal where
  negative : Bool
  whole : List Char
  fraction : List Char
  exponent : Option Exponent
  whole_ne_nil : whole ≠ []
  isDigit_whole : ∀ c ∈ whole, c.isDigit = true
  leading : whole.head? = some '0' → whole.length = 1
  isDigit_fraction : ∀ c ∈ fraction, c.isDigit = true

namespace Literal

def fractionChars (L : Literal) : List Char := if L.fraction = [] then [] else '.' :: L.fraction

def exponentChars (L : Literal) : List Char :=
  match L.exponent with
  | none => []
  | some x => x.mark :: x.signed

def unsignedChars (L : Literal) : List Char := L.whole ++ (L.fractionChars ++ L.exponentChars)

def chars (L : Literal) : List Char := (if L.negative then ['-'] else []) ++ L.unsignedChars

def bytes (L : Literal) : Bytes := encodeAll L.chars

/-- All digits before the exponent, taken as one whole number. -/
def digits (L : Literal) : ℕ := Nat.ofDigitChars 10 (L.whole ++ L.fraction) 0

def power (L : Literal) : ℤ :=
  match L.exponent with
  | none => 0
  | some x => x.power

/-- The power of ten of the last digit. -/
def lastPower (L : Literal) : ℤ := L.power - L.fraction.length

def magnitude (L : Literal) : ℚ := L.digits * 10 ^ L.lastPower

/-- The number that the literal denotes. -/
def value (L : Literal) : ℚ := if L.negative then -L.magnitude else L.magnitude

/-- The literal is an unsigned integer of up to 64 bits, without point and exponent. -/
def IsWord (L : Literal) : Prop :=
  L.negative = false ∧ L.fraction = [] ∧ L.exponent = none ∧ L.digits ≤ maxWord

/-- The literal has up to 15 digits, zeros in front aside, and the power of ten of the last one is a binary number
if it is whole. -/
def IsShort (L : Literal) : Prop := L.digits < 10 ^ 15 ∧ L.lastPower ≤ 22

end Literal

/-! ## Digits taken up -/

theorem ofDigitChars_drop_lt {cs : List Char} (h : ∀ c ∈ cs, c.isDigit = true) (u : ℕ) :
    Nat.ofDigitChars 10 (cs.drop u) 0 < 10 ^ (cs.length - u) := by
  rw [← List.length_drop]
  exact Decimal.ofDigitChars_lt _ fun c hc => h c (List.mem_of_mem_drop hc)

/-- Where digits are left over, those taken up are 18 at least. -/
theorem large_of_left {cs : List Char} (h : ∀ c ∈ cs, c.isDigit = true) {u s : ℕ} (hu : u < cs.length)
    (hlong : maxWord < Nat.ofDigitChars 10 (cs.take (u + 1)) s) :
    10 ^ 18 ≤ Nat.ofDigitChars 10 (cs.take u) s := by
  have hdigit := Decimal.toNat_of_isDigit (h cs[u] (List.getElem_mem hu))
  rw [List.take_succ_eq_append_getElem hu, Nat.ofDigitChars_append, Nat.ofDigitChars_cons,
    Nat.ofDigitChars_nil] at hlong
  unfold maxWord at hlong
  omega

/-- The digits before and after the point, as far as they were taken up: `s · 10^k` for all of them. -/
structure Taken (ws fs : List Char) (s : ℕ) (k : ℤ) : Prop where
  fits : s ≤ maxWord
  within : Binary64.Within (1 + 1 / 10 ^ 18) (s * 10 ^ k)
    ((Nat.ofDigitChars 10 (ws ++ fs) 0 : ℕ) * 10 ^ (-(fs.length : ℤ)))
  exact : Nat.ofDigitChars 10 (ws ++ fs) 0 ≤ maxWord →
    s = Nat.ofDigitChars 10 (ws ++ fs) 0 ∧ k = -(fs.length : ℤ)

theorem within_of_interval {x d a b : ℚ} (hd : 10 ^ 18 * d ≤ x) (ha : x ≤ a) (ha' : a ≤ x + d) (hb : x ≤ b)
    (hb' : b ≤ x + d) : Binary64.Within (1 + 1 / 10 ^ 18) a b := by
  constructor <;> linarith

section
variable {ws fs : List Char} {u s : ℕ}

/-- The whole part did not fit: what is taken up of the fraction no longer matters. -/
theorem within_of_whole (hws : ∀ c ∈ ws, c.isDigit = true) (hfs : ∀ c ∈ fs, c.isDigit = true)
    (hlarge : 10 ^ 18 ≤ Nat.ofDigitChars 10 (ws.take u) 0) {v : ℕ} (hv : v ≤ fs.length) :
    Binary64.Within (1 + 1 / 10 ^ 18)
      ((Nat.ofDigitChars 10 (fs.take v) (Nat.ofDigitChars 10 (ws.take u) 0) : ℕ) *
        10 ^ ((ws.length - u : ℕ) - v : ℤ))
      ((Nat.ofDigitChars 10 (ws ++ fs) 0 : ℕ) * 10 ^ (-(fs.length : ℤ))) := by
  have hwhole := ofDigitChars_take_drop ws u 0
  have hleft := ofDigitChars_drop_lt hws u
  have htaken := Decimal.ofDigitChars_lt (fs.take v) fun c hc => hfs c (List.mem_of_mem_take hc)
  have hfraction := Decimal.ofDigitChars_lt fs hfs
  have hall : Nat.ofDigitChars 10 (ws ++ fs) 0 =
      10 ^ fs.length * Nat.ofDigitChars 10 ws 0 + Nat.ofDigitChars 10 fs 0 := by
    rw [Nat.ofDigitChars_append, Nat.ofDigitChars_eq_ofDigitChars_zero]
  rw [List.length_take, Nat.min_eq_left hv] at htaken
  rw [hall, hwhole, Nat.ofDigitChars_eq_ofDigitChars_zero, List.length_take, Nat.min_eq_left hv]
  generalize Nat.ofDigitChars 10 (ws.take u) 0 = n at *
  generalize Nat.ofDigitChars 10 (ws.drop u) 0 = r at *
  generalize Nat.ofDigitChars 10 (fs.take v) 0 = t at *
  generalize Nat.ofDigitChars 10 fs 0 = f at *
  generalize ws.length - u = k at *
  generalize fs.length = l at *
  have hk : (0 : ℚ) < 10 ^ k := by positivity
  have hlarge : (10 : ℚ) ^ 18 ≤ n := by exact_mod_cast hlarge
  have hleft : (r : ℚ) + 1 ≤ 10 ^ k := by exact_mod_cast hleft
  have htaken : (t : ℚ) ≤ 10 ^ v := by exact_mod_cast htaken.le
  have hfraction : (f : ℚ) ≤ 10 ^ l := by exact_mod_cast hfraction.le
  have ha : (((10 ^ v * n + t : ℕ) : ℚ)) * 10 ^ ((k : ℤ) - v) = n * 10 ^ k + t / 10 ^ v * 10 ^ k := by
    rw [zpow_sub₀ (by norm_num), zpow_natCast, zpow_natCast]
    push_cast
    field_simp
  have hb : ((10 ^ l * (10 ^ k * n + r) + f : ℕ) : ℚ) * 10 ^ (-(l : ℤ)) = n * 10 ^ k + (r + f / 10 ^ l) := by
    rw [zpow_neg, zpow_natCast]
    push_cast
    field_simp
    ring
  rw [ha, hb]
  have ht : (t : ℚ) / 10 ^ v ≤ 1 := (div_le_one (by positivity)).2 htaken
  have hf : (f : ℚ) / 10 ^ l ≤ 1 := (div_le_one (by positivity)).2 hfraction
  have htk := mul_le_mul_of_nonneg_right ht hk.le
  have hfrac : (0 : ℚ) ≤ f / 10 ^ l := by positivity
  refine within_of_interval (x := n * 10 ^ k) (d := 10 ^ k) (mul_le_mul_of_nonneg_right hlarge hk.le) ?_ ?_ ?_ ?_
  · exact le_add_of_nonneg_right (by positivity)
  · linarith
  · exact le_add_of_nonneg_right (by positivity)
  · linarith

/-- The whole part was taken up, and of the fraction a beginning. -/
theorem within_of_fraction (hfs : ∀ c ∈ fs, c.isDigit = true) {v : ℕ} (hv : v ≤ fs.length)
    (hlarge : v < fs.length → 10 ^ 18 ≤ Nat.ofDigitChars 10 (fs.take v) s) :
    Binary64.Within (1 + 1 / 10 ^ 18) ((Nat.ofDigitChars 10 (fs.take v) s : ℕ) * 10 ^ (-(v : ℤ)))
      ((Nat.ofDigitChars 10 fs s : ℕ) * 10 ^ (-(fs.length : ℤ))) := by
  rcases Nat.lt_or_eq_of_le hv with hlt | rfl
  · have hsplit := ofDigitChars_take_drop fs v s
    have hleft := ofDigitChars_drop_lt hfs v
    have hlarge := hlarge hlt
    rw [hsplit]
    obtain ⟨k, hk⟩ := Nat.le.dest hv
    rw [← hk] at hleft ⊢
    rw [Nat.add_sub_cancel_left] at hleft ⊢
    generalize Nat.ofDigitChars 10 (fs.take v) s = n at *
    generalize Nat.ofDigitChars 10 (fs.drop v) 0 = r at *
    have hpos : (0 : ℚ) < 10 ^ (-(v : ℤ)) := by positivity
    have hlarge : (10 : ℚ) ^ 18 ≤ n := by exact_mod_cast hlarge
    have hleft : (r : ℚ) ≤ 10 ^ k := by exact_mod_cast hleft.le
    have hb : ((10 ^ k * n + r : ℕ) : ℚ) * 10 ^ (-((v + k : ℕ) : ℤ)) =
        n * 10 ^ (-(v : ℤ)) + r / 10 ^ k * 10 ^ (-(v : ℤ)) := by
      rw [Int.natCast_add, neg_add, zpow_add₀ (by norm_num), zpow_neg _ (k : ℤ), zpow_natCast]
      push_cast
      field_simp
    have hr : (r : ℚ) / 10 ^ k ≤ 1 := (div_le_one (by positivity)).2 hleft
    have hrv := mul_le_mul_of_nonneg_right hr hpos.le
    rw [hb]
    refine within_of_interval (x := n * 10 ^ (-(v : ℤ))) (d := 10 ^ (-(v : ℤ)))
      (mul_le_mul_of_nonneg_right hlarge hpos.le) le_rfl (le_add_of_nonneg_right hpos.le) ?_ ?_
    · exact le_add_of_nonneg_right (by positivity)
    · linarith
  · rw [List.take_length]
    exact .of_eq (by norm_num) (by positivity) rfl

theorem exists_taken (hws : ∀ c ∈ ws, c.isDigit = true) (hfs : ∀ c ∈ fs, c.isDigit = true) :
    ∃ n u s v, accumulate 0 (encodeAll ws) = (n, u) ∧ accumulate n (encodeAll fs) = (s, v) ∧
      Taken ws fs s ((ws.length : ℤ) - u - v) ∧
      ((ws.length : ℤ) - u = 0 → n = Nat.ofDigitChars 10 ws 0) := by
  obtain ⟨u, hu, hacc, hle, hlong⟩ := accumulate_longest 0 hws (Nat.zero_le _)
  obtain ⟨v, hv, hacc', hle', hlong'⟩ := accumulate_longest _ hfs hle
  refine ⟨_, u, _, v, hacc, hacc', ⟨hle', ?_, fun hfit => ?_⟩, fun hall => ?_⟩
  · rcases Nat.lt_or_eq_of_le hu with hlt | rfl
    · have h := within_of_whole hws hfs (large_of_left hws hlt (hlong hlt)) hv
      rwa [Nat.cast_sub hu] at h
    · have h := within_of_fraction (s := Nat.ofDigitChars 10 ws 0) hfs hv
      rw [List.take_length, Nat.ofDigitChars_append, sub_self, zero_sub]
      rw [List.take_length] at hlong'
      exact h fun hlt => large_of_left hfs hlt (hlong' hlt)
  · rw [Nat.ofDigitChars_append] at hfit
    have hwhole : u = ws.length := by
      by_contra hne
      have hlt := Nat.lt_of_le_of_ne hu hne
      have := hlong hlt
      have := ofDigitChars_take_le ws (u + 1) 0
      have := Decimal.le_ofDigitChars fs (Nat.ofDigitChars 10 ws 0)
      omega
    subst hwhole
    rw [List.take_length] at *
    have hfraction : v = fs.length := by
      by_contra hne
      have hlt := Nat.lt_of_le_of_ne hv hne
      have := hlong' hlt
      have := ofDigitChars_take_le fs (v + 1) (Nat.ofDigitChars 10 ws 0)
      omega
    subst hfraction
    rw [List.take_length, Nat.ofDigitChars_append]
    exact ⟨rfl, by omega⟩
  · have hwhole : u = ws.length := by omega
    rw [hwhole, List.take_length]

end

/-! ## Reading literals -/

theorem foldl_digits {cs : List Char} : ∀ {m : ℕ}, (∀ c ∈ cs, c.isDigit = true) →
    (encodeAll cs).foldl (fun n d => 10 * n + digitValue d) m = Nat.ofDigitChars 10 cs m := by
  induction cs with
  | nil => exact fun _ => rfl
  | cons c cs ih =>
    intro m h
    obtain ⟨hbytes, -, hvalue⟩ := encode_digit (h c List.mem_cons_self)
    rw [encodeAll_cons, hbytes, List.singleton_append, List.foldl_cons, hvalue, Nat.ofDigitChars_cons]
    exact ih fun x hx => h x (List.mem_cons_of_mem c hx)

/-- What is read after the mark and the sign of an exponent. -/
def readPower (negative : Bool) (significand : ℕ) (exponent : ℤ) (down : Bool) : Reader Number
  | [] => .error .ended
  | d :: tail =>
    if !isDigit d then .error .malformed
    else
      let e := ((d :: tail).takeWhile isDigit).foldl (fun n d => 10 * n + digitValue d) 0
      if e < 2147483648 then do
        let x ← signedFloat negative significand (if down then exponent - e else exponent + e)
        .ok (x, (d :: tail).dropWhile isDigit)
      else if significand ≠ 0 && !down then .error .malformed
      else .ok (.float (.zero negative), (d :: tail).dropWhile isDigit)

section
variable (negative : Bool) (s : ℕ) (k : ℤ)

theorem readExponent_plus (bs : Bytes) :
    readExponent negative s k (0x2B :: bs) = readPower negative s k false bs := by
  cases bs <;> rfl

theorem readExponent_minus (bs : Bytes) :
    readExponent negative s k (0x2D :: bs) = readPower negative s k true bs := by
  cases bs <;> rfl

theorem readExponent_unsigned {b : UInt8} (bs : Bytes) (hb : isDigit b = true) :
    readExponent negative s k (b :: bs) = readPower negative s k false (b :: bs) := by
  have hplus : b ≠ 0x2B := by
    rintro rfl
    exact absurd hb (by decide)
  have hminus : b ≠ 0x2D := by
    rintro rfl
    exact absurd hb (by decide)
  unfold readExponent
  split
  next heq =>
  split at heq
  · next heq' => exact absurd (List.cons.inj heq').1 hplus
  · next heq' => exact absurd (List.cons.inj heq').1 hminus
  · cases heq
    rfl

theorem readExponent_signed (x : Exponent) : readExponent negative s k (encodeAll x.signed) =
    readPower negative s k (x.sign = .minus) (encodeAll x.digits) := by
  rw [Exponent.signed, encodeAll_append]
  cases x.sign with
  | absent =>
    obtain ⟨b, bs, hbytes, hdigits⟩ := exists_digit_bytes x.digits_ne_nil x.isDigit
    rw [hbytes]
    exact readExponent_unsigned negative s k bs (hdigits b List.mem_cons_self)
  | plus => exact readExponent_plus negative s k _
  | minus => exact readExponent_minus negative s k _

end

namespace Literal

/-- What a literal is read as: an integer, the binary number of the digits taken up, or zero because its power
of ten is far too small. -/
inductive Reads (L : Literal) : Number → Prop
  | integer (hfraction : L.fraction = []) (hexponent : L.exponent = none) (h : L.digits ≤ maxWord) :
    Reads L (integerNumber L.negative L.digits)
  | float {s : ℕ} {k : ℤ} {n : Number} (htaken : Taken L.whole L.fraction s k) (hword : ¬ L.IsWord)
    (h : signedFloat L.negative s (k + L.power) = .ok n) : Reads L n
  | zero : Reads L (.float (.zero L.negative))

variable {L : Literal} {s : ℕ} {k : ℤ} {n : Number} {rest : Bytes}

theorem Reads.of_exponent {x : Exponent} (hx : L.exponent = some x) (htaken : Taken L.whole L.fraction s k)
    (h : readExponent L.negative s k (encodeAll x.signed) = .ok (n, rest)) : L.Reads n := by
  obtain ⟨b, bs, hbytes, hdigits⟩ := exists_digit_bytes x.digits_ne_nil x.isDigit
  have hsize : ((b :: bs).takeWhile isDigit).foldl (fun n d => 10 * n + digitValue d) 0 = x.size := by
    rw [List.takeWhile_eq_self_iff.2 hdigits, ← hbytes, foldl_digits x.isDigit]
    rfl
  have hpower : L.power = if x.sign = .minus then -(x.size : ℤ) else x.size := by
    rw [power, hx]
    rfl
  rw [readExponent_signed, hbytes, readPower, hsize, hdigits b List.mem_cons_self] at h
  simp only [Bool.not_true, Bool.false_eq_true, if_false, decide_eq_true_eq] at h
  split at h
  · obtain ⟨y, hy, h⟩ := bind_eq_ok.1 h
    cases h
    refine .float htaken (fun hword => ?_) ?_
    · rw [hword.2.2.1] at hx
      cases hx
    · rw [hpower]
      split at hy
      · next hminus => rwa [if_pos hminus, ← sub_eq_add_neg]
      · next hminus => rwa [if_neg hminus]
  split at h
  · cases h
  · cases h
    exact .zero

theorem exponentChars_none (hx : L.exponent = none) : L.exponentChars = [] := by
  rw [exponentChars, hx]

theorem exponentChars_some {x : Exponent} (hx : L.exponent = some x) :
    encodeAll L.exponentChars = 0x65 :: encodeAll x.signed ∨
      encodeAll L.exponentChars = 0x45 :: encodeAll x.signed := by
  rw [exponentChars, hx, encodeAll_cons, Exponent.mark]
  cases x.capital with
  | true => exact .inr rfl
  | false => exact .inl rfl

/-- No digit follows the digits before it. -/
theorem exponentChars_ends (L : Literal) : (encodeAll L.exponentChars).takeWhile isDigit = [] ∧
    (encodeAll L.exponentChars).dropWhile isDigit = encodeAll L.exponentChars := by
  cases hx : L.exponent with
  | none =>
    rw [exponentChars_none hx]
    exact ⟨rfl, rfl⟩
  | some x =>
    rcases exponentChars_some hx with h | h
    all_goals
      rw [h]
      exact ⟨rfl, rfl⟩

theorem Reads.of_fraction (hne : L.fraction ≠ []) {m v : ℕ} {k : ℤ}
    (hacc : accumulate m (encodeAll L.fraction) = (s, v)) (htaken : Taken L.whole L.fraction s (k - v))
    (h : readFraction L.negative m k (encodeAll L.fraction ++ encodeAll L.exponentChars) = .ok (n, rest)) :
    L.Reads n := by
  obtain ⟨b, bs, hbytes, hdigits⟩ := exists_digit_bytes hne L.isDigit_fraction
  obtain ⟨htake, hdrop⟩ := exponentChars_ends L
  have htake : (encodeAll L.fraction ++ encodeAll L.exponentChars).takeWhile isDigit = encodeAll L.fraction := by
    rw [hbytes, List.takeWhile_append_of_pos hdigits, htake, List.append_nil]
  have hdrop : (encodeAll L.fraction ++ encodeAll L.exponentChars).dropWhile isDigit =
      encodeAll L.exponentChars := by
    rw [hbytes, List.dropWhile_append_of_pos hdigits, hdrop]
  have hempty : (encodeAll L.fraction).isEmpty = false := by
    rw [hbytes]
    rfl
  have hword : ¬ L.IsWord := fun hword => hne hword.2.1
  simp only [readFraction, htake, hdrop, hempty, Bool.false_eq_true, if_false, hacc] at h
  cases hx : L.exponent with
  | none =>
    rw [exponentChars_none hx] at h
    obtain ⟨y, hy, h⟩ := bind_eq_ok.1 h
    cases h
    refine .float htaken hword ?_
    rwa [power, hx, add_zero]
  | some x =>
    rcases exponentChars_some hx with hmark | hmark
    all_goals
      rw [hmark] at h
      exact .of_exponent hx htaken h

/-- Of a literal without fraction the digits taken up are all the digits if nothing was left over. -/
theorem Reads.of_whole (hfraction : L.fraction = []) (htaken : Taken L.whole L.fraction s k)
    (hall : k = 0 → s = Nat.ofDigitChars 10 L.whole 0)
    (h : readAfterWhole L.negative s k (encodeAll L.exponentChars) = .ok (n, rest)) : L.Reads n := by
  cases hx : L.exponent with
  | none =>
    rw [exponentChars_none hx] at h
    change (if k = 0 then _ else _) = _ at h
    split at h
    · next hfit =>
      cases h
      have hdigits : s = L.digits := by
        rw [digits, hfraction, List.append_nil]
        exact hall hfit
      rw [hdigits]
      exact .integer hfraction hx (hdigits ▸ htaken.fits)
    · next hleft =>
      obtain ⟨y, hy, h⟩ := bind_eq_ok.1 h
      cases h
      refine .float htaken (fun hword => ?_) ?_
      · have hk := (htaken.exact hword.2.2.2).2
        rw [hfraction] at hk
        exact hleft hk
      · rwa [power, hx, add_zero]
  | some x =>
    rcases exponentChars_some hx with hmark | hmark
    all_goals
      rw [hmark] at h
      exact .of_exponent hx htaken h

theorem leading_byte (L : Literal) : ∃ b ds, encodeAll L.whole = b :: ds ∧ (∀ x ∈ b :: ds, isDigit x = true) ∧
    (b :: ds).length = L.whole.length ∧ ¬ (b = 0x30 ∧ 1 < (b :: ds).length) :=
  exists_leading_byte L.whole_ne_nil L.isDigit_whole L.leading

theorem unsignedChars_eq (L : Literal) : encodeAll L.unsignedChars =
    encodeAll L.whole ++ (encodeAll L.fractionChars ++ encodeAll L.exponentChars) := by
  rw [unsignedChars, encodeAll_append, encodeAll_append]

theorem Reads.of_unsigned (h : readUnsigned L.negative (encodeAll L.unsignedChars) = .ok (n, rest)) :
    L.Reads n := by
  obtain ⟨b, ds, hbytes, hds, hlength, hzero⟩ := leading_byte L
  obtain ⟨m, u, s, v, hacc, hacc', htaken, hall⟩ := exists_taken L.isDigit_whole L.isDigit_fraction
  rw [hbytes] at hacc
  rw [unsignedChars_eq, hbytes] at h
  by_cases hfraction : L.fraction = []
  · obtain ⟨htake, hdrop⟩ := exponentChars_ends L
    have hchars : encodeAll L.fractionChars = [] := by
      rw [fractionChars, if_pos hfraction]
      rfl
    rw [hchars, List.nil_append, readUnsigned_digits L.negative hds hzero htake hdrop, hacc, hlength] at h
    rw [hfraction] at hacc'
    cases hacc'
    rw [Nat.cast_zero, sub_zero] at htaken
    exact .of_whole hfraction htaken hall h
  · have htail : encodeAll L.fractionChars ++ encodeAll L.exponentChars =
        0x2E :: (encodeAll L.fraction ++ encodeAll L.exponentChars) := by
      rw [fractionChars, if_neg hfraction, encodeAll_cons]
      rfl
    rw [htail, readUnsigned_digits L.negative hds hzero rfl rfl, hacc, hlength] at h
    exact .of_fraction hfraction hacc' htaken h

/-- Whatever number a literal is read as, it is one of these. -/
theorem readNumber_eq_ok (h : readNumber L.bytes = .ok (n, rest)) : L.Reads n := by
  suffices hunsigned : readUnsigned L.negative (encodeAll L.unsignedChars) = .ok (n, rest) from
    .of_unsigned hunsigned
  obtain ⟨b, ds, hbytes, hds, -, -⟩ := leading_byte L
  rw [bytes, chars] at h
  cases hneg : L.negative with
  | true =>
    rw [hneg] at h
    exact h
  | false =>
    rw [hneg] at h
    change readNumber (encodeAll L.unsignedChars) = _ at h
    rw [unsignedChars_eq, hbytes, List.cons_append] at h ⊢
    rwa [readNumber_digit _ (hds b List.mem_cons_self)] at h

end Literal

end TransferLedger.Json
