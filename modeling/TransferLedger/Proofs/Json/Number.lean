import TransferLedger.Json.Scalar
import TransferLedger.Json.Writer
import TransferLedger.Proofs.Decimal.Text
import TransferLedger.Proofs.Text.Utf8

/-! # Integers in JSON read back

The digits of a number are all taken up if the number fits into 64 bits (`accumulate_digits`); then it
is read exactly, and an integer within the range of a signed word is read back as itself
(`readInt64_written`). No other integer is ever read as one (`readInt64_outside`).
-/

namespace TransferLedger.Json
set_option autoImplicit false

open Text (encodeAll encodeAll_cons encodeAll_append)

/-- What may follow a value inside an object or array, or at the end of the text. -/
inductive Ends : Bytes → Prop
  | nil : Ends []
  | comma (rest : Bytes) : Ends (0x2C :: rest)
  | bracket (rest : Bytes) : Ends (0x5D :: rest)
  | brace (rest : Bytes) : Ends (0x7D :: rest)

/-! ## Digits -/

theorem encode_digit {c : Char} (h : c.isDigit = true) :
    String.utf8EncodeChar c = [UInt8.ofNat c.toNat] ∧ isDigit (UInt8.ofNat c.toNat) = true ∧
      digitValue (UInt8.ofNat c.toNat) = c.toNat - '0'.toNat := by
  obtain ⟨hlow, hhigh⟩ := Decimal.toNat_of_isDigit h
  have hb : (UInt8.ofNat c.toNat).toNat = c.toNat := by
    rw [UInt8.toNat_ofNat']
    omega
  refine ⟨Text.encode_ascii (by omega), ?_, ?_⟩
  · simp only [isDigit, Bool.and_eq_true, decide_eq_true_eq, UInt8.le_iff_toNat_le, hb]
    exact ⟨hlow, hhigh⟩
  · rw [digitValue, hb]
    rfl

theorem toDigits_isDigit (n : Nat) : ∀ c ∈ Nat.toDigits 10 n, c.isDigit = true :=
  fun _ hc => Nat.isDigit_of_mem_toDigits (by decide) (by decide) hc

theorem digits_isDigit {cs : List Char} (h : ∀ c ∈ cs, c.isDigit = true) :
    ∀ b ∈ encodeAll cs, isDigit b = true := by
  intro b hb
  obtain ⟨c, hc, hb⟩ := List.mem_flatMap.1 hb
  obtain ⟨hbytes, hdigit, -⟩ := encode_digit (h c hc)
  rw [hbytes, List.mem_singleton] at hb
  rw [hb]
  exact hdigit

theorem length_digits {cs : List Char} (h : ∀ c ∈ cs, c.isDigit = true) :
    (encodeAll cs).length = cs.length := by
  induction cs with
  | nil => rfl
  | cons c cs ih =>
    rw [encodeAll_cons, (encode_digit (h c List.mem_cons_self)).1, List.singleton_append,
      List.length_cons, List.length_cons, ih fun x hx => h x (List.mem_cons_of_mem c hx)]

theorem exists_digit_bytes {cs : List Char} (hne : cs ≠ []) (h : ∀ c ∈ cs, c.isDigit = true) :
    ∃ b bs, encodeAll cs = b :: bs ∧ ∀ x ∈ b :: bs, isDigit x = true := by
  obtain ⟨c, ds, rfl⟩ := List.exists_cons_of_ne_nil hne
  have hdigits := digits_isDigit h
  obtain ⟨hbytes, -, -⟩ := encode_digit (h c List.mem_cons_self)
  rw [encodeAll_cons, hbytes, List.singleton_append] at hdigits ⊢
  exact ⟨_, _, rfl, hdigits⟩

theorem ofDigitChars_take_drop (cs : List Char) (u s : Nat) : Nat.ofDigitChars 10 cs s =
    10 ^ (cs.length - u) * Nat.ofDigitChars 10 (cs.take u) s + Nat.ofDigitChars 10 (cs.drop u) 0 := by
  have hsplit := Nat.ofDigitChars_append (b := 10) (l := cs.take u) (m := cs.drop u) s
  rw [List.take_append_drop] at hsplit
  rw [hsplit, Nat.ofDigitChars_eq_ofDigitChars_zero, List.length_drop]

theorem ofDigitChars_take_le (cs : List Char) (u s : Nat) :
    Nat.ofDigitChars 10 (cs.take u) s ≤ Nat.ofDigitChars 10 cs s := by
  rw [ofDigitChars_take_drop cs u s]
  exact Nat.le_add_right_of_le (Nat.le_mul_of_pos_left _ (Nat.pow_pos (by decide)))

/-- As many digits are taken up as make a number that fits. -/
theorem accumulate_longest : ∀ {cs : List Char} (s : Nat), (∀ c ∈ cs, c.isDigit = true) → s ≤ maxWord →
    ∃ u ≤ cs.length, accumulate s (encodeAll cs) = (Nat.ofDigitChars 10 (cs.take u) s, u) ∧
      Nat.ofDigitChars 10 (cs.take u) s ≤ maxWord ∧
      (u < cs.length → maxWord < Nat.ofDigitChars 10 (cs.take (u + 1)) s)
  | [], s, _, hs => ⟨0, Nat.le_refl 0, rfl, hs, fun h => absurd h (Nat.lt_irrefl 0)⟩
  | c :: cs, s, h, hs => by
    obtain ⟨hbytes, -, hvalue⟩ := encode_digit (h c List.mem_cons_self)
    have hcons : ∀ u, Nat.ofDigitChars 10 ((c :: cs).take (u + 1)) s =
        Nat.ofDigitChars 10 (cs.take u) (s * 10 + (c.toNat - '0'.toNat)) := by
      intro u
      rw [List.take_succ_cons, Nat.ofDigitChars_cons, Nat.mul_comm]
    rw [encodeAll_cons, hbytes, List.singleton_append, accumulate, hvalue]
    by_cases hbig : maxWord < s * 10 + (c.toNat - '0'.toNat)
    · simp only [if_pos hbig]
      refine ⟨0, Nat.zero_le _, rfl, hs, fun _ => ?_⟩
      rw [hcons]
      exact hbig
    · obtain ⟨u, hu, hacc, hle, hlong⟩ := accumulate_longest (s * 10 + (c.toNat - '0'.toNat))
        (fun x hx => h x (List.mem_cons_of_mem c hx)) (Nat.not_lt.1 hbig)
      simp only [if_neg hbig, hacc]
      refine ⟨u + 1, Nat.succ_le_succ hu, by rw [hcons], by rw [hcons]; exact hle, fun hlt => ?_⟩
      rw [hcons]
      exact hlong (Nat.lt_of_succ_lt_succ hlt)

theorem accumulate_digits {cs : List Char} (s : Nat) (h : ∀ c ∈ cs, c.isDigit = true) (hs : s ≤ maxWord) :
    (Nat.ofDigitChars 10 cs s ≤ maxWord →
      accumulate s (encodeAll cs) = (Nat.ofDigitChars 10 cs s, cs.length)) ∧
    (maxWord < Nat.ofDigitChars 10 cs s → (accumulate s (encodeAll cs)).2 < cs.length) := by
  obtain ⟨u, hu, hacc, hle, hlong⟩ := accumulate_longest s h hs
  rw [hacc]
  rcases Nat.lt_or_eq_of_le hu with hlt | rfl
  · have hover := Nat.lt_of_lt_of_le (hlong hlt) (ofDigitChars_take_le cs (u + 1) s)
    exact ⟨fun hfit => absurd hover (Nat.not_lt.2 hfit), fun _ => hlt⟩
  · rw [List.take_length] at hle ⊢
    exact ⟨fun _ => rfl, fun hover => absurd hle (Nat.not_le.2 hover)⟩

/-- A number above zero is written without zeros in front. -/
theorem head_toDigits (n : Nat) (h : 0 < n) : (Nat.toDigits 10 n).head? ≠ some '0' := by
  induction n using Nat.strongRecOn with
  | ind n ih =>
    by_cases hlt : n < 10
    · have hdigit : ∀ k < 10, 0 < k → some (Nat.digitChar k) ≠ some '0' := by decide
      rw [Nat.toDigits_of_lt_base hlt]
      exact hdigit n hlt h
    · obtain ⟨c, cs, hcs⟩ := List.exists_cons_of_ne_nil (Nat.toDigits_ne_nil (n := n / 10) (b := 10))
      have hrest := ih (n / 10) (by omega) (by omega)
      rw [hcs] at hrest
      rw [Nat.toDigits_of_base_le (by decide) (Nat.not_lt.1 hlt), hcs]
      exact hrest

/-! ## Numbers -/

theorem isDigit_of_ends {rest : Bytes} (h : Ends rest) : rest.takeWhile isDigit = [] ∧
    rest.dropWhile isDigit = rest := by
  cases h <;> exact ⟨rfl, rfl⟩

/-- What is read after the whole part of a number: a fraction, an exponent or neither. -/
def readAfterWhole (negative : Bool) (significand : Nat) (dropped : Int) : Reader Number
  | 0x2E :: rest => readFraction negative significand dropped rest
  | 0x65 :: rest => readExponent negative significand dropped rest
  | 0x45 :: rest => readExponent negative significand dropped rest
  | rest =>
    if dropped = 0 then .ok (integerNumber negative significand, rest)
    else signedFloat negative significand dropped >>= fun x => .ok (x, rest)

theorem readUnsigned_digits (negative : Bool) {b : UInt8} {ds rest : Bytes}
    (hds : ∀ x ∈ b :: ds, isDigit x = true) (hzero : ¬ (b = 0x30 ∧ 1 < (b :: ds).length))
    (htake : rest.takeWhile isDigit = []) (hdrop : rest.dropWhile isDigit = rest) :
    readUnsigned negative (b :: ds ++ rest) = readAfterWhole negative (accumulate 0 (b :: ds)).1
      (((b :: ds).length : Int) - (accumulate 0 (b :: ds)).2) rest := by
  have htake' : (b :: (ds ++ rest)).takeWhile isDigit = b :: ds := by
    rw [← List.cons_append, List.takeWhile_append_of_pos hds, htake, List.append_nil]
  have hdrop' : (b :: (ds ++ rest)).dropWhile isDigit = rest := by
    rw [← List.cons_append, List.dropWhile_append_of_pos hds, hdrop]
  have hb := hds b List.mem_cons_self
  have hcond : ¬ ((decide (b = 0x30) && decide (1 < (b :: ds).length)) = true) := by
    simpa using hzero
  rw [List.cons_append, readUnsigned]
  simp only [htake', hdrop', hb, Bool.not_true, Bool.false_eq_true, if_false, if_neg hcond]
  split
  · rfl
  · rfl
  · rfl
  · next hpoint hmark hmark' =>
    rw [readAfterWhole]
    · exact hpoint
    · exact hmark
    · exact hmark'

theorem readUnsigned_run (negative : Bool) {b : UInt8} {ds rest : Bytes}
    (hds : ∀ x ∈ b :: ds, isDigit x = true) (hzero : ¬ (b = 0x30 ∧ 1 < (b :: ds).length))
    (hrest : Ends rest) :
    readUnsigned negative (b :: ds ++ rest) =
      if ((b :: ds).length : Int) - (accumulate 0 (b :: ds)).2 = 0 then
        .ok (integerNumber negative (accumulate 0 (b :: ds)).1, rest)
      else signedFloat negative (accumulate 0 (b :: ds)).1
        (((b :: ds).length : Int) - (accumulate 0 (b :: ds)).2) >>= fun x => .ok (x, rest) := by
  obtain ⟨htake, hdrop⟩ := isDigit_of_ends hrest
  rw [readUnsigned_digits negative hds hzero htake hdrop]
  cases hrest <;> rfl

/-- The bytes of digits that begin with a zero only if there is no other digit. -/
theorem exists_leading_byte {cs : List Char} (hne : cs ≠ []) (h : ∀ c ∈ cs, c.isDigit = true)
    (hzero : cs.head? = some '0' → cs.length = 1) : ∃ b ds, encodeAll cs = b :: ds ∧
      (∀ x ∈ b :: ds, isDigit x = true) ∧ (b :: ds).length = cs.length ∧
      ¬ (b = 0x30 ∧ 1 < (b :: ds).length) := by
  obtain ⟨b, ds, hbytes, hdigits⟩ := exists_digit_bytes hne h
  have hlength : (b :: ds).length = cs.length := hbytes ▸ length_digits h
  refine ⟨b, ds, hbytes, hdigits, hlength, ?_⟩
  rintro ⟨rfl, hmore⟩
  obtain ⟨c, cs, rfl⟩ := List.exists_cons_of_ne_nil hne
  have hc := h c List.mem_cons_self
  rw [encodeAll_cons, (encode_digit hc).1, List.singleton_append] at hbytes
  have hrange := Decimal.toNat_of_isDigit hc
  have heq := congrArg UInt8.toNat (List.cons.inj hbytes).1
  rw [UInt8.toNat_ofNat', Nat.mod_eq_of_lt (by omega)] at heq
  have := hzero (congrArg some (Char.toNat_inj.1 heq))
  omega

theorem exists_digits (n : Nat) : ∃ b ds, encodeAll (Nat.toDigits 10 n) = b :: ds ∧
    (∀ x ∈ b :: ds, isDigit x = true) ∧ (b :: ds).length = (Nat.toDigits 10 n).length ∧
    ¬ (b = 0x30 ∧ 1 < (b :: ds).length) := by
  refine exists_leading_byte Nat.toDigits_ne_nil (toDigits_isDigit n) fun hhead => ?_
  rcases Nat.eq_zero_or_pos n with rfl | hn
  · rfl
  · exact absurd hhead (head_toDigits n hn)

theorem readUnsigned_fits (negative : Bool) {n : Nat} (h : n ≤ maxWord) {rest : Bytes}
    (hrest : Ends rest) : readUnsigned negative (encodeAll (Nat.toDigits 10 n) ++ rest) =
      .ok (integerNumber negative n, rest) := by
  obtain ⟨b, ds, hbytes, hds, hlength, hzero⟩ := exists_digits n
  have hacc := (accumulate_digits 0 (toDigits_isDigit n) (Nat.zero_le _)).1
  rw [Nat.ofDigitChars_ten_toDigits, hbytes] at hacc
  rw [hbytes, readUnsigned_run negative hds hzero hrest, hacc h, hlength,
    if_pos (Int.sub_self _)]

theorem readUnsigned_over (negative : Bool) {n : Nat} (h : maxWord < n) :
    ∃ s k, ∀ rest, Ends rest → readUnsigned negative (encodeAll (Nat.toDigits 10 n) ++ rest) =
      signedFloat negative s k >>= fun x => .ok (x, rest) := by
  obtain ⟨b, ds, hbytes, hds, hlength, hzero⟩ := exists_digits n
  have hacc := (accumulate_digits 0 (toDigits_isDigit n) (Nat.zero_le _)).2
  rw [Nat.ofDigitChars_ten_toDigits, hbytes] at hacc
  have hlt := hacc h
  refine ⟨(accumulate 0 (b :: ds)).1, (b :: ds).length - (accumulate 0 (b :: ds)).2, ?_⟩
  intro rest hrest
  rw [hbytes, readUnsigned_run negative hds hzero hrest, if_neg (by omega)]

/-! ## Integers -/

/-- The bytes of an integer in JSON. -/
def integerBytes (n : Int) : Bytes := encodeAll (toString n).toList

theorem toList_natCast (n : Nat) : (toString (n : Int)).toList = Nat.toDigits 10 n := by
  rw [Int.toString_eq_repr, Int.repr_eq_if, if_pos (Int.natCast_nonneg n), Int.toNat_natCast, Nat.toList_repr]

theorem toList_neg {n : Nat} (h : 0 < n) : (toString (-n : Int)).toList = '-' :: Nat.toDigits 10 n := by
  rw [Int.toString_eq_repr, Int.repr_eq_if, if_neg (by omega), Int.neg_neg, Int.toNat_natCast,
    String.toList_append, Nat.toList_repr]
  rfl

theorem integerBytes_natCast (n : Nat) : integerBytes n = encodeAll (Nat.toDigits 10 n) := by
  rw [integerBytes, toList_natCast]

theorem integerBytes_neg {n : Nat} (h : 0 < n) :
    integerBytes (-n) = 0x2D :: encodeAll (Nat.toDigits 10 n) := by
  rw [integerBytes, toList_neg h]
  exact encodeAll_cons '-' _

theorem integerNumber_false (n : Nat) : integerNumber false n = .integer n := rfl

/-- What reading a number makes of an integer: a signed word or an error. -/
def wordOf (r : Except ReadError (Number × Bytes)) : Except ReadError (Int × Bytes) :=
  match r with
  | .ok (.integer n, rest) =>
    if n < 9223372036854775808 then .ok (n, rest)
    else .error (.unfit none (.invalidValue (.integer n) "i64"))
  | .ok (.float x, _) => .error (.unfit none (.invalidType (.float x) "i64"))
  | .error e => .error e

theorem skipSpace_digit {b : UInt8} (bs : Bytes) (h : isDigit b = true) :
    skipSpace (b :: bs) = b :: bs := by
  have hspace : isSpace b = false := by
    simp only [isDigit, Bool.and_eq_true, decide_eq_true_eq, UInt8.le_iff_toNat_le] at h
    have hlow : 48 ≤ b.toNat := h.1
    simp only [isSpace, Bool.or_eq_false_iff, beq_eq_false_iff_ne]
    refine ⟨⟨⟨?_, ?_⟩, ?_⟩, ?_⟩ <;> (rintro rfl; exact absurd hlow (by decide))
  rw [skipSpace, List.dropWhile_cons_of_neg (by rw [hspace]; decide)]

theorem readNumber_digit {b : UInt8} (bs : Bytes) (h : isDigit b = true) :
    readNumber (b :: bs) = readUnsigned false (b :: bs) := by
  have hminus : b ≠ 0x2D := by
    rintro rfl
    exact absurd h (by decide)
  unfold readNumber
  split
  · next heq => exact absurd (List.cons.inj heq).1 hminus
  · rfl

theorem readInt64_digit {b : UInt8} (bs : Bytes) (h : isDigit b = true) :
    readInt64 (b :: bs) = wordOf (readUnsigned false (b :: bs)) := by
  rw [readInt64, skipSpace_digit bs h]
  simp only [h, Bool.or_true, if_true, readNumber_digit bs h]
  rfl

theorem readInt64_minus (bs : Bytes) : readInt64 (0x2D :: bs) = wordOf (readUnsigned true bs) := rfl

theorem wordOf_signedFloat (negative : Bool) (s : Nat) (k : Int) :
    ∃ e, ∀ rest, wordOf (signedFloat negative s k >>= fun x => .ok (x, rest)) = .error e := by
  unfold signedFloat
  cases floatOfParts (.ofNat s) k 8 with
  | error e => exact ⟨e, fun _ => rfl⟩
  | ok x => exact ⟨_, fun _ => rfl⟩

theorem readInt64_written {n : Int} (hlow : -9223372036854775808 ≤ n)
    (hhigh : n < 9223372036854775808) {rest : Bytes} (hrest : Ends rest) :
    readInt64 (integerBytes n ++ rest) = .ok (n, rest) := by
  by_cases hneg : n < 0
  · obtain ⟨k, rfl⟩ : ∃ k : Nat, n = -(k : Int) := ⟨n.natAbs, by omega⟩
    have hfits : k ≤ maxWord := by
      unfold maxWord
      omega
    have hnumber : integerNumber true k = .integer (-k) := by
      simp only [integerNumber, Bool.not_true, Bool.false_eq_true, if_false]
      rw [if_pos]
      simp only [Bool.and_eq_true, decide_eq_true_eq]
      omega
    rw [integerBytes_neg (by omega), List.cons_append, readInt64_minus,
      readUnsigned_fits true hfits hrest, hnumber, wordOf, if_pos hhigh]
  · obtain ⟨k, rfl⟩ : ∃ k : Nat, n = (k : Int) := ⟨n.natAbs, by omega⟩
    have hfits : k ≤ maxWord := by
      unfold maxWord
      omega
    obtain ⟨b, ds, hbytes, hds, -, -⟩ := exists_digits k
    have hread := readUnsigned_fits false hfits hrest
    rw [hbytes, List.cons_append] at hread
    rw [integerBytes_natCast, hbytes, List.cons_append,
      readInt64_digit _ (hds b List.mem_cons_self), hread, integerNumber_false, wordOf,
      if_pos hhigh]

theorem readInt64_outside {n : Int} (h : ¬ (-9223372036854775808 ≤ n ∧ n < 9223372036854775808)) :
    ∃ e, ∀ rest, Ends rest → readInt64 (integerBytes n ++ rest) = .error e := by
  by_cases hneg : n < 0
  · obtain ⟨k, rfl⟩ : ∃ k : Nat, n = -(k : Int) := ⟨n.natAbs, by omega⟩
    rw [integerBytes_neg (by omega)]
    by_cases hfits : k ≤ maxWord
    · have hnumber : integerNumber true k = .float (Binary64.ofNat k).neg := by
        simp only [integerNumber, Bool.not_true, Bool.false_eq_true, if_false]
        rw [if_neg]
        simp only [Bool.and_eq_true, decide_eq_true_eq]
        omega
      refine ⟨.unfit none (.invalidType (.float (Binary64.ofNat k).neg) "i64"), ?_⟩
      intro rest hrest
      rw [List.cons_append, readInt64_minus, readUnsigned_fits true hfits hrest, hnumber, wordOf]
    · obtain ⟨s, j, hread⟩ := readUnsigned_over true (Nat.not_le.1 hfits)
      obtain ⟨e, he⟩ := wordOf_signedFloat true s j
      refine ⟨e, fun rest hrest => ?_⟩
      rw [List.cons_append, readInt64_minus, hread rest hrest, he]
  · obtain ⟨k, rfl⟩ : ∃ k : Nat, n = (k : Int) := ⟨n.natAbs, by omega⟩
    obtain ⟨b, ds, hbytes, hds, -, -⟩ := exists_digits k
    have hword : ∀ rest, readInt64 (integerBytes k ++ rest) =
        wordOf (readUnsigned false (encodeAll (Nat.toDigits 10 k) ++ rest)) := by
      intro rest
      rw [integerBytes_natCast, hbytes, List.cons_append,
        readInt64_digit _ (hds b List.mem_cons_self)]
    by_cases hfits : k ≤ maxWord
    · refine ⟨.unfit none (.invalidValue (.integer k) "i64"), ?_⟩
      intro rest hrest
      rw [hword, readUnsigned_fits false hfits hrest, integerNumber_false, wordOf,
        if_neg (by omega)]
    · obtain ⟨s, j, hread⟩ := readUnsigned_over false (Nat.not_le.1 hfits)
      obtain ⟨e, he⟩ := wordOf_signedFloat false s j
      refine ⟨e, fun rest hrest => ?_⟩
      rw [hword, hread rest hrest, he]

end TransferLedger.Json
