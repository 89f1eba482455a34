import TransferLedger.Account
import TransferLedger.Ledger.Entry
import TransferLedger.Proofs.Instant.Order
import TransferLedger.Proofs.Store.Engine

/-! # Times are read back from their texts

A time is read back as it was written, from its text with `Z` (`Instant.read_text`) and from its column
(`Instant.read_columnText`). A field of digits is read by its width (`readNumber_padded`), so only what has no
fixed width needs a character after it that is no digit: the fraction, and a year with a sign
(`readYear_signed`).
-/

namespace TransferLedger.Instant
set_option autoImplicit false

/-! ## Fields -/

theorem isDigit_eq (c : Char) : isDigit c = c.isDigit := by
  rw [Bool.eq_iff_iff, isDigit, Bool.and_eq_true, decide_eq_true_iff, decide_eq_true_iff,
    Char.isDigit_iff_toNat]
  exact Iff.rfl

theorem digitsValue_eq (cs : List Char) : digitsValue cs = Nat.ofDigitChars 10 cs 0 := rfl

/-- A run of digits that fills its width, or is followed by something else. -/
theorem readNumber_run {width : Nat} {ds cs : List Char} (hds : ∀ c ∈ ds, c.isDigit = true)
    (hpos : ds ≠ []) (hwidth : ds.length ≤ width)
    (hend : (cs.take (width - ds.length)).takeWhile isDigit = []) :
    readNumber width (ds ++ cs) = .ok (Nat.ofDigitChars 10 ds 0, cs) := by
  have hdigits : ∀ c ∈ ds, isDigit c = true := fun c hc => (isDigit_eq c).trans (hds c hc)
  have htake : ((ds ++ cs).take width).takeWhile isDigit = ds := by
    rw [List.take_append, List.take_of_length_le hwidth, List.takeWhile_append_of_pos hdigits, hend,
      List.append_nil]
  cases ds with
  | nil => exact absurd rfl hpos
  | cons c ds =>
    rw [List.cons_append] at htake ⊢
    rw [readNumber, if_pos (hdigits c List.mem_cons_self)]
    simp only [htake, digitsValue_eq, List.length_cons, List.drop_succ_cons, List.drop_left]

theorem readNumber_padded {width n : Nat} (hw : 0 < width) (h : n < 10 ^ width) (cs : List Char) :
    readNumber width (Decimal.paddedDigits width n ++ cs) = .ok (n, cs) := by
  have hlength := Decimal.length_paddedDigits hw h
  have hvalue := Decimal.ofDigitChars_paddedDigits hw h 0
  rw [Nat.mul_zero, Nat.zero_add] at hvalue
  have hend : (cs.take (width - (Decimal.paddedDigits width n).length)).takeWhile isDigit = [] := by
    rw [hlength, Nat.sub_self]
    rfl
  have hpos : Decimal.paddedDigits width n ≠ [] :=
    List.ne_nil_of_length_pos (Nat.lt_of_lt_of_eq hw hlength.symm)
  rw [readNumber_run (fun _ => Decimal.isDigit_paddedDigits) hpos (Nat.le_of_eq hlength) hend, hvalue]

theorem skipBlanks_cons {c : Char} (hc : Text.isBlank c = false) (cs : List Char) :
    skipBlanks (c :: cs) = c :: cs :=
  List.dropWhile_cons_of_neg (Bool.eq_false_iff.1 hc)

theorem skipBlanks_padded {width n : Nat} (hw : 0 < width) (h : n < 10 ^ width) (cs : List Char) :
    skipBlanks (Decimal.paddedDigits width n ++ cs) = Decimal.paddedDigits width n ++ cs := by
  obtain ⟨c, ds, hpadded, hc⟩ := Decimal.exists_paddedDigits hw h
  rw [hpadded]
  exact skipBlanks_cons (Decimal.isBlank_of_isDigit hc) (ds ++ cs)

theorem readPart_padded {low high n : Nat} (h : n < 10 ^ 2) (hlow : low ≤ n) (hhigh : n ≤ high)
    (cs : List Char) : readPart low high (Decimal.paddedDigits 2 n ++ cs) = .ok (n, cs) := by
  rw [readPart, skipBlanks_padded (by decide) h, readNumber_padded (by decide) h]
  exact if_pos ⟨hlow, hhigh⟩

theorem readSeparator_self {c : Char} (hc : Text.isBlank c = false) (cs : List Char) :
    readSeparator c (c :: cs) = .ok cs := by
  rw [readSeparator, skipBlanks_cons hc]
  exact if_pos rfl

theorem readYear_padded {n : Nat} (h : n < 10 ^ 4) (cs : List Char) :
    readYear (Decimal.paddedDigits 4 n ++ cs) = .ok ((n : Int), cs) := by
  obtain ⟨c, ds, hpadded, hc⟩ := Decimal.exists_paddedDigits (by decide) h
  have hnumber := readNumber_padded (by decide) h cs
  have hskip := skipBlanks_padded (by decide) h cs
  rw [hpadded, List.cons_append] at hnumber hskip ⊢
  have hminus : c ≠ '-' := fun e => absurd (e ▸ hc) (by decide)
  have hplus : c ≠ '+' := fun e => absurd (e ▸ hc) (by decide)
  rw [readYear, hskip]
  split
  · next heq => exact absurd (List.cons.inj heq).1 hminus
  · next heq => exact absurd (List.cons.inj heq).1 hplus
  · have hrange : -2147483648 ≤ (n : Int) ∧ (n : Int) < 2147483648 := by omega
    exact bind_eq_ok.2 ⟨_, hnumber, bind_eq_ok.2 ⟨_, rfl, if_pos hrange⟩⟩

theorem takeWhile_isDigit {c : Char} (hc : c.isDigit = false) (n : Nat) (cs : List Char) :
    ((c :: cs).take n).takeWhile isDigit = [] := by
  cases n with
  | zero => rfl
  | succ n =>
    rw [List.take_succ_cons,
      List.takeWhile_cons_of_neg (by rw [isDigit_eq, hc]; exact Bool.false_ne_true)]

theorem readLong_padded {width n : Nat} (h : n < 9223372036854775808) {c : Char} (hc : c.isDigit = false)
    (cs : List Char) : readLong (Decimal.paddedDigits width n ++ c :: cs) = .ok (n, c :: cs) := by
  have hpos : Decimal.paddedDigits width n ≠ [] := by
    intro hnil
    exact Nat.toDigits_ne_nil (List.append_eq_nil_iff.1 hnil).2
  have hwidth : (Decimal.paddedDigits width n).length ≤ (Decimal.paddedDigits width n ++ c :: cs).length := by
    rw [List.length_append]
    omega
  have hread := readNumber_run (fun _ => Decimal.isDigit_paddedDigits) hpos hwidth (takeWhile_isDigit hc _ cs)
  rw [Decimal.value_paddedDigits] at hread
  exact bind_eq_ok.2 ⟨_, hread, if_pos h⟩

/-- A year with a sign ends where no digit follows. -/
theorem readYear_signed {y : Int} (hlow : -2147483648 ≤ y) (hhigh : y < 2147483648) {c : Char}
    (hc : c.isDigit = false) (cs : List Char) :
    readYear ((if y < 0 then '-' else '+') :: (Decimal.paddedDigits 4 y.natAbs ++ c :: cs)) =
      .ok (y, c :: cs) := by
  have hlong : readLong (Decimal.paddedDigits 4 y.natAbs ++ c :: cs) = .ok (y.natAbs, c :: cs) :=
    readLong_padded (by omega) hc cs
  have hrange : -2147483648 ≤ y ∧ y < 2147483648 := ⟨hlow, hhigh⟩
  by_cases hneg : y < 0
  · have hy : -(y.natAbs : Int) = y := by omega
    rw [if_pos hneg, readYear, skipBlanks_cons (by decide)]
    refine bind_eq_ok.2 ⟨_, hlong, bind_eq_ok.2 ⟨(y, c :: cs), ?_, if_pos hrange⟩⟩
    exact congrArg (fun n : Int => (.ok (n, c :: cs) : Except InstantError (Int × List Char))) hy
  · have hy : (y.natAbs : Int) = y := by omega
    rw [if_neg hneg, readYear, skipBlanks_cons (by decide)]
    refine bind_eq_ok.2 ⟨_, hlong, bind_eq_ok.2 ⟨(y, c :: cs), ?_, if_pos hrange⟩⟩
    exact congrArg (fun n : Int => (.ok (n, c :: cs) : Except InstantError (Int × List Char))) hy

theorem readYear_written {y : Int} (hlow : -2147483648 ≤ y) (hhigh : y < 2147483648) {c : Char}
    (hc : c.isDigit = false) (cs : List Char) : readYear (yearChars y ++ c :: cs) = .ok (y, c :: cs) := by
  rw [yearChars]
  split
  · next hyear =>
    rw [readYear_padded (by omega), Int.toNat_of_nonneg hyear.1]
  · exact readYear_signed hlow hhigh hc cs

theorem readFraction_padded {width n nanos : Nat} (hw : 0 < width) (hwidth : width ≤ 9)
    (h : n < 10 ^ width) (hnanos : n * 10 ^ (9 - width) = nanos) {c : Char} (hc : c.isDigit = false)
    (cs : List Char) : readFraction ('.' :: (Decimal.paddedDigits width n ++ c :: cs)) =
      .ok (nanos, c :: cs) := by
  have hlength := Decimal.length_paddedDigits hw h
  have hvalue := Decimal.ofDigitChars_paddedDigits hw h 0
  rw [Nat.mul_zero, Nat.zero_add] at hvalue
  have hpos : Decimal.paddedDigits width n ≠ [] :=
    List.ne_nil_of_length_pos (Nat.lt_of_lt_of_eq hw hlength.symm)
  have hread := readNumber_run (fun _ => Decimal.isDigit_paddedDigits) hpos (hlength.trans_le hwidth)
    (takeWhile_isDigit hc (9 - (Decimal.paddedDigits width n).length) cs)
  have hdrop : (c :: cs).dropWhile isDigit = c :: cs :=
    List.dropWhile_cons_of_neg (by rw [isDigit_eq, hc]; exact Bool.false_ne_true)
  simp only [readFraction, hread, hvalue, hdrop, List.length_append, hlength, Nat.add_sub_cancel]
  rw [← hnanos]
  rfl

/-- A fraction ends where no digit follows. -/
theorem readFraction_written {nanos : Nat} (h : nanos < 1000000000) {c : Char} (hc : c.isDigit = false)
    (hpoint : c ≠ '.') (cs : List Char) :
    readFraction (fractionChars nanos ++ c :: cs) = .ok (nanos, c :: cs) := by
  unfold fractionChars
  split
  · next hzero =>
    rw [hzero, List.nil_append, readFraction]
    intro rest heq
    exact hpoint (List.cons.inj heq).1
  · split
    · next hmillis =>
      exact readFraction_padded (by decide) (by decide) (by omega)
        (Nat.div_mul_cancel (Nat.dvd_of_mod_eq_zero hmillis)) hc cs
    · split
      · next hmicros =>
        exact readFraction_padded (by decide) (by decide) (by omega)
          (Nat.div_mul_cancel (Nat.dvd_of_mod_eq_zero hmicros)) hc cs
      · exact readFraction_padded (by decide) (by decide) h (Nat.mul_one nanos) hc cs

/-! ## Texts -/

theorem toDays_date (t : Instant) : t.date.toDays = t.seconds / 86400 := by
  rw [date_eq, CalendarDate.toDays_ofDays]

/-- The time that is made of what is written of a time. -/
theorem rebuilt {t : Instant}
    (hleap : t.nanos < 1000000000 ∨ (t.nanos < 2000000000 ∧ t.seconds % 60 = 59)) :
    (⟨(⟨t.date.year, t.date.month, t.date.day⟩ : CalendarDate).toDays * 86400 +
        ((t.secondOfDay / 3600 * 3600 + t.secondOfDay / 60 % 60 * 60 +
          if (t.shownSecond == 60) = true then 59 else t.shownSecond : Nat) : Int) - 0,
      if (t.shownSecond == 60) = true then t.shownNanos + 1000000000 else t.shownNanos⟩ : Instant) = t := by
  have hdate : (⟨t.date.year, t.date.month, t.date.day⟩ : CalendarDate).toDays = t.seconds / 86400 :=
    t.toDays_date
  have hday := t.secondOfDay_eq
  have hsixty : ((t.shownSecond == 60) = true) ↔ 1000000000 ≤ t.nanos := by
    rw [beq_iff_eq, shownSecond]
    split <;> omega
  have hseconds : t.seconds / 86400 * 86400 + ((t.secondOfDay / 3600 * 3600 +
      t.secondOfDay / 60 % 60 * 60 + if 1000000000 ≤ t.nanos then 59 else t.shownSecond : Nat) : Int) - 0 =
      t.seconds := by
    unfold shownSecond
    split <;> omega
  have hnanos : (if 1000000000 ≤ t.nanos then t.shownNanos + 1000000000 else t.shownNanos) = t.nanos := by
    unfold shownNanos
    split <;> omega
  simp only [hdate, hsixty, hseconds, hnanos]

/-- A time is read back whichever way its offset is written, if the offset is read as none. -/
theorem readChars_clockChars {t : Instant} (h : t.Representable) {c : Char} (hc : c.isDigit = false)
    (hpoint : c ≠ '.') (hblank : Text.isBlank c = false) (cs : List Char)
    (hoffset : readOffset (c :: cs) = .ok (0, [])) : readChars (t.clockChars ++ c :: cs) = .ok t := by
  have hdate := t.date_bounds
  have hmonth := CalendarDate.daysInMonth_le t.date.year t.date.month
  have hday := t.secondOfDay_eq
  have hsecond := h.shownSecond_le
  have hnanos := h.shownNanos_lt
  rw [clockChars_append]
  obtain ⟨hyear, hyear', hleap⟩ := h
  unfold readChars
  refine bind_eq_ok.2 ⟨_, readYear_written (by omega) (by omega) (by decide) _, ?_⟩
  refine bind_eq_ok.2 ⟨_, readSeparator_self (by decide) _, ?_⟩
  refine bind_eq_ok.2 ⟨_, readPart_padded (by omega) hdate.1 hdate.2.1 _, ?_⟩
  refine bind_eq_ok.2 ⟨_, readSeparator_self (by decide) _, ?_⟩
  refine bind_eq_ok.2 ⟨_, readPart_padded (by omega) hdate.2.2.1 (by omega) _, ?_⟩
  refine bind_eq_ok.2 ⟨_, rfl, ?_⟩
  refine bind_eq_ok.2 ⟨_, readPart_padded (by omega) (by omega) (by omega) _, ?_⟩
  refine bind_eq_ok.2 ⟨_, readSeparator_self (by decide) _, ?_⟩
  refine bind_eq_ok.2 ⟨_, readPart_padded (by omega) (by omega) (by omega) _, ?_⟩
  refine bind_eq_ok.2 ⟨_, readSeparator_self (by decide) _, ?_⟩
  refine bind_eq_ok.2 ⟨_, readPart_padded (by omega) (by omega) hsecond _, ?_⟩
  refine bind_eq_ok.2 ⟨_, readFraction_written hnanos hc hpoint cs, ?_⟩
  dsimp only
  rw [skipBlanks_cons hblank]
  refine bind_eq_ok.2 ⟨_, hoffset, ?_⟩
  dsimp only
  rw [rebuilt hleap]
  have hrange : yearInRange t.date.year = true := by
    rw [yearInRange, Bool.and_eq_true, decide_eq_true_iff, decide_eq_true_iff]
    omega
  have hexists : (!yearInRange t.date.year ||
      decide (CalendarDate.daysInMonth t.date.year t.date.month < t.date.day)) = false := by
    rw [hrange, Bool.not_true, Bool.false_or, decide_eq_false_iff_not]
    omega
  rw [hexists, hrange]
  rfl

theorem read_text {t : Instant} (h : t.Representable) : read t.text = .ok t := by
  rw [read, text, String.toList_ofList, chars]
  exact readChars_clockChars h (by decide) (by decide) (by decide) _ rfl

theorem read_columnText {t : Instant} (h : t.Representable) : read t.columnText = .ok t := by
  rw [read, columnText, String.toList_ofList]
  exact readChars_clockChars h (by decide) (by decide) (by decide) _ rfl

end TransferLedger.Instant

/-! ## What carries times -/

namespace TransferLedger

/-- The times of an account can be held. -/
def Account.Timed (a : Account) : Prop :=
  a.createdAt.Representable ∧ a.updatedAt.Representable ∧ ∀ t ∈ a.deletedAt, t.Representable
deriving Decidable

def Transaction.Timed (r : Transaction) : Prop := r.createdAt.Representable ∧ r.updatedAt.Representable
deriving Decidable

def Entry.Timed (x : Entry) : Prop :=
  x.createdAt.Representable ∧ x.updatedAt.Representable ∧ ∀ t ∈ x.deletedAt, t.Representable
deriving Decidable

end TransferLedger
