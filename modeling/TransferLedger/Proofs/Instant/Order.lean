import TransferLedger.Proofs.Decimal.Text
import TransferLedger.Proofs.Instant.Calendar

/-! # Times sort as their texts

A database compares times as the texts of their column. Of two times of the years 0000 to 9999 the earlier
one has the smaller text (`Instant.columnText_lt_iff`), although fractions have different lengths: a
fraction that ends is followed by `+`, which is before the point and before all digits. `Z` would come
after them.
-/

namespace TransferLedger
set_option autoImplicit false

/-! ## Digits -/

namespace Decimal

/-- Numbers of one width are compared as texts, whatever follows. -/
theorem append_lt_of_value_lt : ∀ {cs ds : List Char}, (∀ c ∈ cs, c.isDigit = true) →
    (∀ d ∈ ds, d.isDigit = true) → cs.length = ds.length →
    Nat.ofDigitChars 10 cs 0 < Nat.ofDigitChars 10 ds 0 → ∀ us vs, cs ++ us < ds ++ vs
  | [], [], _, _, _, h => absurd h (Nat.lt_irrefl _)
  | [], _ :: _, _, _, hlength, _ => absurd hlength (by simp)
  | _ :: _, [], _, _, hlength, _ => absurd hlength (by simp)
  | c :: cs, d :: ds, hcs, hds, hlength, h => by
    intro us vs
    have hlength' : cs.length = ds.length := Nat.succ.inj hlength
    have hc := toNat_of_isDigit (hcs c List.mem_cons_self)
    have hd := toNat_of_isDigit (hds d List.mem_cons_self)
    rw [ofDigitChars_cons, ofDigitChars_cons, hlength'] at h
    refine List.cons_lt_cons_iff.2 ?_
    rcases Nat.lt_trichotomy c.toNat d.toNat with hlt | heq | hgt
    · exact .inl (Char.lt_def.2 (UInt32.lt_iff_toNat_lt.2 hlt))
    · rw [heq] at h
      refine .inr ⟨Char.toNat_inj.1 heq, append_lt_of_value_lt ?_ ?_ hlength' (by omega) us vs⟩
      · exact fun x hx => hcs x (List.mem_cons_of_mem c hx)
      · exact fun x hx => hds x (List.mem_cons_of_mem d hx)
    · have hlow := ofDigitChars_lt ds fun x hx => hds x (List.mem_cons_of_mem d hx)
      have hstep : 10 ^ ds.length * (d.toNat - 48 + 1) ≤ 10 ^ ds.length * (c.toNat - 48) :=
        Nat.mul_le_mul_left _ (by omega)
      rw [Nat.mul_add, Nat.mul_one] at hstep
      omega

/-- A field of fixed width is compared first, and what follows decides where it is the same. -/
theorem paddedDigits_lt {width m n : Nat} {us vs : List Char} (hw : 0 < width) (hn : n < 10 ^ width)
    (h : m < n ∨ (m = n ∧ us < vs)) : paddedDigits width m ++ us < paddedDigits width n ++ vs := by
  obtain hlt | ⟨rfl, hrest⟩ := h
  · have hm : m < 10 ^ width := Nat.lt_trans hlt hn
    refine append_lt_of_value_lt (fun _ => isDigit_paddedDigits) (fun _ => isDigit_paddedDigits) ?_ ?_ us vs
    · rw [length_paddedDigits hw hm, length_paddedDigits hw hn]
    · rw [ofDigitChars_paddedDigits hw hm, ofDigitChars_paddedDigits hw hn]
      omega
  · exact List.append_left_lt hrest

theorem exists_paddedDigits {width n : Nat} (hw : 0 < width) (h : n < 10 ^ width) :
    ∃ c cs, paddedDigits width n = c :: cs ∧ c.isDigit = true := by
  have hlength := length_paddedDigits hw h
  cases hpadded : paddedDigits width n with
  | nil =>
    rw [hpadded, List.length_nil] at hlength
    omega
  | cons c cs => exact ⟨c, cs, rfl, isDigit_paddedDigits (hpadded ▸ List.mem_cons_self)⟩

theorem eq_of_value_eq : ∀ {cs ds : List Char}, (∀ c ∈ cs, c.isDigit = true) →
    (∀ d ∈ ds, d.isDigit = true) → cs.length = ds.length →
    Nat.ofDigitChars 10 cs 0 = Nat.ofDigitChars 10 ds 0 → cs = ds
  | [], [], _, _, _, _ => rfl
  | [], _ :: _, _, _, hlength, _ => absurd hlength (by simp)
  | _ :: _, [], _, _, hlength, _ => absurd hlength (by simp)
  | c :: cs, d :: ds, hcs, hds, hlength, h => by
    have hlength' : cs.length = ds.length := Nat.succ.inj hlength
    have hc := toNat_of_isDigit (hcs c List.mem_cons_self)
    have hd := toNat_of_isDigit (hds d List.mem_cons_self)
    have hcs' : ∀ x ∈ cs, x.isDigit = true := fun x hx => hcs x (List.mem_cons_of_mem c hx)
    have hds' : ∀ x ∈ ds, x.isDigit = true := fun x hx => hds x (List.mem_cons_of_mem d hx)
    have hlowc := ofDigitChars_lt cs hcs'
    have hlowd := ofDigitChars_lt ds hds'
    rw [ofDigitChars_cons, ofDigitChars_cons] at h
    rw [hlength'] at h hlowc
    -- The first digit is the quotient by the weight of the first place, the rest the remainder.
    have hpos : 0 < 10 ^ ds.length := Nat.pow_pos (by decide)
    have hdiv := congrArg (· / 10 ^ ds.length) h
    have hmod := congrArg (· % 10 ^ ds.length) h
    simp only [Nat.mul_add_div hpos, Nat.div_eq_of_lt hlowc, Nat.div_eq_of_lt hlowd, Nat.mul_add_mod,
      Nat.mod_eq_of_lt hlowc, Nat.mod_eq_of_lt hlowd] at hdiv hmod
    rw [Char.toNat_inj.1 (by omega : c.toNat = d.toNat), eq_of_value_eq hcs' hds' hlength' hmod]

theorem paddedDigits_add {a b n : Nat} (ha : 0 < a) (hb : 0 < b) (h : n < 10 ^ (a + b)) :
    paddedDigits (a + b) n = paddedDigits a (n / 10 ^ b) ++ paddedDigits b (n % 10 ^ b) := by
  have hfront : n / 10 ^ b < 10 ^ a := by
    rw [Nat.div_lt_iff_lt_mul (Nat.pow_pos (by decide)), ← Nat.pow_add]
    exact h
  have hback : n % 10 ^ b < 10 ^ b := Nat.mod_lt _ (Nat.pow_pos (by decide))
  refine eq_of_value_eq (fun _ => isDigit_paddedDigits) (fun c hc => ?_) ?_ ?_
  · rcases List.mem_append.1 hc with hc | hc
    · exact isDigit_paddedDigits hc
    · exact isDigit_paddedDigits hc
  · rw [List.length_append, length_paddedDigits (by omega) h, length_paddedDigits ha hfront,
      length_paddedDigits hb hback]
  · rw [Nat.ofDigitChars_append, ofDigitChars_paddedDigits (by omega) h, ofDigitChars_paddedDigits ha hfront,
      ofDigitChars_paddedDigits hb hback, Nat.mul_zero, Nat.zero_add, Nat.mul_zero, Nat.zero_add,
      Nat.div_add_mod]

end Decimal

/-! ## Fractions -/

namespace Instant

/-- Groups of three digits, without those at the end that are zero. -/
def groupChars : List Nat → List Char
  | [] => []
  | g :: gs => if g = 0 ∧ ∀ x ∈ gs, x = 0 then [] else Decimal.paddedDigits 3 g ++ groupChars gs

/-- The groups of three digits of a fraction. -/
def groups (nanos : Nat) : List Nat := [nanos / 1000000, nanos / 1000 % 1000, nanos % 1000]

theorem fractionChars_eq {nanos : Nat} (h : nanos < 1000000000) (hpos : 0 < nanos) :
    fractionChars nanos = '.' :: groupChars (groups nanos) := by
  have hsix : Decimal.paddedDigits 6 (nanos / 1000) =
      Decimal.paddedDigits 3 (nanos / 1000000) ++ Decimal.paddedDigits 3 (nanos / 1000 % 1000) := by
    have hsplit := Decimal.paddedDigits_add (a := 3) (b := 3) (n := nanos / 1000) (by decide) (by decide)
      (by omega)
    rwa [Nat.div_div_eq_div_mul] at hsplit
  have hnine : Decimal.paddedDigits 9 nanos =
      Decimal.paddedDigits 6 (nanos / 1000) ++ Decimal.paddedDigits 3 (nanos % 1000) :=
    Decimal.paddedDigits_add (a := 6) (b := 3) (by decide) (by decide) (by omega)
  unfold fractionChars
  rw [if_neg (by omega : nanos ≠ 0)]
  simp only [groups, groupChars, List.forall_mem_cons, List.not_mem_nil, false_implies, implies_true,
    and_true, List.append_nil]
  rw [if_neg (by omega : ¬ (nanos / 1000000 = 0 ∧ nanos / 1000 % 1000 = 0 ∧ nanos % 1000 = 0))]
  by_cases hmillis : nanos % 1000000 = 0
  · rw [if_pos hmillis, if_pos (by omega : nanos / 1000 % 1000 = 0 ∧ nanos % 1000 = 0), List.append_nil]
  · rw [if_neg hmillis, if_neg (by omega : ¬ (nanos / 1000 % 1000 = 0 ∧ nanos % 1000 = 0))]
    by_cases hmicros : nanos % 1000 = 0
    · simp only [hmicros, if_true, hsix, List.append_nil]
    · simp only [hmicros, if_false, hnine, hsix, List.append_assoc]

theorem plus_lt_digit {c : Char} (hc : c.isDigit = true) (us vs : List Char) : '+' :: us < c :: vs := by
  have hlt : '+'.toNat < c.toNat := Nat.lt_of_lt_of_le (by decide) (Decimal.toNat_of_isDigit hc).1
  exact List.cons_lt_cons_iff.2 (.inl (Char.lt_def.2 (UInt32.lt_iff_toNat_lt.2 hlt)))

theorem exists_pos_of_lt : ∀ {gs hs : List Nat}, gs.length = hs.length → gs < hs → ∃ h ∈ hs, 0 < h
  | [], [], _, hlt => absurd hlt (List.lt_irrefl _)
  | [], _ :: _, hlength, _ => absurd hlength (by simp)
  | _ :: _, [], hlength, _ => absurd hlength (by simp)
  | g :: gs, h :: hs, hlength, hlt => by
    rcases List.cons_lt_cons_iff.1 hlt with hfirst | ⟨-, hrest⟩
    · exact ⟨h, List.mem_cons_self, Nat.zero_lt_of_lt hfirst⟩
    · obtain ⟨x, hx, hpos⟩ := exists_pos_of_lt (Nat.succ.inj hlength) hrest
      exact ⟨x, List.mem_cons_of_mem h hx, hpos⟩

/-- Smaller groups are smaller as texts, also where one text ends before the other. -/
theorem groupChars_lt (us vs : List Char) : ∀ {gs hs : List Nat}, gs.length = hs.length →
    (∀ h ∈ hs, h < 1000) → gs < hs → groupChars gs ++ '+' :: us < groupChars hs ++ '+' :: vs
  | [], [], _, _, hlt => absurd hlt (List.lt_irrefl _)
  | [], _ :: _, hlength, _, _ => absurd hlength (by simp)
  | _ :: _, [], hlength, _, _ => absurd hlength (by simp)
  | g :: gs, h :: hs, hlength, hbound, hlt => by
    have hh : h < 10 ^ 3 := hbound h List.mem_cons_self
    have hnonzero : ¬ (h = 0 ∧ ∀ x ∈ hs, x = 0) := by
      obtain ⟨x, hx, hpos⟩ := exists_pos_of_lt hlength hlt
      rintro ⟨rfl, hzero⟩
      rcases List.mem_cons.1 hx with rfl | hx
      · exact Nat.lt_irrefl _ hpos
      · exact Nat.lt_irrefl _ (hzero x hx ▸ hpos)
    rw [groupChars, groupChars, if_neg hnonzero]
    split
    · -- Where the first text ends, the second has a digit.
      obtain ⟨c, cs, hpadded, hc⟩ := Decimal.exists_paddedDigits (by decide) hh
      rw [hpadded]
      exact plus_lt_digit hc us _
    · rw [List.append_assoc, List.append_assoc]
      refine Decimal.paddedDigits_lt (by decide) hh ?_
      rcases List.cons_lt_cons_iff.1 hlt with hfirst | ⟨heq, hrest⟩
      · exact .inl hfirst
      · exact .inr ⟨heq, groupChars_lt us vs (Nat.succ.inj hlength)
          (fun x hx => hbound x (List.mem_cons_of_mem h hx)) hrest⟩

theorem fractionChars_lt {m n : Nat} (hn : n < 1000000000) (h : m < n) (us vs : List Char) :
    fractionChars m ++ '+' :: us < fractionChars n ++ '+' :: vs := by
  rw [fractionChars_eq hn (by omega)]
  rcases Nat.eq_zero_or_pos m with rfl | hm
  · exact List.cons_lt_cons_iff.2 (.inl (by decide))
  · rw [fractionChars_eq (by omega) hm]
    refine List.cons_lt_cons_iff.2 (.inr ⟨rfl, groupChars_lt us vs rfl ?_ ?_⟩)
    · simp only [groups, List.forall_mem_cons]
      refine ⟨by omega, by omega, by omega, nofun⟩
    · simp only [groups, List.cons_lt_cons_iff, List.lt_irrefl, and_false, or_false]
      omega

/-! ## Dates and times of day -/

/-- A time of the years 0000 to 9999; only the last second of a minute can be a leap second. -/
def Writable (t : Instant) : Prop :=
  0 ≤ t.date.year ∧ t.date.year ≤ 9999 ∧
    (t.nanos < 1000000000 ∨ (t.nanos < 2000000000 ∧ t.seconds % 60 = 59))
deriving Decidable

/-- A time that can be held at all: of the years -262143 to 262142. -/
def Representable (t : Instant) : Prop :=
  -262143 ≤ t.date.year ∧ t.date.year ≤ 262142 ∧
    (t.nanos < 1000000000 ∨ (t.nanos < 2000000000 ∧ t.seconds % 60 = 59))
deriving Decidable

theorem Writable.representable {t : Instant} (h : t.Writable) : t.Representable := by
  obtain ⟨hyear, hyear', hleap⟩ := h
  exact ⟨by omega, by omega, hleap⟩

/-- The second of the minute as it is written. -/
def shownSecond (t : Instant) : Nat := t.secondOfDay % 60 + if 1000000000 ≤ t.nanos then 1 else 0

def shownNanos (t : Instant) : Nat := if 1000000000 ≤ t.nanos then t.nanos - 1000000000 else t.nanos

/-- What is written of a time, in this order. -/
def fields (t : Instant) : List Nat :=
  [t.date.year.toNat, t.date.month, t.date.day, t.secondOfDay / 3600, t.secondOfDay / 60 % 60,
    t.shownSecond, t.shownNanos]

theorem date_eq (t : Instant) : t.date = .ofDays (t.seconds / 86400) := by
  rw [date, Int.fdiv_eq_ediv_of_nonneg _ (by decide)]

theorem secondOfDay_eq (t : Instant) : (t.secondOfDay : Int) = t.seconds % 86400 := by
  rw [secondOfDay, Int.fmod_eq_emod_of_nonneg _ (by decide)]
  exact Int.toNat_of_nonneg (Int.emod_nonneg _ (by decide))

theorem date_bounds (t : Instant) : 1 ≤ t.date.month ∧ t.date.month ≤ 12 ∧ 1 ≤ t.date.day ∧
    t.date.day ≤ CalendarDate.daysInMonth t.date.year t.date.month := by
  rw [date_eq]
  exact CalendarDate.ofDays_bounds _

theorem Representable.shownSecond_le {t : Instant} (h : t.Representable) : t.shownSecond ≤ 60 := by
  obtain ⟨-, -, hleap⟩ := h
  have hday := t.secondOfDay_eq
  unfold shownSecond
  split <;> omega

theorem Representable.shownNanos_lt {t : Instant} (h : t.Representable) : t.shownNanos < 1000000000 := by
  obtain ⟨-, -, hleap⟩ := h
  unfold shownNanos
  split <;> omega

theorem cmp_eq_lt {a b : Instant} : a.cmp b = .lt ↔
    a.seconds < b.seconds ∨ (a.seconds = b.seconds ∧ a.nanos < b.nanos) := by
  rw [cmp, Ordering.then_eq_lt, compare_lt_iff_lt, compare_eq_iff_eq, Nat.compare_eq_lt]

variable {a b : Instant}

theorem fields_lt (ha : a.Writable) (h : a.cmp b = .lt) : a.fields < b.fields := by
  obtain ⟨hyear, -, hleap⟩ := ha
  have hsa := a.secondOfDay_eq
  have hsb := b.secondOfDay_eq
  rw [cmp_eq_lt] at h
  simp only [fields, List.cons_lt_cons_iff, List.lt_irrefl, and_false, or_false]
  have hdays : a.seconds / 86400 < b.seconds / 86400 ∨ a.seconds / 86400 = b.seconds / 86400 := by omega
  rcases hdays with hdays | hdays
  · have hbefore := CalendarDate.ofDays_before hdays
    rw [← date_eq, ← date_eq] at hbefore
    unfold CalendarDate.Before at hbefore
    omega
  · have hdate : a.date = b.date := by rw [date_eq, date_eq, hdays]
    rw [hdate]
    refine .inr ⟨rfl, .inr ⟨rfl, .inr ⟨rfl, ?_⟩⟩⟩
    -- A leap second is written as second 60, which is after 59 and before the next minute.
    unfold shownSecond shownNanos
    split <;> split <;> omega

theorem field_lt {width m n : Nat} {ms ns : List Nat} {us vs : List Char} (c : Char) (hw : 0 < width)
    (hn : n < 10 ^ width) (h : m :: ms < n :: ns) (hrest : ms < ns → us < vs) :
    Decimal.paddedDigits width m ++ c :: us < Decimal.paddedDigits width n ++ c :: vs := by
  refine Decimal.paddedDigits_lt hw hn ?_
  rcases List.cons_lt_cons_iff.1 h with hfirst | ⟨heq, hlt⟩
  · exact .inl hfirst
  · exact .inr ⟨heq, List.cons_lt_cons_iff.2 (.inr ⟨rfl, hrest hlt⟩)⟩

theorem clockChars_append (a : Instant) (us : List Char) : a.clockChars ++ us =
    yearChars a.date.year ++ '-' :: (Decimal.paddedDigits 2 a.date.month ++
      '-' :: (Decimal.paddedDigits 2 a.date.day ++ 'T' :: (Decimal.paddedDigits 2 (a.secondOfDay / 3600) ++
        ':' :: (Decimal.paddedDigits 2 (a.secondOfDay / 60 % 60) ++
          ':' :: (Decimal.paddedDigits 2 a.shownSecond ++ (fractionChars a.shownNanos ++ us)))))) := by
  simp only [clockChars, List.append_assoc, List.cons_append]
  rfl

theorem yearChars_eq (ha : a.Writable) : yearChars a.date.year = Decimal.paddedDigits 4 a.date.year.toNat :=
  if_pos ⟨ha.1, ha.2.1⟩

theorem clockChars_lt (ha : a.Writable) (hb : b.Writable) (h : a.fields < b.fields) (us vs : List Char) :
    a.clockChars ++ '+' :: us < b.clockChars ++ '+' :: vs := by
  have hdate := b.date_bounds
  have hmonth := CalendarDate.daysInMonth_le b.date.year b.date.month
  have hday := b.secondOfDay_eq
  have hyear := hb.2.1
  have hsecond := hb.representable.shownSecond_le
  rw [clockChars_append, clockChars_append, yearChars_eq ha, yearChars_eq hb]
  -- Field after field: each is either smaller, or the same and the rest decides.
  refine field_lt '-' (by decide) (by omega) h fun h => ?_
  refine field_lt '-' (by decide) (by omega) h fun h => ?_
  refine field_lt 'T' (by decide) (by omega) h fun h => ?_
  refine field_lt ':' (by decide) (by omega) h fun h => ?_
  refine field_lt ':' (by decide) (by omega) h fun h => ?_
  refine Decimal.paddedDigits_lt (by decide) (by omega) ?_
  rcases List.cons_lt_cons_iff.1 h with hfirst | ⟨heq, hrest⟩
  · exact .inl hfirst
  · refine .inr ⟨heq, fractionChars_lt hb.representable.shownNanos_lt ?_ us vs⟩
    simpa [List.cons_lt_cons_iff] using hrest

theorem columnText_lt (ha : a.Writable) (hb : b.Writable) (h : a.cmp b = .lt) :
    a.columnText < b.columnText := by
  rw [String.lt_iff, columnText, columnText, String.toList_ofList, String.toList_ofList]
  exact clockChars_lt ha hb (fields_lt ha h) _ _

theorem cmp_eq_gt : a.cmp b = .gt ↔ b.cmp a = .lt := by
  rw [cmp_eq_lt, cmp, Ordering.then_eq_gt, compare_gt_iff_gt, compare_eq_iff_eq, Nat.compare_eq_gt]
  omega

theorem cmp_eq_eq : a.cmp b = .eq ↔ a = b := by
  rw [cmp, Ordering.then_eq_eq, compare_eq_iff_eq, compare_eq_iff_eq]
  cases a
  cases b
  simp

theorem columnText_lt_iff (ha : a.Writable) (hb : b.Writable) :
    a.columnText < b.columnText ↔ a.cmp b = .lt := by
  refine ⟨fun h => ?_, columnText_lt ha hb⟩
  cases hcmp : a.cmp b with
  | lt => rfl
  | eq => exact absurd (cmp_eq_eq.1 hcmp ▸ h) (String.lt_irrefl _)
  | gt => exact absurd (columnText_lt hb ha (cmp_eq_gt.1 hcmp)) (String.lt_asymm h)

theorem columnText_le_iff (ha : a.Writable) (hb : b.Writable) :
    a.columnText ≤ b.columnText ↔ a.cmp b ≠ .gt := by
  rw [← String.not_lt, columnText_lt_iff hb ha, ← cmp_eq_gt]

theorem columnText_inj (ha : a.Writable) (hb : b.Writable) : a.columnText = b.columnText ↔ a = b := by
  refine ⟨fun h => ?_, congrArg _⟩
  cases hcmp : a.cmp b with
  | lt => exact absurd (h ▸ columnText_lt ha hb hcmp) (String.lt_irrefl _)
  | eq => exact cmp_eq_eq.1 hcmp
  | gt => exact absurd (h ▸ columnText_lt hb ha (cmp_eq_gt.1 hcmp)) (String.lt_irrefl _)

end Instant

end TransferLedger
