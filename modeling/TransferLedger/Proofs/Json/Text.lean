import TransferLedger.Json.Text
import TransferLedger.Json.Writer
import TransferLedger.Proofs.Text.Utf8

/-! # Strings in JSON read back

What is written for a character is taken up again in as many steps as it has bytes, or fewer
(`Consumes`), whether it is escaped or stands for itself. So a written string is read back as the
text it was made of, whatever its characters and whatever follows it (`readString_written`).
-/

namespace TransferLedger.Json
set_option autoImplicit false

open Text (encodeAll encodeAll_cons encodeAll_append)

/-- Reading these bytes inside a string yields those, in at most one step for each byte. -/
def Consumes (bytes out : Bytes) : Prop :=
  ∃ k, k ≤ bytes.length ∧ ∀ fuel acc rest,
    readStringBytes (fuel + k) acc (bytes ++ rest) = readStringBytes fuel (out.reverse ++ acc) rest

theorem Consumes.nil : Consumes [] [] := ⟨0, Nat.le_refl 0, fun _ _ _ => rfl⟩

theorem Consumes.append {bs out cs out' : Bytes} (h : Consumes bs out) (h' : Consumes cs out') :
    Consumes (bs ++ cs) (out ++ out') := by
  obtain ⟨k, hk, hread⟩ := h
  obtain ⟨k', hk', hread'⟩ := h'
  refine ⟨k' + k, ?_, ?_⟩
  · rw [List.length_append]
    omega
  · intro fuel acc rest
    rw [List.append_assoc, ← Nat.add_assoc, hread, hread', List.reverse_append, List.append_assoc]

/-- A byte that is no quote, no backslash and no control character stands for itself. -/
theorem Consumes.plain {b : UInt8} (hquote : b ≠ 0x22) (hback : b ≠ 0x5C) (hspace : ¬ b < 0x20) :
    Consumes [b] [b] := by
  refine ⟨1, Nat.le_refl 1, ?_⟩
  intro fuel acc rest
  rw [List.singleton_append, readStringBytes, if_neg hquote, if_neg hback, if_neg hspace]
  rfl

theorem Consumes.escape (bs : Bytes) {out : Bytes}
    (h : ∀ rest, readEscape (bs ++ rest) = .ok (out, rest)) :
    Consumes (0x5C :: bs) out := by
  refine ⟨1, Nat.le_add_left 1 _, ?_⟩
  intro fuel acc rest
  have hne : (0x5C : UInt8) ≠ 0x22 := by decide
  rw [List.cons_append, readStringBytes, if_neg hne, if_pos rfl, h]

theorem Consumes.high {bs : Bytes} (h : ∀ b ∈ bs, 128 ≤ b.toNat) : Consumes bs bs := by
  induction bs with
  | nil => exact .nil
  | cons b bs ih =>
    have hb := h b List.mem_cons_self
    have hquote : b ≠ 0x22 := by
      rintro rfl
      exact absurd hb (by decide)
    have hback : b ≠ 0x5C := by
      rintro rfl
      exact absurd hb (by decide)
    have hspace : ¬ b < 0x20 := by
      rw [UInt8.lt_iff_toNat_lt]
      exact fun hlt => absurd (Nat.lt_of_lt_of_le hlt (by decide : (0x20 : UInt8).toNat ≤ 128))
        (Nat.not_lt.2 hb)
    exact (plain hquote hback hspace).append (ih fun x hx => h x (List.mem_cons_of_mem b hx))

/-! ## Characters -/

/-- A character that is not escaped. -/
theorem consumes_plainChar {c : Char} (hquote : c ≠ '"') (hback : c ≠ '\\')
    (hspace : ¬ c.toNat < 0x20) : Consumes (String.utf8EncodeChar c) (String.utf8EncodeChar c) := by
  by_cases h : c.toNat < 128
  · rw [Text.encode_ascii h]
    have hb : (UInt8.ofNat c.toNat).toNat = c.toNat := by
      rw [UInt8.toNat_ofNat']
      omega
    have hne : ∀ d : Char, c ≠ d → UInt8.ofNat c.toNat ≠ UInt8.ofNat d.toNat ∨ 128 ≤ d.toNat := by
      intro d hcd
      by_cases hd : 128 ≤ d.toNat
      · exact .inr hd
      · refine .inl fun heq => hcd ?_
        have := congrArg UInt8.toNat heq
        rw [hb, UInt8.toNat_ofNat', Nat.mod_eq_of_lt (by omega)] at this
        exact Char.toNat_inj.1 this
    have hquote' := (hne '"' hquote).resolve_right (by decide)
    have hback' := (hne '\\' hback).resolve_right (by decide)
    refine .plain hquote' hback' ?_
    rw [UInt8.lt_iff_toNat_lt, hb]
    exact hspace
  · exact .high fun b hb => Text.encode_high (Nat.not_lt.1 h) hb

theorem hexDigits_read : ∀ n < 32,
    Text.hexValue? (UInt8.ofNat (Nat.digitChar (n / 16)).toNat) = some (n / 16) ∧
      Text.hexValue? (UInt8.ofNat (Nat.digitChar (n % 16)).toNat) = some (n % 16) ∧
      (Nat.digitChar (n / 16)).toNat < 128 ∧ (Nat.digitChar (n % 16)).toNat < 128 := by
  decide

/-- A control character is written by its number. -/
theorem consumes_control {c : Char} (h : c.toNat < 0x20) :
    Consumes (encodeAll (['\\', 'u', '0', '0'] ++ Text.hexChars c.toNat.toUInt8))
      (String.utf8EncodeChar c) := by
  obtain ⟨hhigh, hlow, hha, hla⟩ := hexDigits_read c.toNat h
  have hn : c.toNat.toUInt8.toNat = c.toNat := by
    show (UInt8.ofNat c.toNat).toNat = c.toNat
    rw [UInt8.toNat_ofNat']
    omega
  have hbytes : encodeAll (['\\', 'u', '0', '0'] ++ Text.hexChars c.toNat.toUInt8) =
      0x5C :: [0x75, 0x30, 0x30, UInt8.ofNat (Nat.digitChar (c.toNat / 16)).toNat,
        UInt8.ofNat (Nat.digitChar (c.toNat % 16)).toNat] := by
    rw [Text.hexChars, hn, encodeAll_append]
    simp only [encodeAll_cons, Text.encode_ascii hha, Text.encode_ascii hla]
    rfl
  rw [hbytes]
  apply Consumes.escape
  intro rest
  have hzero : Text.hexValue? 0x30 = some 0 := by decide
  have hread : readHex ([0x30, 0x30, UInt8.ofNat (Nat.digitChar (c.toNat / 16)).toNat,
      UInt8.ofNat (Nat.digitChar (c.toNat % 16)).toNat] ++ rest) = .ok (c.toNat, rest) := by
    simp only [List.cons_append, List.nil_append, readHex, hzero, hhigh, hlow]
    congr 2
    omega
  have hunicode : readUnicode ([0x30, 0x30, UInt8.ofNat (Nat.digitChar (c.toNat / 16)).toNat,
      UInt8.ofNat (Nat.digitChar (c.toNat % 16)).toNat] ++ rest) =
        .ok (String.utf8EncodeChar c, rest) := by
    rw [readUnicode, hread]
    have hlow : ¬ 0xDC00 ≤ c.toNat := by omega
    have hhigh : c.toNat < 0xD800 := by omega
    simp only [bind, Except.bind, hlow, decide_false, Bool.false_and, Bool.false_eq_true, if_false,
      hhigh, decide_true, Bool.true_or, if_true, Char.ofNat_toNat]
  exact hunicode

theorem consumes_escapeChar (c : Char) :
    Consumes (encodeAll (escapeChar c)) (String.utf8EncodeChar c) := by
  unfold escapeChar
  split
  · exact Consumes.escape [0x22] fun _ => rfl
  · exact Consumes.escape [0x5C] fun _ => rfl
  · exact Consumes.escape [0x62] fun _ => rfl
  · exact Consumes.escape [0x74] fun _ => rfl
  · exact Consumes.escape [0x6E] fun _ => rfl
  · exact Consumes.escape [0x66] fun _ => rfl
  · exact Consumes.escape [0x72] fun _ => rfl
  · next hquote hback _ _ _ _ _ =>
    split
    · next h => exact consumes_control h
    · next h =>
      rw [encodeAll_cons, encodeAll, List.flatMap_nil, List.append_nil]
      exact consumes_plainChar hquote hback h

theorem consumes_chars (cs : List Char) :
    Consumes (encodeAll (cs.flatMap escapeChar)) (encodeAll cs) := by
  induction cs with
  | nil => exact .nil
  | cons c cs ih =>
    rw [List.flatMap_cons, encodeAll_append, encodeAll_cons]
    exact (consumes_escapeChar c).append ih

/-! ## Strings -/

/-- The bytes of a string in JSON, quotes included. -/
def stringBytes (s : String) : Bytes := encodeAll (stringChars s)

theorem stringBytes_eq (s : String) :
    stringBytes s = 0x22 :: (encodeAll (s.toList.flatMap escapeChar) ++ [0x22]) := by
  rw [stringBytes, stringChars, List.cons_append, encodeAll_cons, encodeAll_append]
  rfl

theorem readString_written (s : String) (rest : Bytes) :
    readString (encodeAll (s.toList.flatMap escapeChar) ++ 0x22 :: rest) = .ok (s, rest) := by
  obtain ⟨k, hk, hread⟩ := consumes_chars s.toList
  have hbytes : readStringBytes
      ((encodeAll (s.toList.flatMap escapeChar) ++ 0x22 :: rest).length + 1) []
      (encodeAll (s.toList.flatMap escapeChar) ++ 0x22 :: rest) =
        .ok (encodeAll s.toList, rest) := by
    obtain ⟨fuel, hfuel⟩ : ∃ fuel, (encodeAll (s.toList.flatMap escapeChar) ++
        0x22 :: rest).length + 1 = fuel + 1 + k := by
      refine ⟨(encodeAll (s.toList.flatMap escapeChar) ++ 0x22 :: rest).length - k, ?_⟩
      rw [List.length_append]
      omega
    rw [hfuel, hread, readStringBytes, if_pos rfl, List.append_nil, List.reverse_reverse]
  rw [readString, hbytes]
  simp only [bind, Except.bind, Text.ofBytes?_encodeAll]

end TransferLedger.Json
