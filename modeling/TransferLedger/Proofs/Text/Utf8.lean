import TransferLedger.Text.Utf8

/-! # Texts as bytes and back

* `toBytes_eq`: the bytes of a text are those of its characters, one after the other.
* `ofBytes?_toBytes`: they are read back as the text.
* `encode_ascii`, `encode_high`: a character below U+0080 is one byte, and all bytes of any other
  character are at least 80₁₆, so no byte of it can be taken for a character of the first kind.
-/

namespace TransferLedger.Text
set_option autoImplicit false

/-- The bytes of some characters. -/
def encodeAll (cs : List Char) : Bytes := cs.flatMap String.utf8EncodeChar

theorem encodeAll_append (cs ds : List Char) :
    encodeAll (cs ++ ds) = encodeAll cs ++ encodeAll ds := List.flatMap_append

theorem encodeAll_cons (c : Char) (cs : List Char) :
    encodeAll (c :: cs) = String.utf8EncodeChar c ++ encodeAll cs := List.flatMap_cons

theorem toBytes_ofList (cs : List Char) : toBytes (String.ofList cs) = encodeAll cs := by
  show (String.ofList cs).toByteArray.data.toList = _
  rw [String.toByteArray_ofList, List.utf8Encode, List.toList_data_toByteArray]
  rfl

theorem toBytes_eq (s : String) : toBytes s = encodeAll s.toList := by
  rw [← toBytes_ofList, String.ofList_toList]

theorem ofBytes?_toBytes (s : String) : ofBytes? (toBytes s) = some s := by
  have harray : ByteArray.mk (toBytes s).toArray = s.toByteArray := by
    show ByteArray.mk s.toByteArray.data.toList.toArray = _
    rw [Array.toArray_toList]
  rw [ofBytes?, harray, String.fromUTF8?, dif_pos s.isValidUTF8]
  rfl

theorem ofBytes?_encodeAll (s : String) : ofBytes? (encodeAll s.toList) = some s := by
  rw [← toBytes_eq, ofBytes?_toBytes]

/-! ## The bytes of one character -/

theorem encode_ascii {c : Char} (h : c.toNat < 128) :
    String.utf8EncodeChar c = [UInt8.ofNat c.toNat] := by
  have hle : c.val.toNat ≤ 0x7f := Nat.le_of_lt_succ h
  unfold String.utf8EncodeChar
  rw [if_pos hle]
  rfl

theorem encode_high {c : Char} (h : 128 ≤ c.toNat) {b : UInt8}
    (hb : b ∈ String.utf8EncodeChar c) : 128 ≤ b.toNat := by
  have hgt : ¬ c.val.toNat ≤ 0x7f := Nat.not_le.2 h
  unfold String.utf8EncodeChar at hb
  simp only [if_neg hgt] at hb
  split at hb
  · simp only [List.mem_cons, List.not_mem_nil, or_false] at hb
    rcases hb with rfl | rfl <;> simp only [UInt8.toNat_ofNat'] <;> omega
  split at hb
  · simp only [List.mem_cons, List.not_mem_nil, or_false] at hb
    rcases hb with rfl | rfl | rfl <;> simp only [UInt8.toNat_ofNat'] <;> omega
  · simp only [List.mem_cons, List.not_mem_nil, or_false] at hb
    rcases hb with rfl | rfl | rfl | rfl <;> simp only [UInt8.toNat_ofNat'] <;> omega

end TransferLedger.Text
