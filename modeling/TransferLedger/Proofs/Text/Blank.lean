import Mathlib.Data.List.DropRight
import Mathlib.Tactic.IntervalCases
import TransferLedger.Proofs.Ledger.Entry
import TransferLedger.Service.Identifier

/-! # Texts without white space at their ends

Trimming twice is trimming once (`trim_trim`), so a text that passed a check for blanks after it was
trimmed passes the same check later. Identifiers pass it as they are (`Identifier.trim_ofBytes`).
-/

namespace TransferLedger
set_option autoImplicit false

namespace Text

theorem trimChars_eq_rdropWhile (cs : List Char) :
    trimChars cs = (cs.dropWhile isBlank).rdropWhile isBlank := rfl

/-- Cutting the end off leaves nothing more to cut off at the front. -/
theorem dropWhile_trimChars (cs : List Char) : (trimChars cs).dropWhile isBlank = trimChars cs := by
  have hpre : trimChars cs <+: cs.dropWhile isBlank := List.rdropWhile_prefix ..
  rw [List.dropWhile_eq_self_iff]
  intro hpos
  rw [hpre.getElem hpos]
  exact List.dropWhile_get_zero_not isBlank cs (hpos.trans_le hpre.length_le)

theorem trimChars_trimChars (cs : List Char) : trimChars (trimChars cs) = trimChars cs := by
  rw [trimChars_eq_rdropWhile (trimChars cs), dropWhile_trimChars, trimChars_eq_rdropWhile,
    List.rdropWhile_idempotent]

theorem trim_trim (s : String) : trim (trim s) = trim s := by
  rw [trim, trim, String.toList_ofList, trimChars_trimChars]

theorem isBlank_digitChar {n : Nat} (h : n < 16) : isBlank (Nat.digitChar n) = false := by
  interval_cases n <;> rfl

end Text

namespace Identifier

theorem isBlank_ofBytes {bytes : Bytes} {c : Char} (hc : c ∈ (ofBytes bytes).toList) :
    Text.isBlank c = false := by
  rw [ofBytes, String.toList_ofList, List.mem_flatMap] at hc
  obtain ⟨⟨b, place⟩, -, hc⟩ := hc
  have hbyte : (marked place b).toNat < 256 := (marked place b).toNat_lt
  simp only [separator, Text.hexChars, List.mem_append, List.mem_cons, List.not_mem_nil,
    or_false] at hc
  rcases hc with hc | rfl | rfl
  · split at hc
    · rw [List.mem_singleton.1 hc]
      rfl
    · cases hc
  · exact Text.isBlank_digitChar (by omega)
  · exact Text.isBlank_digitChar (by omega)

/-- There is no white space in an identifier. -/
theorem trim_ofBytes (bytes : Bytes) : Text.trim (ofBytes bytes) = ofBytes bytes := by
  rw [Text.trim, Text.trimChars_eq fun c hc => isBlank_ofBytes hc, String.ofList_toList]

/-- An identifier is not blank. -/
theorem trim_ofBytes_ne {bytes : Bytes} (h : bytes ≠ []) : Text.trim (ofBytes bytes) ≠ "" := by
  obtain ⟨b, rest, rfl⟩ := List.exists_cons_of_ne_nil h
  rw [trim_ofBytes, ofBytes, List.take_succ_cons, List.zipIdx_cons, List.flatMap_cons]
  intro hempty
  have hlist := congrArg String.toList hempty
  rw [String.toList_ofList] at hlist
  simp [Text.hexChars] at hlist

end Identifier

end TransferLedger
