import TransferLedger.Proofs.Decimal.Text
import TransferLedger.Proofs.Instant.ReadBack
import TransferLedger.Proofs.Json.Record

/-! # Values in JSON read back

`ReadsAs` says that a reader makes a value of what was written, and stops where the written value ends. It holds
of decimals, names, times and times that may be unset, and a field passes it on (`Field.reads_required` and the
like).
-/

namespace TransferLedger.Json
set_option autoImplicit false

variable {α σ : Type}

/-- The reader makes this of a written value, whatever follows the value. -/
def ReadsAs (read : Reader α) (v : Value) (a : α) : Prop :=
  ∀ rest, Ends rest → read (valueBytes v ++ rest) = .ok (a, rest)

theorem readAll_readsAs {read : Reader α} {v : Value} {a : α} (h : ReadsAs read v a) :
    readAll read v.bytes = .ok a := by
  have hread := h [] .nil
  rw [List.append_nil] at hread
  rw [readAll, Value.bytes_eq, hread]
  rfl

/-! ## Single values -/

/-- A written text begins with its quote, and is read from there. -/
theorem exists_textBytes (s : String) (rest : Bytes) :
    ∃ bs, valueBytes (.text s) ++ rest = 0x22 :: bs ∧ readString bs = .ok (s, rest) := by
  have hread := readString_written s rest
  rw [valueBytes_text, stringBytes_eq, List.cons_append, List.append_assoc, List.singleton_append]
  exact ⟨_, rfl, hread⟩

theorem skipSpace_quote (bs : Bytes) : skipSpace (0x22 :: bs) = 0x22 :: bs := rfl

theorem readsAs_text (s : String) : ReadsAs readText (.text s) s :=
  fun rest _ => readTextAs_written "a string" s rest

theorem readsAs_decimal (d : Decimal) : ReadsAs readDecimal (.text d.text) d := by
  intro rest _
  obtain ⟨bs, hbytes, hread⟩ := exists_textBytes d.text rest
  rw [hbytes, readDecimal, skipSpace_quote]
  simp only [if_true, hread, bind, Except.bind, Decimal.read_text]

theorem readsAs_choice {choices : List (String × α)} {name : String} {a : α}
    (h : chosen choices name = .ok a) : ReadsAs (readChoice choices) (.text name) a := by
  intro rest _
  obtain ⟨bs, hbytes, hread⟩ := exists_textBytes name rest
  rw [hbytes, readChoice, skipSpace_quote]
  simp only [if_true, hread, bind, Except.bind, h]

theorem readsAs_instant {t : Instant} (h : t.Representable) : ReadsAs readInstant (.text t.text) t := by
  intro rest _
  rw [readInstant, valueBytes_text, readTextAs_written]
  simp only [bind, Except.bind, Instant.read_text h]

theorem readsAs_instant? {t : Instant} (h : t.Representable) :
    ReadsAs readInstant? (.text t.text) (some t) := by
  intro rest hrest
  have hread := readsAs_instant h rest hrest
  obtain ⟨bs, hbytes, -⟩ := exists_textBytes t.text rest
  rw [hbytes] at hread ⊢
  rw [readInstant?, skipSpace_quote]
  split
  · next heq => exact absurd (List.cons.inj heq).1 (by decide)
  · rw [hread]
    rfl

theorem readsAs_null : ReadsAs readInstant? .null none := by
  intro rest _
  have hbytes : valueBytes .null = [0x6E, 0x75, 0x6C, 0x6C] := by decide
  rw [hbytes]
  rfl

/-! ## Fields -/

section

variable {read : Reader α} {v : Value} {a : α}

theorem Field.reads_required (h : ReadsAs read v a) (name : String) (set : α → σ → σ) :
    (Field.required name read set).Reads v (.ok (set a)) := by
  intro rest hrest
  simp only [required, h rest hrest]
  rfl

theorem Field.reads_optional (h : ReadsAs read v a) (name : String) (set : α → σ → σ) :
    (Field.optional name read set).Reads v (.ok (set a)) := by
  intro rest hrest
  simp only [optional, h rest hrest]
  rfl

theorem Field.reads_nullable (h : ReadsAs read v a) (name : String) (set : α → σ → σ) :
    (Field.nullable name read set).Reads v (.ok (set a)) := by
  intro rest hrest
  simp only [nullable, h rest hrest]
  rfl

end

end TransferLedger.Json
