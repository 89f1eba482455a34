import TransferLedger.Event
import TransferLedger.Proofs.Json.Record

/-! # Events on the wire

The body of an event is read back as that event, whatever its texts, if its time is a signed word of
64 bits (`decode_encode`), and is not read at all otherwise (`decode_encode_outside`). So a body is
never taken for another event than the one it was made of (`eq_of_decode_encode`), and two events never have
the same body (`wire_roundtrip`).
-/

namespace TransferLedger.Event
set_option autoImplicit false

open Json

/-- The fields that every event writes before its description. -/
def headFields (e : Event) : List (String × Value) :=
  [("transaction_id", .text e.transactionId), ("from_account_id", .text e.fromAccount),
    ("to_account_id", .text e.toAccount), ("transaction_type", .text e.type),
    ("amount", .text e.amount), ("currency", .text e.currency), ("status", .text e.status)]

/-- The names of the fields before the description, the last one first. -/
def headNames : List String :=
  ["status", "currency", "amount", "transaction_type", "to_account_id", "from_account_id",
    "transaction_id"]

/-- The event as far as the fields before the description tell. -/
def ofHead (e : Event) : Event := { e with description := "", timestamp := 0 }

/-- An empty description is left out. -/
def descriptionFields (e : Event) : List (String × Value) :=
  if e.description = "" then [] else [("description", .text e.description)]

theorem toJson_eq (e : Event) :
    e.toJson = .record (e.headFields ++ e.descriptionFields ++ [("timestamp", .integer e.timestamp)]) := rfl

theorem written_head (e : Event) :
    Written shape.fields [] shape.blank e.headFields (.ok (headNames, e.ofHead)) := by
  refine .field rfl rfl (Field.reads_text _ _ _) ?_
  refine .field rfl rfl (Field.reads_text _ _ _) ?_
  refine .field rfl rfl (Field.reads_text _ _ _) ?_
  refine .field rfl rfl (Field.reads_text _ _ _) ?_
  refine .field rfl rfl (Field.reads_text _ _ _) ?_
  refine .field rfl rfl (Field.reads_text _ _ _) ?_
  refine .field rfl rfl (Field.reads_text _ _ _) ?_
  exact .nil _ _

/-- With the description or without it, what is read before the time is the same. -/
theorem written_description (e : Event) : ∃ seen, (seen = headNames ∨ seen = "description" :: headNames) ∧
    Written shape.fields [] shape.blank (e.headFields ++ e.descriptionFields)
      (.ok (seen, { e with timestamp := 0 })) := by
  unfold descriptionFields
  by_cases hd : e.description = ""
  · have he : e.ofHead = { e with timestamp := 0 } := by rw [ofHead, ← hd]
    rw [if_pos hd, List.append_nil, ← he]
    exact ⟨_, .inl rfl, written_head e⟩
  · rw [if_neg hd]
    refine ⟨_, .inr rfl, (written_head e).append ?_⟩
    exact .field rfl rfl (Field.reads_optionalText _ _ _) (.nil _ _)

theorem decode_encode {e : Event} (hlow : -9223372036854775808 ≤ e.timestamp)
    (hhigh : e.timestamp < 9223372036854775808) : decode e.encode = .ok e := by
  obtain ⟨seen, hseen, hwritten⟩ := written_description e
  have hnew : seen.contains "timestamp" = false := by
    obtain rfl | rfl := hseen <;> decide
  rw [decode, encode, toJson_eq]
  refine readAll_written (hwritten.append
    (.field rfl hnew (Field.reads_integer _ _ hlow hhigh) (.nil _ _))) ?_
  obtain rfl | rfl := hseen <;> simp [shape, headNames, Field.required, Field.optional]

theorem decode_encode_outside {e : Event}
    (h : ¬ (-9223372036854775808 ≤ e.timestamp ∧ e.timestamp < 9223372036854775808)) :
    ∃ c, decode e.encode = .error c := by
  obtain ⟨seen, hseen, hwritten⟩ := written_description e
  have hnew : seen.contains "timestamp" = false := by
    obtain rfl | rfl := hseen <;> decide
  obtain ⟨c, hc⟩ := Field.reads_integer_outside "timestamp"
    (fun n (e : Event) => { e with timestamp := n }) h
  rw [decode, encode, toJson_eq]
  exact ⟨_, readAll_fault (hwritten.append (.fault rfl hnew hc))⟩

theorem eq_of_decode_encode {e e' : Event} (h : decode e.encode = .ok e') : e' = e := by
  by_cases htime : -9223372036854775808 ≤ e.timestamp ∧ e.timestamp < 9223372036854775808
  · rw [decode_encode htime.1 htime.2, Except.ok.injEq] at h
    exact h.symm
  · obtain ⟨c, hc⟩ := decode_encode_outside htime
    rw [hc] at h
    cases h

/-- A description is written unless it is empty. -/
theorem description_written_iff (e : Event) : ∃ fields, e.toJson = .record fields ∧
    ("description" ∈ fields.map Prod.fst ↔ e.description ≠ "") := by
  refine ⟨_, toJson_eq e, ?_⟩
  by_cases hd : e.description = "" <;> simp [headFields, descriptionFields, hd]

/-- **A body is read back as its event, and no other event has this body.** An empty description need not be
written for that. -/
theorem wire_roundtrip {e : Event} (hlow : -9223372036854775808 ≤ e.timestamp)
    (hhigh : e.timestamp < 9223372036854775808) :
    decode e.encode = .ok e ∧ (∀ e' : Event, e'.encode = e.encode → e' = e) ∧
      ∃ fields, e.encode = (Value.record fields).bytes ∧
        ("description" ∈ fields.map Prod.fst ↔ e.description ≠ "") := by
  have hdecode := decode_encode hlow hhigh
  refine ⟨hdecode, fun e' hbody => ?_, ?_⟩
  · rw [← hbody] at hdecode
    exact (eq_of_decode_encode hdecode).symm
  · obtain ⟨fields, hfields, hdescription⟩ := description_written_iff e
    exact ⟨fields, congrArg Value.bytes hfields, hdescription⟩

/-- Quotes, backslashes, control characters and characters of two, three and four bytes in an event of the
earliest second. -/
def sampleEvent : Event :=
  { transactionId := "\"t\\\"", fromAccount := "", toAccount := "\x00\x08\x0C\n\r\t\x1F\x7F"
    type := "Überweisung", amount := "1.50", currency := "€", status := "😀", description := ""
    timestamp := -9223372036854775808 }

theorem sample_wire_roundtrip : decode sampleEvent.encode = .ok sampleEvent ∧
    ({ sampleEvent with description := "null" }).encode ≠ sampleEvent.encode ∧
    ∃ fields, sampleEvent.encode = (Value.record fields).bytes ∧ "description" ∉ fields.map Prod.fst := by
  obtain ⟨hdecode, hbody, fields, hfields, hdescription⟩ :=
    wire_roundtrip (e := sampleEvent) (by decide) (by decide)
  refine ⟨hdecode, fun h => ?_, fields, hfields, fun h => hdescription.1 h rfl⟩
  exact absurd (congrArg description (hbody _ h)) (by decide)

end TransferLedger.Event
