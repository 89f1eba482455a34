import TransferLedger.Amount
import TransferLedger.Proofs.Json.Values

/-! # Accounts, records, entries and amounts in JSON

Each is read back as it was written (`Json.forms_roundtrip`). The fields of an account and of an entry are
taken in groups: those that are always written, and those that may be left out or `null`.
-/

namespace TransferLedger
set_option autoImplicit false

open Json

/-! ## Accounts -/

theorem AccountStatus.chosen_name (s : AccountStatus) : chosen choices s.name = .ok s := by
  cases s <;> rfl

namespace Account

/-- The fields before the time of deletion. -/
def headFields (a : Account) : List (String × Value) :=
  [("id", .text a.id), ("owner_id", .text a.ownerId), ("name", .text a.name),
    ("currency", .text a.currency), ("balance", .text a.balance.text), ("status", .text a.status.name),
    ("created_at", .text a.createdAt.text), ("updated_at", .text a.updatedAt.text)]

/-- The names of these fields, the last one first. -/
def headNames : List String :=
  ["updated_at", "created_at", "status", "balance", "currency", "name", "owner_id", "id"]

variable {a : Account}

theorem written_head (h : a.Timed) :
    Written shape.fields [] shape.blank a.headFields (.ok (headNames, { a with deletedAt := none })) := by
  refine .field rfl rfl (Field.reads_required (readsAs_text _) _ _) ?_
  refine .field rfl rfl (Field.reads_required (readsAs_text _) _ _) ?_
  refine .field rfl rfl (Field.reads_required (readsAs_text _) _ _) ?_
  refine .field rfl rfl (Field.reads_required (readsAs_text _) _ _) ?_
  refine .field rfl rfl (Field.reads_required (readsAs_decimal _) _ _) ?_
  refine .field rfl rfl (Field.reads_required (readsAs_choice a.status.chosen_name) _ _) ?_
  refine .field rfl rfl (Field.reads_required (readsAs_instant h.1) _ _) ?_
  refine .field rfl rfl (Field.reads_required (readsAs_instant h.2.1) _ _) ?_
  exact .nil _ _

theorem ofJson_toJson (h : a.Timed) : ofJson a.toJson.bytes = .ok a := by
  obtain ⟨v, hjson, hdeleted⟩ : ∃ v, a.toJson = .record (a.headFields ++ [("deleted_at", v)]) ∧
      ReadsAs readInstant? v a.deletedAt := by
    refine ⟨_, rfl, ?_⟩
    cases hd : a.deletedAt with
    | none => exact readsAs_null
    | some t => exact readsAs_instant? (h.2.2 t hd)
  rw [ofJson, hjson]
  refine readAll_written ((written_head h).append
    (.field rfl rfl (Field.reads_nullable hdeleted _ _) (.nil _ _))) ?_
  simp [shape, headNames, Field.required, Field.nullable]

/-- Without the time of deletion the account is read as one that is not deleted. -/
theorem ofJson_undeleted (h : a.Timed) :
    ofJson (Value.record a.headFields).bytes = .ok { a with deletedAt := none } := by
  refine readAll_written (written_head h) ?_
  simp [shape, headNames, Field.required, Field.nullable]

end Account

/-! ## Records -/

theorem TransactionStatus.chosen_name (s : TransactionStatus) : chosen choices s.name = .ok s := by
  cases s <;> rfl

namespace Transaction

theorem ofJson_toJson {r : Transaction} (h : r.Timed) : ofJson r.toJson.bytes = .ok r := by
  have hwritten : Written shape.fields [] shape.blank
      [("id", .text r.id), ("from_account_id", .text r.fromAccount), ("to_account_id", .text r.toAccount),
        ("transaction_type", .text r.type), ("amount", .text r.amount.text), ("currency", .text r.currency),
        ("description", .text r.description), ("status", .text r.status.name),
        ("created_at", .text r.createdAt.text), ("updated_at", .text r.updatedAt.text)]
      (.ok (["updated_at", "created_at", "status", "description", "currency", "amount", "transaction_type",
        "to_account_id", "from_account_id", "id"], r)) := by
    refine .field rfl rfl (Field.reads_required (readsAs_text _) _ _) ?_
    refine .field rfl rfl (Field.reads_required (readsAs_text _) _ _) ?_
    refine .field rfl rfl (Field.reads_required (readsAs_text _) _ _) ?_
    refine .field rfl rfl (Field.reads_required (readsAs_text _) _ _) ?_
    refine .field rfl rfl (Field.reads_required (readsAs_decimal _) _ _) ?_
    refine .field rfl rfl (Field.reads_required (readsAs_text _) _ _) ?_
    refine .field rfl rfl (Field.reads_required (readsAs_text _) _ _) ?_
    refine .field rfl rfl (Field.reads_required (readsAs_choice r.status.chosen_name) _ _) ?_
    refine .field rfl rfl (Field.reads_required (readsAs_instant h.1) _ _) ?_
    refine .field rfl rfl (Field.reads_required (readsAs_instant h.2) _ _) ?_
    exact .nil _ _
  refine readAll_written hwritten ?_
  simp [shape, Field.required]

end Transaction

/-! ## Entries -/

theorem Side.chosen_name (s : Side) : chosen choices s.name = .ok s := by
  cases s <;> rfl

namespace Entry

/-- The fields before the description. -/
def headFields (x : Entry) : List (String × Value) :=
  [("id", .text x.id), ("account_id", .text x.account), ("transaction_id", .text x.transactionId),
    ("entry_type", .text x.side.name), ("amount", .text x.amount.text), ("balance", .text x.balance.text),
    ("currency", .text x.currency)]

/-- The names of these fields, the last one first. -/
def headNames : List String :=
  ["currency", "balance", "amount", "entry_type", "transaction_id", "account_id", "id"]

def descriptionFields (x : Entry) : List (String × Value) :=
  if x.description = "" then [] else [("description", .text x.description)]

def timeFields (x : Entry) : List (String × Value) :=
  [("created_at", .text x.createdAt.text), ("updated_at", .text x.updatedAt.text)]

def deletionFields (x : Entry) : List (String × Value) :=
  match x.deletedAt with
  | some t => [("deleted_at", .text t.text)]
  | none => []

/-- The entry as far as the fields up to the description tell. -/
def ofHead (x : Entry) : Entry :=
  { x with createdAt := default, updatedAt := default, deletedAt := none }

theorem toJson_eq (x : Entry) :
    x.toJson = .record (x.headFields ++ x.descriptionFields ++ x.timeFields ++ x.deletionFields) := rfl

variable {x : Entry}

theorem written_head (x : Entry) : Written shape.fields [] shape.blank x.headFields
    (.ok (headNames, { x.ofHead with description := "" })) := by
  refine .field rfl rfl (Field.reads_required (readsAs_text _) _ _) ?_
  refine .field rfl rfl (Field.reads_required (readsAs_text _) _ _) ?_
  refine .field rfl rfl (Field.reads_required (readsAs_text _) _ _) ?_
  refine .field rfl rfl (Field.reads_required (readsAs_choice x.side.chosen_name) _ _) ?_
  refine .field rfl rfl (Field.reads_required (readsAs_decimal _) _ _) ?_
  refine .field rfl rfl (Field.reads_required (readsAs_decimal _) _ _) ?_
  refine .field rfl rfl (Field.reads_required (readsAs_text _) _ _) ?_
  exact .nil _ _

/-- With the description or without it, what is seen of the entry is the same. -/
theorem written_description (x : Entry) : ∃ seen, (seen = headNames ∨ seen = "description" :: headNames) ∧
    Written shape.fields [] shape.blank (x.headFields ++ x.descriptionFields) (.ok (seen, x.ofHead)) := by
  unfold descriptionFields
  by_cases hd : x.description = ""
  · have hx : { x.ofHead with description := "" } = x.ofHead := by rw [← hd]; rfl
    rw [if_pos hd, List.append_nil, ← hx]
    exact ⟨_, .inl rfl, written_head x⟩
  · rw [if_neg hd]
    refine ⟨_, .inr rfl, (written_head x).append ?_⟩
    exact .field rfl rfl (Field.reads_optional (readsAs_text _) _ _) (.nil _ _)

theorem written_times (h : x.Timed) : ∃ seen,
    (seen = headNames ∨ seen = "description" :: headNames) ∧
    Written shape.fields [] shape.blank (x.headFields ++ x.descriptionFields ++ x.timeFields)
      (.ok ("updated_at" :: "created_at" :: seen, { x with deletedAt := none })) := by
  obtain ⟨seen, hseen, hwritten⟩ := written_description x
  refine ⟨seen, hseen, hwritten.append ?_⟩
  have hnew : seen.contains "created_at" = false ∧
      ("created_at" :: seen).contains "updated_at" = false := by
    obtain rfl | rfl := hseen <;> decide
  refine .field rfl hnew.1 (Field.reads_required (readsAs_instant h.1) _ _) ?_
  refine .field rfl hnew.2 (Field.reads_required (readsAs_instant h.2.1) _ _) ?_
  exact .nil _ _

/-- Without the time of deletion the entry is read as one that is not deleted. -/
theorem ofJson_undeleted (h : x.Timed) :
    ofJson (Value.record (x.headFields ++ x.descriptionFields ++ x.timeFields)).bytes =
      .ok { x with deletedAt := none } := by
  obtain ⟨seen, hseen, hwritten⟩ := written_times h
  refine readAll_written hwritten ?_
  obtain rfl | rfl := hseen <;> simp [shape, headNames, Field.required, Field.optional]

/-- With it, be it `null`, the entry is read with what it is read as. -/
theorem ofJson_deletion (h : x.Timed) {v : Value} {d : Option Instant} (hd : ReadsAs readInstant? v d) :
    ofJson (Value.record (x.headFields ++ x.descriptionFields ++ x.timeFields ++ [("deleted_at", v)])).bytes =
      .ok { x with deletedAt := d } := by
  obtain ⟨seen, hseen, hwritten⟩ := written_times h
  have hnew : ("updated_at" :: "created_at" :: seen).contains "deleted_at" = false := by
    obtain rfl | rfl := hseen <;> decide
  refine readAll_written (hwritten.append
    (.field rfl hnew (Field.reads_optional hd _ _) (.nil _ _))) ?_
  obtain rfl | rfl := hseen <;> simp [shape, headNames, Field.required, Field.optional]

theorem ofJson_toJson (h : x.Timed) : ofJson x.toJson.bytes = .ok x := by
  rw [toJson_eq, deletionFields]
  cases hd : x.deletedAt with
  | none =>
    have hx : { x with deletedAt := none } = x := by rw [← hd]
    rw [List.append_nil, ofJson_undeleted h, hx]
  | some t =>
    have hx : { x with deletedAt := some t } = x := by rw [← hd]
    rw [ofJson_deletion h (readsAs_instant? (h.2.2 t hd)), hx]

end Entry

/-! ## Amounts -/

theorem Amount.ofDecimal_value (a : Amount) : ofDecimal a.value = .ok a := by
  rw [ofDecimal, dif_pos a.positive, dif_pos a.scale_le]

theorem Amount.ofJson_toJson (a : Amount) : ofJson a.toJson.bytes = .ok a := by
  refine readAll_readsAs fun rest hrest => ?_
  rw [readJson, toJson, text, readsAs_decimal a.value rest hrest]
  simp only [bind, Except.bind, ofDecimal_value]

namespace Json

/-- What is written is read back, and what it is read as is written as the same text. -/
def RoundTrips {α : Type} (toJson : α → Value) (ofJson : Bytes → Except ReadError α) (a : α) : Prop :=
  ofJson (toJson a).bytes = .ok a ∧
    ∀ a', ofJson (toJson a).bytes = .ok a' → (toJson a').bytes = (toJson a).bytes

theorem RoundTrips.of_eq {α : Type} {toJson : α → Value} {ofJson : Bytes → Except ReadError α} {a : α}
    (h : ofJson (toJson a).bytes = .ok a) : RoundTrips toJson ofJson a := by
  refine ⟨h, fun a' ha' => ?_⟩
  rw [h] at ha'
  cases ha'
  rfl

/-- **The JSON forms round-trip.** The time of deletion of what is not deleted is `null` in an account and left
out of an entry; either is read as unset in both. -/
theorem forms_roundtrip :
    (∀ a : Account, a.Timed → RoundTrips Account.toJson Account.ofJson a) ∧
    (∀ r : Transaction, r.Timed → RoundTrips Transaction.toJson Transaction.ofJson r) ∧
    (∀ x : Entry, x.Timed → RoundTrips Entry.toJson Entry.ofJson x) ∧
    (∀ a : Amount, RoundTrips Amount.toJson Amount.ofJson a) ∧
    (∀ a : Account, a.Timed → a.deletedAt = none →
      ∃ fields, a.toJson = .record (fields ++ [("deleted_at", .null)]) ∧
        Account.ofJson (Value.record fields).bytes = .ok a) ∧
    ∀ x : Entry, x.Timed → x.deletedAt = none →
      ∃ fields, x.toJson = .record fields ∧
        Entry.ofJson (Value.record (fields ++ [("deleted_at", .null)])).bytes = .ok x := by
  refine ⟨fun a h => .of_eq (Account.ofJson_toJson h), fun r h => .of_eq (Transaction.ofJson_toJson h),
    fun x h => .of_eq (Entry.ofJson_toJson h), fun a => .of_eq a.ofJson_toJson, fun a h hlive => ?_,
    fun x h hlive => ?_⟩
  · have ha : { a with deletedAt := none } = a := by rw [← hlive]
    have hread := Account.ofJson_undeleted h
    rw [ha] at hread
    refine ⟨a.headFields, ?_, hread⟩
    rw [Account.toJson, hlive]
    rfl
  · have hx : { x with deletedAt := none } = x := by rw [← hlive]
    have hread := Entry.ofJson_deletion h readsAs_null
    rw [hx] at hread
    refine ⟨_, ?_, hread⟩
    rw [Entry.toJson_eq, Entry.deletionFields, hlive, List.append_nil]

/-- An account with a balance of 29 digits, open from the first second of the year 0000 to the last nanosecond of
9999. -/
def sampleAccount : Account :=
  { id := "a-1", ownerId := "", name := "\"Ärger\" \\ \x00\n😀", currency := "USD"
    balance := ⟨-79228162514264337593543950335, 28, by decide, by decide⟩, status := .closed
    createdAt := ⟨-62167219200, 0⟩, updatedAt := ⟨253402300799, 999999999⟩, deletedAt := none }

/-- A deleted entry; its times have three and six digits of a second, and the last one is a leap second. -/
def sampleEntry : Entry :=
  { id := "t:debit", account := "a-1", transactionId := "t", side := .debit
    amount := ⟨1000000, 6, by decide, by decide⟩, balance := ⟨-1000000, 6, by decide, by decide⟩
    currency := "USD", description := "", createdAt := ⟨0, 250000000⟩
    updatedAt := ⟨1483228799, 1000001000⟩, deletedAt := some ⟨1483228799, 1999999999⟩ }

theorem sample_forms_roundtrip :
    sampleAccount.Timed ∧ Account.ofJson sampleAccount.toJson.bytes = .ok sampleAccount ∧
    sampleEntry.Timed ∧ Entry.ofJson sampleEntry.toJson.bytes = .ok sampleEntry ∧
    ∃ fields, sampleAccount.toJson = .record (fields ++ [("deleted_at", .null)]) ∧
      Account.ofJson (Value.record fields).bytes = .ok sampleAccount := by
  have haccount : sampleAccount.Timed := by decide +kernel
  have hentry : sampleEntry.Timed := by decide +kernel
  obtain ⟨haccounts, -, hentries, -, hundeleted, -⟩ := forms_roundtrip
  exact ⟨haccount, (haccounts _ haccount).1, hentry, (hentries _ hentry).1, hundeleted _ haccount rfl⟩

end Json

end TransferLedger
