import TransferLedger.Proofs.Broker.Queues
import TransferLedger.Proofs.Ledger.Reading
import TransferLedger.Proofs.Ledger.Writer

/-! # What the ledger cannot refuse

* `Transaction.Ledgerable`: what the record of a carried out transfer is like. Its event is read back
  from the wire (`Ledgerable.decode`) and yields the pair of the record (`Ledgerable.pairOfEvent`).
* `insertEntries_sound`: a table that does not fail takes every batch of distinct ids. So it takes every pair,
  and if it had nothing of the transaction, it then has this pair of it (`sound_takesPairs`).
* `ledgerHandlerUntil_handle`: the handler is done with such a record once an insertion succeeds, and in
  no event does it call the record unusable (`ledgerHandlerUntil_not_permanent`).
-/

namespace TransferLedger
set_option autoImplicit false

/-! ## Records -/

/-- What clocks show: the seconds are a signed word of 64 bits. -/
def Instant.InRange (t : Instant) : Prop :=
  -9223372036854775808 ≤ t.seconds ∧ t.seconds < 9223372036854775808
deriving Decidable

/-- A committed transfer of a positive amount between accounts that are named, under an id. -/
structure Transaction.Ledgerable (t : Transaction) : Prop where
  success : t.status = .success
  id : Text.trim t.id ≠ ""
  sender : Text.trim t.fromAccount ≠ ""
  receiver : Text.trim t.toAccount ≠ ""
  amount : 0 < t.amount.mantissa
  time : t.updatedAt.InRange

namespace Transaction.Ledgerable

variable {t : Transaction}

theorem isSuccess (h : t.Ledgerable) : (Event.ofTransaction t).isSuccess = true := by
  rw [Event.isSuccess_ofTransaction, h.success]
  rfl

theorem decode (h : t.Ledgerable) :
    Event.decode (Event.ofTransaction t).encode = .ok (.ofTransaction t) :=
  Event.decode_encode h.time.1 h.time.2

theorem pairOfEvent (h : t.Ledgerable) (now : Instant) : Entry.pairOfEvent (.ofTransaction t) now =
    .ok (Writing.entry ⟨t, now⟩ .debit, Writing.entry ⟨t, now⟩ .credit) := by
  have hread : Decimal.read (Text.trim t.amount.text) = .ok t.amount := by
    rw [Decimal.trim_text, Decimal.read_text]
  have hpositive : t.amount.isPositive = true := decide_eq_true h.amount
  unfold Entry.pairOfEvent Event.ofTransaction
  rw [if_neg h.id, if_neg h.sender, if_neg h.receiver, hread]
  simp only [hpositive, if_true]
  rfl

end Transaction.Ledgerable

/-! ## Batches -/

theorem repeatedId?_of_nodup : ∀ {batch : List Entry} {seen : List String},
    (batch.map (·.id)).Nodup → (∀ x ∈ batch, x.id ∉ seen) → repeatedId? seen batch = none
  | [], _, _, _ => rfl
  | x :: xs, seen, hnodup, hseen => by
    rw [List.map_cons, List.nodup_cons] at hnodup
    have hx : seen.contains x.id = false := by
      simpa using hseen x List.mem_cons_self
    rw [repeatedId?, hx, if_neg Bool.false_ne_true]
    refine repeatedId?_of_nodup hnodup.2 ?_
    intro y hy hmem
    rcases List.mem_cons.1 hmem with heq | hmem
    · exact hnodup.1 (heq ▸ List.mem_map_of_mem hy)
    · exact hseen y (List.mem_cons_of_mem _ hy) hmem

theorem checkDistinctIds_of_nodup {batch : List Entry} (h : (batch.map (·.id)).Nodup) :
    checkDistinctIds batch = .ok () := by
  rw [checkDistinctIds, repeatedId?_of_nodup h fun _ _ => List.not_mem_nil]

namespace Writing

variable (w : Writing)

theorem debit_ne_credit : (w.entry .debit).id ≠ (w.entry .credit).id := by
  intro heq
  cases (Entry.idOf_inj heq).2

theorem pair_nodup : (w.pair.map (·.id)).Nodup := by
  simpa [pair] using w.debit_ne_credit

end Writing

/-- The store takes every pair. Where the record was new to it, the pair is all that it has of the record
afterwards. -/
def LedgerStore.TakesPairs {σ : Type} (store : LedgerStore σ) (isNew : σ → String → Prop) : Prop :=
  ∀ (w : Writing) (s : σ), ∃ k s', store.insertEntries w.pair s = (.ok k, s') ∧
    (isNew s w.record.id → store.entriesByTransaction w.record.id s' = .ok w.pair)

namespace TableLedger

/-! ## Tables that do not fail -/

theorem exists_insertEach_sound : ∀ (batch : List Entry) (n : Nat) (l : TableLedger),
    ∃ k l', insertEach .sound n batch l = .ok (k, l')
  | [], _, l => ⟨0, l, rfl⟩
  | x :: xs, n, l => by
    rw [insertEach]
    by_cases hnew : (l.row? x.id).isNone = true
    · obtain ⟨k, l', h⟩ := exists_insertEach_sound xs (n + 1) ⟨l.rows ++ [.ofEntry x]⟩
      refine ⟨k + 1, l', bind_eq_ok.2 ⟨true, rfl, ?_⟩⟩
      rw [Bool.true_and, if_pos hnew, h]
      rfl
    · obtain ⟨k, l', h⟩ := exists_insertEach_sound xs (n + 1) l
      refine ⟨k, l', bind_eq_ok.2 ⟨true, rfl, ?_⟩⟩
      rw [Bool.true_and, if_neg hnew, h]

theorem insertEntries_sound {batch : List Entry} (h : (batch.map (·.id)).Nodup) (l : TableLedger) :
    insertEntries .sound batch l = (.ok (l.fresh batch).length, l.adding batch) := by
  obtain ⟨k, l', heach⟩ := exists_insertEach_sound batch 1 l
  obtain ⟨rfl, rfl⟩ := insertEach_eq_ok Engine.sound_keepsEntries h heach
  have hunit : insertUnit .sound batch l = .ok ((l.fresh batch).length, l.adding batch) := by
    rw [insertUnit, checkDistinctIds_of_nodup h, heach]
    rfl
  rw [insertEntries, hunit]
  rfl

/-- Nothing in the table belongs to this transaction. -/
structure Unknown (l : TableLedger) (id : String) : Prop where
  ids : ∀ r ∈ l.rows, ∀ side, r.id ≠ Entry.idOf id side
  transactions : ∀ r ∈ l.rows, r.transactionId ≠ id

namespace Unknown

variable {l : TableLedger} {w : Writing}

theorem fresh (h : l.Unknown w.record.id) : l.fresh w.pair = w.pair := by
  have hnone : ∀ side, (l.row? (w.entry side).id).isNone = true := by
    intro side
    rw [Option.isNone_iff_eq_none, row?, List.find?_eq_none]
    intro r hr heq
    exact h.ids r hr side (eq_of_beq heq)
  rw [TableLedger.fresh, List.filter_eq_self]
  intro x hx
  rcases List.mem_cons.1 hx with rfl | hx
  · exact hnone .debit
  · rw [List.mem_singleton.1 hx]
    exact hnone .credit

/-- Once the pair is added, it is all that there is of the transaction. -/
theorem entriesByTransaction (h : l.Unknown w.record.id) :
    TableLedger.entriesByTransaction .sound w.record.id (l.adding w.pair) = .ok w.pair := by
  have hold : l.rows.filter (fun r => r.transactionId == w.record.id) = [] := by
    rw [List.filter_eq_nil_iff]
    intro r hr heq
    exact h.transactions r hr (eq_of_beq heq)
  have hside : ∀ side, ((EntryRow.ofEntry (w.entry side)).transactionId == w.record.id) = true :=
    fun _ => beq_self_eq_true w.record.id
  have hrows : (l.adding w.pair).rows.filter (fun r => r.transactionId == w.record.id) =
      w.pair.map .ofEntry := by
    rw [adding, h.fresh, List.filter_append, hold, List.nil_append, List.filter_eq_self]
    intro r hr
    rcases List.mem_cons.1 hr with rfl | hr
    · exact hside .debit
    · rw [List.mem_singleton.1 hr]
      exact hside .credit
  rw [TableLedger.entriesByTransaction, hrows]
  exact readRows_sound w.pair

end Unknown

theorem sound_takesPairs : (store .sound).TakesPairs Unknown :=
  fun w l => ⟨_, _, insertEntries_sound w.pair_nodup l, Unknown.entriesByTransaction⟩

end TableLedger

/-! ## The handler -/

section

variable {α σ : Type} {policy : RetryPolicy} {operation : String} {cancelled : Nat → Bool}
  {clock : Clock} {stopped : Nat → Bool} {stopping : Bool} {readings : Nat} {t : Transaction}

theorem Retry.run_eq_ok {call : Nat → σ → Except StoreError α × σ} {s s' : σ} {a : α}
    (hcancelled : cancelled 1 = false) (h : call 1 s = (.ok a, s')) :
    run policy operation cancelled call s = (.ok a, s') := by
  unfold run attempt
  rw [hcancelled, if_neg Bool.false_ne_true, h]

variable {insert : Nat → List Entry → σ → Except StoreError Nat × σ}

theorem ledgerHandlerUntil_handle (ht : t.Ledgerable) (hstop : (stopping || stopped 1) = false)
    {s s' : σ} {k : Nat}
    (h : insert 1 (Writing.pair ⟨t, clock readings⟩) s = (.ok k, s')) :
    (ledgerHandlerUntil policy insert clock stopped).handle (.ofTransaction t) stopping (readings, s) =
      (.handled, readings + 1, s') := by
  have hrun : Retry.run policy insertOperation (fun n => stopping || stopped n)
      (fun n => insert n (Writing.pair ⟨t, clock readings⟩)) s = (.ok k, s') :=
    Retry.run_eq_ok hstop h
  rw [Writing.pair] at hrun
  simp only [ledgerHandlerUntil, ht.isSuccess, writeEvent, ht.pairOfEvent, hrun]
  rfl

theorem ledgerHandlerUntil_not_permanent (ht : t.Ledgerable) (s : σ) (reason : String) :
    ((ledgerHandlerUntil policy insert clock stopped).handle (.ofTransaction t) stopping
      (readings, s)).1 ≠ .permanent reason := by
  simp only [ledgerHandlerUntil, ht.isSuccess, Bool.not_true, Bool.false_eq_true, if_false]
  split
  · exact nofun
  next cause s' hwrite =>
  rw [writeEvent, ht.pairOfEvent] at hwrite
  simp only at hwrite
  split at hwrite
  · cases hwrite
  next hrun =>
  cases hwrite
  have hcause : cause.isPermanent = false := Retry.attempt_eq_error hrun
  rw [LedgerError.verdict, hcause, if_neg Bool.false_ne_true]
  exact nofun

end

end TransferLedger
