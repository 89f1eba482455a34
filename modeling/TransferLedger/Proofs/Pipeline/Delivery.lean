import TransferLedger.Proofs.Ledger.Memory
import TransferLedger.Proofs.Pipeline.DoubleEntry
import TransferLedger.Proofs.Text.Blank

/-! # Every committed transfer can be entered

What the service takes for a valid transfer the ledger takes too: a request that is answered with a record
leaves an event in the queue that is read back as it was, for which the handler has no objection
(`Transactions.answer_ledgerable`), and from which a store that does not fail gets the two entries of the
record. A fresh id is unknown to the ledger of every pipeline (`Pipeline.Reachable.unknown`).
-/

namespace TransferLedger
set_option autoImplicit false

/-! ## Dispatches -/

/-- A relay that takes an announcement of the record off its queue acknowledges it, if the insertion of the
pair succeeds. -/
theorem Transaction.Ledgerable.dispatch_acked {σ : Type} {t : Transaction} (ht : t.Ledgerable)
    {c : RelayConfig} {policy : RetryPolicy} {clock : Clock} {stopped : Nat → Bool}
    {insert : Nat → List Entry → σ → Except StoreError Nat × σ} {failure : Option (Handler (Nat × σ))}
    {stopping : Bool} (hstop : (stopping || stopped 1) = false) {d : Delivery} (hd : d.message.Announces t)
    {readings k : Nat} {s s' : σ}
    (hs : insert 1 (Writing.pair ⟨t, clock readings⟩) s = (.ok k, s')) (b : Broker) :
    c.dispatch ⟨some (ledgerHandlerUntil policy insert clock stopped), failure⟩ stopping d b (readings, s) =
      (.ok .acked, b, readings + 1, s') := by
  have hget : (EventKind.ofKey? d.message.key).bind
      (Registry.get? ⟨some (ledgerHandlerUntil policy insert clock stopped), failure⟩) =
        some (ledgerHandlerUntil policy insert clock stopped) := by
    rw [hd.1, EventKind.ofKey?_key, EventKind.ofTransaction_success ht.success]
    rfl
  have hdecode : Event.decode d.message.body = .ok (.ofTransaction t) := by
    rw [hd.2, ht.decode]
  have hjudge : c.judge ⟨some (ledgerHandlerUntil policy insert clock stopped), failure⟩ stopping d
      (readings, s) = (.ok .acked, readings + 1, s') := by
    simp only [RelayConfig.judge, hget, hdecode, ledgerHandlerUntil_handle ht hstop hs]
    rfl
  rw [RelayConfig.dispatch_eq, hjudge]
  rfl

/-- A relay over the store acknowledges every announcement of the record, however often it was handed out
and whatever the store has. If the record is new to the store, its entries are those of the record then. -/
def LedgerStore.Takes {σ : Type} (store : LedgerStore σ) (isNew : σ → String → Prop) (t : Transaction) :
    Prop :=
  ∀ (c : RelayConfig) (policy : RetryPolicy) (clock : Clock) (failure : Option (Handler (Nat × σ)))
    (d : Delivery) (b : Broker) (readings : Nat) (s : σ), d.message.Announces t →
    ∃ s', c.dispatch ⟨some (ledgerHandler policy (fun _ => store.insertEntries) clock), failure⟩ false d b
        (readings, s) = (.ok .acked, b, readings + 1, s') ∧
      (isNew s t.id → ∃ debit credit, store.entriesByTransaction t.id s' = .ok [debit, credit] ∧
        t.Booked debit credit)

theorem Transaction.Ledgerable.takes {t : Transaction} (ht : t.Ledgerable) {σ : Type}
    {store : LedgerStore σ} {isNew : σ → String → Prop} (hstore : store.TakesPairs isNew) :
    store.Takes isNew t := by
  intro c policy clock failure d b readings s hd
  obtain ⟨k, s', hinsert, hentries⟩ := hstore ⟨t, clock readings⟩ s
  refine ⟨s', ht.dispatch_acked rfl hd hinsert b, ?_⟩
  intro hnew
  exact ⟨_, _, hentries hnew, Writing.booked (w := ⟨t, clock readings⟩) rfl rfl⟩

/-! ## Answers -/

/-- Accounts that passed the check are named, also for those who check again. -/
theorem TransferRequest.validate_named {r : TransferRequest} {v : ValidTransfer}
    (h : r.validate = .ok v) : Text.trim v.fromAccount ≠ "" ∧ Text.trim v.toAccount ≠ "" := by
  have hasks := validate_asks h
  rw [hasks.sender_eq, hasks.receiver_eq, Text.trim_trim, Text.trim_trim, ← hasks.sender_eq,
    ← hasks.receiver_eq]
  exact ⟨hasks.sender_named, hasks.receiver_named⟩

namespace Transactions

variable {e : Engine} {now : Instant} {newId : String} {r : TransferRequest}

/-- A record that is answered is that of a plan and new, and it is announced. -/
theorem createWith_eq_ok {publish : Publisher} (he : e.KeepsInserts) {w w' : World} {t : Transaction}
    (h : createWith publish e now newId r w = (.ok t, w')) :
    (∃ v, r.validate = .ok v ∧ t = (v.plan newId).record .success now) ∧
      w.bank.transaction? t.id = none ∧ w'.broker = (publish (.ofTransaction t) w.broker).2 := by
  rcases createWith_ending publish he now newId r w with ⟨cause, -, hcreate⟩ | ⟨p, hp, hending⟩
  · rw [hcreate] at h
    cases h
  obtain ⟨v, -, -, hv, rfl, -⟩ := Transfer.prepare_eq_ok hp
  rw [h] at hending
  cases hending with
  | carriedOut m _ => exact ⟨⟨v, hv, rfl⟩, m.record_new, rfl⟩

theorem answer_ledgerable {v : ValidTransfer} (hv : r.validate = .ok v) (hid : Text.trim newId ≠ "")
    (hnow : now.InRange) : ((v.plan newId).record .success now).Ledgerable where
  success := rfl
  id := hid
  sender := (TransferRequest.validate_named hv).1
  receiver := (TransferRequest.validate_named hv).2
  amount := v.amount.positive
  time := hnow

end Transactions

/-- The event of the record survives the way to the ledger: it is read back as it was, either store takes it,
and over no store at all, failing or not, the handler calls it unusable. -/
structure Transaction.Deliverable (t : Transaction) : Prop where
  decoded : Event.decode (Event.ofTransaction t).encode = .ok (.ofTransaction t)
  table : (TableLedger.store .sound).Takes TableLedger.Unknown t
  memory : MemoryLedger.store.Takes MemoryLedger.Unknown t
  usable : ∀ {σ : Type} (policy : RetryPolicy)
    (insert : Nat → List Entry → σ → Except StoreError Nat × σ) (clock : Clock) (stopped : Nat → Bool)
    (stopping : Bool) (w : Nat × σ) (reason : String),
    ((ledgerHandlerUntil policy insert clock stopped).handle (.ofTransaction t) stopping w).1 ≠
      .permanent reason

theorem Transaction.Ledgerable.deliverable {t : Transaction} (ht : t.Ledgerable) : t.Deliverable where
  decoded := ht.decode
  table := ht.takes TableLedger.sound_takesPairs
  memory := ht.takes MemoryLedger.takesPairs
  usable := fun _ _ _ _ _ w => ledgerHandlerUntil_not_permanent ht w.2

namespace Transactions

/-- `newId` is an identifier, so it is not blank, and `now` is what a clock shows. -/
theorem create_deliverable {e : Engine} (he : e.KeepsInserts) {now : Instant} (hnow : now.InRange)
    {newId : String} (hid : Text.trim newId ≠ "") {r : TransferRequest} {bank : Bank}
    {ledger : TableLedger} {dead ready : List Message} {t : Transaction} {w : World}
    (h : create e now newId r ⟨bank, ledger, .wired false dead ready⟩ = (.ok t, w)) :
    w.broker = .wired false dead
        (ready ++ [⟨EventKind.success.key, (Event.ofTransaction t).encode, 0⟩]) ∧
      t.Deliverable := by
  obtain ⟨⟨v, hv, rfl⟩, -, hbroker⟩ := createWith_eq_ok he h
  have ht := answer_ledgerable hv hid hnow
  refine ⟨?_, ht.deliverable⟩
  rw [hbroker, Publisher.direct, Broker.wired_publishBestEffort, if_neg Bool.false_ne_true,
    Broker.messageOf, EventKind.ofTransaction_success ht.success]

/-- A transfer with texts that have to be escaped on the wire and zeros at the end of its amount. -/
def sampleAnswer : Except (Halt TransferError) Transaction × World :=
  create .sound .epoch (Identifier.ofBytes (List.replicate 16 255))
    ⟨" alice ", "bob", "3.2500", "eur", "\"gift\"\n", "\x7b\\\x7d"⟩
    ⟨Books.samplePlanned.bank, .empty, .wired false [] []⟩

/-- The record of the transfer. -/
def sampleRecord : Transaction :=
  ⟨"ffffffff-ffff-4fff-bfff-ffffffffffff", "alice", "bob", "\"gift\"",
    ⟨32500, 4, by decide, by decide⟩, "EUR", "\x7b\\\x7d", .success, .epoch, .epoch⟩

theorem sample_deliverable :
    sampleAnswer.2.broker = .wired false [] [⟨EventKind.success.key,
        (Event.ofTransaction sampleRecord).encode, 0⟩] ∧ sampleRecord.Deliverable := by
  have hid : Text.trim (Identifier.ofBytes (List.replicate 16 255)) ≠ "" :=
    Identifier.trim_ofBytes_ne (by decide)
  have hnow : Instant.epoch.InRange := by decide
  have hrecord : sampleAnswer.1 = .ok sampleRecord := by decide +kernel
  have hanswer : sampleAnswer = (.ok sampleRecord, sampleAnswer.2) := by rw [← hrecord]
  exact create_deliverable Engine.sound_keepsInserts hnow hid hanswer

end Transactions

/-! ## Pipelines -/

namespace Pipeline

variable {s : Pipeline}

/-- What is not on record is not in the ledger. -/
theorem Reachable.unknown (h : s.Reachable) {id : String} (hid : s.books.bank.transaction? id = none) :
    s.ledger.Unknown id := by
  obtain ⟨x, hx⟩ := h.sound
  have hne : ∀ w ∈ x.writings, w.record.id ≠ id := by
    intro w hw heq
    rw [Bank.transaction?, List.find?_eq_none] at hid
    exact hid _ (hx.committed hw).1 (beq_iff_eq.2 heq)
  refine ⟨?_, ?_⟩
  · intro r hr side heq
    obtain ⟨w, hw, side', hrow⟩ := hx.wrote.holds.exists_writing hr
    have hrid : r.id = Entry.idOf w.record.id side' := congrArg EntryRow.id hrow
    exact hne w hw (Entry.idOf_inj (hrid.symm.trans heq)).1
  · intro r hr heq
    obtain ⟨w, hw, side, hrow⟩ := hx.wrote.holds.exists_writing hr
    have hrecord : r.transactionId = w.record.id := congrArg EntryRow.transactionId hrow
    exact hne w hw (hrecord.symm.trans heq)

/-- A record that is answered is new to the ledger of the pipeline. -/
theorem Reachable.unknown_answer (h : s.Reachable) {publish : Publisher} {e : Engine}
    (he : e.KeepsInserts) {now : Instant} {newId : String} {r : TransferRequest} {t : Transaction}
    {w : World} (hcreate : Transactions.createWith publish e now newId r s.world = (.ok t, w)) :
    s.ledger.Unknown t.id :=
  h.unknown (Transactions.createWith_eq_ok he hcreate).2.1

end Pipeline

end TransferLedger
