import TransferLedger.Proofs.Bank.Atomicity
import TransferLedger.Proofs.Books.Run
import TransferLedger.Proofs.Broker.Queues
import TransferLedger.Proofs.Service.Transactions

/-! # The outcome of a requested transfer

The answer to a request tells what happened to the tables and the queues, in every state, under any
failures of statements and whatever the state of the broker (`createWith_outcome`):

* `Committed`: a record was answered. The rows of its two accounts were exchanged for rows with the new
  balances, the record and its announcement were added, and nothing else changed (`Bank.Exchange`).
* `Failed`: an internal error was answered; no account changed, and at most a record of the failure
  and its announcement were added.
* Any other answer leaves everything as it was.
-/

namespace TransferLedger
set_option autoImplicit false

/-- A publisher may fail at any event for reasons of its own; otherwise it publishes to the broker. -/
def Publisher.BestEffort (publish : Publisher) : Prop :=
  ∀ event broker, publish event broker = broker.publishBestEffort event ∨
    publish event broker = (false, broker)

theorem Publisher.direct_bestEffort : direct.BestEffort := fun _ _ => .inl rfl

/-- The plan that a record says was carried out. -/
def Transaction.plan (t : Transaction) : TransferPlan where
  transactionId := t.id
  fromAccount := t.fromAccount
  toAccount := t.toAccount
  type := t.type
  amount := t.amount
  currency := t.currency
  description := t.description

/-- The announcement of a record added at most copies of its message, and nothing where it failed. -/
structure Announced (publish : Publisher) (t : Transaction) (key : String) (b b' : Broker) :
    Prop where
  gains : b.Gains b' ⟨key, (Event.ofTransaction t).encode, 0⟩
  nothing_if_failed : (publish (.ofTransaction t) b).1 = false → b' = b

namespace Transactions

/-- A transfer was carried out and recorded. -/
structure Committed (publish : Publisher) (w w' : World) (t : Transaction) : Prop where
  success : t.status = .success
  id_new : w.bank.transaction? t.id = none
  exchange : Nonempty (w.bank.Exchange t.plan t w'.bank)
  announced : Announced publish t EventKind.success.key w.broker w'.broker
  ledger : w'.ledger = w.ledger

/-- A transfer failed: nothing happened, or its failure was recorded. -/
def Failed (publish : Publisher) (w w' : World) : Prop :=
  w' = w ∨ ∃ t : Transaction, t.status = .failed ∧ w.bank.transaction? t.id = none ∧
    w'.bank = { w.bank with transactions := w.bank.transactions ++ [.ofTransaction t] } ∧
    Announced publish t EventKind.failure.key w.broker w'.broker ∧ w'.ledger = w.ledger

/-- What the code of an error says about the worlds before and after. -/
def Refused (publish : Publisher) (w w' : World) : ErrorCode → Prop
  | .invalidArgument => w' = w
  | .notFound => w' = w
  | .internal => Failed publish w w'

/-- What an answer says about the worlds before and after. -/
structure Explains (publish : Publisher) (w w' : World)
    (answer : Except (Halt TransferError) Transaction) : Prop where
  ok : ∀ t, answer = .ok t → Committed publish w w' t
  refused : ∀ cause, answer = .error (.refused cause) → Refused publish w w' cause.code
  overflowed : ∀ o, answer = .error (.overflow o) → w' = w

theorem Committed.recorded {publish : Publisher} {w w' : World} {t : Transaction}
    (h : Committed publish w w' t) :
    w'.bank.transactions = w.bank.transactions ++ [.ofTransaction t] :=
  h.exchange.elim fun x => x.transactions_eq

theorem refused_self (publish : Publisher) (w : World) (code : ErrorCode) :
    Refused publish w w code := by
  cases code with
  | invalidArgument => rfl
  | notFound => rfl
  | internal => exact .inl rfl

theorem explains_ok {publish : Publisher} {w w' : World} {t : Transaction}
    (h : Committed publish w w' t) : Explains publish w w' (.ok t) where
  ok := by
    rintro _ ⟨⟩
    exact h
  refused := nofun
  overflowed := nofun

theorem explains_refused {publish : Publisher} {w w' : World} {cause : TransferError}
    (h : Refused publish w w' cause.code) : Explains publish w w' (.error (.refused cause)) where
  ok := nofun
  refused := by
    rintro _ ⟨⟩
    exact h
  overflowed := nofun

theorem announced {publish : Publisher} (hp : publish.BestEffort) (t : Transaction) (b : Broker)
    {key : String} (hkey : (EventKind.ofEvent (.ofTransaction t)).key = key) :
    Announced publish t key b (publish (.ofTransaction t) b).2 := by
  subst hkey
  rcases hp (.ofTransaction t) b with h | h
  · rcases b.publishBestEffort_eq (.ofTransaction t) with hb | hb
    · rw [h, hb]
      exact ⟨b.copied_gains _ _, fun hf => by rw [h, hb] at hf; cases hf⟩
    · rw [h, hb]
      exact ⟨Broker.gains_self b _, fun _ => rfl⟩
  · rw [h]
    exact ⟨Broker.gains_self b _, fun _ => rfl⟩

theorem Ending.explains {publish : Publisher} (hp : publish.BestEffort) {now : Instant}
    {p : TransferPlan} (hne : p.fromAccount ≠ p.toAccount) {w w' : World}
    {outcome : Except (Halt TransferError) Transaction} (h : Ending publish now p w outcome w') :
    Explains publish w w' outcome := by
  cases h with
  | carriedOut m hsole =>
    exact explains_ok ⟨rfl, m.record_new, m.nonempty_exchange hsole hne,
      announced hp _ _ (congrArg EventKind.key (EventKind.ofTransaction_success rfl)), rfl⟩
  | refused _ => exact explains_refused (refused_self publish w _)
  | failed _ => exact explains_refused (refused_self publish w _)
  | recorded h hnew hs hr =>
    apply explains_refused
    rw [h]
    exact .inr ⟨_, rfl, hnew, rfl,
      announced hp _ _ (congrArg EventKind.key (EventKind.ofTransaction_failed rfl)), rfl⟩
  | overflowed o => exact ⟨nofun, nofun, fun _ _ => rfl⟩

theorem createWith_explains {publish : Publisher} (hp : publish.BestEffort) {e : Engine}
    (he : e.KeepsInserts) (now : Instant) (newId : String) (r : TransferRequest) (w : World) :
    Explains publish w (createWith publish e now newId r w).2
      (createWith publish e now newId r w).1 := by
  rcases createWith_ending publish he now newId r w with ⟨cause, -, hcreate⟩ | ⟨p, hprepare, hending⟩
  · rw [hcreate]
    exact explains_refused (refused_self publish w _)
  · exact hending.explains hp (Transfer.prepare_distinct hprepare)

/-! ## Publishing does not matter to the caller -/

theorem recordFailureWith_bank (publish : Publisher) (e : Engine) (now : Instant)
    (p : TransferPlan) (w : World) :
    (recordFailureWith publish e now p w).bank = (Transfer.recordFailed e now p w.bank).2 := by
  unfold recordFailureWith
  split
  · next h => rw [h]
  · next h => rw [h]

theorem carryOutWith_answer (publish : Publisher) (e : Engine) (now : Instant) (p : TransferPlan)
    (w : World) : (carryOutWith publish e now p w).1 = (Transfer.commit e now p w.bank).1 := by
  unfold carryOutWith
  split
  · next h => rw [h]
  · next h => rw [h]
  · next h => rw [h]

theorem carryOutWith_bank (publish publish' : Publisher) (e : Engine) (now : Instant)
    (p : TransferPlan) (w : World) (broker : Broker) :
    (carryOutWith publish' e now p { w with broker := broker }).2.bank =
      (carryOutWith publish e now p w).2.bank := by
  unfold carryOutWith
  simp only
  split
  · rfl
  · next cause bank h =>
    by_cases hcode : cause.code = .internal
    · simp only [if_pos hcode, recordFailureWith_bank]
    · simp only [if_neg hcode]
  · rfl

theorem createWith_independent (publish publish' : Publisher) (e : Engine) (now : Instant)
    (newId : String) (r : TransferRequest) (w : World) (broker : Broker) :
    (createWith publish' e now newId r { w with broker := broker }).1 =
        (createWith publish e now newId r w).1 ∧
      (createWith publish' e now newId r { w with broker := broker }).2.bank =
        (createWith publish e now newId r w).2.bank := by
  unfold createWith
  simp only
  cases Transfer.prepare e newId r w.bank with
  | error cause => exact ⟨rfl, rfl⟩
  | ok p =>
    refine ⟨?_, carryOutWith_bank publish publish' _ now p w broker⟩
    rw [carryOutWith_answer, carryOutWith_answer]

/-! ## The outcome -/

theorem createWith_outcome (publish : Publisher) (hp : publish.BestEffort) (e : Engine)
    (he : e.KeepsInserts) (now : Instant) (newId : String) (r : TransferRequest) (w : World) :
    Explains publish w (createWith publish e now newId r w).2
      (createWith publish e now newId r w).1 ∧
    ∀ (publish' : Publisher) (broker : Broker),
      (createWith publish' e now newId r { w with broker := broker }).1 =
          (createWith publish e now newId r w).1 ∧
        (createWith publish' e now newId r { w with broker := broker }).2.bank =
          (createWith publish e now newId r w).2.bank := by
  refine ⟨createWith_explains hp he now newId r w, ?_⟩
  intro publish' broker
  exact createWith_independent publish publish' e now newId r w broker

/-- An engine that inserts no record of a committed transfer. -/
def noSuccess : Engine := .answering (· == .insertTransaction "success") (.fail .locked)

theorem noSuccess_keepsInserts : noSuccess.KeepsInserts := by
  intro n s _
  unfold noSuccess Engine.answering
  split <;> exact nofun

/-- Two accounts, and a broker that is not set up. -/
def sampleWorld : World := ⟨Books.samplePlanned.bank, .empty, .empty⟩

/-- A transfer between the two accounts. -/
def sampleCreated (e : Engine) : Except (Halt TransferError) Transaction × World :=
  createWith .direct e default "t" ⟨"alice", "bob", "3.25", "eur", "", ""⟩ sampleWorld

/-- Where no statement fails the balances are exchanged. Where the record is not inserted they stay, and the
failure is recorded. -/
theorem sample_outcomes :
    (Explains .direct sampleWorld (sampleCreated .sound).2 (sampleCreated .sound).1 ∧
      (sampleCreated .sound).2.bank.accounts.map (·.balance) = ["7.25", "3.25"] ∧
      (sampleCreated .sound).2.bank.transactions.map (·.status) = ["success"]) ∧
    Explains .direct sampleWorld (sampleCreated noSuccess).2 (sampleCreated noSuccess).1 ∧
      (sampleCreated noSuccess).2.bank.accounts.map (·.balance) = ["10.50", "0"] ∧
      (sampleCreated noSuccess).2.bank.transactions.map (·.status) = ["failed"] := by
  have houtcome := fun (e : Engine) (he : e.KeepsInserts) =>
    (createWith_outcome .direct Publisher.direct_bestEffort e he default "t"
      ⟨"alice", "bob", "3.25", "eur", "", ""⟩ sampleWorld).1
  refine ⟨⟨houtcome .sound Engine.sound_keepsInserts, ?_, ?_⟩,
    houtcome noSuccess noSuccess_keepsInserts, ?_, ?_⟩
  · decide +kernel
  · decide +kernel
  · decide +kernel
  · decide +kernel

end Transactions

end TransferLedger
