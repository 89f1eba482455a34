import TransferLedger.Proofs.Books.Run
import TransferLedger.Proofs.Broker.Relay
import TransferLedger.Proofs.Ledger.Writer
import TransferLedger.Proofs.Service.Outcome

/-! # Runs of the whole pipeline

Transfers are announced on a broker, relays take the announcements from it and write the ledger. A
`Pipeline` is the books, the ledger and the broker, the deliveries in the hands of consumers, and, for
the statements only, the records whose announcement on this broker was reported as a success.

* `LedgerRelay`: a relay with the usual queues, some limit, and the handler that writes the ledger,
  each attempt of which may fail before or after it is applied (`Proper`).
* `Step`: what may happen next. Calls, announcements, pulls, dispatches by any number of relays,
  drops and deletions follow each other in any order, and a broker may be lost and set up anew.
* `Reachable`: the pipelines after any number of steps from empty tables and a new broker.
-/

namespace TransferLedger
set_option autoImplicit false

/-! ## Relays -/

/-- A relay that writes the ledger. -/
structure LedgerRelay where
  limit : UInt32
  policy : RetryPolicy
  insert : Nat → List Entry → TableLedger → Except StoreError Nat × TableLedger
  clock : Clock
  stopped : Nat → Bool
  /-- The handler of failed transfers, if there is one. -/
  failure : Option (Handler (Nat × TableLedger))

namespace LedgerRelay

/-- The handlers of the relay. -/
def registry (r : LedgerRelay) : Registry (Nat × TableLedger) where
  success := some (ledgerHandlerUntil r.policy r.insert r.clock r.stopped)
  failure := r.failure

/-- Only whole pairs are inserted, and only by the handler of committed transfers. -/
structure Proper (r : LedgerRelay) : Prop where
  faulty : TableLedger.Faulty r.insert
  passive : ∀ h, r.failure = some h → ∀ e stopping w, (h.handle e stopping w).2.2 = w.2

/-- The relay of the service on a database that does not fail. -/
def sound : LedgerRelay where
  limit := 5
  policy := {}
  insert := fun _ => TableLedger.insertEntries .sound
  clock := fun _ => default
  stopped := fun _ => false
  failure := some failedTransactionHandler

theorem sound_proper : sound.Proper where
  faulty := TableLedger.sound_faulty
  passive := by
    rintro _ ⟨⟩ e stopping w
    rfl

end LedgerRelay

/-! ## Pipelines -/

/-- The books, the ledger, the broker and the deliveries that are not settled, and the records whose
announcement on this broker was reported as a success. -/
structure Pipeline where
  books : Books
  ledger : TableLedger
  broker : Broker
  held : List Delivery
  announced : List Transaction

/-- The record, if its announcement is reported as a success. -/
def Publisher.reported (publish : Publisher) (broker : Broker) (t : Transaction) : List Transaction :=
  if (publish (.ofTransaction t) broker).1 then [t] else []

namespace Pipeline

/-- Empty tables and this broker. -/
def start (broker : Broker) : Pipeline := ⟨.empty, .empty, broker, [], []⟩

/-- What a transfer works on. -/
def world (s : Pipeline) : World := ⟨s.books.bank, s.ledger, s.broker⟩

/-- A requested transfer is carried out and announced. -/
def transfer (publish : Publisher) (e : Engine) (now : Instant) (newId : String)
    (r : TransferRequest) (s : Pipeline) : Pipeline :=
  let out := Transactions.createWith publish e now newId r s.world
  { s with
    books := { s.books with
      bank := out.2.bank
      plans := s.books.plans ++ (Transfer.prepare e newId r s.books.bank).toOption.toList }
    ledger := out.2.ledger
    broker := out.2.broker
    announced := s.announced ++ out.1.toOption.toList.flatMap (publish.reported s.broker) }

/-- A record is announced, be it for the first time or again. -/
def announce (publish : Publisher) (t : Transaction) (s : Pipeline) : Pipeline :=
  { s with
    broker := (publish (.ofTransaction t) s.broker).2
    announced := s.announced ++ publish.reported s.broker t }

/-- A delivery that is held is settled. -/
def settle (d : Delivery) (how : Settlement) (s : Pipeline) : Pipeline :=
  { s with
    broker := s.broker.settle d how
    held := s.held.erase d }

/-- A relay dispatches a delivery that is held. -/
def dispatch (r : LedgerRelay) (stopping : Bool) (readings : Nat) (d : Delivery) (s : Pipeline) :
    Pipeline :=
  let out := (RelayConfig.upTo r.limit).dispatch r.registry stopping d s.broker (readings, s.ledger)
  { s with
    ledger := out.2.2.2
    broker := out.2.1
    held := s.held.erase d }

/-- What may happen next. -/
inductive Step (s : Pipeline) : Pipeline → Prop
  /-- A call that announces nothing on this broker. -/
  | called {e : Engine} {c : Call} (he : e.KeepsInserts) (now : Instant) (hc : s.books.Permits c) :
    Step s { s with books := s.books.perform e now c }
  | transferred {publish : Publisher} {e : Engine} (hp : publish.BestEffort) (he : e.KeepsInserts)
      (now : Instant) (newId : String) (r : TransferRequest) :
    Step s (s.transfer publish e now newId r)
  | announced {publish : Publisher} {t : Transaction} (hp : publish.BestEffort)
      (ht : .ofTransaction t ∈ s.books.bank.transactions) :
    Step s (s.announce publish t)
  | pulled {d : Delivery} {b : Broker} (h : s.broker.pull consumerQueue = .ok (some d, b)) :
    Step s { s with broker := b, held := s.held ++ [d] }
  | dispatched {r : LedgerRelay} {d : Delivery} (hr : r.Proper) (hd : d ∈ s.held) (stopping : Bool)
      (readings : Nat) :
    Step s (s.dispatch r stopping readings d)
  /-- A relay at work on a delivery has made an attempt to insert its pair, and is not done. -/
  | attempted {d : Delivery} {e : Event} {now : Instant} {debit credit : Entry}
      {a : Except StoreError Nat × TableLedger} (hd : d ∈ s.held)
      (hkey : d.message.key = EventKind.success.key) (he : Event.decode d.message.body = .ok e)
      (hpair : Entry.pairOfEvent e now = .ok (debit, credit))
      (ha : TableLedger.Attempted [debit, credit] s.ledger a) :
    Step s { s with ledger := a.2 }
  | dropped {d : Delivery} (hd : d ∈ s.held) : Step s (s.settle d .requeue)
  | deleted (e : Engine) (now : Instant) (id : String) :
    Step s { s with ledger := (TableLedger.softDelete e now id s.ledger).2 }
  | closed : Step s { s with broker := s.broker.close }
  /-- Another relay sets itself up on the broker. -/
  | joined {b : Broker} (limit : UInt32) (hb : (RelayConfig.upTo limit).declare s.broker = .ok b) :
    Step s { s with broker := b }
  /-- The broker is lost with all its messages; a relay sets up another one. -/
  | restarted {b : Broker} (limit : UInt32) (hb : (RelayConfig.upTo limit).declare .empty = .ok b) :
    Step s { s with broker := b, held := [], announced := [] }

/-- The pipelines after some run. -/
inductive Reachable : Pipeline → Prop
  | start {b : Broker} (limit : UInt32) (hb : (RelayConfig.upTo limit).declare .empty = .ok b) :
    Reachable (start b)
  | step {s s' : Pipeline} (h : Reachable s) (hs : Step s s') : Reachable s'

/-- Every run of the services is the beginning of a run of the pipeline. -/
theorem reachable_of_books {b : Broker} {limit : UInt32}
    (hb : (RelayConfig.upTo limit).declare .empty = .ok b) {books : Books} (h : books.Reachable) :
    ({ start b with books := books } : Pipeline).Reachable := by
  induction h with
  | start => exact .start limit hb
  | step _ he now hc ih => exact ih.step (.called he now hc)

/-! ## A run -/

/-- A transfer between two new accounts is announced. -/
def sampleAnnounced : Pipeline :=
  { start (.wired false [] []) with books := Books.samplePlanned }
  |>.transfer .direct .sound default "t" ⟨"alice", "bob", "3.25", "eur", "", ""⟩

/-- The announcement of the transfer. -/
def sampleDelivery : Delivery :=
  ⟨consumerQueue, { Broker.messageOf (.ofTransaction (Books.samplePlan.record .success default)) with
    deliveries := 1 }⟩

/-- The announcement is in the hands of a consumer. -/
def samplePulled : Pipeline :=
  { sampleAnnounced with
    broker := .wired false [] []
    held := sampleAnnounced.held ++ [sampleDelivery] }

/-- The announcement is dispatched. -/
def sample : Pipeline := samplePulled.dispatch .sound false 0 sampleDelivery

theorem sampleAnnounced_reachable : sampleAnnounced.Reachable :=
  (reachable_of_books (Broker.declare_empty 5) Books.samplePlanned_reachable).step
    (.transferred Publisher.direct_bestEffort Engine.sound_keepsInserts default _ _)

theorem sample_reachable : sample.Reachable := by
  have hpull : sampleAnnounced.broker.pull consumerQueue =
      .ok (some sampleDelivery, .wired false [] []) := by
    decide +kernel
  have hheld : sampleDelivery ∈ samplePulled.held := List.mem_append_right _ List.mem_cons_self
  exact (sampleAnnounced_reachable.step (.pulled hpull)).step
    (.dispatched LedgerRelay.sound_proper hheld false 0)

end Pipeline

end TransferLedger
