import TransferLedger.Broker.Publisher

/-!
The event relay: it pulls deliveries from one queue, hands each to the handler of its kind and
settles it by what the handler says. A handler may touch a world of its own, such as a ledger.
-/
namespace TransferLedger
set_option autoImplicit false

/-- The queue that the relay consumes. -/
def consumerQueue : String := "dbank.transactions.consumer"

/-- The queue of messages that will never be processed. -/
def deadLetterQueue : String := "dbank.transactions.dead-letter"

/-- The exchange and queues of a relay, and after how many deliveries it gives a message up. -/
structure RelayConfig where
  exchange : String := transactionsExchange
  queue : String := consumerQueue
  deadLetterQueue : String := TransferLedger.deadLetterQueue
  binding : String := "#"
  maxDeliveries : UInt32 := 5
deriving DecidableEq, Repr

/-- What a handler says about an event. -/
inductive Verdict
  | handled
  /-- Trying again may help. -/
  | transient (reason : String)
  /-- Trying again cannot help. -/
  | permanent (reason : String)
  /-- The handler broke down without an answer. -/
  | broke (reason : String)
deriving DecidableEq, Repr

/-- A handler: its name, and what it does with an event in its world. The flag says whether the
relay is being stopped. -/
structure Handler (ω : Type) where
  name : String
  handle : Event → Bool → ω → Verdict × ω

/-- At most one handler for each kind of event. -/
structure Registry (ω : Type) where
  success : Option (Handler ω)
  failure : Option (Handler ω)

namespace Registry

variable {ω : Type}

def empty : Registry ω := ⟨none, none⟩

/-- Registers a handler in place of an earlier one of the kind. -/
def register (r : Registry ω) (kind : EventKind) (h : Handler ω) : Registry ω :=
  match kind with
  | .success => { r with success := some h }
  | .failure => { r with failure := some h }

def get? (r : Registry ω) : EventKind → Option (Handler ω)
  | .success => r.success
  | .failure => r.failure

def size (r : Registry ω) : Nat :=
  (if r.success.isSome then 1 else 0) + (if r.failure.isSome then 1 else 0)

end Registry

/-- What became of a delivery. -/
inductive Disposition
  | acked
  /-- Acknowledged without a handler. -/
  | dropped
  | requeued
  | deadLettered
deriving DecidableEq, Repr

def Disposition.name : Disposition → String
  | .acked => "Acked"
  | .dropped => "Dropped"
  | .requeued => "Requeued"
  | .deadLettered => "DeadLettered"

def Disposition.settlement : Disposition → Settlement
  | .acked => .acknowledge
  | .dropped => .acknowledge
  | .requeued => .requeue
  | .deadLettered => .reject

namespace RelayConfig

/-- Declares the exchange, the dead-letter queue and the bound consumer queue. -/
def declare (c : RelayConfig) (b : Broker) : Except BrokerError Broker := do
  let b := b.declareExchange c.exchange
  let b ← b.declareQueue c.deadLetterQueue none
  let b ← b.declareQueue c.queue (some c.deadLetterQueue)
  b.bind c.queue c.exchange c.binding

/-- What a verdict means for a delivery; nothing is decided if the handler broke down. -/
def decide? (c : RelayConfig) (deliveries : UInt32) : Verdict → Option Disposition
  | .handled => some .acked
  | .permanent _ => some .deadLettered
  | .transient _ => some (if c.maxDeliveries ≤ deliveries then .deadLettered else .requeued)
  | .broke _ => none

variable {ω : Type}

/-- Hands a delivery to its handler: the disposition or the reason of a breakdown, and the world. -/
def judge (c : RelayConfig) (r : Registry ω) (cancelled : Bool) (d : Delivery) (w : ω) :
    Except String Disposition × ω :=
  match (EventKind.ofKey? d.message.key).bind r.get? with
  | none => (.ok .dropped, w)
  | some h =>
    match Event.decode d.message.body with
    | .error _ => (.ok .deadLettered, w)
    | .ok e =>
      match h.handle e cancelled w with
      | (.broke reason, w) => (.error reason, w)
      | (verdict, w) =>
        (match c.decide? d.message.deliveries verdict with
          | some disposition => .ok disposition
          | none => .error "", w)

/-- Dispatches one delivery: judges it and settles it. After a breakdown it returns to its queue. -/
def dispatch (c : RelayConfig) (r : Registry ω) (cancelled : Bool) (d : Delivery)
    (b : Broker) (w : ω) : Except String Disposition × Broker × ω :=
  match c.judge r cancelled d w with
  | (.ok disposition, w) => (.ok disposition, b.settle d disposition.settlement, w)
  | (.error reason, w) => (.error reason, b.settle d .requeue, w)

/-- Pulls and dispatches until the queue is empty, a handler breaks down, or a number of steps is
used up. -/
def drain (c : RelayConfig) (r : Registry ω) : Nat → Broker → ω → Broker × ω
  | 0, b, w => (b, w)
  | steps + 1, b, w =>
    match b.pull c.queue with
    | .error _ => (b, w)
    | .ok (none, b) => (b, w)
    | .ok (some d, b) =>
      match c.dispatch r false d b w with
      | (.ok _, b, w) => drain c r steps b w
      | (.error _, b, w) => (b, w)

/-- Enough steps to work off all messages that are ready: none is delivered more often than the limit
allows, or once more where its count comes round. -/
def drainBound (c : RelayConfig) (b : Broker) : Nat :=
  match b.queue? c.queue with
  | some q => q.ready.length * (c.maxDeliveries.toNat + 1)
  | none => 0

/-- Works off the consumer queue. -/
def run (c : RelayConfig) (r : Registry ω) (b : Broker) (w : ω) : Broker × ω :=
  c.drain r (c.drainBound b) b w

end RelayConfig

end TransferLedger
