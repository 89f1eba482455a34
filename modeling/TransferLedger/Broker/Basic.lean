import TransferLedger.Broker.Topic
import TransferLedger.Text.Utf8

/-!
A message broker with topic exchanges. Publishing copies a message to the back of every queue that
has a matching binding; a consumer takes a message from the front and settles it later: it is
acknowledged, put back at the front, or rejected to the dead-letter queue of its queue. A delivery
that is dropped unsettled counts as put back.
-/
namespace TransferLedger
set_option autoImplicit false

/-- A message: where it was sent, what it says, and how often it has been handed out. -/
structure Message where
  key : String
  body : Bytes
  deliveries : UInt32
deriving DecidableEq, Repr

/-- The message as a consumer gets it, counted once more. After 4294967295 the count comes round to 0. -/
def Message.handed (m : Message) : Message := { m with deliveries := m.deliveries + 1 }

/-- A queue and the messages that are ready in it, first one first. -/
structure MessageQueue where
  name : String
  deadLetter : Option String
  ready : List Message
deriving DecidableEq, Repr

/-- Messages of an exchange whose key matches the pattern go to the queue. -/
structure Binding where
  exchange : String
  pattern : String
  queue : String
deriving DecidableEq, Repr

/-- Everything a broker knows. -/
structure Broker where
  exchanges : List String
  queues : List MessageQueue
  bindings : List Binding
  closed : Bool
deriving DecidableEq, Repr

/-- Why the broker or a publisher refuses. -/
inductive BrokerError
  | unknownExchange (name : String)
  | unknownQueue (name : String)
  | encode (reason : String)
  | publishFailed (reason : String)
  | closed
deriving DecidableEq, Repr

def BrokerError.message : BrokerError → String
  | .unknownExchange n => s!"Exchange '{n}' is not declared"
  | .unknownQueue n => s!"Queue '{n}' is not declared"
  | .encode r => s!"Failed to encode event: {r}"
  | .publishFailed r => s!"Publish failed: {r}"
  | .closed => "Broker connection closed"

/-- A message in the hands of a consumer, and the queue it came from. -/
structure Delivery where
  queue : String
  message : Message
deriving DecidableEq, Repr

/-- What a consumer decides about a delivery. -/
inductive Settlement
  /-- The message is done with. -/
  | acknowledge
  /-- The message goes back to the front of its queue. -/
  | requeue
  /-- The message goes to the dead-letter queue, or nowhere if there is none. -/
  | reject
deriving DecidableEq, Repr

namespace Broker

/-- A broker in which nothing has been declared. -/
def empty : Broker := ⟨[], [], [], false⟩

def queue? (b : Broker) (name : String) : Option MessageQueue :=
  b.queues.find? fun q => q.name == name

def hasQueue (b : Broker) (name : String) : Bool := (b.queue? name).isSome

def depth (b : Broker) (name : String) : Except BrokerError Nat :=
  match b.queue? name with
  | some q => .ok q.ready.length
  | none => .error (.unknownQueue name)

def updateQueue (b : Broker) (name : String) (f : List Message → List Message) : Broker :=
  { b with queues := b.queues.map fun q =>
      if q.name = name then { q with ready := f q.ready } else q }

/-! ## Declarations -/

/-- Declares an exchange; declaring it again changes nothing. -/
def declareExchange (b : Broker) (name : String) : Broker :=
  if b.exchanges.contains name then b else { b with exchanges := b.exchanges ++ [name] }

/-- Declares a queue. The dead-letter queue has to exist; a queue that exists already stays as it
is, whatever the options. -/
def declareQueue (b : Broker) (name : String) (deadLetter : Option String) :
    Except BrokerError Broker :=
  if b.hasQueue name then .ok b
  else
    let declared := { b with queues := b.queues ++ [⟨name, deadLetter, []⟩] }
    match deadLetter with
    | none => .ok declared
    | some d => if b.hasQueue d then .ok declared else .error (.unknownQueue d)

/-- Binds a queue to an exchange; binding it again with the same pattern changes nothing. -/
def bind (b : Broker) (queue exchange pattern : String) : Except BrokerError Broker :=
  if !b.exchanges.contains exchange then .error (.unknownExchange exchange)
  else if !b.hasQueue queue then .error (.unknownQueue queue)
  else
    let new : Binding := ⟨exchange, pattern, queue⟩
    .ok (if b.bindings.contains new then b else { b with bindings := b.bindings ++ [new] })

/-- Refuses all further publishing. Queues can still be consumed. -/
def close (b : Broker) : Broker := { b with closed := true }

/-! ## Messages -/

/-- A message with this key on this exchange goes to this queue. -/
def routes (b : Broker) (exchange key queue : String) : Bool :=
  b.bindings.any fun x =>
    x.exchange == exchange && x.queue == queue && Topic.matchesKey x.pattern key

/-- Publishes a message: one copy at the back of every queue that it goes to. -/
def publish (b : Broker) (exchange key : String) (body : Bytes) : Except BrokerError Broker :=
  if b.closed then .error .closed
  else if !b.exchanges.contains exchange then .error (.unknownExchange exchange)
  else
    let copyTo (q : MessageQueue) : MessageQueue :=
      if b.routes exchange key q.name then { q with ready := q.ready ++ [⟨key, body, 0⟩] } else q
    .ok { b with queues := b.queues.map copyTo }

/-- Takes the first message of a queue, if one is ready. -/
def pull (b : Broker) (queue : String) : Except BrokerError (Option Delivery × Broker) :=
  match b.queue? queue with
  | none => .error (.unknownQueue queue)
  | some q =>
    match q.ready with
    | [] => .ok (none, b)
    | m :: _ =>
      .ok (some ⟨queue, m.handed⟩, b.updateQueue queue List.tail)

def settle (b : Broker) (d : Delivery) : Settlement → Broker
  | .acknowledge => b
  | .requeue => b.updateQueue d.queue (d.message :: ·)
  | .reject =>
    match (b.queue? d.queue).bind (·.deadLetter) with
    | some dead => b.updateQueue dead (· ++ [d.message])
    | none => b

end Broker

end TransferLedger
