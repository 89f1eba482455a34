import TransferLedger.Broker.Basic
import TransferLedger.Event

/-!
Publishing transaction events: every event goes to one exchange, under a key that tells committed
transfers from failed ones.
-/
namespace TransferLedger
set_option autoImplicit false

def transactionsExchange : String := "transactions"

/-- The two kinds of events. -/
inductive EventKind
  | success
  | failure
deriving DecidableEq, Repr

namespace EventKind

def key : EventKind → String
  | .success => "transaction.success"
  | .failure => "transaction.failure"

def ofKey? (key : String) : Option EventKind :=
  if key = EventKind.success.key then some .success
  else if key = EventKind.failure.key then some .failure
  else none

/-- The kind of an event: everything but a success is a failure. -/
def ofEvent (e : Event) : EventKind := if e.isSuccess then .success else .failure

end EventKind

namespace Broker

/-- Publishes an event under the key of its kind. -/
def publishEvent (b : Broker) (e : Event) : Except BrokerError Broker :=
  b.publish transactionsExchange (EventKind.ofEvent e).key e.encode

/-- Publishes an event if that is possible, and says whether it was. -/
def publishBestEffort (b : Broker) (e : Event) : Bool × Broker :=
  match b.publishEvent e with
  | .ok b => (true, b)
  | .error _ => (false, b)

end Broker

end TransferLedger
