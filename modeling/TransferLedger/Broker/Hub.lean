import TransferLedger.Broker.Basic

/-!
A broker together with the deliveries that consumers hold unsettled, each under a label. Taking a
second delivery under a label drops the first one, which returns it to its queue.
-/
namespace TransferLedger
set_option autoImplicit false

/-- A broker and its unsettled deliveries. -/
structure Hub where
  broker : Broker
  held : List (String × Delivery)
deriving Repr

namespace Hub

def empty : Hub := ⟨.empty, []⟩

def holding? (h : Hub) (label : String) : Option Delivery :=
  (h.held.find? fun e => e.1 == label).map (·.2)

/-- Settles the delivery held under a label, if there is one. -/
def settle (h : Hub) (label : String) (how : Settlement) : Hub :=
  match h.holding? label with
  | none => h
  | some d => ⟨h.broker.settle d how, h.held.filter fun e => e.1 != label⟩

/-- Takes the first message of a queue and holds it under a label. What was held there before goes
back to its queue afterwards. -/
def take (h : Hub) (queue label : String) : Except BrokerError (Option Delivery × Hub) :=
  match h.broker.pull queue with
  | .error e => .error e
  | .ok (none, b) => .ok (none, { h with broker := b })
  | .ok (some d, b) =>
    let dropped := settle { h with broker := b } label .requeue
    .ok (some d, { dropped with held := dropped.held ++ [(label, d)] })

end Hub

end TransferLedger
