import TransferLedger.Broker.Relay
import TransferLedger.Ledger.Table
import TransferLedger.Ledger.Writer
import TransferLedger.Transfer.Execution

/-!
Everything that the running service keeps: the tables, the ledger and the broker; how it is set up;
and the relay that feeds the ledger from the broker.
-/
namespace TransferLedger
set_option autoImplicit false

/-- The tables, the ledger and the broker. -/
structure World where
  bank : Bank
  ledger : TableLedger
  broker : Broker
deriving DecidableEq, Repr

/-- The engines of the two databases; with one database they are one engine. -/
structure Engines where
  bank : Engine
  ledger : Engine

def Engines.sound : Engines := ⟨.sound, .sound⟩

/-- How writes to the ledger are retried and how its relay is wired. -/
structure Settings where
  retry : RetryPolicy := {}
  relay : RelayConfig := {}
deriving DecidableEq, Repr

/-- The number of statements of one insertion of a pair into the ledger. -/
def pairStatements : Nat := 4

/-- The handlers of the service: committed transfers go to the ledger, failed ones are noted. -/
def Settings.registry (s : Settings) (ledger : Engine) (clock : Clock) :
    Registry (Nat × TableLedger) where
  success := some (ledgerHandler s.retry
    (fun attempt => TableLedger.insertEntries (ledger.after (pairStatements * (attempt - 1)))) clock)
  failure := some failedTransactionHandler

namespace World

/-- The world on some contents of the databases, with a broker on which the relay has declared its
exchange and queues. -/
def start (s : Settings) (bank : Bank) (ledger : TableLedger) : Except BrokerError World := do
  let broker ← s.relay.declare .empty
  .ok ⟨bank, ledger, broker⟩

/-- Works off the consumer queue into the ledger. -/
def runRelay (s : Settings) (ledger : Engine) (clock : Clock) (w : World) : World :=
  let (broker, _, entries) := s.relay.run (s.registry ledger clock) w.broker (0, w.ledger)
  { w with broker := broker, ledger := entries }

/-- Takes one delivery of the consumer queue and dispatches it, if there is one. -/
def dispatchOne (s : Settings) (ledger : Engine) (now : Instant) (cancelled : Bool) (w : World) :
    Except BrokerError (Option (Except String Disposition) × World) := do
  let (delivery, broker) ← w.broker.pull s.relay.queue
  match delivery with
  | none => .ok (none, { w with broker := broker })
  | some d =>
    let registry := s.registry ledger fun _ => now
    let (outcome, broker, _, entries) := s.relay.dispatch registry cancelled d broker (0, w.ledger)
    .ok (some outcome, { w with broker := broker, ledger := entries })

end World

end TransferLedger
