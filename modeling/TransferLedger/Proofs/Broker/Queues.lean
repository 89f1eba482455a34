import Mathlib.Data.List.Forall2
import TransferLedger.Broker.Publisher
import TransferLedger.Proofs.Bank.Row

/-! # What publishing does to queues

* `publish_eq_ok`: a message that is published is added to the back of the queues it goes to
  (`Broker.copied`), and nothing else changes.
* `Broker.Gains`: each queue is as it was or has one more message at its back; this is all that
  publishing an event can do (`publishBestEffort_gains`).
-/

namespace TransferLedger
set_option autoImplicit false

theorem Event.isSuccess_ofTransaction (t : Transaction) :
    (ofTransaction t).isSuccess = decide (t.status = .success) := by
  have hstatus : TransactionStatus.ofName? (ofTransaction t).status = some t.status :=
    TransactionStatus.ofName?_name t.status
  rw [isSuccess, hstatus]
  cases t.status <;> rfl

namespace EventKind

theorem ofTransaction_success {t : Transaction} (h : t.status = .success) :
    ofEvent (.ofTransaction t) = .success := by
  rw [ofEvent, Event.isSuccess_ofTransaction, h]
  rfl

theorem ofTransaction_failed {t : Transaction} (h : t.status = .failed) :
    ofEvent (.ofTransaction t) = .failure := by
  rw [ofEvent, Event.isSuccess_ofTransaction, h]
  rfl

theorem key_injective {k k' : EventKind} (h : k.key = k'.key) : k = k' := by
  cases k <;> cases k'
  · rfl
  · exact absurd h (by decide)
  · exact absurd h (by decide)
  · rfl

theorem ofKey?_key (k : EventKind) : ofKey? k.key = some k := by
  cases k with
  | success => rfl
  | failure => rfl

end EventKind

namespace Broker

/-- The broker with a copy of a message at the back of every queue that it goes to. -/
def copied (b : Broker) (exchange : String) (m : Message) : Broker :=
  { b with queues := b.queues.map fun q =>
      if b.routes exchange m.key q.name then { q with ready := q.ready ++ [m] } else q }

/-- A message was added to the back of some queues; all else is as it was. -/
structure Gains (b b' : Broker) (m : Message) : Prop where
  exchanges_eq : b'.exchanges = b.exchanges
  bindings_eq : b'.bindings = b.bindings
  closed_eq : b'.closed = b.closed
  queues_gain : List.Forall₂ (fun q q' => q' = q ∨ q' = { q with ready := q.ready ++ [m] })
    b.queues b'.queues

theorem publish_eq_ok {b b' : Broker} {exchange key : String} {body : Bytes}
    (h : b.publish exchange key body = .ok b') : b' = b.copied exchange ⟨key, body, 0⟩ := by
  unfold publish at h
  split at h
  · cases h
  split at h
  · cases h
  cases h
  rfl

theorem copied_gains (b : Broker) (exchange : String) (m : Message) :
    b.Gains (b.copied exchange m) m where
  exchanges_eq := rfl
  bindings_eq := rfl
  closed_eq := rfl
  queues_gain := by
    refine List.forall₂_map_right_iff.2 (List.forall₂_same.2 ?_)
    intro q _
    split
    · exact .inr rfl
    · exact .inl rfl

theorem gains_self (b : Broker) (m : Message) : b.Gains b m where
  exchanges_eq := rfl
  bindings_eq := rfl
  closed_eq := rfl
  queues_gain := List.forall₂_same.2 fun _ _ => .inl rfl

/-- The message of an event. -/
def messageOf (e : Event) : Message := ⟨(EventKind.ofEvent e).key, e.encode, 0⟩

theorem publishBestEffort_eq (b : Broker) (e : Event) :
    b.publishBestEffort e = (true, b.copied transactionsExchange (messageOf e)) ∨
      b.publishBestEffort e = (false, b) := by
  unfold publishBestEffort
  split
  · next b' h => exact .inl (by rw [publish_eq_ok h]; rfl)
  · exact .inr rfl

end Broker

end TransferLedger
