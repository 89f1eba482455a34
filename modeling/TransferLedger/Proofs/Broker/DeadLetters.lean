import TransferLedger.Ledger.Writer
import TransferLedger.Proofs.Broker.Declared
import TransferLedger.Proofs.Broker.Relay
import TransferLedger.Proofs.Store.Engine

/-! # Where dead letters go

A message that a relay gives up goes to the dead-letter queue of the queue it was pulled from. That is the
dead-letter queue of the relay's configuration if the relay declared its own queue, under a name of its
own, or found it declared with that dead-letter queue (`RelayConfig.deadLetterOn`). Otherwise it goes to
another queue or is discarded.
-/

namespace TransferLedger
set_option autoImplicit false

namespace Broker

variable {b b' : Broker} {name : String}

theorem queue?_declareExchange (b : Broker) (exchange name : String) :
    (b.declareExchange exchange).queue? name = b.queue? name := by
  rw [declareExchange_eq]
  rfl

theorem queue?_declareQueue {deadLetter : Option String} (h : b.declareQueue name deadLetter = .ok b')
    (other : String) : b'.queue? other =
      (b.queue? other).or (if name = other then some ⟨name, deadLetter, []⟩ else none) := by
  obtain ⟨hname, rfl⟩ | ⟨-, -, rfl⟩ := declareQueue_eq_ok h
  · by_cases hother : name = other
    · subst hother
      obtain ⟨q, hq⟩ := Option.isSome_iff_exists.1 hname
      rw [hq]
      rfl
    · rw [if_neg hother, Option.or_none]
  · rw [queue?, List.find?_append]
    by_cases hother : name = other
    · simp [queue?, hother]
    · simp [queue?, hother]

theorem queue?_bind {queue exchange pattern : String} (h : b.bind queue exchange pattern = .ok b')
    (name : String) : b'.queue? name = b.queue? name := by
  rw [bind_eq_ok h]
  rfl

/-- The message has come to the back of a queue, which is otherwise as it was. -/
def Received (b b' : Broker) (name : String) (m : Message) : Prop :=
  ∃ q, b.queue? name = some q ∧ b'.queue? name = some { q with ready := q.ready ++ [m] }

theorem not_received_of_eq {m : Message} (h : b'.queue? name = b.queue? name) :
    ¬ b.Received b' name m := by
  rintro ⟨q, hq, hq'⟩
  have hready := congrArg MessageQueue.ready (Option.some.inj (hq'.symm.trans (h.trans hq)))
  simp at hready

end Broker

namespace RelayConfig

variable {c : RelayConfig} {b b' : Broker}

/-- The dead-letter queue that the relay's queue has if the relay is made on this broker: the one that it
has already, or else the one that the relay declares it with. -/
def deadLetterOn (c : RelayConfig) (b : Broker) : Option String :=
  match b.queue? c.queue with
  | some q => q.deadLetter
  | none => if c.deadLetterQueue = c.queue then none else some c.deadLetterQueue

theorem declare_eq_ok (h : c.declare b = .ok b') : ∃ b₁ b₂,
    (b.declareExchange c.exchange).declareQueue c.deadLetterQueue none = .ok b₁ ∧
      b₁.declareQueue c.queue (some c.deadLetterQueue) = .ok b₂ ∧
        b₂.bind c.queue c.exchange c.binding = .ok b' := by
  obtain ⟨b₁, h₁, h⟩ := bind_eq_ok.1 h
  obtain ⟨b₂, h₂, h⟩ := bind_eq_ok.1 h
  exact ⟨b₁, b₂, h₁, h₂, h⟩

theorem declare_deadLetter (h : c.declare b = .ok b') :
    ∃ q, b'.queue? c.queue = some q ∧ q.deadLetter = c.deadLetterOn b := by
  obtain ⟨b₁, b₂, h₁, h₂, h₃⟩ := declare_eq_ok h
  rw [Broker.queue?_bind h₃, Broker.queue?_declareQueue h₂, Broker.queue?_declareQueue h₁,
    Broker.queue?_declareExchange, deadLetterOn]
  cases b.queue? c.queue with
  | some q => exact ⟨q, rfl, rfl⟩
  | none =>
    -- With one name for both, it is the first declaration that makes the queue.
    by_cases hsame : c.deadLetterQueue = c.queue
    · simp [hsame]
    · simp [hsame]

/-! ## Relays among the operations on a hub -/

/-- What is asked of a broker when a relay is made. -/
def topology (c : RelayConfig) : List Hub.Operation :=
  [.declareExchange c.exchange, .declareQueue c.deadLetterQueue none,
    .declareQueue c.queue (some c.deadLetterQueue), .bind c.queue c.exchange c.binding]

theorem topology_perform {h : Hub} (hmade : c.declare h.broker = .ok b') :
    c.topology.foldl Hub.perform h = { h with broker := b' } := by
  obtain ⟨b₁, b₂, h₁, h₂, h₃⟩ := declare_eq_ok hmade
  simp [topology, Hub.perform, Hub.adopt, h₁, h₂, h₃]

variable {ω : Type}

theorem dispatch_deadLettered {r : Registry ω} {cancelled : Bool} {d : Delivery} {w : ω}
    (h : (c.dispatch r cancelled d b w).1 = .ok .deadLettered) :
    (c.dispatch r cancelled d b w).2.1 = b.settle d .reject := by
  rw [dispatch_eq] at h ⊢
  rw [show (c.judge r cancelled d w).1 = .ok .deadLettered from h]
  rfl

end RelayConfig

namespace Custody

variable {c : Custody}

/-- A rejected message comes to the back of the dead-letter queue of its queue, if there is one, and to no
other. -/
theorem Formed.settle_reject (h : c.Formed) {d : Delivery} {dead : Option String}
    (hmem : (d.queue, dead) ∈ c.declared) (name : String) :
    if dead = some name then c.broker.Received (c.broker.settle d .reject) name d.message
    else (c.broker.settle d .reject).queue? name = c.broker.queue? name := by
  obtain ⟨l, hl, hdead⟩ := h.line?_of_declared hmem
  have hqueue : (c.broker.queue? d.queue).bind (·.deadLetter) = dead := by
    rw [broker_queue?, hl]
    exact hdead
  rw [Broker.settle, hqueue]
  cases dead with
  | none => simp
  | some n =>
    dsimp only
    by_cases hname : n = name
    · subst hname
      obtain ⟨k, hk⟩ := exists_line? (h.dead_declared _ _ hmem)
      have hk' : c.broker.queue? n = some k.queue := by rw [broker_queue?, hk, Option.map_some]
      rw [if_pos rfl]
      exact ⟨k.queue, hk', Broker.queue?_updateQueue_self hk' _⟩
    · rw [if_neg (mt Option.some.inj hname)]
      exact c.broker.queue?_updateQueue_of_ne (Ne.symm hname) _

/-- What has been done to a hub on which a relay was made, the making of the relay included. -/
theorem run_relay {before : List Hub.Operation} {relay : RelayConfig} {b : Broker}
    (hmade : relay.declare (Hub.run before).broker = .ok b) (after : List Hub.Operation) :
    (run (before ++ relay.topology ++ after)).hub =
      after.foldl Hub.perform { Hub.run before with broker := b } := by
  rw [run_hub, Hub.run, List.foldl_append, List.foldl_append]
  exact congrArg (after.foldl Hub.perform) (RelayConfig.topology_perform hmade)

/-- The queue of a relay keeps the dead-letter queue that it had when the relay was made. -/
theorem relay_declared {before : List Hub.Operation} {relay : RelayConfig} {b : Broker}
    (hmade : relay.declare (Hub.run before).broker = .ok b) (after : List Hub.Operation) :
    (relay.queue, relay.deadLetterOn (Hub.run before).broker) ∈
      (run (before ++ relay.topology ++ after)).declared := by
  obtain ⟨q, hq, hdead⟩ := RelayConfig.declare_deadLetter hmade
  have hhub := run_relay hmade []
  rw [List.append_nil, List.foldl_nil] at hhub
  have hbroker : (run (before ++ relay.topology)).broker = b := congrArg Hub.broker hhub
  rw [← hbroker, broker_queue?] at hq
  obtain ⟨l, hl, rfl⟩ := Option.map_eq_some_iff.1 hq
  rw [run, List.foldl_append, ← run, ← hdead]
  exact declared_subset _ after (declared_of_line? hl)

end Custody

namespace RelayConfig

/-- **Which messages that a relay gives up are kept.** They come to the back of the dead-letter queue of its
configuration exactly if that is the one that its queue has. -/
theorem deadLettered_received_iff {ω : Type} (before after : List Hub.Operation) (c : RelayConfig)
    (b : Broker) (hmade : c.declare (Hub.run before).broker = .ok b) (r : Registry ω) (cancelled : Bool)
    (d : Delivery) (hd : d.queue = c.queue) (w : ω) :
    let dead := c.deadLetterOn (Hub.run before).broker
    let h := after.foldl Hub.perform { Hub.run before with broker := b }
    let dispatched := c.dispatch r cancelled d h.broker w
    dispatched.1 = .ok .deadLettered →
      (h.broker.Received dispatched.2.1 c.deadLetterQueue d.message ↔ dead = some c.deadLetterQueue) ∧
        ∀ name, if dead = some name then h.broker.Received dispatched.2.1 name d.message
          else dispatched.2.1.queue? name = h.broker.queue? name := by
  intro dead h dispatched hgiven
  have hbroker : (Custody.run (before ++ c.topology ++ after)).broker = h.broker :=
    congrArg Hub.broker (Custody.run_relay hmade after)
  have hmem : (d.queue, dead) ∈ (Custody.run (before ++ c.topology ++ after)).declared :=
    hd ▸ Custody.relay_declared hmade after
  have hsettle := (Custody.run_sound (before ++ c.topology ++ after)).formed.settle_reject hmem
  rw [hbroker, ← dispatch_deadLettered hgiven] at hsettle
  refine ⟨⟨fun hreceived => ?_, fun hdead => ?_⟩, hsettle⟩
  · by_contra hdead
    have hsame := hsettle c.deadLetterQueue
    rw [if_neg hdead] at hsame
    exact Broker.not_received_of_eq hsame hreceived
  · have hreceived := hsettle c.deadLetterQueue
    rwa [if_pos hdead] at hreceived

/-! ## A queue that was there before, and two queues that are one -/

/-- Handlers of both kinds that have nothing to do. -/
def sampleHandlers : Registry Unit := ⟨some failedTransactionHandler, some failedTransactionHandler⟩

def sampleBefore : List Hub.Operation :=
  [.declareQueue "rejects" none, .declareQueue consumerQueue (some "rejects")]

def sampleAfter : List Hub.Operation :=
  [.publish transactionsExchange EventKind.success.key [], .take consumerQueue "first"]

def sampleMade : Broker where
  exchanges := [transactionsExchange]
  queues := [⟨"rejects", none, []⟩, ⟨consumerQueue, some "rejects", []⟩,
    ⟨TransferLedger.deadLetterQueue, none, []⟩]
  bindings := [⟨transactionsExchange, "#", consumerQueue⟩]
  closed := false

def sampleTaken : Delivery := ⟨consumerQueue, EventKind.success.key, [], 1⟩

/-- The consumer queue was declared with another dead-letter queue, and that is where the message goes. -/
theorem sample_deadLettered :
    let h := sampleAfter.foldl Hub.perform { Hub.run sampleBefore with broker := sampleMade }
    let dispatched := ({} : RelayConfig).dispatch sampleHandlers false sampleTaken h.broker ()
    ({} : RelayConfig).declare (Hub.run sampleBefore).broker = .ok sampleMade ∧
      sampleTaken.queue = consumerQueue ∧ dispatched.1 = .ok .deadLettered ∧
        ¬ h.broker.Received dispatched.2.1 TransferLedger.deadLetterQueue sampleTaken.message ∧
          h.broker.Received dispatched.2.1 "rejects" sampleTaken.message := by
  have hmade : ({} : RelayConfig).declare (Hub.run sampleBefore).broker = .ok sampleMade := rfl
  have hdead : ({} : RelayConfig).deadLetterOn (Hub.run sampleBefore).broker = some "rejects" := rfl
  have hother : (some "rejects" : Option String) ≠ some TransferLedger.deadLetterQueue := by decide
  obtain ⟨hiff, hplace⟩ := deadLettered_received_iff sampleBefore sampleAfter {} sampleMade hmade
    sampleHandlers false sampleTaken rfl () rfl
  refine ⟨hmade, rfl, rfl, mt hiff.1 (hdead ▸ hother), ?_⟩
  have hrejects := hplace "rejects"
  rwa [if_pos hdead] at hrejects

/-- A relay whose consumer queue is also to be its dead-letter queue. -/
def sampleShared : RelayConfig := { queue := "transfers", deadLetterQueue := "transfers" }

/-- A message that this relay gives up is in no queue afterwards. -/
theorem sampleShared_discarded : ∃ made published d pulled,
    sampleShared.declare .empty = .ok made ∧
      made.publish transactionsExchange EventKind.success.key [] = .ok published ∧
      published.pull sampleShared.queue = .ok (some d, pulled) ∧
      sampleShared.dispatch sampleHandlers false d pulled () = (.ok .deadLettered, pulled, ()) ∧
      pulled.queues = [⟨"transfers", none, []⟩] :=
  ⟨_, _, _, _, rfl, rfl, rfl, rfl, rfl⟩

end RelayConfig

end TransferLedger
