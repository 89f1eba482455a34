import TransferLedger.Broker.Relay
import TransferLedger.Proofs.Broker.Queues
import TransferLedger.Proofs.Broker.Topic

/-! # The relay on its own queues

* `Broker.wired`: the broker on which a relay has declared its exchange and queues, with these
  messages in them. Publishing an event adds its message to the consumer queue, whatever the key;
  pulling takes the first; settling puts a message back, moves it to the dead letters or forgets it.
* `RelayConfig.Judged`: the ways in which a delivery is judged. Every delivery is judged in one of
  them (`judge_judged`), and a dispatch settles it accordingly (`dispatch_eq`).
-/

namespace TransferLedger
set_option autoImplicit false

/-! ## Topics -/

/-- The pattern of a relay matches every key. -/
theorem Topic.matchesKey_hash (key : String) : matchesKey "#" key = true := by
  have hwords : words "#" = [['#']] := by decide
  rw [matchesKey, hwords]
  exact matchesWords_many.2 ⟨[], List.nil_suffix, rfl⟩

/-! ## The wired broker -/

/-- The usual exchange and queues, with some limit to the deliveries. -/
def RelayConfig.upTo (limit : UInt32) : RelayConfig := { maxDeliveries := limit }

namespace Broker

/-- The broker of a relay. -/
def wired (closed : Bool) (dead ready : List Message) : Broker where
  exchanges := [transactionsExchange]
  queues := [⟨deadLetterQueue, none, dead⟩, ⟨consumerQueue, some deadLetterQueue, ready⟩]
  bindings := [⟨transactionsExchange, "#", consumerQueue⟩]
  closed := closed

theorem declare_empty (limit : UInt32) :
    (RelayConfig.upTo limit).declare .empty = .ok (wired false [] []) := rfl

variable (closed : Bool) (dead ready : List Message)

/-- A relay that comes later finds all as it needs it. -/
theorem declare_wired (limit : UInt32) :
    (RelayConfig.upTo limit).declare (wired closed dead ready) = .ok (wired closed dead ready) := rfl

theorem consumerQueue_ne : consumerQueue ≠ deadLetterQueue := by decide

theorem wired_routes_consumer (key : String) :
    (wired closed dead ready).routes transactionsExchange key consumerQueue = true := by
  simp [routes, wired, Topic.matchesKey_hash]

theorem wired_routes_dead (key : String) :
    (wired closed dead ready).routes transactionsExchange key deadLetterQueue = false := by
  simp [routes, wired, consumerQueue_ne]

theorem wired_copied (m : Message) : (wired closed dead ready).copied transactionsExchange m =
    wired closed dead (ready ++ [m]) := by
  have hdead : ¬ (wired closed dead ready).routes transactionsExchange m.key deadLetterQueue := by
    rw [wired_routes_dead]
    exact Bool.false_ne_true
  have hqueues : (wired closed dead ready).queues =
      [⟨deadLetterQueue, none, dead⟩, ⟨consumerQueue, some deadLetterQueue, ready⟩] := rfl
  unfold copied
  rw [hqueues, List.map_cons, List.map_cons, List.map_nil, if_neg hdead,
    if_pos (wired_routes_consumer closed dead ready m.key)]
  rfl

/-- A published event is at the end of the consumer queue. -/
theorem wired_publishBestEffort (e : Event) :
    (wired closed dead ready).publishBestEffort e =
      if closed then (false, wired closed dead ready)
      else (true, wired closed dead (ready ++ [messageOf e])) := by
  cases closed with
  | true => rfl
  | false =>
    rw [if_neg Bool.false_ne_true, ← wired_copied]
    rfl

theorem wired_pull_cons (m : Message) : (wired closed dead (m :: ready)).pull consumerQueue =
    .ok (some ⟨consumerQueue, m.handed⟩, wired closed dead ready) :=
  rfl

/-- Settling a delivery loses no other message, and its own only if it is acknowledged. -/
theorem exists_wired_settle (m : Message) (how : Settlement) :
    ∃ dead' ready', (wired closed dead ready).settle ⟨consumerQueue, m⟩ how =
        wired closed dead' ready' ∧
      (∀ m' ∈ dead' ++ ready', m' ∈ dead ++ ready ∨ m' = m) ∧
      (∀ m' ∈ dead ++ ready, m' ∈ dead' ++ ready') ∧
      (how = .acknowledge ∨ m ∈ dead' ++ ready') := by
  cases how with
  | acknowledge => exact ⟨dead, ready, rfl, fun _ h => .inl h, fun _ h => h, .inl rfl⟩
  | requeue =>
    refine ⟨dead, m :: ready, rfl, ?_, ?_, .inr ?_⟩
    · intro m' hm'
      rcases List.mem_append.1 hm' with hm' | hm'
      · exact .inl (List.mem_append_left _ hm')
      rcases List.mem_cons.1 hm' with rfl | hm'
      · exact .inr rfl
      · exact .inl (List.mem_append_right _ hm')
    · intro m' hm'
      rcases List.mem_append.1 hm' with hm' | hm'
      · exact List.mem_append_left _ hm'
      · exact List.mem_append_right _ (List.mem_cons_of_mem _ hm')
    · exact List.mem_append_right _ List.mem_cons_self
  | reject =>
    refine ⟨dead ++ [m], ready, rfl, ?_, ?_, .inr ?_⟩
    · intro m' hm'
      rcases List.mem_append.1 hm' with hm' | hm'
      · rcases List.mem_append.1 hm' with hm' | hm'
        · exact .inl (List.mem_append_left _ hm')
        · exact .inr (List.mem_singleton.1 hm')
      · exact .inl (List.mem_append_right _ hm')
    · intro m' hm'
      rcases List.mem_append.1 hm' with hm' | hm'
      · exact List.mem_append_left _ (List.mem_append_left _ hm')
      · exact List.mem_append_right _ hm'
    · exact List.mem_append_left _ (List.mem_append_right _ (List.mem_singleton.2 rfl))

end Broker

/-! ## Verdicts -/

namespace RelayConfig

variable {ω : Type}

/-- The ways in which a delivery is judged, with the world afterwards. -/
inductive Judged (c : RelayConfig) (r : Registry ω) (cancelled : Bool) (d : Delivery) (w : ω) :
    Except String Disposition → ω → Prop
  | dropped (hget : (EventKind.ofKey? d.message.key).bind r.get? = none) :
    Judged c r cancelled d w (.ok .dropped) w
  | undecodable {h : Handler ω} {cause : Json.ReadError}
      (hget : (EventKind.ofKey? d.message.key).bind r.get? = some h)
      (hdecode : Event.decode d.message.body = .error cause) :
    Judged c r cancelled d w (.ok .deadLettered) w
  | answered {h : Handler ω} {e : Event} {verdict : Verdict} {w' : ω} {disposition : Disposition}
      (hget : (EventKind.ofKey? d.message.key).bind r.get? = some h)
      (hdecode : Event.decode d.message.body = .ok e)
      (hhandle : h.handle e cancelled w = (verdict, w'))
      (hdecide : c.decide? d.message.deliveries verdict = some disposition) :
    Judged c r cancelled d w (.ok disposition) w'
  | broke {h : Handler ω} {e : Event} {reason : String} {w' : ω}
      (hget : (EventKind.ofKey? d.message.key).bind r.get? = some h)
      (hdecode : Event.decode d.message.body = .ok e)
      (hhandle : h.handle e cancelled w = (.broke reason, w')) :
    Judged c r cancelled d w (.error reason) w'

variable (c : RelayConfig) (r : Registry ω) (cancelled : Bool) (d : Delivery) (w : ω)

theorem decide?_eq_none {deliveries : UInt32} {verdict : Verdict}
    (h : c.decide? deliveries verdict = none) : ∃ reason, verdict = .broke reason := by
  cases verdict with
  | handled => cases h
  | transient reason => cases h
  | permanent reason => cases h
  | broke reason => exact ⟨reason, rfl⟩

/-- Only what was handled is acknowledged. -/
theorem decide?_eq_acknowledged {deliveries : UInt32} {verdict : Verdict} {disposition : Disposition}
    (h : c.decide? deliveries verdict = some disposition)
    (hsettle : disposition.settlement = .acknowledge) : verdict = .handled := by
  cases verdict with
  | handled => rfl
  | transient reason =>
    simp only [decide?, Option.some.injEq] at h
    subst h
    split at hsettle
    · cases hsettle
    · cases hsettle
  | permanent reason =>
    cases h
    cases hsettle
  | broke reason => cases h

theorem judge_judged :
    c.Judged r cancelled d w (c.judge r cancelled d w).1 (c.judge r cancelled d w).2 := by
  unfold judge
  split
  · next hget => exact .dropped hget
  · next h hget =>
    split
    · next hdecode => exact .undecodable hget hdecode
    · next e hdecode =>
      split
      · next reason w' hhandle => exact .broke hget hdecode hhandle
      · next verdict w' hbroke hhandle =>
        simp only
        split
        · next disposition hdecide => exact .answered hget hdecode hhandle hdecide
        · next hnone =>
          obtain ⟨reason, rfl⟩ := c.decide?_eq_none hnone
          exact absurd rfl (hbroke reason)

/-- How a delivery is settled after it was judged. -/
def settlementOf : Except String Disposition → Settlement
  | .ok disposition => disposition.settlement
  | .error _ => .requeue

theorem dispatch_eq (b : Broker) : c.dispatch r cancelled d b w =
    ((c.judge r cancelled d w).1, b.settle d (settlementOf (c.judge r cancelled d w).1),
      (c.judge r cancelled d w).2) := by
  unfold dispatch
  split
  · next h =>
    rw [h]
    rfl
  · next h =>
    rw [h]
    rfl

end RelayConfig

end TransferLedger
