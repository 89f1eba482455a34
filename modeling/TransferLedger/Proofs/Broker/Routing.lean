import Mathlib.Data.List.Induction
import TransferLedger.Proofs.Broker.DeadLetters

/-! # Where a publication goes

What a broker has declared and bound is what it was asked to declare and bind, and was not refused
(`Hub.exchanges_run`, `Hub.closed_run`, `Hub.bindings_run`). So a publication reaches a queue exactly if one
of the operations before has bound it to the exchange with a pattern that the key matches, and then once,
however many of its bindings match (`Hub.publish_reaches_once`). To walk over the bindings and to push a
copy to every queue when it is first met comes to the same (`Broker.copied_eq_pushes`).
-/

namespace TransferLedger
set_option autoImplicit false

namespace Broker

/-! ## Walking over the bindings -/

/-- The queues met on a walk over bindings, those that were met before it first. -/
def meet (exchange key : String) : List String → List Binding → List String
  | met, [] => met
  | met, x :: xs =>
    if x.exchange = exchange ∧ Topic.matchesKey x.pattern key = true ∧ x.queue ∉ met then
      meet exchange key (met ++ [x.queue]) xs
    else meet exchange key met xs

def targets (b : Broker) (exchange key : String) : List String := meet exchange key [] b.bindings

variable {exchange key : String}

theorem meet_nodup {met : List String} (h : met.Nodup) (xs : List Binding) :
    (meet exchange key met xs).Nodup := by
  induction xs generalizing met with
  | nil => exact h
  | cons x xs ih =>
    rw [meet]
    split
    · next hx => exact ih ((List.perm_append_singleton ..).nodup_iff.2 (h.cons hx.2.2))
    · exact ih h

theorem mem_meet {queue : String} {met : List String} {xs : List Binding} :
    queue ∈ meet exchange key met xs ↔ queue ∈ met ∨
      ∃ x ∈ xs, x.exchange = exchange ∧ x.queue = queue ∧ Topic.matchesKey x.pattern key = true := by
  induction xs generalizing met with
  | nil => simp [meet]
  | cons x xs ih =>
    rw [meet]
    split
    · next hx =>
      rw [ih, List.mem_append, List.mem_singleton, List.exists_mem_cons_iff, or_assoc]
      refine or_congr_right (or_congr_left ⟨?_, ?_⟩)
      · rintro rfl
        exact ⟨hx.1, rfl, hx.2.1⟩
      · exact fun h => h.2.1.symm
    · next hx =>
      rw [ih, List.exists_mem_cons_iff]
      -- A binding that is passed over goes elsewhere, or to a queue that was met.
      constructor
      · exact Or.imp_right Or.inr
      · rintro (hmet | ⟨hexchange, rfl, hkey⟩ | hlater)
        · exact .inl hmet
        · exact .inl (by_contra fun hmet => hx ⟨hexchange, hkey, hmet⟩)
        · exact .inr hlater

theorem targets_nodup (b : Broker) (exchange key : String) : (b.targets exchange key).Nodup :=
  meet_nodup List.nodup_nil b.bindings

theorem routes_iff {b : Broker} {queue : String} : b.routes exchange key queue = true ↔
    ∃ pattern, ⟨exchange, pattern, queue⟩ ∈ b.bindings ∧ Topic.matchesKey pattern key = true := by
  simp only [routes, List.any_eq_true, Bool.and_eq_true, beq_iff_eq]
  constructor
  · rintro ⟨⟨_, pattern, _⟩, hmem, ⟨rfl, rfl⟩, hkey⟩
    exact ⟨pattern, hmem, hkey⟩
  · rintro ⟨pattern, hmem, hkey⟩
    exact ⟨_, hmem, ⟨rfl, rfl⟩, hkey⟩

theorem mem_targets {b : Broker} {queue : String} :
    queue ∈ b.targets exchange key ↔ b.routes exchange key queue = true := by
  rw [targets, mem_meet, routes_iff]
  constructor
  · rintro (hmet | ⟨⟨_, pattern, _⟩, hmem, rfl, rfl, hkey⟩)
    · cases hmet
    · exact ⟨pattern, hmem, hkey⟩
  · rintro ⟨pattern, hmem, hkey⟩
    exact .inr ⟨_, hmem, rfl, rfl, hkey⟩

def push (m : Message) (b : Broker) (queue : String) : Broker := b.updateQueue queue (· ++ [m])

theorem foldl_push (m : Message) {names : List String} (h : names.Nodup) (b : Broker) :
    names.foldl (push m) b = { b with queues := b.queues.map fun q =>
      if q.name ∈ names then { q with ready := q.ready ++ [m] } else q } := by
  induction names generalizing b with
  | nil => simp
  | cons name names ih =>
    obtain ⟨hname, hnames⟩ := List.nodup_cons.1 h
    rw [List.foldl_cons, ih hnames, push, updateQueue, List.map_map]
    refine congrArg (fun qs => ({ b with queues := qs } : Broker)) (List.map_congr_left fun q _ => ?_)
    by_cases hq : q.name = name
    · simp [hq, hname]
    · simp [hq]

theorem copied_eq_pushes (b : Broker) (exchange : String) (m : Message) :
    b.copied exchange m = (b.targets exchange m.key).foldl (push m) b := by
  rw [foldl_push m (b.targets_nodup exchange m.key), copied]
  simp only [mem_targets]

/-! ## What a publication answers -/

theorem publish_cases (b : Broker) (exchange key : String) (body : Bytes) :
    b.closed = true ∧ b.publish exchange key body = .error .closed ∨
    b.closed = false ∧ exchange ∉ b.exchanges ∧
      b.publish exchange key body = .error (.unknownExchange exchange) ∨
    b.closed = false ∧ exchange ∈ b.exchanges ∧
      b.publish exchange key body = .ok (b.copied exchange ⟨key, body, 0⟩) := by
  by_cases hclosed : b.closed = true
  · exact .inl ⟨hclosed, if_pos hclosed⟩
  · have hopen := Bool.not_eq_true _ ▸ hclosed
    have hpublish : b.publish exchange key body =
        if !b.exchanges.contains exchange then .error (.unknownExchange exchange)
        else .ok (b.copied exchange ⟨key, body, 0⟩) := if_neg hclosed
    by_cases hexchange : exchange ∈ b.exchanges
    · exact .inr (.inr ⟨hopen, hexchange, by simp [hpublish, hexchange]⟩)
    · exact .inr (.inl ⟨hopen, hexchange, by simp [hpublish, hexchange]⟩)

theorem queue?_copied (b : Broker) (exchange : String) (m : Message) (name : String) :
    (b.copied exchange m).queue? name = (b.queue? name).map fun q =>
      if b.routes exchange m.key name then { q with ready := q.ready ++ [m] } else q := by
  have hname : ∀ q : MessageQueue, (if b.routes exchange m.key q.name then
      { q with ready := q.ready ++ [m] } else q).name = q.name := fun q => by split <;> rfl
  have hfind : (b.copied exchange m).queue? name = (b.queue? name).map fun q =>
      if b.routes exchange m.key q.name then { q with ready := q.ready ++ [m] } else q := by
    simp only [queue?, copied, List.find?_map, Function.comp_def, hname]
  rw [hfind]
  cases hq : b.queue? name with
  | none => rfl
  | some q => rw [Option.map_some, Option.map_some, queue?_name hq]

/-- A queue that a message is copied to has it at its back. -/
theorem copied_received {b : Broker} {m : Message} {name : String}
    (hroutes : b.routes exchange m.key name = true) (hqueue : b.hasQueue name = true) :
    b.Received (b.copied exchange m) name m := by
  obtain ⟨q, hq⟩ := Option.isSome_iff_exists.1 hqueue
  exact ⟨q, hq, by rw [queue?_copied, hq, Option.map_some, if_pos hroutes]⟩

theorem copied_spared {b : Broker} {m : Message} {name : String}
    (hroutes : ¬ b.routes exchange m.key name = true) :
    (b.copied exchange m).queue? name = b.queue? name := by
  simp only [queue?_copied, hroutes, if_false, Bool.false_eq_true, Option.map_id']

/-! ## What stays when messages move -/

/-- The brokers differ in nothing but the messages that are ready. -/
structure Alike (b b' : Broker) : Prop where
  others_eq : b' = { b with queues := b'.queues }
  queues_eq : b'.queues.map (fun q => (q.name, q.deadLetter)) =
    b.queues.map fun q => (q.name, q.deadLetter)

namespace Alike

variable {b b' b'' : Broker}

theorem refl (b : Broker) : b.Alike b := ⟨rfl, rfl⟩

theorem trans (h : b.Alike b') (h' : b'.Alike b'') : b.Alike b'' := by
  refine ⟨?_, h'.queues_eq.trans h.queues_eq⟩
  rw [h'.others_eq, h.others_eq]

theorem exchanges_eq (h : b.Alike b') : b'.exchanges = b.exchanges := by rw [h.others_eq]

theorem bindings_eq (h : b.Alike b') : b'.bindings = b.bindings := by rw [h.others_eq]

theorem closed_eq (h : b.Alike b') : b'.closed = b.closed := by rw [h.others_eq]

end Alike

theorem alike_map (b : Broker) {f : MessageQueue → MessageQueue}
    (hf : ∀ q, ((f q).name, (f q).deadLetter) = (q.name, q.deadLetter)) :
    b.Alike { b with queues := b.queues.map f } := by
  refine ⟨rfl, ?_⟩
  rw [List.map_map]
  exact List.map_congr_left fun q _ => hf q

theorem updateQueue_alike (b : Broker) (name : String) (f : List Message → List Message) :
    b.Alike (b.updateQueue name f) :=
  b.alike_map fun q => by split <;> rfl

theorem copied_alike (b : Broker) (exchange : String) (m : Message) : b.Alike (b.copied exchange m) :=
  b.alike_map fun q => by split <;> rfl

theorem settle_alike (b : Broker) (d : Delivery) (how : Settlement) : b.Alike (b.settle d how) := by
  cases how with
  | acknowledge => exact .refl b
  | requeue => exact b.updateQueue_alike ..
  | reject =>
    rw [settle]
    split
    · exact b.updateQueue_alike ..
    · exact .refl b

theorem pull_alike {b b' : Broker} {queue : String} {d : Option Delivery}
    (h : b.pull queue = .ok (d, b')) : b.Alike b' := by
  unfold pull at h
  split at h
  · cases h
  split at h
  · cases h
    exact .refl b
  · cases h
    exact b.updateQueue_alike ..

end Broker

namespace Hub

open Broker (Alike)

variable {exchange pattern key queue : String}

/-! ## What is declared and bound -/

theorem settle_alike (h : Hub) (label : String) (how : Settlement) :
    h.broker.Alike (h.settle label how).broker := by
  unfold Hub.settle
  split
  · exact .refl _
  · exact h.broker.settle_alike ..

theorem take_alike (h : Hub) (queue label : String) :
    h.broker.Alike (h.perform (.take queue label)).broker := by
  simp only [perform, take]
  cases hpull : h.broker.pull queue with
  | error e => exact .refl _
  | ok p =>
    obtain ⟨_ | d, b⟩ := p
    · exact Broker.pull_alike hpull
    · exact (Broker.pull_alike hpull).trans (settle_alike ⟨b, h.held⟩ label .requeue)

theorem publish_alike (h : Hub) (exchange key : String) (body : Bytes) :
    h.broker.Alike (h.perform (.publish exchange key body)).broker := by
  rw [perform]
  cases hpublish : h.broker.publish exchange key body with
  | error e => exact .refl _
  | ok b =>
    rw [Broker.publish_eq_ok hpublish]
    exact h.broker.copied_alike ..

/-- What a broker is apart from its queues. -/
def frame (h : Hub) : List String × List Binding × Bool :=
  (h.broker.exchanges, h.broker.bindings, h.broker.closed)

theorem frame_of_alike {h h' : Hub} (halike : h.broker.Alike h'.broker) : h'.frame = h.frame := by
  rw [frame, halike.exchanges_eq, halike.bindings_eq, halike.closed_eq, frame]

theorem perform_frame (h : Hub) (op : Operation) : (h.perform op).frame =
    match op with
    | .declareExchange name => ((h.broker.declareExchange name).exchanges, h.frame.2)
    | .bind queue exchange pattern =>
      (h.broker.exchanges, (h.adopt (h.broker.bind queue exchange pattern)).broker.bindings, h.broker.closed)
    | .close => (h.broker.exchanges, h.broker.bindings, true)
    | _ => h.frame := by
  cases op with
  | declareExchange name =>
    rw [frame, perform, Broker.declareExchange_eq]
    rfl
  | declareQueue name deadLetter =>
    rw [frame, perform]
    cases hb : h.broker.declareQueue name deadLetter with
    | error e => rfl
    | ok b =>
      obtain ⟨-, rfl⟩ | ⟨-, -, rfl⟩ := Broker.declareQueue_eq_ok hb
      · rfl
      · rfl
  | bind queue exchange pattern =>
    simp only [frame, perform]
    cases hb : h.broker.bind queue exchange pattern with
    | error e => rfl
    | ok b => rw [adopt, Broker.bind_eq_ok hb]
  | close => rfl
  | publish exchange key body => exact frame_of_alike (h.publish_alike exchange key body)
  | take queue label => exact frame_of_alike (h.take_alike queue label)
  | settle label how => exact frame_of_alike (h.settle_alike label how)
  | drop label => exact frame_of_alike (h.settle_alike label .requeue)

theorem mem_exchanges_perform (h : Hub) (op : Operation) :
    exchange ∈ (h.perform op).broker.exchanges ↔
      exchange ∈ h.broker.exchanges ∨ op = .declareExchange exchange := by
  have hframe : (h.perform op).broker.exchanges = _ := congrArg Prod.fst (h.perform_frame op)
  rw [hframe]
  cases op with
  | declareExchange name =>
    rw [Operation.declareExchange.injEq]
    simp only [Broker.declareExchange]
    by_cases hname : name ∈ h.broker.exchanges
    · simpa [hname] using fun heq => heq ▸ hname
    · simp [hname, eq_comm]
  | _ => simp [frame]

theorem closed_perform (h : Hub) (op : Operation) :
    (h.perform op).broker.closed = true ↔ h.broker.closed = true ∨ op = .close := by
  have hframe : (h.perform op).broker.closed = _ := congrArg (·.2.2) (h.perform_frame op)
  rw [hframe]
  cases op with
  | close => simp
  | _ => simp [frame]

theorem mem_bindings_adopt (h : Hub) (q x p : String) (y : Binding) :
    y ∈ (h.adopt (h.broker.bind q x p)).broker.bindings ↔ y ∈ h.broker.bindings ∨
      y = ⟨x, p, q⟩ ∧ x ∈ h.broker.exchanges ∧ h.broker.hasQueue q = true := by
  unfold Broker.bind
  by_cases hexchange : x ∈ h.broker.exchanges
  · cases hqueue : h.broker.hasQueue q with
    | false => simp [hexchange, adopt]
    | true =>
      by_cases hbound : ⟨x, p, q⟩ ∈ h.broker.bindings
      · simpa [hexchange, adopt, hbound] using fun heq => heq ▸ hbound
      · simp [hexchange, adopt, hbound]
  · simp [hexchange, adopt]

theorem mem_bindings_perform (h : Hub) (op : Operation) :
    ⟨exchange, pattern, queue⟩ ∈ (h.perform op).broker.bindings ↔
      ⟨exchange, pattern, queue⟩ ∈ h.broker.bindings ∨ op = .bind queue exchange pattern ∧
        exchange ∈ h.broker.exchanges ∧ h.broker.hasQueue queue = true := by
  have hframe : (h.perform op).broker.bindings = _ := congrArg (·.2.1) (h.perform_frame op)
  rw [hframe]
  cases op with
  | bind q x p =>
    rw [Operation.bind.injEq, mem_bindings_adopt, Binding.mk.injEq]
    refine or_congr_right ⟨?_, ?_⟩
    · rintro ⟨⟨rfl, rfl, rfl⟩, hdeclared⟩
      exact ⟨⟨rfl, rfl, rfl⟩, hdeclared⟩
    · rintro ⟨⟨rfl, rfl, rfl⟩, hdeclared⟩
      exact ⟨⟨rfl, rfl, rfl⟩, hdeclared⟩
  | _ => simp [frame]

theorem run_concat (ops : List Operation) (op : Operation) : run (ops ++ [op]) = (run ops).perform op := by
  rw [run, List.foldl_append]
  rfl

theorem exchanges_run (ops : List Operation) (exchange : String) :
    exchange ∈ (run ops).broker.exchanges ↔ .declareExchange exchange ∈ ops := by
  induction ops using List.reverseRecOn with
  | nil => exact iff_of_false List.not_mem_nil List.not_mem_nil
  | append_singleton ops op ih =>
    rw [run_concat, mem_exchanges_perform, ih, List.mem_append, List.mem_singleton, @eq_comm _ op]

theorem closed_run (ops : List Operation) : (run ops).broker.closed = true ↔ .close ∈ ops := by
  induction ops using List.reverseRecOn with
  | nil => exact iff_of_false Bool.false_ne_true List.not_mem_nil
  | append_singleton ops op ih =>
    rw [run_concat, closed_perform, ih, List.mem_append, List.mem_singleton, @eq_comm _ op]

/-- One of the operations has bound the queue to the exchange with this pattern: both were declared when it
came. -/
def Bound (ops : List Operation) (queue exchange pattern : String) : Prop :=
  ∃ before after, ops = before ++ .bind queue exchange pattern :: after ∧
    .declareExchange exchange ∈ before ∧ (run before).broker.hasQueue queue = true

theorem bound_concat {ops : List Operation} {op : Operation} :
    Bound (ops ++ [op]) queue exchange pattern ↔ Bound ops queue exchange pattern ∨
      op = .bind queue exchange pattern ∧ .declareExchange exchange ∈ ops ∧
        (run ops).broker.hasQueue queue = true := by
  constructor
  · rintro ⟨before, after, heq, hdeclared⟩
    obtain rfl | ⟨after, last, rfl⟩ := List.eq_nil_or_concat after
    · obtain ⟨rfl, hop⟩ := List.append_inj' heq rfl
      exact .inr ⟨List.singleton_inj.1 hop, hdeclared⟩
    · rw [List.concat_eq_append, ← List.cons_append, ← List.append_assoc] at heq
      exact .inl ⟨before, after, (List.append_inj' heq rfl).1, hdeclared⟩
  · rintro (⟨before, after, rfl, hdeclared⟩ | ⟨rfl, hdeclared⟩)
    · exact ⟨before, after ++ [op], by simp, hdeclared⟩
    · exact ⟨ops, [], rfl, hdeclared⟩

theorem bindings_run (ops : List Operation) :
    ⟨exchange, pattern, queue⟩ ∈ (run ops).broker.bindings ↔ Bound ops queue exchange pattern := by
  induction ops using List.reverseRecOn with
  | nil => exact iff_of_false List.not_mem_nil fun ⟨_, _, heq, _⟩ => by simp at heq
  | append_singleton ops op ih =>
    rw [run_concat, mem_bindings_perform, ih, exchanges_run, bound_concat]

theorem run_broker (ops : List Operation) : (Custody.run ops).broker = (run ops).broker :=
  congrArg broker (Custody.run_hub ops)

/-- A queue that is bound is there. -/
theorem hasQueue_of_bound {ops : List Operation} (h : Bound ops queue exchange pattern) :
    (run ops).broker.hasQueue queue = true := by
  obtain ⟨before, after, rfl, -, hqueue⟩ := h
  rw [← run_broker, Custody.hasQueue_iff] at hqueue ⊢
  rw [Custody.run, List.foldl_append]
  exact List.map_subset Prod.fst (Custody.declared_subset _ _) hqueue

theorem names_nodup (ops : List Operation) :
    ((run ops).broker.queues.map MessageQueue.name).Nodup := by
  have hnames := (Custody.run_sound ops).formed.names_nodup
  rw [Custody.names_eq] at hnames
  rw [← run_broker, Custody.broker, List.map_map]
  exact hnames

/-! ## A publication -/

/-- A publication on the exchange is accepted after these operations. -/
def Accepts (ops : List Operation) (exchange : String) : Prop :=
  .close ∉ ops ∧ .declareExchange exchange ∈ ops

/-- A publication on the exchange, under this key, is accepted and goes to the queue. -/
def Reaches (ops : List Operation) (exchange key queue : String) : Prop :=
  Accepts ops exchange ∧
    ∃ pattern, Bound ops queue exchange pattern ∧ Topic.matchesKey pattern key = true

/-- What a publication answers after these operations, and what it does to the queues. -/
structure ReachesOnce (ops : List Operation) (exchange key : String) (body : Bytes)
    (b b' : Broker) : Prop where
  closed_iff : b.publish exchange key body = .error .closed ↔ .close ∈ ops
  unknown_iff : b.publish exchange key body = .error (.unknownExchange exchange) ↔
    .close ∉ ops ∧ .declareExchange exchange ∉ ops
  ok_iff : b.publish exchange key body = .ok b' ↔ Accepts ops exchange
  refused : ¬ Accepts ops exchange → b' = b
  alike : b.Alike b'
  names_nodup : (b.queues.map MessageQueue.name).Nodup
  /-- One message more, and no queue twice. -/
  received_iff : ∀ queue,
    b.Received b' queue ⟨key, body, 0⟩ ↔ Reaches ops exchange key queue
  spared : ∀ queue, ¬ Reaches ops exchange key queue → b'.queue? queue = b.queue? queue
  pushed : Accepts ops exchange → (b.targets exchange key).Nodup ∧
    b' = (b.targets exchange key).foldl (Broker.push ⟨key, body, 0⟩) b

theorem routes_run (ops : List Operation) : (run ops).broker.routes exchange key queue = true ↔
    ∃ pattern, Bound ops queue exchange pattern ∧ Topic.matchesKey pattern key = true := by
  rw [Broker.routes_iff]
  exact exists_congr fun pattern => and_congr_left fun _ => bindings_run ops

theorem ReachesOnce.of_refused {ops : List Operation} {body : Bytes} {e : BrokerError}
    (hpublish : (run ops).broker.publish exchange key body = .error e) (hrefused : ¬ Accepts ops exchange)
    (hclosed : e = .closed ↔ .close ∈ ops)
    (hunknown : e = .unknownExchange exchange ↔ .close ∉ ops ∧ .declareExchange exchange ∉ ops) :
    ReachesOnce ops exchange key body (run ops).broker (run ops).broker where
  closed_iff := by rw [hpublish, Except.error.injEq, hclosed]
  unknown_iff := by rw [hpublish, Except.error.injEq, hunknown]
  ok_iff := iff_of_false (hpublish ▸ nofun) hrefused
  refused := fun _ => rfl
  alike := .refl _
  names_nodup := Hub.names_nodup ops
  received_iff := fun _ => iff_of_false (Broker.not_received_of_eq rfl) fun h => hrefused h.1
  spared := fun _ _ => rfl
  pushed := fun h => absurd h hrefused

theorem ReachesOnce.of_accepted {ops : List Operation} {body : Bytes} (haccepts : Accepts ops exchange)
    (hpublish : (run ops).broker.publish exchange key body =
      .ok ((run ops).broker.copied exchange ⟨key, body, 0⟩)) :
    ReachesOnce ops exchange key body (run ops).broker
      ((run ops).broker.copied exchange ⟨key, body, 0⟩) where
  closed_iff := iff_of_false (hpublish ▸ nofun) haccepts.1
  unknown_iff := iff_of_false (hpublish ▸ nofun) fun h => h.2 haccepts.2
  ok_iff := iff_of_true hpublish haccepts
  refused := fun h => absurd haccepts h
  alike := Broker.copied_alike ..
  names_nodup := Hub.names_nodup ops
  received_iff := by
    intro queue
    constructor
    · intro hreceived
      refine ⟨haccepts, routes_run ops |>.1 ?_⟩
      by_contra hroutes
      exact Broker.not_received_of_eq (Broker.copied_spared hroutes) hreceived
    · rintro ⟨-, pattern, hbound, hkey⟩
      exact Broker.copied_received ((routes_run ops).2 ⟨pattern, hbound, hkey⟩) (hasQueue_of_bound hbound)
  spared := fun queue hspared =>
    Broker.copied_spared fun hroutes => hspared ⟨haccepts, (routes_run ops).1 hroutes⟩
  pushed := fun _ => ⟨Broker.targets_nodup .., Broker.copied_eq_pushes ..⟩

/-- **A publication reaches every queue that it is bound to once, and no other.** -/
theorem publish_reaches_once (ops : List Operation) (exchange key : String) (body : Bytes) :
    ReachesOnce ops exchange key body (run ops).broker
      (run (ops ++ [.publish exchange key body])).broker := by
  have hafter : (run (ops ++ [.publish exchange key body])).broker =
      ((run ops).adopt ((run ops).broker.publish exchange key body)).broker := by
    rw [run_concat]
    rfl
  rw [hafter]
  obtain ⟨hclosed, hpublish⟩ | ⟨hopen, hexchange, hpublish⟩ | ⟨hopen, hexchange, hpublish⟩ :=
    (run ops).broker.publish_cases exchange key body
  · rw [closed_run] at hclosed
    rw [hpublish]
    exact .of_refused hpublish (fun h => h.1 hclosed) (iff_of_true rfl hclosed)
      (iff_of_false nofun fun h => h.1 hclosed)
  · rw [← Bool.not_eq_true, closed_run] at hopen
    rw [exchanges_run] at hexchange
    rw [hpublish]
    exact .of_refused hpublish (fun h => hexchange h.2) (iff_of_false nofun hopen)
      (iff_of_true rfl ⟨hopen, hexchange⟩)
  · rw [← Bool.not_eq_true, closed_run] at hopen
    rw [exchanges_run] at hexchange
    rw [hpublish]
    exact .of_accepted ⟨hopen, hexchange⟩ hpublish

/-- Both patterns match, one of them was bound twice, and there is one copy. -/
example : (run [.declareExchange "x", .declareQueue "q" none, .bind "q" "x" "a.*", .bind "q" "x" "#",
      .bind "q" "x" "a.*", .publish "x" "a.b" []]).broker.queues = [⟨"q", none, [⟨"a.b", [], 0⟩]⟩] := by
  decide +kernel

end Hub

end TransferLedger
