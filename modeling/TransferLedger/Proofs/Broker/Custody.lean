import TransferLedger.Broker.Hub
import TransferLedger.Proofs.Broker.Queues

/-! # Following the copies of a message

A message in a queue does not say which publication it comes from, and its count comes round after 2^32
deliveries. `Custody` is a hub in which every message carries a mark that does and a number that does not
(`Copy`), and which also keeps what a hub forgets: the copies that were acknowledged or discarded, and the
mark of each copy that was handed out. Taking the marks away commutes with every operation
(`Custody.perform_hub`), so what is said of copies here is said of the messages of the hub
(`Custody.run_hub`).
-/

namespace TransferLedger
set_option autoImplicit false

/-! ## Operations on a hub -/

namespace Hub

/-- What can be asked of a hub. A delivery is known by the label that it is held under. -/
inductive Operation
  | declareExchange (name : String)
  | declareQueue (name : String) (deadLetter : Option String)
  | bind (queue exchange pattern : String)
  | close
  | publish (exchange key : String) (body : Bytes)
  | take (queue label : String)
  | settle (label : String) (how : Settlement)
  | drop (label : String)
deriving Repr

/-- The operation hands out a delivery under this label, if it hands out one. -/
def Operation.Takes (label : String) : Operation → Prop
  | .take _ l => l = label
  | _ => False

/-- The hub with what its broker became, or as it was where the broker refused. -/
def adopt (h : Hub) : Except BrokerError Broker → Hub
  | .ok b => { h with broker := b }
  | .error _ => h

/-- What an operation does to a hub; one that is refused does nothing. -/
def perform (h : Hub) : Operation → Hub
  | .declareExchange name => { h with broker := h.broker.declareExchange name }
  | .declareQueue name deadLetter => h.adopt (h.broker.declareQueue name deadLetter)
  | .bind queue exchange pattern => h.adopt (h.broker.bind queue exchange pattern)
  | .close => { h with broker := h.broker.close }
  | .publish exchange key body => h.adopt (h.broker.publish exchange key body)
  | .take queue label =>
    match h.take queue label with
    | .ok (_, h') => h'
    | .error _ => h
  | .settle label how => h.settle label how
  | .drop label => h.settle label .requeue

def run (ops : List Operation) : Hub := ops.foldl perform empty

end Hub

namespace Broker

theorem declareExchange_eq (b : Broker) (name : String) :
    b.declareExchange name = { b with exchanges := (b.declareExchange name).exchanges } := by
  unfold declareExchange
  split <;> rfl

/-- A queue that is declared exists already, or is new and empty with a dead-letter queue that exists. -/
theorem declareQueue_eq_ok {b b' : Broker} {name : String} {deadLetter : Option String}
    (h : b.declareQueue name deadLetter = .ok b') :
    (b.hasQueue name = true ∧ b' = b) ∨
      (b.hasQueue name = false ∧ (∀ d, deadLetter = some d → b.hasQueue d = true) ∧
        b' = { b with queues := b.queues ++ [⟨name, deadLetter, []⟩] }) := by
  unfold declareQueue at h
  split at h
  · next hname => exact .inl ⟨hname, (Except.ok.inj h).symm⟩
  · next hname =>
    have hnew : b.hasQueue name = false := Bool.eq_false_iff.2 hname
    cases deadLetter with
    | none => exact .inr ⟨hnew, nofun, (Except.ok.inj h).symm⟩
    | some d =>
      dsimp only at h
      split at h
      · next hd =>
        refine .inr ⟨hnew, fun e he => ?_, (Except.ok.inj h).symm⟩
        cases he
        exact hd
      · cases h

theorem bind_eq_ok {b b' : Broker} {queue exchange pattern : String}
    (h : b.bind queue exchange pattern = .ok b') : b' = { b with bindings := b'.bindings } := by
  unfold bind at h
  split at h
  · cases h
  split at h
  · cases h
  cases h
  split <;> rfl

end Broker

/-! ## Marked messages -/

/-- Which copy of a message it is: a publication puts at most one copy into a queue. -/
structure Mark where
  publication : Nat
  origin : String
deriving DecidableEq, Repr

structure Copy where
  mark : Mark
  message : Message
  /-- How often it was handed out. -/
  handouts : Nat
deriving DecidableEq, Repr

/-- The copy as it is handed to a consumer. -/
def Copy.handed (x : Copy) : Copy :=
  { x with message := x.message.handed, handouts := x.handouts + 1 }

structure Line where
  name : String
  deadLetter : Option String
  ready : List Copy
deriving Repr

def Line.queue (l : Line) : MessageQueue := ⟨l.name, l.deadLetter, l.ready.map Copy.message⟩

structure Holding where
  label : String
  queue : String
  copy : Copy
deriving Repr

def Holding.entry (e : Holding) : String × Delivery := (e.label, ⟨e.queue, e.copy.message⟩)

structure History where
  /-- Every copy as it was put into a queue. -/
  issued : List Copy
  publications : Nat
  /-- A mark for every time a copy was handed out. -/
  pulls : List Mark
deriving Repr

namespace History

def pulled (h : History) (m : Mark) : History := { h with pulls := h.pulls ++ [m] }

def published (h : History) (xs : List Copy) : History :=
  { h with issued := h.issued ++ xs, publications := h.publications + 1 }

end History

/-- A hub whose messages are marked, and what has happened to them. -/
structure Custody where
  exchanges : List String
  lines : List Line
  bindings : List Binding
  closed : Bool
  held : List Holding
  acknowledged : List Copy
  /-- Copies rejected for good, each with the queue that it was taken from. -/
  discarded : List (String × Copy)
  history : History
deriving Repr

namespace Custody

def empty : Custody := ⟨[], [], [], false, [], [], [], ⟨[], 0, []⟩⟩

/-- The broker without the marks. -/
def broker (c : Custody) : Broker := ⟨c.exchanges, c.lines.map Line.queue, c.bindings, c.closed⟩

def hub (c : Custody) : Hub := ⟨c.broker, c.held.map Holding.entry⟩

def line? (c : Custody) (name : String) : Option Line := c.lines.find? fun l => l.name == name

def holding? (c : Custody) (label : String) : Option Holding := c.held.find? fun e => e.label == label

def update (c : Custody) (name : String) (f : List Copy → List Copy) : Custody :=
  { c with lines := c.lines.map fun l => if l.name = name then { l with ready := f l.ready } else l }

/-! ## Operations on marked messages -/

/-- The copy that the next publication puts into a queue. -/
def copyFor (c : Custody) (key : String) (body : Bytes) (queue : String) : Copy :=
  ⟨⟨c.history.publications, queue⟩, ⟨key, body, 0⟩, 0⟩

def copies (c : Custody) (exchange key : String) (body : Bytes) : List Copy :=
  (c.lines.filter fun l => c.broker.routes exchange key l.name).map fun l => c.copyFor key body l.name

/-- A publication: one copy at the back of every queue that it goes to. -/
def accept (c : Custody) (exchange key : String) (body : Bytes) : Custody :=
  { c with
    lines := c.lines.map fun l =>
      if c.broker.routes exchange key l.name then
        { l with ready := l.ready ++ [c.copyFor key body l.name] }
      else l
    history := c.history.published (c.copies exchange key body) }

def pull (c : Custody) (queue : String) : Option (Copy × Custody) :=
  match c.line? queue with
  | none => none
  | some l =>
    match l.ready with
    | [] => none
    | x :: _ =>
      some (x.handed, { c.update queue List.tail with history := c.history.pulled x.mark })

/-- Puts a copy that was taken from a queue where its settlement says. -/
def put (c : Custody) (queue : String) (x : Copy) : Settlement → Custody
  | .acknowledge => { c with acknowledged := c.acknowledged ++ [x] }
  | .requeue => c.update queue (x :: ·)
  | .reject =>
    match (c.line? queue).bind (·.deadLetter) with
    | some dead => c.update dead (· ++ [x])
    | none => { c with discarded := c.discarded ++ [(queue, x)] }

def release (c : Custody) (label : String) : Custody :=
  { c with held := c.held.filter fun e => e.label != label }

def hold (c : Custody) (e : Holding) : Custody := { c with held := c.held ++ [e] }

def settle (c : Custody) (label : String) (how : Settlement) : Custody :=
  match c.holding? label with
  | none => c
  | some e => (c.release label).put e.queue e.copy how

def take (c : Custody) (queue label : String) : Custody :=
  match c.pull queue with
  | none => c
  | some (x, c') => (c'.settle label .requeue).hold ⟨label, queue, x⟩

def perform (c : Custody) : Hub.Operation → Custody
  | .declareExchange name => { c with exchanges := (c.broker.declareExchange name).exchanges }
  | .declareQueue name deadLetter =>
    match c.broker.declareQueue name deadLetter with
    | .ok _ =>
      if c.broker.hasQueue name then c else { c with lines := c.lines ++ [⟨name, deadLetter, []⟩] }
    | .error _ => c
  | .bind queue exchange pattern =>
    match c.broker.bind queue exchange pattern with
    | .ok b => { c with bindings := b.bindings }
    | .error _ => c
  | .close => { c with closed := true }
  | .publish exchange key body =>
    match c.broker.publish exchange key body with
    | .ok _ => c.accept exchange key body
    | .error _ => c
  | .take queue label => c.take queue label
  | .settle label how => c.settle label how
  | .drop label => c.settle label .requeue

def run (ops : List Hub.Operation) : Custody := ops.foldl perform empty

theorem line?_eq_some {c : Custody} {name : String} {l : Line} (h : c.line? name = some l) :
    l ∈ c.lines ∧ l.name = name :=
  ⟨List.mem_of_find?_eq_some h, by simpa using List.find?_some h⟩

theorem pull_eq_some {c c' : Custody} {queue : String} {y : Copy} (h : c.pull queue = some (y, c')) :
    ∃ l x xs, c.line? queue = some l ∧ l.ready = x :: xs ∧ y = x.handed ∧
      c' = { c.update queue List.tail with history := c.history.pulled x.mark } := by
  unfold pull at h
  cases hl : c.line? queue with
  | none => simp [hl] at h
  | some l =>
    cases hready : l.ready with
    | nil => simp [hl, hready] at h
    | cons x xs =>
      simp only [hl, hready, Option.some.injEq, Prod.mk.injEq] at h
      exact ⟨l, x, xs, rfl, hready, h.1.symm, h.2.symm⟩

/-! ## Taking the marks away -/

theorem broker_queue? (c : Custody) (name : String) :
    c.broker.queue? name = (c.line? name).map Line.queue := by
  simp only [Broker.queue?, broker, List.find?_map, line?]
  rfl

theorem broker_update (c : Custody) (name : String) {f : List Copy → List Copy}
    {g : List Message → List Message} (hfg : ∀ xs, (f xs).map Copy.message = g (xs.map Copy.message)) :
    (c.update name f).broker = c.broker.updateQueue name g := by
  simp only [update, broker, Broker.updateQueue, List.map_map, Broker.mk.injEq, true_and, and_true]
  refine List.map_congr_left fun l _ => ?_
  by_cases hl : l.name = name
  · simp [Line.queue, hl, hfg]
  · simp [Line.queue, hl]

theorem hub_holding? (c : Custody) (label : String) :
    c.hub.holding? label = (c.holding? label).map fun e => e.entry.2 := by
  simp only [Hub.holding?, hub, List.find?_map, holding?, Option.map_map]
  rfl

theorem put_broker (c : Custody) (queue : String) (x : Copy) (how : Settlement) :
    (c.put queue x how).broker = c.broker.settle ⟨queue, x.message⟩ how := by
  cases how with
  | acknowledge => rfl
  | requeue => exact c.broker_update queue fun _ => rfl
  | reject =>
    have hdead : (c.broker.queue? queue).bind (·.deadLetter) = (c.line? queue).bind (·.deadLetter) := by
      rw [broker_queue?]
      cases c.line? queue <;> rfl
    simp only [put, Broker.settle, hdead]
    cases (c.line? queue).bind (·.deadLetter) with
    | none => rfl
    | some dead => exact c.broker_update dead fun xs => by simp

@[simp] theorem put_held (c : Custody) (queue : String) (x : Copy) (how : Settlement) :
    (c.put queue x how).held = c.held := by
  cases how with
  | acknowledge => rfl
  | requeue => rfl
  | reject => rw [put]; split <;> rfl

@[simp] theorem put_history (c : Custody) (queue : String) (x : Copy) (how : Settlement) :
    (c.put queue x how).history = c.history := by
  cases how with
  | acknowledge => rfl
  | requeue => rfl
  | reject => rw [put]; split <;> rfl

theorem settle_hub (c : Custody) (label : String) (how : Settlement) :
    (c.settle label how).hub = c.hub.settle label how := by
  unfold settle Hub.settle
  rw [hub_holding?]
  cases c.holding? label with
  | none => rfl
  | some e =>
    have hheld : (c.release label).held.map Holding.entry =
        (c.held.map Holding.entry).filter fun d => d.1 != label := by
      rw [List.filter_map]
      rfl
    simp only [Option.map_some, hub, put_broker, put_held, hheld]
    rfl

theorem pull_broker (c : Custody) (queue : String) :
    (∀ x c', c.pull queue = some (x, c') →
      c.broker.pull queue = .ok (some ⟨queue, x.message⟩, c'.broker) ∧ c'.held = c.held) ∧
    (c.pull queue = none → (∃ e, c.broker.pull queue = .error e) ∨
      c.broker.pull queue = .ok (none, c.broker)) := by
  unfold pull Broker.pull
  rw [broker_queue?]
  cases c.line? queue with
  | none => exact ⟨nofun, fun _ => .inl ⟨_, rfl⟩⟩
  | some l =>
    obtain ⟨name, deadLetter, ready⟩ := l
    cases ready with
    | nil => exact ⟨nofun, fun _ => .inr rfl⟩
    | cons x xs =>
      refine ⟨fun y c' h => ?_, nofun⟩
      cases h
      have hbroker : (c.update queue List.tail).broker = c.broker.updateQueue queue List.tail :=
        c.broker_update queue fun ys => List.map_tail
      refine ⟨?_, rfl⟩
      rw [← hbroker]
      rfl

theorem take_hub (c : Custody) (queue label : String) :
    (c.take queue label).hub = c.hub.perform (.take queue label) := by
  obtain ⟨hsome, hnone⟩ := c.pull_broker queue
  simp only [take, Hub.perform, Hub.take]
  cases hpull : c.pull queue with
  | none =>
    obtain ⟨e, he⟩ | he := hnone hpull
    · simp only [hub, he]
    · simp only [hub, he]
  | some p =>
    obtain ⟨x, c'⟩ := p
    obtain ⟨hb, hheld⟩ := hsome x c' hpull
    have hhub : c'.hub = { c.hub with broker := c'.broker } := by simp only [hub, hheld]
    have hfound : c.hub.broker.pull queue = .ok (some ⟨queue, x.message⟩, c'.broker) := hb
    simp only [hfound]
    rw [← hhub, ← settle_hub]
    simp only [hold, hub, List.map_append, List.map_cons, List.map_nil]
    rfl

theorem accept_broker (c : Custody) (exchange key : String) (body : Bytes) :
    (c.accept exchange key body).broker = c.broker.copied exchange ⟨key, body, 0⟩ := by
  simp only [accept, Broker.copied]
  refine congrArg (fun qs => (⟨c.exchanges, qs, c.bindings, c.closed⟩ : Broker)) ?_
  refine (List.map_map ..).trans ((List.map_congr_left fun l _ => ?_).trans (List.map_map ..).symm)
  by_cases hroutes : c.broker.routes exchange key l.name = true
  · simp [Line.queue, copyFor, hroutes]
  · simp [Line.queue, hroutes]

theorem perform_hub (c : Custody) (op : Hub.Operation) : (c.perform op).hub = c.hub.perform op := by
  cases op with
  | declareExchange name =>
    have h := c.broker.declareExchange_eq name
    simp only [Hub.perform, hub]
    rw [h]
    rfl
  | declareQueue name deadLetter =>
    simp only [perform, Hub.perform, hub]
    cases h : c.broker.declareQueue name deadLetter with
    | error e => rfl
    | ok b =>
      obtain ⟨hname, rfl⟩ | ⟨hname, -, rfl⟩ := Broker.declareQueue_eq_ok h
      · simp only [hname, if_true]
        rfl
      · simp only [hname, Bool.false_eq_true, if_false]
        simp [broker, Hub.adopt, Line.queue]
  | bind queue exchange pattern =>
    simp only [perform, Hub.perform, hub]
    cases h : c.broker.bind queue exchange pattern with
    | error e => rfl
    | ok b =>
      simp only [Hub.adopt]
      rw [Broker.bind_eq_ok h]
      rfl
  | close => rfl
  | publish exchange key body =>
    simp only [perform, Hub.perform, hub]
    cases h : c.broker.publish exchange key body with
    | error e => rfl
    | ok b =>
      simp only [Hub.adopt]
      rw [Broker.publish_eq_ok h, accept_broker]
      rfl
  | take queue label => exact c.take_hub queue label
  | settle label how => exact c.settle_hub label how
  | drop label => exact c.settle_hub label .requeue

theorem run_hub (ops : List Hub.Operation) : (run ops).hub = Hub.run ops :=
  (List.foldl_hom hub fun c op => (c.perform_hub op).symm).symm

/-- What an operation can do: it touches no queue, declares a new one, publishes, takes or settles. -/
theorem perform_cases (c : Custody) (op : Hub.Operation) :
    (∃ exchanges bindings closed,
      c.perform op = { c with exchanges := exchanges, bindings := bindings, closed := closed }) ∨
    (∃ name deadLetter, c.broker.hasQueue name = false ∧
      (∀ d, deadLetter = some d → c.broker.hasQueue d = true) ∧
      c.perform op = { c with lines := c.lines ++ [⟨name, deadLetter, []⟩] }) ∨
    (∃ exchange key body, c.perform op = c.accept exchange key body) ∨
    (∃ queue label, op = .take queue label ∧ c.perform op = c.take queue label) ∨
    ∃ label how, c.perform op = c.settle label how := by
  cases op with
  | declareExchange name => exact .inl ⟨_, _, _, rfl⟩
  | declareQueue name deadLetter =>
    simp only [perform]
    cases h : c.broker.declareQueue name deadLetter with
    | error e => exact .inl ⟨_, _, _, rfl⟩
    | ok b =>
      obtain ⟨hname, -⟩ | ⟨hname, hdead, -⟩ := Broker.declareQueue_eq_ok h
      · simp only [hname, if_true]
        exact .inl ⟨_, _, _, rfl⟩
      · simp only [hname, Bool.false_eq_true, if_false]
        exact .inr (.inl ⟨name, deadLetter, hname, hdead, rfl⟩)
  | bind queue exchange pattern =>
    simp only [perform]
    split <;> exact .inl ⟨_, _, _, rfl⟩
  | close => exact .inl ⟨_, _, _, rfl⟩
  | publish exchange key body =>
    simp only [perform]
    split
    · exact .inr (.inr (.inl ⟨exchange, key, body, rfl⟩))
    · exact .inl ⟨_, _, _, rfl⟩
  | take queue label => exact .inr (.inr (.inr (.inl ⟨queue, label, rfl, rfl⟩)))
  | settle label how => exact .inr (.inr (.inr (.inr ⟨label, how, rfl⟩)))
  | drop label => exact .inr (.inr (.inr (.inr ⟨label, .requeue, rfl⟩)))

end Custody

end TransferLedger
