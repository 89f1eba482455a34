import TransferLedger.Proofs.Broker.Order
import TransferLedger.Proofs.Broker.Routing

/-! # Runs in which publications are interrupted

A publication looks up its queues at once, but puts its copies into them one by one, and others may come in
between. A run is therefore made of events (`Hub.Event`): one is an operation, another is the copy for one
queue, and a publication that is not interrupted is the copies for its queues (`Hub.perform_publish`). What is
invariant under operations is so under events, since a push is a publication that is bound to one queue
(`Custody.push_eq`). To the copies that are ready an event does one of few things
(`Custody.Formed.handle_cases`).
-/

namespace TransferLedger
set_option autoImplicit false

namespace Hub

/-- What happens to a hub. A push is the part of a publication that puts its copy into one queue. -/
inductive Event
  | operation (op : Operation)
  | push (queue key : String) (body : Bytes)

def handle (h : Hub) : Event → Hub
  | .operation op => h.perform op
  | .push queue key body => { h with broker := h.broker.push ⟨key, body, 0⟩ queue }

def after (events : List Event) : Hub := events.foldl handle empty

/-- A publication that is not interrupted is its pushes, one after the other. -/
theorem perform_publish {h : Hub} {b : Broker} {exchange key : String} {body : Bytes}
    (hpublish : h.broker.publish exchange key body = .ok b) : h.perform (.publish exchange key body) =
      ((h.broker.targets exchange key).map fun queue => .push queue key body).foldl handle h := by
  have hpushes : ∀ (names : List String) (h : Hub), (names.map fun queue => Event.push queue key body).foldl
      handle h = { h with broker := names.foldl (Broker.push ⟨key, body, 0⟩) h.broker } := by
    intro names
    induction names with
    | nil => exact fun _ => rfl
    | cons name names ih => exact fun h => ih _
  rw [hpushes, perform, hpublish, Broker.publish_eq_ok hpublish, Broker.copied_eq_pushes]
  rfl

/-- The delivery that an event hands out. -/
def handed (h : Hub) : Event → Option Delivery
  | .operation (.take queue label) =>
    match h.take queue label with
    | .ok (d, _) => d
    | .error _ => none
  | _ => none

/-- The message that an event publishes to a queue. -/
def arrived (queue : String) (h : Hub) : Event → Option Message
  | .operation (.publish exchange key body) =>
    match h.broker.publish exchange key body with
    | .ok _ =>
      if h.broker.hasQueue queue ∧ h.broker.routes exchange key queue then some ⟨key, body, 0⟩ else none
    | .error _ => none
  | .push name key body => if h.broker.hasQueue queue ∧ name = queue then some ⟨key, body, 0⟩ else none
  | _ => none

end Hub

namespace Custody

variable {c c' : Custody} {queue label name key : String} {body : Bytes} {x y : Copy}

/-! ## Events on marked messages -/

def push (c : Custody) (queue key : String) (body : Bytes) : Custody :=
  { c.update queue (· ++ [c.copyFor key body queue]) with
    history := c.history.published
      ((c.lines.filter fun l => l.name == queue).map fun _ => c.copyFor key body queue) }

def handle (c : Custody) : Hub.Event → Custody
  | .operation op => c.perform op
  | .push queue key body => c.push queue key body

def after (events : List Hub.Event) : Custody := events.foldl handle empty

/-- The custody with one binding only: everything that is published goes to this queue. -/
def boundTo (c : Custody) (queue : String) : Custody := { c with bindings := [⟨"", "#", queue⟩] }

theorem boundTo_routes (c : Custody) (queue key name : String) :
    (c.boundTo queue).broker.routes "" key name = (queue == name) := by
  simp [boundTo, broker, Broker.routes, Topic.matchesKey_hash]

/-- A push is a publication that is bound to the one queue. -/
theorem push_eq (c : Custody) (queue key : String) (body : Bytes) :
    c.push queue key body = { (c.boundTo queue).accept "" key body with bindings := c.bindings } := by
  have hlines : (c.push queue key body).lines = ((c.boundTo queue).accept "" key body).lines := by
    refine List.map_congr_left fun l _ => ?_
    rw [boundTo_routes]
    by_cases hname : l.name = queue
    · subst hname
      simp [copyFor, boundTo]
    · simp [hname, Ne.symm hname]
  have hcopies : (c.lines.filter fun l => l.name == queue).map (fun _ => c.copyFor key body queue) =
      (c.boundTo queue).copies "" key body := by
    simp only [copies, boundTo_routes]
    have hfilter : (c.boundTo queue).lines.filter (fun l => queue == l.name) =
        c.lines.filter fun l => l.name == queue := List.filter_congr fun l _ => Bool.beq_comm
    rw [hfilter]
    refine List.map_congr_left fun l hl => ?_
    obtain rfl : l.name = queue := beq_iff_eq.1 (List.mem_filter.1 hl).2
    rfl
  exact congrArg₂ (fun ls xs => ({ c with lines := ls, history := c.history.published xs } : Custody))
    hlines hcopies

/-! ## What events keep -/

theorem Sound.push (h : c.Sound []) (queue key : String) (body : Bytes) :
    (c.push queue key body).Sound [] := by
  have hbound : (c.boundTo queue).Sound [] :=
    ⟨h.formed.of_declared rfl (List.Sublist.refl _) h.formed.discarded_declared, h.accounts⟩
  have haccepted := hbound.accept "" key body
  rw [push_eq]
  exact ⟨haccepted.formed.of_declared rfl (List.Sublist.refl _) haccepted.formed.discarded_declared,
    haccepted.accounts⟩

theorem Ordered.push (h : c.Ordered) (queue key : String) (body : Bytes) :
    (c.push queue key body).Ordered := by
  have hbound : (c.boundTo queue).Ordered := ⟨h.rising, h.held⟩
  have haccepted := hbound.accept "" key body
  rw [push_eq]
  exact ⟨haccepted.rising, haccepted.held⟩

/-- The copy that an event hands out, and the queue that it is taken from. -/
def handed (c : Custody) : Hub.Event → Option (String × Copy)
  | .operation (.take queue _) => (c.pull queue).map fun p => (queue, p.1)
  | _ => none

def readyIn (c : Custody) (queue : String) : List Copy := ((c.line? queue).map Line.ready).getD []

/-- The copy that an event puts into a queue for the first time. -/
def arrived (queue : String) (c : Custody) (ev : Hub.Event) : Option Copy :=
  (c.hub.arrived queue ev).map fun m => ⟨⟨c.history.publications, queue⟩, m, 0⟩

/-- The copies that were published to a queue, as they were put into it. -/
def issuedTo (c : Custody) (queue : String) : List Copy :=
  c.history.issued.filter fun x => x.mark.origin == queue

theorem readyIn_declare (c : Custody) (name : String) (deadLetter : Option String) (queue : String) :
    ({ c with lines := c.lines ++ [⟨name, deadLetter, []⟩] } : Custody).readyIn queue =
      c.readyIn queue := by
  simp only [readyIn, line?, List.find?_append]
  cases hl : c.lines.find? fun l => l.name == queue with
  | some l => rfl
  | none =>
    rw [Option.none_or, List.find?_singleton]
    split <;> rfl

theorem readyIn_update_of_ne (c : Custody) (f : List Copy → List Copy) (hne : queue ≠ name) :
    (c.update name f).readyIn queue = c.readyIn queue := by
  rw [readyIn, update_line?]
  cases hl : c.line? queue with
  | none => rw [readyIn, hl, Option.map_none]
  | some l => rw [readyIn, hl, Option.map_some, if_neg ((line?_eq_some hl).2 ▸ hne)]

theorem readyIn_update_self {l : Line} (hl : c.line? name = some l) (f : List Copy → List Copy) :
    (c.update name f).readyIn name = f (c.readyIn name) := by
  rw [readyIn, update_line?, readyIn, hl, Option.map_some, if_pos (line?_eq_some hl).2]
  rfl

theorem readyIn_update (c : Custody) (name : String) (f : List Copy → List Copy) (queue : String) :
    (c.update name f).readyIn queue = c.readyIn queue ∨
      queue = name ∧ (c.update name f).readyIn queue = f (c.readyIn queue) := by
  by_cases hname : queue = name
  · subst hname
    cases hl : c.line? queue with
    | none =>
      refine .inl ?_
      rw [readyIn, update_line?, readyIn, hl]
      rfl
    | some l => exact .inr ⟨rfl, readyIn_update_self hl f⟩
  · exact .inl (c.readyIn_update_of_ne f hname)

/-- Where a settled copy comes: into no queue, to the front of the queue it was taken from, or to the back
of its dead-letter queue. -/
theorem put_readyIn (c : Custody) (name : String) (x : Copy) (how : Settlement) (queue : String) :
    (c.put name x how).readyIn queue = c.readyIn queue ∨
      (c.put name x how).readyIn queue = x :: c.readyIn queue ∨
      (name, some queue) ∈ c.declared ∧ (c.put name x how).readyIn queue = c.readyIn queue ++ [x] := by
  cases how with
  | acknowledge => exact .inl rfl
  | requeue =>
    obtain h | ⟨-, h⟩ := c.readyIn_update name (x :: ·) queue
    · exact .inl h
    · exact .inr (.inl h)
  | reject =>
    rw [put]
    split
    · next dead hdead =>
      obtain ⟨l, hl, hdeadLetter⟩ := Option.bind_eq_some_iff.1 hdead
      obtain h | ⟨rfl, h⟩ := c.readyIn_update dead (· ++ [x]) queue
      · exact .inl h
      · exact .inr (.inr ⟨hdeadLetter ▸ declared_of_line? hl, h⟩)
    · exact .inl rfl

theorem settle_readyIn (h : c.Ordered) (label : String) (how : Settlement) (queue : String) :
    (c.settle label how).readyIn queue = c.readyIn queue ∨ ∃ x : Copy, x.isFresh = false ∧
      ((c.settle label how).readyIn queue = x :: c.readyIn queue ∨
        (∃ name, (name, some queue) ∈ c.declared) ∧
          (c.settle label how).readyIn queue = c.readyIn queue ++ [x]) := by
  unfold settle
  split
  · exact .inl rfl
  · next e he =>
    obtain hput | hput | ⟨hdead, hput⟩ := (c.release label).put_readyIn e.queue e.copy how queue
    · exact .inl hput
    · exact .inr ⟨e.copy, h.held e (List.mem_of_find?_eq_some he), .inl hput⟩
    · exact .inr ⟨e.copy, h.held e (List.mem_of_find?_eq_some he), .inr ⟨⟨_, hdead⟩, hput⟩⟩

theorem pull_readyIn (h : c.pull queue = some (y, c')) :
    (∃ x : Copy, y = x.handed ∧ c.readyIn queue = x :: c'.readyIn queue) ∧
      ∀ other, other ≠ queue → c'.readyIn other = c.readyIn other := by
  obtain ⟨l, x, xs, hl, hready, rfl, rfl⟩ := pull_eq_some h
  have hbefore : c.readyIn queue = x :: xs := by rw [readyIn, hl, Option.map_some, hready, Option.getD_some]
  have hafter : (c.update queue List.tail).readyIn queue = xs := by
    rw [readyIn_update_self hl, hbefore, List.tail_cons]
  exact ⟨⟨x, rfl, hbefore.trans (congrArg (x :: ·) hafter.symm)⟩,
    fun other hne => c.readyIn_update_of_ne List.tail hne⟩

/-! ## Publications -/

/-- The copy that a publication puts into a queue. -/
def copyTo (c : Custody) (exchange key : String) (body : Bytes) (queue : String) : Option Copy :=
  ((c.line? queue).filter fun l => c.broker.routes exchange key l.name).map fun l => c.copyFor key body l.name

theorem copyTo_eq (c : Custody) (exchange key : String) (body : Bytes) (queue : String) :
    c.copyTo exchange key body queue =
      if c.broker.hasQueue queue ∧ c.broker.routes exchange key queue then some (c.copyFor key body queue)
      else none := by
  rw [copyTo, Broker.hasQueue, broker_queue?, Option.isSome_map]
  cases hl : c.line? queue with
  | none => rfl
  | some l =>
    obtain rfl := (line?_eq_some hl).2
    by_cases hroutes : c.broker.routes exchange key l.name = true
    · simp [Option.filter_some, hroutes]
    · simp [Option.filter_some, hroutes]

theorem accept_readyIn (c : Custody) (exchange key : String) (body : Bytes) (queue : String) :
    (c.accept exchange key body).readyIn queue =
      c.readyIn queue ++ (c.copyTo exchange key body queue).toList := by
  have hline : (c.accept exchange key body).line? queue = (c.line? queue).map fun l =>
      if c.broker.routes exchange key l.name then
        { l with ready := l.ready ++ [c.copyFor key body l.name] } else l := by
    simp only [line?, accept, List.find?_map]
    refine congrArg (Option.map _) (congrArg (List.find? · c.lines) (funext fun l => ?_))
    rw [Function.comp_apply]
    split <;> rfl
  rw [readyIn, hline, copyTo, readyIn]
  cases c.line? queue with
  | none => rfl
  | some l =>
    by_cases hroutes : c.broker.routes exchange key l.name = true
    · simp [Option.filter_some, hroutes]
    · simp [Option.filter_some, hroutes]

/-- Of the copies that a publication puts into queues, at most one is for a given queue. -/
theorem Formed.accept_issuedTo (h : c.Formed) (exchange key : String) (body : Bytes) (queue : String) :
    (c.accept exchange key body).issuedTo queue =
      c.issuedTo queue ++ (c.copyTo exchange key body queue).toList := by
  have hlines : c.lines.filter (fun l => l.name == queue) = (c.line? queue).toList := by
    cases hl : c.line? queue with
    | none => exact List.filter_eq_nil_iff.2 (List.find?_eq_none.1 hl)
    | some l =>
      obtain ⟨as, bs, hsplit, hname, has, hbs⟩ := find?_key_split (c.names_eq ▸ h.names_nodup) hl
      have hothers : ∀ ls : List Line, (∀ k ∈ ls, k.name ≠ queue) →
          ls.filter (fun l => l.name == queue) = [] :=
        fun ls hls => List.filter_eq_nil_iff.2 fun k hk => by simpa using hls k hk
      rw [hsplit, List.filter_append, List.filter_cons, hothers as has, hothers bs hbs]
      simp [hname]
  have hcopies : (c.copies exchange key body).filter (fun x => x.mark.origin == queue) =
      (c.copyTo exchange key body queue).toList := by
    rw [copyTo, Option.toList_map, Option.toList_filter, ← hlines, copies, List.filter_map,
      List.filter_filter, List.filter_filter]
    refine congrArg (List.map _) (List.filter_congr fun l _ => ?_)
    rw [Bool.and_comm]
    rfl
  rw [← hcopies]
  exact List.filter_append ..

/-- The event puts new copies into queues, at most one into each and at its back, and hands none out. -/
structure Publishes (c : Custody) (ev : Hub.Event) : Prop where
  handed : c.handed ev = none
  readyIn : ∀ queue, (c.handle ev).readyIn queue = c.readyIn queue ++ (c.arrived queue ev).toList
  issuedTo : ∀ queue, (c.handle ev).issuedTo queue = c.issuedTo queue ++ (c.arrived queue ev).toList
  publications : (c.handle ev).history.publications = c.history.publications + 1

theorem Formed.publish_publishes (h : c.Formed) {exchange : String} {b : Broker}
    (hpublish : c.broker.publish exchange key body = .ok b) :
    c.Publishes (.operation (.publish exchange key body)) := by
  have hperform : c.handle (.operation (.publish exchange key body)) = c.accept exchange key body := by
    simp only [handle, perform, hpublish]
  have harrived : ∀ queue, c.arrived queue (.operation (.publish exchange key body)) =
      c.copyTo exchange key body queue := by
    intro queue
    have hbroker : c.hub.broker = c.broker := rfl
    simp only [arrived, Hub.arrived, hbroker, hpublish, copyTo_eq]
    split <;> rfl
  refine ⟨rfl, fun queue => ?_, fun queue => ?_, ?_⟩
  · rw [hperform, harrived, accept_readyIn]
  · rw [hperform, harrived, h.accept_issuedTo]
  · rw [hperform]
    rfl

theorem Formed.push_publishes (h : c.Formed) (name key : String) (body : Bytes) :
    c.Publishes (.push name key body) := by
  have hbound : (c.boundTo name).Formed :=
    h.of_declared rfl (List.Sublist.refl _) h.discarded_declared
  have harrived : ∀ queue, c.arrived queue (.push name key body) =
      (c.boundTo name).copyTo "" key body queue := by
    intro queue
    have hqueue : (c.boundTo name).broker.hasQueue queue = c.hub.broker.hasQueue queue := rfl
    simp only [arrived, Hub.arrived, copyTo_eq, boundTo_routes, hqueue, beq_iff_eq]
    split <;> rfl
  refine ⟨rfl, fun queue => ?_, fun queue => ?_, ?_⟩
  · rw [harrived, handle, push_eq]
    exact (c.boundTo name).accept_readyIn "" key body queue
  · rw [harrived, handle, push_eq]
    exact hbound.accept_issuedTo "" key body queue
  · rw [handle, push_eq]
    rfl

/-! ## What each event does -/

/-- An event publishes, pulls, or does neither: then it settles a delivery or touches no copy. -/
theorem Formed.handle_cases (h : c.Formed) (ev : Hub.Event) :
    c.Publishes ev ∨
    (∃ name label y c', ev = .operation (.take name label) ∧ c.pull name = some (y, c') ∧
      c.handle ev = (c'.settle label .requeue).hold ⟨label, name, y⟩) ∨
    (c.handed ev = none ∧ (∀ queue, c.arrived queue ev = none) ∧
      ((∃ label how, c.handle ev = c.settle label how) ∨
        (c.handle ev).history = c.history ∧ ∀ queue, (c.handle ev).readyIn queue = c.readyIn queue)) := by
  cases ev with
  | push name key body => exact .inl (h.push_publishes name key body)
  | operation op =>
    cases op with
    | declareExchange name => exact .inr (.inr ⟨rfl, fun _ => rfl, .inr ⟨rfl, fun _ => rfl⟩⟩)
    | declareQueue name deadLetter =>
      refine .inr (.inr ⟨rfl, fun _ => rfl, .inr ?_⟩)
      simp only [handle, perform]
      split
      · split
        · exact ⟨rfl, fun _ => rfl⟩
        · exact ⟨rfl, fun queue => c.readyIn_declare name deadLetter queue⟩
      · exact ⟨rfl, fun _ => rfl⟩
    | bind queue exchange pattern =>
      refine .inr (.inr ⟨rfl, fun _ => rfl, .inr ?_⟩)
      simp only [handle, perform]
      split
      · exact ⟨rfl, fun _ => rfl⟩
      · exact ⟨rfl, fun _ => rfl⟩
    | close => exact .inr (.inr ⟨rfl, fun _ => rfl, .inr ⟨rfl, fun _ => rfl⟩⟩)
    | publish exchange key body =>
      cases hpublish : c.broker.publish exchange key body with
      | ok b => exact .inl (h.publish_publishes hpublish)
      | error e =>
        have hbroker : c.hub.broker = c.broker := rfl
        have hsame : c.handle (.operation (.publish exchange key body)) = c := by
          simp only [handle, perform, hpublish]
        refine .inr (.inr ⟨rfl, fun queue => ?_, .inr ⟨by rw [hsame], fun _ => by rw [hsame]⟩⟩)
        simp only [arrived, Hub.arrived, hbroker, hpublish, Option.map_none]
    | take name label =>
      simp only [handle, perform, take]
      cases hpull : c.pull name with
      | some p => exact .inr (.inl ⟨name, label, p.1, p.2, rfl, hpull, rfl⟩)
      | none =>
        refine .inr (.inr ⟨?_, fun _ => rfl, .inr ⟨rfl, fun _ => rfl⟩⟩)
        rw [handed, hpull, Option.map_none]
    | settle label how => exact .inr (.inr ⟨rfl, fun _ => rfl, .inl ⟨label, how, rfl⟩⟩)
    | drop label => exact .inr (.inr ⟨rfl, fun _ => rfl, .inl ⟨label, .requeue, rfl⟩⟩)

end Custody

end TransferLedger
