import Mathlib.Data.List.Forall2
import TransferLedger.Proofs.Broker.Declared
import TransferLedger.Proofs.Broker.Order
import TransferLedger.Proofs.Broker.Relay

/-! # One relay at its queue

A relay that pulls and dispatches, again and again, takes its messages one after the other: a message that
is put back stands at the front and is the next one pulled. So what is dispatched falls into one course
for each message (`RelayConfig.Course`), in the order of the queue, and the deliveries that the messages
may still get bound the number of dispatches (`RelayConfig.budget`). A count that comes round gives its
message the whole limit again, and no more than that, so every queue is worked off (`RelayConfig.run_empties`).
-/

namespace TransferLedger
set_option autoImplicit false

variable {ω : Type}

namespace Message

variable {m : Message}

theorem handed_toNat (m : Message) : m.handed.deliveries.toNat = (m.deliveries.toNat + 1) % UInt32.size :=
  UInt32.toNat_add ..

theorem handed_le (m : Message) : m.handed.deliveries.toNat ≤ m.deliveries.toNat + 1 := by
  rw [handed_toNat]
  exact Nat.mod_le ..

theorem handed_of_lt (h : m.deliveries.toNat + 1 < UInt32.size) :
    m.handed.deliveries.toNat = m.deliveries.toNat + 1 := by
  rw [handed_toNat, Nat.mod_eq_of_lt h]

/-- After the last number the count comes round. -/
theorem handed_of_le (h : UInt32.size ≤ m.deliveries.toNat + 1) : m.handed.deliveries.toNat = 0 := by
  have hlast : m.deliveries.toNat + 1 = UInt32.size := Nat.le_antisymm m.deliveries.toNat_lt h
  rw [handed_toNat, hlast, Nat.mod_self]

end Message

/-- No handler breaks down. -/
def Registry.Answers (r : Registry ω) : Prop :=
  ∀ kind h, r.get? kind = some h → ∀ e cancelled w reason, (h.handle e cancelled w).1 ≠ .broke reason

namespace Broker

variable {b : Broker} {name : String} {deadLetter : Option String} {m : Message} {ms : List Message}

theorem pull_nil (h : b.queue? name = some ⟨name, deadLetter, []⟩) : b.pull name = .ok (none, b) := by
  simp [pull, h]

theorem pull_cons (h : b.queue? name = some ⟨name, deadLetter, m :: ms⟩) :
    ∃ b', b.pull name = .ok (some ⟨name, m.handed⟩, b') ∧
      b'.queue? name = some ⟨name, deadLetter, ms⟩ := by
  refine ⟨b.updateQueue name List.tail, ?_, queue?_updateQueue_self h List.tail⟩
  simp [pull, h]

/-- Settling a delivery changes the queue that it was pulled from only if the message comes back. -/
theorem queue?_settle (h : b.queue? name = some ⟨name, deadLetter, ms⟩) (hdead : deadLetter ≠ some name)
    (m : Message) (how : Settlement) : (b.settle ⟨name, m⟩ how).queue? name =
      some ⟨name, deadLetter, if how = .requeue then m :: ms else ms⟩ := by
  cases how with
  | acknowledge => exact h
  | requeue => exact queue?_updateQueue_self h _
  | reject =>
    rw [settle, h, Option.bind_some]
    dsimp only
    cases deadLetter with
    | none => exact h
    | some dead => exact (b.queue?_updateQueue_of_ne (fun e => hdead (congrArg some e.symm)) _).trans h

end Broker

namespace RelayConfig

variable {c : RelayConfig} {r : Registry ω}

/-! ## One dispatch -/

theorem judge_answers (hr : r.Answers) (cancelled : Bool) (d : Delivery) (w : ω) :
    ∃ disposition, (c.judge r cancelled d w).1 = .ok disposition ∧
      (disposition = .requeued → d.message.deliveries < c.maxDeliveries) := by
  have hjudged := c.judge_judged r cancelled d w
  generalize c.judge r cancelled d w = judged at hjudged ⊢
  obtain ⟨answer, w'⟩ := judged
  cases hjudged with
  | dropped => exact ⟨_, rfl, nofun⟩
  | undecodable => exact ⟨_, rfl, nofun⟩
  | @answered h e verdict _ disposition _ _ _ hdecide =>
    refine ⟨disposition, rfl, ?_⟩
    rintro rfl
    cases verdict with
    | transient reason =>
      by_contra hle
      simp [decide?, UInt32.not_lt.1 hle] at hdecide
    | handled => cases hdecide
    | permanent reason => cases hdecide
    | broke reason => cases hdecide
  | broke hget _ hhandle =>
    obtain ⟨kind, -, hkind⟩ := Option.bind_eq_some_iff.1 hget
    exact absurd (congrArg Prod.fst hhandle) (hr kind _ hkind _ _ _ _)

/-- A message that is dispatched is gone from its queue, or back at its front with another delivery left
to it. -/
theorem dispatch_answers (hr : r.Answers) {b : Broker} {deadLetter : Option String} {ms : List Message}
    (h : b.queue? c.queue = some ⟨c.queue, deadLetter, ms⟩) (hdead : deadLetter ≠ some c.queue)
    (cancelled : Bool) (m : Message) (w : ω) : ∃ disposition b' w',
      c.dispatch r cancelled ⟨c.queue, m⟩ b w = (.ok disposition, b', w') ∧
        (disposition ≠ .requeued ∧ b'.queue? c.queue = some ⟨c.queue, deadLetter, ms⟩ ∨
          disposition = .requeued ∧ m.deliveries < c.maxDeliveries ∧
            b'.queue? c.queue = some ⟨c.queue, deadLetter, m :: ms⟩) := by
  obtain ⟨disposition, hjudge, hlimit⟩ := c.judge_answers hr cancelled ⟨c.queue, m⟩ w
  have hqueue := b.queue?_settle h hdead m disposition.settlement
  refine ⟨disposition, b.settle ⟨c.queue, m⟩ disposition.settlement,
    (c.judge r cancelled ⟨c.queue, m⟩ w).2, ?_, ?_⟩
  · rw [dispatch_eq, hjudge]
    rfl
  by_cases hback : disposition = .requeued
  · subst hback
    exact .inr ⟨rfl, hlimit rfl, hqueue⟩
  · have hsettle : disposition.settlement ≠ .requeue := by
      cases disposition <;> simp_all [Disposition.settlement]
    rw [if_neg hsettle] at hqueue
    exact .inl ⟨hback, hqueue⟩

/-! ## Dispatch after dispatch -/

/-- A delivery that was dispatched, and what became of it. -/
structure Dispatched where
  delivery : Delivery
  disposition : Disposition

/-- Pulls and dispatches, once for each flag, until the queue is empty or a handler breaks down. A flag says
whether the relay is being stopped at that dispatch. -/
def serve (c : RelayConfig) (r : Registry ω) : List Bool → Broker → ω → List Dispatched × Broker × ω
  | [], b, w => ([], b, w)
  | cancelled :: flags, b, w =>
    match b.pull c.queue with
    | .error _ => ([], b, w)
    | .ok (none, b) => ([], b, w)
    | .ok (some d, b) =>
      match c.dispatch r cancelled d b w with
      | (.ok disposition, b, w) =>
        match serve c r flags b w with
        | (served, b, w) => (⟨d, disposition⟩ :: served, b, w)
      | (.error _, b, w) => ([], b, w)

theorem drain_eq_serve (c : RelayConfig) (r : Registry ω) (steps : Nat) (b : Broker) (w : ω) :
    c.drain r steps b w = (c.serve r (List.replicate steps false) b w).2 := by
  induction steps generalizing b w with
  | zero => rfl
  | succ steps ih =>
    rw [List.replicate_succ, drain, serve]
    rcases b.pull c.queue with _ | ⟨_ | d, b⟩
    · rfl
    · rfl
    · dsimp only
      obtain ⟨_ | disposition, b, w⟩ := c.dispatch r false d b w
      · rfl
      · exact ih b w

/-- What becomes of a message: it is put back, each time with one delivery more, until it leaves. -/
inductive Course (c : RelayConfig) : Message → List Dispatched → Prop
  | left {m : Message} {disposition : Disposition} (h : disposition ≠ .requeued) :
    Course c m [⟨⟨c.queue, m.handed⟩, disposition⟩]
  | again {m : Message} {xs : List Dispatched} (h : m.handed.deliveries < c.maxDeliveries)
      (hrest : Course c m.handed xs) :
    Course c m (⟨⟨c.queue, m.handed⟩, .requeued⟩ :: xs)

/-- How many deliveries a message may still get before it has left: those up to the limit, or one beyond it.
Where its count comes round the limit starts anew. -/
def left (c : RelayConfig) (m : Message) : Nat :=
  if m.deliveries.toNat + 1 < UInt32.size then max 1 (c.maxDeliveries.toNat - m.deliveries.toNat)
  else c.maxDeliveries.toNat + 1

theorem left_pos (c : RelayConfig) (m : Message) : 1 ≤ c.left m := by
  unfold left
  split <;> omega

theorem left_le (c : RelayConfig) (m : Message) : c.left m ≤ c.maxDeliveries.toNat + 1 := by
  unfold left
  split <;> omega

theorem left_fresh {m : Message} (h : m.deliveries = 0) : c.left m = max 1 c.maxDeliveries.toNat := by
  have hcount : m.deliveries.toNat = 0 := congrArg UInt32.toNat h
  rw [left, hcount, if_pos (by decide), Nat.sub_zero]

/-- A message that is put back has used up a delivery. -/
theorem left_handed {m : Message} (h : m.handed.deliveries < c.maxDeliveries) :
    c.left m.handed + 1 ≤ c.left m := by
  have hlimit : m.handed.deliveries.toNat < c.maxDeliveries.toNat := UInt32.lt_iff_toNat_lt.1 h
  have hmax : c.maxDeliveries.toNat < UInt32.size := c.maxDeliveries.toNat_lt
  -- Its new count is below the limit, so it is not the last number.
  have hnext : m.handed.deliveries.toNat + 1 < UInt32.size := by omega
  rw [left, if_pos hnext, left]
  split
  · next hlt =>
    rw [Message.handed_of_lt hlt] at hlimit ⊢
    omega
  · next hround =>
    rw [Message.handed_of_le (Nat.le_of_not_lt hround)] at hlimit ⊢
    omega

/-- The messages that have left the queue, in this order. -/
def departed (served : List Dispatched) : List (String × Bytes) :=
  (served.filter fun x => x.disposition ≠ .requeued).map fun x =>
    (x.delivery.message.key, x.delivery.message.body)

namespace Course

variable {m : Message} {xs : List Dispatched}

theorem length_le (h : c.Course m xs) : xs.length ≤ c.left m := by
  induction h with
  | left h => exact c.left_pos _
  | again hlimit hrest ih =>
    rw [List.length_cons]
    exact Nat.le_trans (Nat.succ_le_succ ih) (left_handed hlimit)

theorem deliveries_le (h : c.Course m xs) (hm : m.deliveries.toNat < max 1 c.maxDeliveries.toNat) :
    ∀ x ∈ xs, x.delivery.message.deliveries.toNat ≤ max 1 c.maxDeliveries.toNat := by
  induction h with
  | left h =>
    intro x hx
    rw [List.mem_singleton.1 hx]
    exact Nat.le_trans (Message.handed_le _) hm
  | again hlimit hrest ih =>
    intro x hx
    obtain rfl | hx := List.mem_cons.1 hx
    · exact Nat.le_trans (Message.handed_le _) hm
    · exact ih (Nat.lt_of_lt_of_le (UInt32.lt_iff_toNat_lt.1 hlimit) (Nat.le_max_right ..)) x hx

theorem departed_eq (h : c.Course m xs) : departed xs = [(m.key, m.body)] := by
  induction h with
  | left h => simp [departed, h, Message.handed]
  | again hlimit hrest ih => simpa [departed, Message.handed] using ih

end Course

/-- How many deliveries the messages may get before all of them have left. -/
def budget (c : RelayConfig) (ready : List Message) : Nat :=
  ready.foldr (fun m rest => c.left m + rest) 0

theorem budget_cons (m : Message) (ms : List Message) :
    c.budget (m :: ms) = c.left m + c.budget ms := rfl

theorem budget_fresh {ready : List Message} (hfresh : ∀ m ∈ ready, m.deliveries = 0) :
    c.budget ready = ready.length * max 1 c.maxDeliveries.toNat := by
  induction ready with
  | nil => simp [budget]
  | cons m ms ih =>
    rw [budget_cons, ih fun m' hm' => hfresh m' (List.mem_cons_of_mem m hm'),
      left_fresh (hfresh m List.mem_cons_self), List.length_cons, Nat.succ_mul, Nat.add_comm]

theorem budget_le (c : RelayConfig) (ready : List Message) :
    c.budget ready ≤ ready.length * (c.maxDeliveries.toNat + 1) := by
  induction ready with
  | nil => simp [budget]
  | cons m ms ih =>
    rw [budget_cons, List.length_cons, Nat.succ_mul, Nat.add_comm]
    exact Nat.add_le_add ih (c.left_le m)

section Courses

variable {ready : List Message} {courses : List (List Dispatched)}

theorem exists_of_mem_courses (h : List.Forall₂ c.Course ready courses) {xs : List Dispatched}
    (hxs : xs ∈ courses) : ∃ m ∈ ready, c.Course m xs := by
  induction h with
  | nil => cases hxs
  | @cons m _ _ _ hm _ ih =>
    obtain rfl | hxs := List.mem_cons.1 hxs
    · exact ⟨m, List.mem_cons_self, hm⟩
    · obtain ⟨m', hm', hcourse⟩ := ih hxs
      exact ⟨m', List.mem_cons_of_mem m hm', hcourse⟩

theorem length_flatten_le (h : List.Forall₂ c.Course ready courses) :
    courses.flatten.length ≤ c.budget ready := by
  induction h with
  | nil => exact Nat.zero_le _
  | cons hm _ ih =>
    rw [List.flatten_cons, List.length_append, budget_cons]
    exact Nat.add_le_add hm.length_le ih

theorem departed_flatten (h : List.Forall₂ c.Course ready courses) :
    departed courses.flatten = ready.map fun m => (m.key, m.body) := by
  induction h with
  | nil => rfl
  | cons hm _ ih =>
    have hhead := hm.departed_eq
    simp only [departed] at hhead ih ⊢
    rw [List.flatten_cons, List.filter_append, List.map_append, hhead, ih]
    rfl

end Courses

theorem serve_courses (hr : r.Answers) {deadLetter : Option String} (hdead : deadLetter ≠ some c.queue)
    {flags : List Bool} {ready : List Message} {b : Broker} {w : ω}
    (h : b.queue? c.queue = some ⟨c.queue, deadLetter, ready⟩) (hflags : c.budget ready ≤ flags.length) :
    ∃ courses, (c.serve r flags b w).1 = courses.flatten ∧ List.Forall₂ c.Course ready courses ∧
      (c.serve r flags b w).2.1.queue? c.queue = some ⟨c.queue, deadLetter, []⟩ := by
  induction flags generalizing ready b w with
  | nil =>
    cases ready with
    | nil => exact ⟨[], rfl, .nil, h⟩
    | cons m ms =>
      -- A message that is ready has a delivery left to it, and so there is a flag.
      have hm := c.left_pos m
      rw [budget_cons, List.length_nil] at hflags
      omega
  | cons cancelled flags ih =>
    rw [serve]
    cases ready with
    | nil =>
      rw [Broker.pull_nil h]
      exact ⟨[], rfl, .nil, h⟩
    | cons m ms =>
      have hm := c.left_pos m
      rw [budget_cons, List.length_cons] at hflags
      obtain ⟨b₁, hpull, hqueue₁⟩ := Broker.pull_cons h
      obtain ⟨disposition, b₂, w₂, hdispatch, hafter⟩ :=
        c.dispatch_answers hr hqueue₁ hdead cancelled m.handed w
      simp only [hpull, hdispatch]
      obtain ⟨hleft, hqueue₂⟩ | ⟨rfl, hlimit, hqueue₂⟩ := hafter
      · obtain ⟨courses, hserved, hcourses, hempty⟩ := ih hqueue₂ (by omega)
        refine ⟨_ :: courses, ?_, .cons (.left hleft) hcourses, hempty⟩
        rw [hserved]
        rfl
      · -- The message is at the front again, and one delivery of its own is used up.
        have hused := left_handed hlimit
        obtain ⟨courses, hserved, hcourses, hempty⟩ := ih hqueue₂ (by rw [budget_cons]; omega)
        cases hcourses with
        | @cons _ xs _ xss hxs hxss =>
          refine ⟨_ :: xss, ?_, .cons (.again hlimit hxs) hxss, hempty⟩
          rw [hserved]
          rfl

/-- A relay works its queue off, whatever the counts of the messages. -/
theorem run_empties (hr : r.Answers) {deadLetter : Option String} (hdead : deadLetter ≠ some c.queue)
    {ready : List Message} {b : Broker} (w : ω)
    (h : b.queue? c.queue = some ⟨c.queue, deadLetter, ready⟩) :
    (c.run r b w).1.queue? c.queue = some ⟨c.queue, deadLetter, []⟩ := by
  have hbound : c.drainBound b = ready.length * (c.maxDeliveries.toNat + 1) := by rw [drainBound, h]
  have hflags : c.budget ready ≤ (List.replicate (c.drainBound b) false).length := by
    rw [List.length_replicate, hbound]
    exact c.budget_le ready
  obtain ⟨-, -, -, hempty⟩ := serve_courses (w := w) hr hdead h hflags
  rw [run, drain_eq_serve]
  exact hempty

/-! ## A queue of fresh messages -/

/-- These dispatches have worked off these messages: one course after the other, none of them longer than
the limit of deliveries allows. -/
structure WorkedOff (c : RelayConfig) (ready : List Message) (served : List Dispatched) : Prop where
  courses : ∃ courses, served = courses.flatten ∧ List.Forall₂ c.Course ready courses ∧
    ∀ xs ∈ courses, xs.length ≤ max 1 c.maxDeliveries.toNat
  length_le : served.length ≤ ready.length * max 1 c.maxDeliveries.toNat
  deliveries_le : ∀ x ∈ served, x.delivery.message.deliveries.toNat ≤ max 1 c.maxDeliveries.toNat
  in_order : departed served = ready.map fun m => (m.key, m.body)

theorem serve_workedOff (hr : r.Answers) {deadLetter : Option String} (hdead : deadLetter ≠ some c.queue)
    {flags : List Bool} {ready : List Message} {b : Broker} (w : ω)
    (h : b.queue? c.queue = some ⟨c.queue, deadLetter, ready⟩)
    (hfresh : ∀ m ∈ ready, m.deliveries = 0)
    (hflags : ready.length * max 1 c.maxDeliveries.toNat ≤ flags.length) :
    c.WorkedOff ready (c.serve r flags b w).1 ∧
      (c.serve r flags b w).2.1.queue? c.queue = some ⟨c.queue, deadLetter, []⟩ := by
  have hbudget := c.budget_fresh hfresh
  obtain ⟨courses, hserved, hcourses, hempty⟩ := serve_courses (w := w) hr hdead h (hbudget ▸ hflags)
  refine ⟨⟨⟨courses, hserved, hcourses, fun xs hxs => ?_⟩, ?_, fun x hx => ?_, ?_⟩, hempty⟩
  · obtain ⟨m, hm, hcourse⟩ := exists_of_mem_courses hcourses hxs
    exact left_fresh (hfresh m hm) ▸ hcourse.length_le
  · rw [hserved, ← hbudget]
    exact length_flatten_le hcourses
  · rw [hserved] at hx
    obtain ⟨xs, hxs, hx⟩ := List.mem_flatten.1 hx
    obtain ⟨m, hm, hcourse⟩ := exists_of_mem_courses hcourses hxs
    have hcount : m.deliveries.toNat = 0 := congrArg UInt32.toNat (hfresh m hm)
    exact hcourse.deliveries_le (by omega) x hx
  · rw [hserved]
    exact departed_flatten hcourses

/-- **A relay drains its queue in order and in bounded time.** A queue of messages that were never handed out
is in the order of their publications. The relay works it off in this order, whatever its handlers answer, and
after as many dispatches as there are deliveries that the messages may get together, the queue is empty. -/
theorem drains_in_order (ops : List Hub.Operation) (c : RelayConfig) (r : Registry ω) (hr : r.Answers)
    {l : Line} (hl : (Custody.run ops).line? c.queue = some l)
    (hfresh : ∀ x ∈ l.ready, x.message.deliveries = 0) (w : ω) :
    ((∀ x ∈ l.ready, x.handouts = 0) → (l.ready.map fun x => x.mark.publication).Pairwise (· < ·)) ∧
      (∀ flags : List Bool, l.ready.length * max 1 c.maxDeliveries.toNat ≤ flags.length →
        let served := c.serve r flags (Hub.run ops).broker w
        c.WorkedOff l.queue.ready served.1 ∧
          served.2.1.queue? c.queue = some ⟨c.queue, l.deadLetter, []⟩) ∧
      (c.run r (Hub.run ops).broker w).1.queue? c.queue = some ⟨c.queue, l.deadLetter, []⟩ := by
  have hname := (Custody.line?_eq_some hl).2
  have hbroker : (Custody.run ops).broker = (Hub.run ops).broker :=
    congrArg Hub.broker (Custody.run_hub ops)
  have hqueue : (Hub.run ops).broker.queue? c.queue = some l.queue := by
    rw [← hbroker, Custody.broker_queue?, hl, Option.map_some]
  have hdead : l.deadLetter ≠ some c.queue := by
    intro hself
    exact Custody.run_grounded ops c.queue (hself ▸ Custody.declared_of_line? hl)
  have hmessages : ∀ m ∈ l.queue.ready, m.deliveries = 0 := by
    intro m hm
    obtain ⟨x, hx, rfl⟩ := List.mem_map.1 hm
    exact hfresh x hx
  have hlength : l.queue.ready.length = l.ready.length := List.length_map ..
  refine ⟨fun hnever => ?_, ?_⟩
  · have hrising := (Custody.run_ordered ops).rising l (Custody.line?_eq_some hl).1
    rw [Custody.freshOf_all hnever] at hrising
    exact (List.pairwise_append.1 hrising).1
  · obtain ⟨name, deadLetter, ready⟩ := l
    subst hname
    exact ⟨fun flags hflags => serve_workedOff hr hdead w hqueue hmessages (hlength ▸ hflags),
      run_empties hr hdead w hqueue⟩

/-- A handler that fails the first time that it is asked. -/
def sampleFaltering : Handler Nat :=
  ⟨"faltering", fun _ _ calls => (if calls = 0 then .transient "" else .handled, calls + 1)⟩

def sampleRegistry : Registry Nat := ⟨some sampleFaltering, none⟩

theorem sampleRegistry_answers : sampleRegistry.Answers := by
  intro kind h hget e cancelled w reason
  cases kind with
  | success =>
    cases hget
    show (if w = 0 then Verdict.transient "" else .handled) ≠ .broke reason
    split <;> exact nofun
  | failure => cases hget

def samplePaid : Event := ⟨"t", "a", "b", "transfer", "1", "USD", "success", "", 0⟩

def sampleQueued (body : Bytes) : List Hub.Operation :=
  [.declareExchange transactionsExchange, .declareQueue TransferLedger.deadLetterQueue none,
    .declareQueue consumerQueue (some TransferLedger.deadLetterQueue),
    .bind consumerQueue transactionsExchange "#",
    .publish transactionsExchange EventKind.success.key body, .publish transactionsExchange "unknown" []]

def sampleLine (body : Bytes) : Line where
  name := consumerQueue
  deadLetter := some TransferLedger.deadLetterQueue
  ready := [⟨⟨0, consumerQueue⟩, ⟨EventKind.success.key, body, 0⟩, 0⟩,
    ⟨⟨1, consumerQueue⟩, ⟨"unknown", [], 0⟩, 0⟩]

theorem sampleQueued_line (body : Bytes) :
    (Custody.run (sampleQueued body)).line? consumerQueue = some (sampleLine body) := by rfl

theorem sampleLine_fresh (body : Bytes) : ∀ x ∈ (sampleLine body).ready, x.message.deliveries = 0 := by
  simp [sampleLine]

/-- With a limit of three deliveries, six dispatches are enough for two messages. -/
theorem sampleQueued_drained :
    let body := samplePaid.encode
    let served := ({ maxDeliveries := 3 } : RelayConfig).serve sampleRegistry (List.replicate 6 false)
      (Hub.run (sampleQueued body)).broker 0
    sampleRegistry.Answers ∧
      (Custody.run (sampleQueued body)).line? consumerQueue = some (sampleLine body) ∧
      (∀ x ∈ (sampleLine body).ready, x.message.deliveries = 0) ∧
      departed served.1 = [(EventKind.success.key, body), ("unknown", [])] ∧
      served.2.1.queue? consumerQueue =
        some ⟨consumerQueue, some TransferLedger.deadLetterQueue, []⟩ := by
  generalize samplePaid.encode = body
  intro body served
  have hdrained := (drains_in_order (sampleQueued body) { maxDeliveries := 3 } sampleRegistry
    sampleRegistry_answers (sampleQueued_line body) (sampleLine_fresh body) 0).2.1
    (List.replicate 6 false) (Nat.le_refl 6)
  exact ⟨sampleRegistry_answers, sampleQueued_line body, sampleLine_fresh body, hdrained.1.in_order,
    hdrained.2⟩

end RelayConfig

end TransferLedger
