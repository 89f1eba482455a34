import TransferLedger.Proofs.Broker.Accounting

/-! # Queues once declared

The options that a queue was first declared with stay for good (`Custody.declared_subset`), and its
dead-letter queue is one that was there before it; so no queue is its own dead-letter queue
(`Custody.Grounded`).
-/

namespace TransferLedger
set_option autoImplicit false

namespace Broker

theorem queue?_updateQueue (b : Broker) (name : String) (f : List Message → List Message)
    (other : String) : (b.updateQueue name f).queue? other =
      (b.queue? other).map fun q => if q.name = name then { q with ready := f q.ready } else q := by
  simp only [queue?, updateQueue, List.find?_map]
  refine congrArg (Option.map _) (congrArg (List.find? · b.queues) (funext fun q => ?_))
  simp only [Function.comp_apply]
  split <;> rfl

theorem queue?_name {b : Broker} {name : String} {q : MessageQueue} (h : b.queue? name = some q) :
    q.name = name := by
  simpa using List.find?_some h

theorem queue?_updateQueue_self {b : Broker} {name : String} {q : MessageQueue}
    (h : b.queue? name = some q) (f : List Message → List Message) :
    (b.updateQueue name f).queue? name = some { q with ready := f q.ready } := by
  rw [queue?_updateQueue, h, Option.map_some, if_pos (queue?_name h)]

theorem queue?_updateQueue_of_ne (b : Broker) {name other : String} (hne : other ≠ name)
    (f : List Message → List Message) : (b.updateQueue name f).queue? other = b.queue? other := by
  rw [queue?_updateQueue]
  cases h : b.queue? other with
  | none => rfl
  | some q => rw [Option.map_some, if_neg (queue?_name h ▸ hne)]

end Broker

namespace Custody

variable {c : Custody}

theorem settle_declared (c : Custody) (label : String) (how : Settlement) :
    (c.settle label how).declared = c.declared := by
  unfold settle
  split
  · rfl
  · exact put_declared ..

theorem take_declared (c : Custody) (queue label : String) :
    (c.take queue label).declared = c.declared := by
  unfold take
  split
  · rfl
  · next h =>
    obtain ⟨l, y, ys, -, -, -, rfl⟩ := pull_eq_some h
    exact (settle_declared ..).trans (update_declared ..)

/-- What an operation does to the queues that are declared: nothing, or it declares a new one, whose
dead-letter queue is declared already. -/
theorem perform_declared (c : Custody) (op : Hub.Operation) :
    (c.perform op).declared = c.declared ∨ ∃ name deadLetter, name ∉ c.names ∧
      (∀ d, deadLetter = some d → d ∈ c.names) ∧
      (c.perform op).declared = c.declared ++ [(name, deadLetter)] := by
  obtain ⟨_, _, _, heq⟩ | ⟨name, deadLetter, hname, hdead, heq⟩ | ⟨exchange, key, body, heq⟩ |
    ⟨queue, label, -, heq⟩ | ⟨label, how, heq⟩ := c.perform_cases op
  · exact .inl (heq ▸ rfl)
  · refine .inr ⟨name, deadLetter, ?_, fun d hd => hasQueue_iff.1 (hdead d hd), ?_⟩
    · rw [← hasQueue_iff, hname]
      exact Bool.false_ne_true
    · rw [heq]
      simp [declared]
  · exact .inl (heq ▸ accept_declared ..)
  · exact .inl (heq ▸ take_declared ..)
  · exact .inl (heq ▸ settle_declared ..)

/-- A queue keeps the dead-letter queue that it was declared with. -/
theorem declared_subset (c : Custody) (ops : List Hub.Operation) :
    c.declared ⊆ (ops.foldl perform c).declared := by
  induction ops generalizing c with
  | nil => exact List.Subset.refl _
  | cons op ops ih =>
    refine List.Subset.trans ?_ (ih (c.perform op))
    obtain h | ⟨name, deadLetter, -, -, h⟩ := c.perform_declared op
    · rw [h]
      exact List.Subset.refl _
    · rw [h]
      exact List.subset_append_left ..

/-- No queue is its own dead-letter queue. -/
def Grounded (c : Custody) : Prop := ∀ name, (name, some name) ∉ c.declared

theorem Grounded.perform (hc : c.Grounded) (op : Hub.Operation) : (c.perform op).Grounded := by
  intro name
  obtain h | ⟨new, deadLetter, hnew, hdead, h⟩ := c.perform_declared op
  · rw [h]
    exact hc name
  · rw [h, List.mem_append, List.mem_singleton]
    rintro (hmem | hmem)
    · exact hc name hmem
    · -- The dead-letter queue of a new queue is declared already, and the new queue is not.
      cases hmem
      exact hnew (hdead _ rfl)

theorem run_grounded (ops : List Hub.Operation) : (run ops).Grounded :=
  List.foldlRecOn (motive := Grounded) ops Custody.perform (fun _ => List.not_mem_nil)
    fun _ hc op _ => hc.perform op

end Custody

end TransferLedger
