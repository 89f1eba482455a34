import TransferLedger.Proofs.Pipeline.Invariant

/-! # No announcement is lost

Once the announcement of a committed transfer was reported as a success, its two entries are in the
ledger or the message is around: ready, in some hands, or among the dead letters. Neither failing
insertions, breakdowns and redeliveries nor the limit of a relay change that.
-/

namespace TransferLedger
set_option autoImplicit false

/-- The messages that are ready in a queue. -/
def Broker.readyIn (b : Broker) (queue : String) : List Message :=
  match b.queue? queue with
  | some q => q.ready
  | none => []

namespace Pipeline

/-- Where the announcement of a record is, or what has come of it. -/
inductive Kept (s : Pipeline) (t : Transaction) : Prop
  | ledgered (h : s.ledger.Ledgered t)
  | ready {m : Message} (h : m ∈ s.broker.readyIn consumerQueue) (ht : m.Announces t)
  | held {d : Delivery} (h : d ∈ s.held) (hq : d.queue = consumerQueue) (ht : d.message.Announces t)
  | dead {m : Message} (h : m ∈ s.broker.readyIn deadLetterQueue) (ht : m.Announces t)

variable {s : Pipeline} {x : Parts} {t : Transaction}

theorem Sound.kept (h : s.Sound x) (ht : s.Pending x t) : s.Kept t := by
  rcases ht with hw | ⟨m, hm, hmt⟩
  · obtain ⟨w, hmem, rfl⟩ := List.mem_map.1 hw
    exact .ledgered (h.wrote.holds.ledgered hmem)
  rcases List.mem_append.1 hm with hm | hm
  · rcases List.mem_append.1 hm with hm | hm
    · refine .dead ?_ hmt
      rw [h.broker_eq]
      exact hm
    · refine .ready ?_ hmt
      rw [h.broker_eq]
      exact hm
  · obtain ⟨d, hd, rfl⟩ := List.mem_map.1 hm
    exact .held hd (h.held d hd) hmt

theorem Reachable.success_kept (h : s.Reachable) :
    ∀ t ∈ s.announced, t.status = .success → s.Kept t := by
  obtain ⟨x, hx⟩ := h.sound
  intro t ht hs
  exact hx.kept (hx.pending t ht hs)

/-- After the run of the sample the announcement is gone and the ledger has both entries. -/
theorem sample_kept :
    Books.samplePlan.record .success default ∈ sample.announced ∧
      sample.Kept (Books.samplePlan.record .success default) ∧
      sample.broker = .wired false [] [] ∧ sample.held = [] ∧ sample.ledger.rows.length = 2 := by
  have hmem : Books.samplePlan.record .success default ∈ sample.announced := by decide +kernel
  refine ⟨hmem, Reachable.success_kept sample_reachable _ hmem rfl, ?_⟩
  decide +kernel

end Pipeline

end TransferLedger
