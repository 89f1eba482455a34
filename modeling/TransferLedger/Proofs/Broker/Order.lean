import TransferLedger.Proofs.Broker.Custody

/-! # The order of publications

Copies come back to the front of a queue in any order, and dead letters to the back of another, so a
queue as a whole is in no order. Those of its copies that were never handed out are: they stand in the
order in which they were published (`Custody.run_ordered`).
-/

namespace TransferLedger
set_option autoImplicit false

/-- The copy was never handed out. -/
def Copy.isFresh (x : Copy) : Bool := x.handouts == 0

theorem Copy.handed_isFresh (x : Copy) : x.handed.isFresh = false := by
  simp [isFresh, handed]

namespace Custody

/-- The publications that the fresh ones of some copies come from. -/
def freshOf (xs : List Copy) : List Nat := (xs.filter Copy.isFresh).map fun x => x.mark.publication

theorem freshOf_sublist {xs ys : List Copy} (h : xs.Sublist ys) : (freshOf xs).Sublist (freshOf ys) :=
  (h.filter _).map _

theorem freshOf_cons {x : Copy} (hx : x.isFresh = false) (xs : List Copy) :
    freshOf (x :: xs) = freshOf xs := by
  simp [freshOf, hx]

theorem freshOf_append (xs ys : List Copy) : freshOf (xs ++ ys) = freshOf xs ++ freshOf ys := by
  simp [freshOf]

theorem freshOf_all {xs : List Copy} (h : ∀ x ∈ xs, x.handouts = 0) :
    freshOf xs = xs.map fun x => x.mark.publication := by
  have hall : xs.filter Copy.isFresh = xs := by
    rw [List.filter_eq_self]
    intro x hx
    simp [Copy.isFresh, h x hx]
  rw [freshOf, hall]

theorem rising_append {ns : List Nat} {n : Nat} (h : (ns ++ [n]).Pairwise (· < ·)) :
    (ns ++ [n] ++ [n + 1]).Pairwise (· < ·) := by
  have hlast : ∀ a ∈ ns, a < n := by
    intro a ha
    exact (List.pairwise_append.1 h).2.2 a ha n (List.mem_singleton.2 rfl)
  rw [List.pairwise_append]
  refine ⟨h, List.pairwise_singleton .., fun a ha b hb => ?_⟩
  rw [List.mem_singleton.1 hb]
  obtain ha | ha := List.mem_append.1 ha
  · exact Nat.lt_succ_of_lt (hlast a ha)
  · rw [List.mem_singleton.1 ha]
    exact Nat.lt_succ_self n

/-- Fresh copies stand in the order of their publications, and none of them is with a consumer. -/
structure Ordered (c : Custody) : Prop where
  rising : ∀ l ∈ c.lines, (freshOf l.ready ++ [c.history.publications]).Pairwise (· < ·)
  held : ∀ e ∈ c.held, e.copy.isFresh = false

variable {c : Custody}

theorem Ordered.update (h : c.Ordered) (name : String) {f : List Copy → List Copy}
    (hf : ∀ xs, (freshOf (f xs)).Sublist (freshOf xs)) : (c.update name f).Ordered where
  rising := by
    intro l hl
    obtain ⟨k, hk, rfl⟩ := List.mem_map.1 hl
    split
    · exact (h.rising k hk).sublist ((hf k.ready).append_right _)
    · exact h.rising k hk
  held := h.held

theorem Ordered.put (h : c.Ordered) (queue : String) {x : Copy} (hx : x.isFresh = false)
    (how : Settlement) : (c.put queue x how).Ordered := by
  cases how with
  | acknowledge => exact ⟨h.rising, h.held⟩
  | requeue =>
    refine h.update queue fun xs => ?_
    rw [freshOf_cons hx]
  | reject =>
    rw [Custody.put]
    split
    · next dead _ =>
      -- It comes to the back, but not among the fresh ones: it was handed out.
      refine h.update dead fun xs => ?_
      rw [freshOf_append, freshOf_cons hx]
      simp [freshOf]
    · exact ⟨h.rising, h.held⟩

theorem Ordered.release (h : c.Ordered) (label : String) : (c.release label).Ordered :=
  ⟨h.rising, fun e he => h.held e (List.mem_of_mem_filter he)⟩

theorem Ordered.settle (h : c.Ordered) (label : String) (how : Settlement) :
    (c.settle label how).Ordered := by
  unfold Custody.settle
  split
  · exact h
  · next e he => exact (h.release label).put e.queue (h.held e (List.mem_of_find?_eq_some he)) how

theorem Ordered.pull (h : c.Ordered) {c' : Custody} {queue : String} {x : Copy}
    (hpull : c.pull queue = some (x, c')) : c'.Ordered := by
  obtain ⟨l, y, ys, -, -, -, rfl⟩ := pull_eq_some hpull
  have hpulled : (c.update queue List.tail).Ordered :=
    h.update queue fun xs => freshOf_sublist (List.tail_sublist xs)
  exact ⟨hpulled.rising, hpulled.held⟩

theorem Ordered.take (h : c.Ordered) (queue label : String) : (c.take queue label).Ordered := by
  unfold Custody.take
  split
  · exact h
  · next x c' hpull =>
    have hsettled := (h.pull hpull).settle label .requeue
    refine ⟨hsettled.rising, fun e he => ?_⟩
    obtain he | he := List.mem_append.1 he
    · exact hsettled.held e he
    · obtain ⟨l, y, ys, -, -, rfl, -⟩ := pull_eq_some hpull
      rw [List.mem_singleton.1 he]
      exact y.handed_isFresh

/-- A publication comes after all that were there. -/
theorem Ordered.accept (h : c.Ordered) (exchange key : String) (body : Bytes) :
    (c.accept exchange key body).Ordered where
  rising := by
    intro l hl
    obtain ⟨k, hk, rfl⟩ := List.mem_map.1 hl
    have hrising := rising_append (h.rising k hk)
    split
    · show (freshOf (k.ready ++ [c.copyFor key body k.name]) ++ [c.history.publications + 1]).Pairwise _
      rw [freshOf_append]
      exact hrising
    · show (freshOf k.ready ++ [c.history.publications + 1]).Pairwise _
      refine hrising.sublist ?_
      simp
  held := h.held

theorem Ordered.perform (h : c.Ordered) (op : Hub.Operation) : (c.perform op).Ordered := by
  obtain ⟨_, _, _, heq⟩ | ⟨name, deadLetter, -, -, heq⟩ | ⟨exchange, key, body, heq⟩ |
    ⟨queue, label, -, heq⟩ | ⟨label, how, heq⟩ := c.perform_cases op
  · rw [heq]
    exact ⟨h.rising, h.held⟩
  · rw [heq]
    refine ⟨fun l hl => ?_, h.held⟩
    obtain hl | hl := List.mem_append.1 hl
    · exact h.rising l hl
    · rw [List.mem_singleton.1 hl]
      exact List.pairwise_singleton ..
  · rw [heq]
    exact h.accept exchange key body
  · rw [heq]
    exact h.take queue label
  · rw [heq]
    exact h.settle label how

theorem run_ordered (ops : List Hub.Operation) : (run ops).Ordered :=
  List.foldlRecOn (motive := Ordered) ops Custody.perform ⟨nofun, nofun⟩
    fun _ hc op _ => hc.perform op

end Custody

end TransferLedger
