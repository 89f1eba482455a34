import TransferLedger.Proofs.Pipeline.Delivery

/-! # Working off the queue

A relay on a table that does not fail acknowledges every announcement of a record, whatever is ready in its
queue and however often it was handed out (`Wrote.dispatch`). So it gets through the queue, with one delivery
for each message, adds nothing to the dead letters, and enters every committed transfer that was announced
(`Wrote.drain`). The ledger only grows meanwhile (`Grows`).
-/

namespace TransferLedger
set_option autoImplicit false

/-- The id of the row is not blank and its time is one that a clock shows. This is all that the ledger asks
of what a service takes from outside for a record. -/
structure TransactionRow.Stamped (r : TransactionRow) : Prop where
  id : Text.trim r.id ≠ ""
  time : r.updatedAt.InRange

namespace Register

variable {g g' : Register}

/-! ## Records that can be entered -/

/-- Every plan and every record names two accounts. -/
structure Named (g : Register) : Prop where
  plans : ∀ p ∈ g.plans, Text.trim p.fromAccount ≠ "" ∧ Text.trim p.toAccount ≠ ""
  records : ∀ t ∈ g.records, Text.trim t.fromAccount ≠ "" ∧ Text.trim t.toAccount ≠ ""

theorem Named.step (hg : g.Named) (h : Step g g') : g'.Named := by
  cases h with
  | planned newId hv hs hr hsf hrf hfunds =>
    refine { hg with plans := ?_ }
    intro p hp
    rcases List.mem_append.1 hp with hp | hp
    · exact hg.plans p hp
    · rw [List.mem_singleton.1 hp]
      exact TransferRequest.validate_named hv
  | opened => exact ⟨hg.plans, hg.records⟩
  | amended => exact ⟨hg.plans, hg.records⟩
  | failed hp hnew hs hr now =>
    refine { hg with records := ?_ }
    intro t ht
    rcases List.mem_append.1 ht with ht | ht
    · exact hg.records t ht
    · rw [List.mem_singleton.1 ht]
      exact hg.plans _ hp
  | posted hp hnew m now =>
    refine { hg with records := ?_ }
    intro t ht
    rcases List.mem_append.1 ht with ht | ht
    · exact hg.records t ht
    · rw [List.mem_singleton.1 ht]
      exact hg.plans _ hp

theorem Reachable.named (h : g.Reachable) : g.Named := by
  induction h with
  | refl =>
    refine ⟨?_, ?_⟩
    · exact fun _ hp => nomatch hp
    · exact fun _ ht => nomatch ht
  | tail _ hstep ih => exact ih.step hstep

/-- The ledger has no objection to a committed transfer of a register. -/
theorem Reachable.ledgerable (h : g.Reachable) {t : Transaction} (ht : t ∈ g.records)
    (hs : t.status = .success) (hstamped : (TransactionRow.ofTransaction t).Stamped) : t.Ledgerable where
  success := hs
  id := hstamped.id
  sender := (h.named.records t ht).1
  receiver := (h.named.records t ht).2
  amount := (h.sound.records t ht).positive
  time := hstamped.time

/-- A message announces one record only. -/
theorem Sound.announced_eq (hg : g.Sound) {m : Message} {t t' : Transaction} (ht : t ∈ g.records)
    (ht' : t' ∈ g.records) (hm : m.Announces t) (hm' : m.Announces t') (htime : t.updatedAt.InRange) :
    t = t' := by
  have hdecode : Event.decode (Event.ofTransaction t').encode = .ok (.ofTransaction t) := by
    rw [← hm'.2, hm.2]
    exact Event.decode_encode htime.1 htime.2
  have hid : t.id = t'.id := congrArg Event.transactionId (Event.eq_of_decode_encode hdecode)
  exact hg.record_eq ht ht' hid

/-! ## Growing ledgers -/

/-- Records have been entered, as live entries behind those that were there. -/
structure Grows (g : Register) (l : TableLedger) (ws : List Writing) (l' : TableLedger)
    (ws' : List Writing) : Prop where
  wrote : g.Wrote l' ws'
  writings : ws ⊆ ws'
  rows : ∃ new, l'.rows = l.rows ++ new ∧ ∀ r ∈ new, r.isLive = true

variable {l l' l'' : TableLedger} {ws ws' ws'' : List Writing}

theorem Wrote.grows_self (hw : g.Wrote l ws) : g.Grows l ws l ws :=
  ⟨hw, List.Subset.refl ws, [], (List.append_nil l.rows).symm, fun _ hr => nomatch hr⟩

theorem Grows.trans (h : g.Grows l ws l' ws') (h' : g.Grows l' ws' l'' ws'') : g.Grows l ws l'' ws'' := by
  obtain ⟨new, hrows, hnew⟩ := h.rows
  obtain ⟨new', hrows', hnew'⟩ := h'.rows
  refine ⟨h'.wrote, List.Subset.trans h.writings h'.writings, new ++ new', ?_, ?_⟩
  · rw [hrows', hrows, List.append_assoc]
  · intro r hr
    rcases List.mem_append.1 hr with hr | hr
    · exact hnew r hr
    · exact hnew' r hr

/-- Entering a record makes the ledger grow. -/
theorem Wrote.grows (hw : g.Wrote l ws) (hg : g.Sound) {t : Transaction} (ht : t ∈ g.records)
    (hl : t.Ledgerable) (now : Instant) :
    ∃ ws', g.Grows l ws (l.adding (Writing.pair ⟨t, now⟩)) ws' ∧ t ∈ ws'.map (·.record) := by
  obtain ⟨ws', hwrote, hsub, hmem⟩ := hw.adding hg ht hl.success (hl.pairOfEvent now)
  refine ⟨ws', ⟨hwrote, hsub, _, rfl, ?_⟩, hmem⟩
  intro r hr
  obtain ⟨x, hx, rfl⟩ := List.mem_map.1 hr
  have hpair : x ∈ Writing.pair ⟨t, now⟩ := List.mem_of_mem_filter hx
  rcases List.mem_cons.1 hpair with rfl | hpair
  · rfl
  · rw [List.mem_singleton.1 hpair]
    rfl

/-! ## Deliveries -/

section

variable (retry : RetryPolicy) (clock : Clock) (limit : UInt32)

/-- The handlers of the service on a table that does not fail. -/
def handlers : Registry (Nat × TableLedger) where
  success := some (ledgerHandler retry (fun _ => (TableLedger.store .sound).insertEntries) clock)
  failure := some failedTransactionHandler

/-- Announcements of failed transfers are acknowledged too. -/
theorem dispatch_failed {t : Transaction} (hs : t.status = .failed) (ht : t.updatedAt.InRange)
    {d : Delivery} (hd : d.message.Announces t) (b : Broker) (w : Nat × TableLedger) :
    (RelayConfig.upTo limit).dispatch (handlers retry clock) false d b w = (.ok .acked, b, w) := by
  have hget : (EventKind.ofKey? d.message.key).bind (handlers retry clock).get? =
      some failedTransactionHandler := by
    rw [hd.1, EventKind.ofKey?_key, EventKind.ofTransaction_failed hs]
    rfl
  have hdecode : Event.decode d.message.body = .ok (.ofTransaction t) := by
    rw [hd.2]
    exact Event.decode_encode ht.1 ht.2
  have hjudge : (RelayConfig.upTo limit).judge (handlers retry clock) false d w = (.ok .acked, w) := by
    simp only [RelayConfig.judge, hget, hdecode]
    rfl
  rw [RelayConfig.dispatch_eq, hjudge]
  rfl

/-- Every announcement of a record is acknowledged, and a committed transfer is entered then. -/
theorem Wrote.dispatch (hw : g.Wrote l ws) (hg : g.Reachable) {t : Transaction} (ht : t ∈ g.records)
    (hstamped : (TransactionRow.ofTransaction t).Stamped) {d : Delivery} (hd : d.message.Announces t)
    (b : Broker) (readings : Nat) :
    ∃ readings' l' ws', (RelayConfig.upTo limit).dispatch (handlers retry clock) false d b (readings, l) =
        (.ok .acked, b, readings', l') ∧ g.Grows l ws l' ws' ∧
      (t.status = .success → t ∈ ws'.map (·.record)) := by
  cases hs : t.status with
  | success =>
    have hl := hg.ledgerable ht hs hstamped
    obtain ⟨ws', hgrows, hmem⟩ := hw.grows hg.sound ht hl (clock readings)
    have hinsert := TableLedger.insertEntries_sound (Writing.pair_nodup ⟨t, clock readings⟩) l
    exact ⟨_, _, ws', hl.dispatch_acked rfl hd hinsert b, hgrows, fun _ => hmem⟩
  | failed =>
    exact ⟨readings, l, ws, dispatch_failed retry clock limit hs hstamped.time hd b _, hw.grows_self,
      fun h => nomatch h⟩

/-- Enough steps get through the queue. Every message in it announces a record. -/
theorem Wrote.drain (hg : g.Reachable) (hstamped : ∀ t ∈ g.records, (TransactionRow.ofTransaction t).Stamped)
    (closed : Bool) (dead : List Message) : ∀ (readings : Nat) {ready : List Message} {steps : Nat}
    {l : TableLedger} {ws : List Writing}, g.Wrote l ws → ready.length ≤ steps →
      (∀ m ∈ ready, ∃ t ∈ g.records, m.Announces t) →
    ∃ readings' l' ws', (RelayConfig.upTo limit).drain (handlers retry clock) steps
        (.wired closed dead ready) (readings, l) = (.wired closed dead [], readings', l') ∧
      g.Grows l ws l' ws' ∧
      ∀ m ∈ ready, ∀ t ∈ g.records, m.Announces t → t.status = .success → t ∈ ws'.map (·.record)
  | readings, [], steps, l, ws, hw, _, _ => by
    refine ⟨readings, l, ws, ?_, hw.grows_self, fun m hm => nomatch hm⟩
    cases steps with
    | zero => rfl
    | succ steps => rfl
  | _, m :: ready, 0, _, _, _, hsteps, _ => nomatch hsteps
  | readings, m :: ready, steps + 1, l, ws, hw, hsteps, hready => by
    obtain ⟨t, ht, hmt⟩ := hready m List.mem_cons_self
    have hdelivered : m.handed.Announces t := hmt
    obtain ⟨readings₁, l₁, ws₁, hdispatch, hgrows₁, hmem₁⟩ := Wrote.dispatch retry clock limit hw hg ht
      (hstamped t ht) (d := ⟨consumerQueue, m.handed⟩) hdelivered (.wired closed dead ready) readings
    obtain ⟨readings₂, l₂, ws₂, hdrain, hgrows₂, hmem₂⟩ := Wrote.drain hg hstamped closed dead
      readings₁ hgrows₁.wrote (Nat.le_of_succ_le_succ hsteps) fun m' hm' => hready m' (List.mem_cons_of_mem m hm')
    refine ⟨readings₂, l₂, ws₂, ?_, hgrows₁.trans hgrows₂, ?_⟩
    · have hpull : (Broker.wired closed dead (m :: ready)).pull (RelayConfig.upTo limit).queue = _ :=
        Broker.wired_pull_cons closed dead ready m
      rw [RelayConfig.drain, hpull]
      simp only [hdispatch]
      exact hdrain
    · intro m' hm' t' ht' hmt' hs'
      rcases List.mem_cons.1 hm' with rfl | hm'
      · have heq : t = t' := hg.sound.announced_eq ht ht' hmt hmt' (hstamped t ht).time
        subst heq
        exact List.map_subset _ hgrows₂.writings (hmem₁ hs')
      · exact hmem₂ m' hm' t' ht' hmt' hs'

end

end Register

end TransferLedger
