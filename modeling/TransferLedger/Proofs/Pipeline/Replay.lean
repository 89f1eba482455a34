import TransferLedger.Proofs.Instant.Order
import TransferLedger.Proofs.Ledger.Balance
import TransferLedger.Proofs.Pipeline.DoubleEntry
import TransferLedger.Proofs.Pipeline.Drain
import TransferLedger.Proofs.Pipeline.Kept
import TransferLedger.Proofs.Service.Reconciliation

/-! # Replaying repairs the ledger

Announcements may be lost with a broker, before they were delivered or while they were in some hands. A
replay announces the committed transfers that the ledger has no entries of (`Missing`), and once the
queue is worked off every committed transfer has its two entries and nothing else has changed (`Repaired`).

In the ledger of a pipeline a transaction has two entries if and only if it was written
(`Entry.Pairing.count_eq_two`). So what a replay announces is what was not written, and if all of it is, then
another replay has nothing to announce.
-/

namespace TransferLedger
set_option autoImplicit false

namespace Entry.Pairing

variable {es : List Entry} {ws : List Writing}

/-- Two entries, or none. -/
theorem count_eq_two (h : Pairing es ws) {id : String} :
    (TableLedger.listing es).count id = 2 ↔ id ∈ ws.map (·.record.id) := by
  rw [TableLedger.count_listing]
  refine ⟨?_, ?_⟩
  · intro htwo
    by_contra hid
    rw [h.absent hid] at htwo
    cases htwo
  · intro hid
    obtain ⟨w, hw, rfl⟩ := List.mem_map.1 hid
    obtain ⟨debit, credit, hfilter, -, -⟩ := h.written hw
    rw [hfilter]
    rfl

/-- The entries of a written transaction, as they are asked for. -/
theorem entriesByTransaction (h : Pairing es ws) {w : Writing} (hw : w ∈ ws) :
    ∃ debit credit, (TableLedger.listing es).entriesByTransaction .sound w.record.id =
        .ok [debit, credit] ∧ w.record.Booked debit credit := by
  obtain ⟨debit, credit, hfilter, hdebit, hcredit⟩ := h.written hw
  have hbooked := Writing.booked hdebit hcredit
  refine ⟨debit, credit, ?_, hbooked⟩
  have horder : debitsFirst [debit, credit] = [debit, credit] := by
    simp [debitsFirst, hbooked.sides.1, hbooked.sides.2]
  rw [TableLedger.entriesByTransaction_listing, hfilter, horder]

end Entry.Pairing

/-- Where no entry is deleted, all entries are live. -/
theorem TableLedger.liveCount_eq {l : TableLedger} (h : ∀ r ∈ l.rows, r.isLive = true) (id : String) :
    l.liveCount id = l.count id := by
  apply List.countP_congr
  intro r hr
  rw [h r hr, Bool.and_true]

/-! ## Complete ledgers -/

namespace Register

variable {g : Register} {es : List Entry} {ws : List Writing}

/-- Every committed transfer is written. -/
def Complete (g : Register) (ws : List Writing) : Prop :=
  ∀ t ∈ g.records, t.status = .success → t ∈ ws.map (·.record)

theorem Complete.count (hc : g.Complete ws) (hes : Entry.Pairing es ws) {t : Transaction}
    (ht : t ∈ g.records) (hs : t.status = .success) : (TableLedger.listing es).count t.id = 2 := by
  obtain ⟨w, hw, rfl⟩ := List.mem_map.1 (hc t ht hs)
  exact hes.count_eq_two.2 (List.mem_map_of_mem hw)

/-- There is nothing left to announce. -/
theorem Complete.unentered_nil (hc : g.Complete ws) (hes : Entry.Pairing es ws) :
    (TableLedger.listing es).unentered g.committed = [] := by
  rw [TableLedger.unentered, List.filter_eq_nil_iff]
  intro t ht
  rw [mem_committed] at ht
  simpa using hc.count hes ht.1 ht.2

/-- In a complete ledger without deletions no report finds anything missing. -/
theorem Complete.incomplete_nil (hc : g.Complete ws) (hes : Entry.Pairing es ws)
    (hlive : ∀ r ∈ (TableLedger.listing es).rows, r.isLive = true) (id : String) :
    (TableLedger.listing es).incomplete (Reconciliation.committedOf g id) = [] := by
  rw [TableLedger.incomplete, List.filter_eq_nil_iff]
  intro t ht
  rw [Reconciliation.mem_committedOf] at ht
  rw [TableLedger.liveCount_eq hlive]
  simpa using hc.count hes ht.1 ht.2.2

/-- A record that has two entries was written: records are told apart by their ids. -/
theorem Wrote.mem_of_count (hw : g.Wrote (.listing es) ws) (hg : g.Sound) (hes : Entry.Pairing es ws)
    {t : Transaction} (ht : t ∈ g.records) (htwo : (TableLedger.listing es).count t.id = 2) :
    t ∈ ws.map (·.record) := by
  obtain ⟨w, hmem, hid⟩ := List.mem_map.1 (hes.count_eq_two.1 htwo)
  exact List.mem_map.2 ⟨w, hmem, hg.record_eq (hw.committed w hmem).1 ht hid⟩

/-- If the transfers that have no entries are all written now, then the ledger is complete. -/
theorem Grows.complete {l' : TableLedger} {ws' : List Writing} (h : g.Grows (.listing es) ws l' ws')
    (hw : g.Wrote (.listing es) ws) (hg : g.Sound) (hes : Entry.Pairing es ws)
    (hentered : ∀ t ∈ (TableLedger.listing es).unentered g.committed, t ∈ ws'.map (·.record)) :
    g.Complete ws' := by
  intro t ht hs
  -- It had its entries before the replay, or it was announced.
  by_cases htwo : (TableLedger.listing es).count t.id = 2
  · exact List.map_subset _ h.writings (hw.mem_of_count hg hes ht htwo)
  · exact hentered t (List.mem_filter.2 ⟨mem_committed.2 ⟨ht, hs⟩, by simpa using htwo⟩)

end Register

/-! ## Reports -/

/-- One of the two sums in the report of an account exceeds what a decimal holds. -/
def World.Overflows (w : World) (row : AccountRow) : Prop :=
  (∃ o, w.ledger.accountBalance .sound row.id = .error (.overflow o)) ∨
    ∃ balance total o, readDecimalColumn row.balance = .ok balance ∧
      w.ledger.accountBalance .sound row.id = .ok total ∧ balance.sub total = .error o

/-- Overflows apart, there is a report of every live account. -/
theorem Reconciliation.exists_report {g : Register} (hg : g.Sound) (es : List Entry) (broker : Broker)
    {a : Account} (ha : g.Live a.id a)
    (hfits : ¬ World.Overflows ⟨g.books.bank, .listing es, broker⟩ (.ofAccount a)) :
    ∃ balance opening, report .sound a.id ⟨g.books.bank, .listing es, broker⟩ =
      .ok (reportOf g (.listing es) a balance opening) := by
  obtain ⟨sorted, -, hbalance⟩ := TableLedger.accountBalance_listing es a.id
  cases hsum : Decimal.sum (sorted.map (·.balance)) with
  | error o =>
    rw [hsum] at hbalance
    exact absurd (.inl ⟨o, hbalance⟩) hfits
  | ok total =>
    rw [hsum] at hbalance
    cases hopening : a.balance.sub total with
    | error o =>
      exact absurd (.inr ⟨_, total, o, readDecimalColumn_text a.balance, hbalance, hopening⟩) hfits
    | ok opening => exact ⟨total, opening, report_eq_ok es hg ha broker hbalance hopening⟩

/-! ## Pipelines -/

namespace Pipeline

/-- These are the committed transfers that the ledger does not have two entries of, deleted ones included,
oldest first as the database compares the texts of their times. Where years have four digits, this is the order
of the times themselves. -/
structure Missing (s : Pipeline) (missing : List Transaction) : Prop where
  mem : ∀ t, t ∈ missing ↔ s.Committed t ∧ s.ledger.count t.id ≠ 2
  nodup : (missing.map (·.id)).Nodup
  oldestFirst : missing.Pairwise fun t t' => t.createdAt.columnText ≤ t'.createdAt.columnText
  oldestFirst_times : (∀ t ∈ missing, t.createdAt.Writable) →
    missing.Pairwise fun t t' => t.createdAt.cmp t'.createdAt ≠ .gt

/-- In this world the ledger of the pipeline has been repaired. -/
structure Repaired (s : Pipeline) (w : World) : Prop where
  bank : w.bank = s.books.bank
  drained : w.broker.readyIn consumerQueue = []
  dead : w.broker.readyIn deadLetterQueue = s.broker.readyIn deadLetterQueue
  kept : ∃ new, w.ledger.rows = s.ledger.rows ++ new
  entered : ∀ t, s.Committed t → ∃ debit credit,
    w.ledger.entriesByTransaction .sound t.id = .ok [debit, credit] ∧ t.Booked debit credit
  again : Reconciliation.replayMissing .sound w = (.ok [], w)
  reports : (∀ r ∈ s.ledger.rows, r.isLive = true) →
    ∀ row ∈ s.books.bank.accounts, row.isLive = true → ¬ w.Overflows row →
      ∃ r, Reconciliation.report .sound row.id w = .ok r ∧ r.missing = [] ∧ r.consistent = true

variable {s : Pipeline} {x : Parts}

theorem Sound.missing (h : s.Sound x) : s.Missing (s.ledger.unentered x.register.committed) := by
  have hsorted : (s.ledger.unentered x.register.committed).Pairwise fun t t' =>
      t.createdAt.columnText ≤ t'.createdAt.columnText :=
    x.register.committed_sorted.sublist List.filter_sublist
  refine ⟨fun t => ?_, ?_, hsorted, fun hwritable => ?_⟩
  · rw [TableLedger.unentered, List.mem_filter, Register.mem_committed, Committed, h.mem_records,
      decide_eq_true_eq]
  · exact h.register.committed_nodup.sublist (List.filter_sublist.map _)
  · exact hsorted.imp_of_mem fun ht ht' hle =>
      (Instant.columnText_le_iff (hwritable _ ht) (hwritable _ ht')).1 hle

/-- Complete ledgers that have grown from that of the pipeline are repaired. -/
theorem Sound.repaired (h : s.Sound x) {l : TableLedger} {ws : List Writing}
    (hgrows : x.register.Grows s.ledger x.writings l ws) (hc : x.register.Complete ws) :
    s.Repaired ⟨s.books.bank, l, .wired false x.dead []⟩ := by
  obtain ⟨es, rfl, hes⟩ := hgrows.wrote.holds.exists_listing
  obtain ⟨new, hrows, hnew⟩ := hgrows.rows
  refine
    { bank := rfl
      drained := rfl
      dead := by rw [h.broker_eq]; rfl
      kept := ⟨new, hrows⟩
      entered := ?_
      again := ?_
      reports := ?_ }
  · intro t ht
    obtain ⟨w, hw, rfl⟩ := List.mem_map.1 (hc t (h.mem_records.1 ht.1) ht.2)
    exact hes.entriesByTransaction hw
  · rw [h.bank_eq, Reconciliation.replayMissing_eq, hc.unentered_nil hes]
    rfl
  · intro hold row hrow hlive hfits
    -- The deletions of a ledger that only grows are those that were there before.
    have hall : ∀ r ∈ (TableLedger.listing es).rows, r.isLive = true := by
      intro r hr
      rw [hrows] at hr
      rcases List.mem_append.1 hr with hr | hr
      · exact hold r hr
      · exact hnew r hr
    obtain ⟨a, rfl, ha⟩ := h.exists_live hrow hlive
    rw [h.bank_eq] at hfits ⊢
    obtain ⟨balance, opening, hreport⟩ := Reconciliation.exists_report h.register es _ ha hfits
    have hmissing := hc.incomplete_nil hes hall a.id
    refine ⟨_, hreport, ?_, ?_⟩
    · simp only [Reconciliation.reportOf, hmissing, List.map_nil]
    · simp only [ReconciliationReport.consistent, Reconciliation.reportOf, hmissing, List.map_nil,
        List.isEmpty_nil]

/-- A queue of announcements is worked off, and the committed transfers among them are entered. -/
theorem Sound.runRelay (h : s.Sound x) (hstamped : ∀ r ∈ s.books.bank.transactions, r.Stamped)
    (retry : RetryPolicy) (limit : UInt32) (clock : Clock) {ready : List Message}
    (hready : ∀ m ∈ ready, ∃ t ∈ x.register.records, m.Announces t) :
    ∃ l ws, World.runRelay ⟨retry, .upTo limit⟩ .sound clock
        ⟨s.books.bank, s.ledger, .wired false x.dead ready⟩ =
          ⟨s.books.bank, l, .wired false x.dead []⟩ ∧
      x.register.Grows s.ledger x.writings l ws ∧
      ∀ m ∈ ready, ∀ t ∈ x.register.records, m.Announces t → t.status = .success →
        t ∈ ws.map (·.record) := by
  have hrecords : ∀ t ∈ x.register.records, (TransactionRow.ofTransaction t).Stamped :=
    fun t ht => hstamped _ (h.mem_records.2 ht)
  have hsteps : ready.length ≤ ready.length * (limit.toNat + 1) :=
    Nat.le_mul_of_pos_right _ (Nat.succ_pos _)
  obtain ⟨readings, l, ws, hdrain, hgrows, hmem⟩ := Register.Wrote.drain retry clock limit h.reachable
    hrecords false x.dead 0 h.wrote hsteps hready
  have hrun : (RelayConfig.upTo limit).run (Settings.registry ⟨retry, .upTo limit⟩ .sound clock)
      (.wired false x.dead ready) (0, s.ledger) = (.wired false x.dead [], readings, l) := hdrain
  refine ⟨l, ws, ?_, hgrows, hmem⟩
  rw [World.runRelay]
  simp only [hrun]

/-- Announcing all transfers that have no entries and working off the queue repairs the ledger. -/
theorem Sound.replay (h : s.Sound x) (hstamped : ∀ r ∈ s.books.bank.transactions, r.Stamped)
    (retry : RetryPolicy) (limit : UInt32) (clock : Clock) {missing : List Transaction}
    (hmissing : s.ledger.unentered x.register.committed = missing) :
    s.Repaired (World.runRelay ⟨retry, .upTo limit⟩ .sound clock
      ⟨s.books.bank, s.ledger, .wired false x.dead (x.ready ++ Reconciliation.announcements missing)⟩) := by
  have hrecorded : ∀ t ∈ missing, t ∈ x.register.records ∧ t.status = .success := by
    rw [← hmissing]
    exact fun t ht => Register.mem_committed.1 (List.mem_of_mem_filter ht)
  have hready : ∀ m ∈ x.ready ++ Reconciliation.announcements missing,
      ∃ t ∈ x.register.records, m.Announces t := by
    intro m hm
    rcases List.mem_append.1 hm with hm | hm
    · exact h.messages m (List.mem_append_left _ (List.mem_append_right _ hm))
    · obtain ⟨t, ht, rfl⟩ := List.mem_map.1 hm
      exact ⟨t, (hrecorded t ht).1, Broker.messageOf_announces t⟩
  obtain ⟨l, ws, hrun, hgrows, hmem⟩ := h.runRelay hstamped retry limit clock hready
  have hentered : ∀ t ∈ missing, t ∈ ws.map (·.record) := by
    intro t ht
    have hannounced : Broker.messageOf (.ofTransaction t) ∈ Reconciliation.announcements missing :=
      List.mem_map_of_mem ht
    exact hmem _ (List.mem_append_right _ hannounced) t (hrecorded t ht).1
      (Broker.messageOf_announces t) (hrecorded t ht).2
  rw [hrun]
  refine h.repaired hgrows ?_
  obtain ⟨es, hledger, hes⟩ := h.exists_listing
  have hwrote := h.wrote
  rw [hledger] at hgrows hwrote hmissing
  rw [← hmissing] at hentered
  exact hgrows.complete hwrote h.register hes hentered

theorem Reachable.replay_repairs (h : s.Reachable) (hopen : s.broker.closed = false)
    (hstamped : ∀ r ∈ s.books.bank.transactions, r.Stamped) (retry : RetryPolicy) (limit : UInt32)
    (clock : Clock) :
    ∃ missing replayed, Reconciliation.replayMissing .sound s.world = (.ok (missing.map (·.id)), replayed) ∧
      s.Missing missing ∧ replayed.bank = s.books.bank ∧ replayed.ledger = s.ledger ∧
      s.Repaired (replayed.runRelay ⟨retry, .upTo limit⟩ .sound clock) := by
  obtain ⟨x, hx⟩ := h.sound
  obtain ⟨es, hledger, -⟩ := hx.exists_listing
  have hclosed : x.closed = false := by
    rw [hx.broker_eq] at hopen
    exact hopen
  have hreplay := Reconciliation.replayMissing_eq es x.register x.dead x.ready
  rw [← hx.bank_eq, ← hledger, ← hclosed, ← hx.broker_eq, hclosed] at hreplay
  exact ⟨_, _, hreplay, hx.missing, rfl, rfl, hx.replay hstamped retry limit clock rfl⟩

/-- The announcement of a transfer is lost with the broker. -/
def sampleLost : Pipeline :=
  { sampleAnnounced with
    broker := .wired false [] []
    held := []
    announced := [] }

theorem sampleLost_reachable : sampleLost.Reachable :=
  sampleAnnounced_reachable.step (.restarted 5 (Broker.declare_empty 5))

/-- A replay announces the transfer again. -/
theorem sample_repaired : (Reconciliation.replayMissing .sound sampleLost.world).1 = .ok ["t"] ∧
    ∃ missing replayed, Reconciliation.replayMissing .sound sampleLost.world =
        (.ok (missing.map (·.id)), replayed) ∧
      sampleLost.Missing missing ∧ replayed.bank = sampleLost.books.bank ∧
      replayed.ledger = sampleLost.ledger ∧
      sampleLost.Repaired (replayed.runRelay ⟨{}, .upTo 5⟩ .sound fun _ => default) := by
  have hrows : sampleLost.books.bank.transactions =
      [.ofTransaction (Books.samplePlan.record .success default)] := by
    decide +kernel
  refine ⟨by decide +kernel, Reachable.replay_repairs sampleLost_reachable rfl ?_ {} 5 fun _ => default⟩
  intro r hr
  rw [hrows] at hr
  rw [List.mem_singleton.1 hr]
  exact ⟨by decide +kernel, by decide +kernel⟩

end Pipeline

end TransferLedger
