import TransferLedger.Proofs.Books.Simulation
import TransferLedger.Proofs.Ledger.Pairs
import TransferLedger.Proofs.Pipeline.Run

/-! # What every pipeline is made of

Behind a pipeline stand its `Parts`: the register whose rows the books hold, the writings whose pairs
the ledger holds, and the messages in the two queues. `Sound` ties them together: every writing and
every message is of a record, and an announced record of a committed transfer is written or has a
message in a queue or in some hands. Every step leads to parts of the same kind (`Sound.step`).
-/

namespace TransferLedger
set_option autoImplicit false

/-- The message is an announcement of the record, handed out any number of times. -/
def Message.Announces (m : Message) (t : Transaction) : Prop :=
  m.key = (EventKind.ofEvent (.ofTransaction t)).key ∧ m.body = (Event.ofTransaction t).encode

/-- The messages differ at most in how often they were handed out. -/
def Message.Copies (m m' : Message) : Prop := m.key = m'.key ∧ m.body = m'.body

theorem Message.copies_self (m : Message) : m.Copies m := ⟨rfl, rfl⟩

theorem Message.Announces.copy {m m' : Message} {t : Transaction} (h : m.Announces t)
    (hcopy : m'.Copies m) : m'.Announces t :=
  ⟨hcopy.1.trans h.1, hcopy.2.trans h.2⟩

theorem Broker.messageOf_announces (t : Transaction) :
    (messageOf (.ofTransaction t)).Announces t := by
  simp only [Message.Announces, messageOf, and_self]

/-- A message under the key of committed transfers announces one. -/
theorem Message.Announces.success {m : Message} {t : Transaction} (h : m.Announces t)
    (hkey : m.key = EventKind.success.key) : t.status = .success := by
  cases hstatus : t.status with
  | success => rfl
  | failed =>
    have hkind := h.1
    rw [EventKind.ofTransaction_failed hstatus, hkey] at hkind
    exact absurd (EventKind.key_injective hkind) (by decide)

/-! ## Written records -/

/-- The ledger holds the pairs of these writings, which are of committed transfers. -/
structure Register.Wrote (g : Register) (l : TableLedger) (ws : List Writing) : Prop where
  holds : l.Holds ws
  committed : ∀ w ∈ ws, w.record ∈ g.records ∧ w.record.status = .success

namespace Register

variable {g g' : Register} {l : TableLedger} {ws : List Writing}

/-- Records are told apart by their ids. -/
theorem Sound.record_eq (hg : g.Sound) {t t' : Transaction} (ht : t ∈ g.records)
    (ht' : t' ∈ g.records) (hid : t.id = t'.id) : t = t' :=
  List.inj_on_of_nodup_map hg.recordIds ht ht' hid

theorem Wrote.grow (h : g.Wrote l ws) (hsub : g.records ⊆ g'.records) : g'.Wrote l ws where
  holds := h.holds
  committed := fun w hw => ⟨hsub (h.committed w hw).1, (h.committed w hw).2⟩

theorem Wrote.adding (h : g.Wrote l ws) (hg : g.Sound) {t : Transaction} (ht : t ∈ g.records)
    (hs : t.status = .success) {now : Instant} {debit credit : Entry}
    (hpair : Entry.pairOfEvent (.ofTransaction t) now = .ok (debit, credit)) :
    ∃ ws', g.Wrote (l.adding [debit, credit]) ws' ∧ ws ⊆ ws' ∧ t ∈ ws'.map (·.record) := by
  obtain ⟨hdebit, hcredit⟩ := Entry.pairOfEvent_ofTransaction hpair
  have hbatch : [debit, credit] = [Writing.entry ⟨t, now⟩ .debit, Writing.entry ⟨t, now⟩ .credit] := by
    rw [hdebit, hcredit]
    rfl
  rw [hbatch]
  by_cases hid : t.id ∈ ws.map (·.record.id)
  · obtain ⟨w, hw, hwid⟩ := List.mem_map.1 hid
    have hrecord : w.record = t := hg.record_eq (h.committed w hw).1 ht hwid
    refine ⟨ws, ⟨?_, h.committed⟩, List.Subset.refl ws, List.mem_map.2 ⟨w, hw, hrecord⟩⟩
    rw [h.holds.adding_written hid]
    exact h.holds
  · refine ⟨ws ++ [⟨t, now⟩], ⟨h.holds.adding_new hid, ?_⟩, List.subset_append_left _ _, ?_⟩
    · intro w hw
      rcases List.mem_append.1 hw with hw | hw
      · exact h.committed w hw
      · rw [List.mem_singleton.1 hw]
        exact ⟨ht, hs⟩
    · rw [List.map_append]
      exact List.mem_append_right _ (List.mem_singleton.2 rfl)

/-- Whatever a handler of a relay makes of the event of a record, only the pair of that record may be
added; it is there if the event of a committed transfer was handled. -/
theorem Wrote.handled (h : g.Wrote l ws) (hg : g.Sound) {r : LedgerRelay} (hr : r.Proper)
    {t : Transaction} (ht : t ∈ g.records) {handler : Handler (Nat × TableLedger)}
    (hget : r.registry.get? (EventKind.ofEvent (.ofTransaction t)) = some handler)
    {stopping : Bool} {readings : Nat} {verdict : Verdict} {w : Nat × TableLedger}
    (hhandle : handler.handle (.ofTransaction t) stopping (readings, l) = (verdict, w)) :
    ∃ ws', g.Wrote w.2 ws' ∧ ws ⊆ ws' ∧
      (verdict = .handled → t.status = .success → t ∈ ws'.map (·.record)) := by
  cases hstatus : t.status with
  | success =>
    rw [EventKind.ofTransaction_success hstatus] at hget
    cases hget
    have hsuccess : (Event.ofTransaction t).isSuccess = true := by
      rw [Event.isSuccess_ofTransaction]
      exact decide_eq_true hstatus
    by_cases hverdict : verdict = .handled
    · subst hverdict
      obtain ⟨now, debit, credit, hpair, hw⟩ :=
        ledgerHandlerUntil_handled hr.faulty hsuccess hhandle
      rw [hw]
      obtain ⟨ws', hwrote, hsub, hmem⟩ := h.adding hg ht hstatus hpair
      exact ⟨ws', hwrote, hsub, fun _ _ => hmem⟩
    have hledger : ((ledgerHandlerUntil r.policy r.insert r.clock r.stopped).handle
        (.ofTransaction t) stopping (readings, l)).2.2 = l ∨ _ :=
      ledgerHandlerUntil_ledger hr.faulty l
    rw [hhandle] at hledger
    rcases hledger with hw | ⟨now, debit, credit, hpair, hw⟩
    · rw [hw]
      exact ⟨ws, h, List.Subset.refl ws, fun hv => absurd hv hverdict⟩
    · rw [hw]
      obtain ⟨ws', hwrote, hsub, hmem⟩ := h.adding hg ht hstatus hpair
      exact ⟨ws', hwrote, hsub, fun _ _ => hmem⟩
  | failed =>
    rw [EventKind.ofTransaction_failed hstatus] at hget
    have hw := hr.passive handler hget (.ofTransaction t) stopping (readings, l)
    rw [hhandle] at hw
    rw [hw]
    exact ⟨ws, h, List.Subset.refl ws, fun _ hs => by cases hs⟩

end Register

/-! ## Parts -/

/-- What stands behind the books, the ledger and the broker. -/
structure Parts where
  register : Register
  writings : List Writing
  closed : Bool
  dead : List Message
  ready : List Message

namespace Pipeline

/-- All messages that are in a queue or in some hands. -/
def messages (s : Pipeline) (x : Parts) : List Message :=
  x.dead ++ x.ready ++ s.held.map (·.message)

/-- The announcement of a record has led to its pair or is still around. -/
def Pending (s : Pipeline) (x : Parts) (t : Transaction) : Prop :=
  t ∈ x.writings.map (·.record) ∨ ∃ m ∈ s.messages x, m.Announces t

/-- A pipeline is made of these parts. -/
structure Sound (s : Pipeline) (x : Parts) : Prop where
  books_eq : s.books = x.register.books
  reachable : x.register.Reachable
  wrote : x.register.Wrote s.ledger x.writings
  broker_eq : s.broker = .wired x.closed x.dead x.ready
  held : ∀ d ∈ s.held, d.queue = consumerQueue
  messages : ∀ m ∈ s.messages x, ∃ t ∈ x.register.records, m.Announces t
  announced : ∀ t ∈ s.announced, t ∈ x.register.records
  pending : ∀ t ∈ s.announced, t.status = .success → s.Pending x t

variable {s s' : Pipeline} {x : Parts}

theorem start_sound {b : Broker} {limit : UInt32} (hb : (RelayConfig.upTo limit).declare .empty = .ok b) :
    (start b).Sound ⟨.empty, [], false, [], []⟩ where
  books_eq := rfl
  reachable := .refl
  wrote := ⟨TableLedger.empty_holds, fun _ h => nomatch h⟩
  broker_eq := by
    rw [Broker.declare_empty, Except.ok.injEq] at hb
    exact hb.symm
  held := fun _ h => nomatch h
  messages := fun _ h => nomatch h
  announced := fun _ h => nomatch h
  pending := fun _ h => nomatch h

namespace Sound

theorem register (h : s.Sound x) : x.register.Sound := Register.Reachable.sound h.reachable

theorem mem_records (h : s.Sound x) {t : Transaction} :
    .ofTransaction t ∈ s.books.bank.transactions ↔ t ∈ x.register.records := by
  rw [h.books_eq]
  exact Register.mem_records

/-! ## Calls and announcements -/

/-- The books move on as their register does. -/
theorem follow (h : s.Sound x) {b : Books} (hb : x.register.Follows b) :
    ∃ g, ({ s with books := b } : Pipeline).Sound { x with register := g } := by
  obtain ⟨g, hsteps, rfl⟩ := hb
  have hsub := Register.records_subset hsteps
  refine ⟨g, { h with books_eq := rfl, reachable := ?_, wrote := ?_, messages := ?_, announced := ?_ }⟩
  · exact h.reachable.trans hsteps
  · exact h.wrote.grow hsub
  · intro m hm
    obtain ⟨t, ht, hmt⟩ := h.messages m hm
    exact ⟨t, hsub ht, hmt⟩
  · exact fun t ht => hsub (h.announced t ht)

/-- Publishing adds an announcement or nothing. -/
theorem publish (h : s.Sound x) {publish : Publisher} (hp : publish.BestEffort) {t : Transaction}
    (ht : t ∈ x.register.records) :
    ∃ ready, ({ s with broker := (publish (.ofTransaction t) s.broker).2 } : Pipeline).Sound
        { x with ready := ready } ∧
      ((publish (.ofTransaction t) s.broker).1 = true → ∃ m ∈ ready, m.Announces t) := by
  have hcases : publish (.ofTransaction t) s.broker = (false, s.broker) ∨
      publish (.ofTransaction t) s.broker = (true, .wired x.closed x.dead
        (x.ready ++ [Broker.messageOf (.ofTransaction t)])) := by
    rcases hp (.ofTransaction t) s.broker with hpub | hpub
    · rw [hpub, h.broker_eq, Broker.wired_publishBestEffort]
      split
      · exact .inl rfl
      · exact .inr rfl
    · exact .inl hpub
  rcases hcases with hpub | hpub
  · rw [hpub]
    exact ⟨x.ready, h, fun hfalse => by cases hfalse⟩
  · rw [hpub]
    have hmem : ∀ m, m ∈ s.messages x → m ∈ s.messages { x with
        ready := x.ready ++ [Broker.messageOf (.ofTransaction t)] } := by
      intro m hm
      simp only [Pipeline.messages, List.mem_append] at hm ⊢
      tauto
    have hlast : Broker.messageOf (.ofTransaction t) ∈
        x.ready ++ [Broker.messageOf (.ofTransaction t)] :=
      List.mem_append_right _ (List.mem_singleton.2 rfl)
    refine ⟨x.ready ++ [Broker.messageOf (.ofTransaction t)],
      { h with broker_eq := rfl, messages := ?_, pending := ?_ },
      fun _ => ⟨_, hlast, Broker.messageOf_announces t⟩⟩
    · intro m hm
      simp only [Pipeline.messages, List.mem_append, List.mem_singleton] at hm
      rcases hm with (hm | hm | rfl) | hm
      · exact h.messages m (List.mem_append_left _ (List.mem_append_left _ hm))
      · exact h.messages m (List.mem_append_left _ (List.mem_append_right _ hm))
      · exact ⟨t, ht, Broker.messageOf_announces t⟩
      · exact h.messages m (List.mem_append_right _ hm)
    · intro t' ht' hs
      rcases h.pending t' ht' hs with hw | ⟨m, hm, hmt⟩
      · exact .inl hw
      · exact .inr ⟨m, hmem m hm, hmt⟩

theorem announce (h : s.Sound x) {publish : Publisher} (hp : publish.BestEffort) {t : Transaction}
    (ht : t ∈ x.register.records) : ∃ x', (s.announce publish t).Sound x' := by
  obtain ⟨ready, hsound, hready⟩ := h.publish hp ht
  refine ⟨_, { hsound with announced := ?_, pending := ?_ }⟩
  · intro t' ht'
    rcases List.mem_append.1 ht' with ht' | ht'
    · exact h.announced t' ht'
    · unfold Publisher.reported at ht'
      split at ht'
      · rwa [List.mem_singleton.1 ht']
      · cases ht'
  · intro t' ht' hs
    rcases List.mem_append.1 ht' with ht' | ht'
    · exact hsound.pending t' ht' hs
    · unfold Publisher.reported at ht'
      split at ht'
      · next hreported =>
        rw [List.mem_singleton.1 ht']
        obtain ⟨m, hm, hmt⟩ := hready hreported
        exact .inr ⟨m, List.mem_append_left _ (List.mem_append_right _ hm), hmt⟩
      · cases ht'

theorem transfer (h : s.Sound x) {publish : Publisher} (hp : publish.BestEffort) {e : Engine}
    (he : e.KeepsInserts) (now : Instant) (newId : String) (r : TransferRequest) :
    ∃ x', (s.transfer publish e now newId r).Sound x' := by
  have hbooks : x.register.Follows { s.books with
      bank := (Transactions.createWith publish e now newId r s.world).2.bank
      plans := s.books.plans ++ (Transfer.prepare e newId r s.books.bank).toOption.toList } := by
    rw [world, h.books_eq]
    exact Register.createWith_follows h.register publish he now newId r s.ledger s.broker
  obtain ⟨g, hg⟩ := h.follow hbooks
  obtain ⟨hledger, hannounced⟩ := Transactions.createWith_announced publish he now newId r s.world
  unfold Pipeline.transfer
  simp only
  rw [hledger]
  rcases hannounced with ⟨hanswer, hbroker⟩ | ⟨t, ht, hanswer, hbroker⟩
  · rw [hanswer, hbroker]
    simp only [Option.toList_none, List.flatMap_nil, List.append_nil]
    exact ⟨_, hg⟩
  · have hmem : t ∈ g.records := hg.mem_records.1 ht
    rw [hbroker]
    rcases hanswer with hanswer | hanswer
    · rw [hanswer]
      simp only [Option.toList_none, List.flatMap_nil, List.append_nil]
      obtain ⟨ready, hready, -⟩ := hg.publish hp hmem
      exact ⟨_, hready⟩
    · rw [hanswer]
      simp only [Option.toList_some, List.flatMap_singleton]
      exact hg.announce hp hmem

/-! ## Deliveries -/

/-- Messages are moved, and perhaps the ledger has grown. Every message there is now is a copy of an
earlier one, and an earlier one of which no copy is left is the announcement of written records. -/
theorem exchange (h : s.Sound x) {l : TableLedger} {ws : List Writing} {dead ready : List Message}
    {held : List Delivery} (hl : x.register.Wrote l ws) (hsub : x.writings ⊆ ws)
    (hheld : ∀ d ∈ held, d.queue = consumerQueue)
    (hold : ∀ m ∈ dead ++ ready ++ held.map (·.message), ∃ m' ∈ s.messages x, m.Copies m')
    (hnew : ∀ m ∈ s.messages x,
      (∃ m' ∈ dead ++ ready ++ held.map (·.message), m'.Copies m) ∨
        ∀ t ∈ s.announced, t.status = .success → m.Announces t → t ∈ ws.map (·.record)) :
    ({ s with
      ledger := l
      broker := .wired x.closed dead ready
      held := held } : Pipeline).Sound ⟨x.register, ws, x.closed, dead, ready⟩ where
  books_eq := h.books_eq
  reachable := h.reachable
  wrote := hl
  broker_eq := rfl
  held := hheld
  messages := by
    intro m hm
    obtain ⟨m', hm', hcopy⟩ := hold m hm
    obtain ⟨t, ht, hmt⟩ := h.messages m' hm'
    exact ⟨t, ht, hmt.copy hcopy⟩
  announced := h.announced
  pending := by
    intro t ht hs
    rcases h.pending t ht hs with hw | ⟨m, hm, hmt⟩
    · obtain ⟨w, hw, hrecord⟩ := List.mem_map.1 hw
      exact .inl (List.mem_map.2 ⟨w, hsub hw, hrecord⟩)
    rcases hnew m hm with ⟨m', hm', hcopy⟩ | hwritten
    · exact .inr ⟨m', hm', hmt.copy hcopy⟩
    · exact .inl (hwritten t ht hs hmt)

theorem pull (h : s.Sound x) {d : Delivery} {b : Broker}
    (hd : s.broker.pull consumerQueue = .ok (some d, b)) :
    ∃ x', ({ s with broker := b, held := s.held ++ [d] } : Pipeline).Sound x' := by
  rw [h.broker_eq] at hd
  have hmessages : s.messages x = x.dead ++ x.ready ++ s.held.map (·.message) := rfl
  generalize x.ready = queue at hd hmessages
  cases queue with
  | nil => cases hd
  | cons m ready =>
    rw [Broker.wired_pull_cons] at hd
    cases hd
    have hcopy : ∀ m : Message, m.handed.Copies m := fun _ => ⟨rfl, rfl⟩
    refine ⟨_, h.exchange h.wrote (List.Subset.refl _) ?_ ?_ ?_⟩
    · intro d hd
      rcases List.mem_append.1 hd with hd | hd
      · exact h.held d hd
      · rw [List.mem_singleton.1 hd]
    · intro m' hm'
      rw [hmessages]
      simp only [List.map_append, List.map_singleton, List.mem_append, List.mem_cons,
        List.not_mem_nil, or_false] at hm' ⊢
      rcases hm' with (hm' | hm') | hm' | rfl
      · exact ⟨m', .inl (.inl hm'), m'.copies_self⟩
      · exact ⟨m', .inl (.inr (.inr hm')), m'.copies_self⟩
      · exact ⟨m', .inr hm', m'.copies_self⟩
      · exact ⟨m, .inl (.inr (.inl rfl)), hcopy m⟩
    · intro m' hm'
      rw [hmessages] at hm'
      left
      simp only [List.map_append, List.map_singleton, List.mem_append, List.mem_cons,
        List.not_mem_nil, or_false] at hm' ⊢
      rcases hm' with (hm' | rfl | hm') | hm'
      · exact ⟨m', .inl (.inl hm'), m'.copies_self⟩
      · exact ⟨_, .inr (.inr rfl), hcopy m'⟩
      · exact ⟨m', .inl (.inr hm'), m'.copies_self⟩
      · exact ⟨m', .inr (.inl hm'), m'.copies_self⟩

theorem mem_messages_of_held {d : Delivery} (hd : d ∈ s.held) : d.message ∈ s.messages x :=
  List.mem_append_right _ (List.mem_map_of_mem hd)

/-- A delivery is settled, and the ledger may have grown. An acknowledged one was the announcement of
written records. -/
theorem settle (h : s.Sound x) {d : Delivery} (hd : d ∈ s.held) (how : Settlement) {l : TableLedger}
    {ws : List Writing} (hl : x.register.Wrote l ws) (hsub : x.writings ⊆ ws)
    (hack : how = .acknowledge → ∀ t ∈ s.announced, t.status = .success → d.message.Announces t →
      t ∈ ws.map (·.record)) :
    ∃ x', ({ s.settle d how with ledger := l } : Pipeline).Sound x' := by
  have hqueue := h.held d hd
  have hheld : ∀ d' ∈ s.held.erase d, d'.queue = consumerQueue :=
    fun d' hd' => h.held d' (List.mem_of_mem_erase hd')
  have herase : ∀ m ∈ (s.held.erase d).map (·.message), m ∈ s.held.map (·.message) := by
    intro m hm
    obtain ⟨d', hd', rfl⟩ := List.mem_map.1 hm
    exact List.mem_map_of_mem (List.mem_of_mem_erase hd')
  have hkeep : ∀ m ∈ s.held.map (·.message),
      m = d.message ∨ m ∈ (s.held.erase d).map (·.message) := by
    intro m hm
    obtain ⟨d', hd', rfl⟩ := List.mem_map.1 hm
    by_cases heq : d' = d
    · exact .inl (congrArg Delivery.message heq)
    · exact .inr (List.mem_map_of_mem ((List.mem_erase_of_ne heq).2 hd'))
  obtain ⟨queue, m⟩ := d
  subst hqueue
  obtain ⟨dead, ready, hsettle, hfrom, hto, hown⟩ :=
    Broker.exists_wired_settle x.closed x.dead x.ready m how
  unfold Pipeline.settle
  rw [h.broker_eq, hsettle]
  refine ⟨_, h.exchange hl hsub hheld ?_ ?_⟩
  · intro m' hm'
    refine ⟨m', ?_, m'.copies_self⟩
    rcases List.mem_append.1 hm' with hm' | hm'
    · rcases hfrom m' hm' with hm' | rfl
      · exact List.mem_append_left _ hm'
      · exact mem_messages_of_held hd
    · exact List.mem_append_right _ (herase m' hm')
  · intro m' hm'
    rcases List.mem_append.1 hm' with hm' | hm'
    · exact .inl ⟨m', List.mem_append_left _ (hto m' hm'), m'.copies_self⟩
    rcases hkeep m' hm' with rfl | hm'
    · rcases hown with hhow | hown
      · exact .inr (hack hhow)
      · exact .inl ⟨_, List.mem_append_left _ hown, Message.copies_self _⟩
    · exact .inl ⟨m', List.mem_append_right _ hm', m'.copies_self⟩

/-! ## Dispatches -/

/-- However a delivery is judged, only the pair of its record may be added to the ledger, and it is
acknowledged only if all announced records that it stands for are written. -/
theorem judged (h : s.Sound x) {r : LedgerRelay} (hr : r.Proper) {d : Delivery} (hd : d ∈ s.held)
    {c : RelayConfig} {stopping : Bool} {readings : Nat} {answer : Except String Disposition}
    {w : Nat × TableLedger} (hjudged : c.Judged r.registry stopping d (readings, s.ledger) answer w) :
    ∃ ws, x.register.Wrote w.2 ws ∧ x.writings ⊆ ws ∧
      (RelayConfig.settlementOf answer = .acknowledge → ∀ t ∈ s.announced, t.status = .success →
        d.message.Announces t → t ∈ ws.map (·.record)) := by
  obtain ⟨t, ht, hkey, hbody⟩ := h.messages d.message (mem_messages_of_held hd)
  have hkind : EventKind.ofKey? d.message.key = some (.ofEvent (.ofTransaction t)) := by
    rw [hkey, EventKind.ofKey?_key]
  -- The body is read as the event of this record or not at all.
  have hevent : ∀ e, Event.decode d.message.body = .ok e → e = .ofTransaction t := by
    intro e hdecode
    rw [hbody] at hdecode
    exact Event.eq_of_decode_encode hdecode
  cases hjudged with
  | dropped hget =>
    refine ⟨x.writings, h.wrote, List.Subset.refl _, ?_⟩
    intro _ t' _ hs hmt'
    -- There is a handler for every committed transfer.
    rw [hmt'.1, EventKind.ofKey?_key, EventKind.ofTransaction_success hs] at hget
    cases hget
  | undecodable _ _ => exact ⟨x.writings, h.wrote, List.Subset.refl _, fun hack => by cases hack⟩
  | answered hget hdecode hhandle hdecide =>
    rw [hkind, Option.bind_some] at hget
    have he := hevent _ hdecode
    subst he
    obtain ⟨ws, hl, hsub, hmem⟩ := h.wrote.handled h.register hr ht hget hhandle
    refine ⟨ws, hl, hsub, ?_⟩
    intro hack t' ht' hs hmt'
    rw [hmt'.2] at hdecode
    have hid : t.id = t'.id := congrArg Event.transactionId (Event.eq_of_decode_encode hdecode)
    rw [← h.register.record_eq ht (h.announced t' ht') hid] at hs ⊢
    exact hmem (RelayConfig.decide?_eq_acknowledged _ hdecide hack) hs
  | broke hget hdecode hhandle =>
    rw [hkind, Option.bind_some] at hget
    have he := hevent _ hdecode
    subst he
    obtain ⟨ws, hl, hsub, -⟩ := h.wrote.handled h.register hr ht hget hhandle
    exact ⟨ws, hl, hsub, fun hack => by cases hack⟩

theorem dispatch (h : s.Sound x) {r : LedgerRelay} (hr : r.Proper) {d : Delivery} (hd : d ∈ s.held)
    (stopping : Bool) (readings : Nat) :
    ∃ x', (s.dispatch r stopping readings d).Sound x' := by
  obtain ⟨ws, hl, hsub, hack⟩ := h.judged hr hd
    ((RelayConfig.upTo r.limit).judge_judged r.registry stopping d (readings, s.ledger))
  unfold Pipeline.dispatch
  rw [RelayConfig.dispatch_eq]
  exact h.settle hd _ hl hsub hack

/-! ## Other steps -/

theorem write (h : s.Sound x) {l : TableLedger} {ws : List Writing} (hl : x.register.Wrote l ws)
    (hsub : x.writings ⊆ ws) : ({ s with ledger := l } : Pipeline).Sound { x with writings := ws } := by
  refine { h with wrote := hl, pending := ?_ }
  intro t ht hs
  rcases h.pending t ht hs with hw | hm
  · obtain ⟨w, hw, hrecord⟩ := List.mem_map.1 hw
    exact .inl (List.mem_map.2 ⟨w, hsub hw, hrecord⟩)
  · exact .inr hm

theorem attempt (h : s.Sound x) {d : Delivery} {e : Event} {now : Instant} {debit credit : Entry}
    {a : Except StoreError Nat × TableLedger} (hd : d ∈ s.held)
    (hkey : d.message.key = EventKind.success.key) (he : Event.decode d.message.body = .ok e)
    (hpair : Entry.pairOfEvent e now = .ok (debit, credit))
    (ha : TableLedger.Attempted [debit, credit] s.ledger a) :
    ∃ x', ({ s with ledger := a.2 } : Pipeline).Sound x' := by
  obtain ⟨t, ht, hmt⟩ := h.messages d.message (mem_messages_of_held hd)
  rw [hmt.2] at he
  rw [Event.eq_of_decode_encode he] at hpair
  rcases ha.snd with hl | hl
  · rw [hl]
    exact ⟨x, h⟩
  · rw [hl]
    obtain ⟨ws, hwrote, hsub, -⟩ := h.wrote.adding h.register ht (hmt.success hkey) hpair
    exact ⟨_, h.write hwrote hsub⟩

theorem drop (h : s.Sound x) {d : Delivery} (hd : d ∈ s.held) :
    ∃ x', (s.settle d .requeue).Sound x' :=
  h.settle hd .requeue h.wrote (List.Subset.refl _) fun hack => by cases hack

theorem delete (h : s.Sound x) (e : Engine) (now : Instant) (id : String) :
    ({ s with ledger := (TableLedger.softDelete e now id s.ledger).2 } : Pipeline).Sound x :=
  h.write ⟨h.wrote.holds.softDelete, h.wrote.committed⟩ (List.Subset.refl _)

theorem close (h : s.Sound x) :
    ({ s with broker := s.broker.close } : Pipeline).Sound { x with closed := true } :=
  { h with
    broker_eq := by
      rw [h.broker_eq]
      rfl }

theorem join (h : s.Sound x) {b : Broker} {limit : UInt32}
    (hb : (RelayConfig.upTo limit).declare s.broker = .ok b) :
    ({ s with broker := b } : Pipeline).Sound x := by
  rw [h.broker_eq, Broker.declare_wired, Except.ok.injEq] at hb
  rw [← hb, ← h.broker_eq]
  exact h

theorem restart (h : s.Sound x) {b : Broker} {limit : UInt32}
    (hb : (RelayConfig.upTo limit).declare .empty = .ok b) :
    ({ s with broker := b, held := [], announced := [] } : Pipeline).Sound
      ⟨x.register, x.writings, false, [], []⟩ where
  books_eq := h.books_eq
  reachable := h.reachable
  wrote := h.wrote
  broker_eq := (start_sound hb).broker_eq
  held := fun _ hd => nomatch hd
  messages := fun _ hm => nomatch hm
  announced := fun _ ht => nomatch ht
  pending := fun _ ht => nomatch ht

/-! ## Steps and runs -/

theorem step (h : s.Sound x) (hs : Step s s') : ∃ x', s'.Sound x' := by
  cases hs with
  | @called e c he now hc =>
    have hcall : x.register.Follows (s.books.perform e now c) := by
      rw [h.books_eq] at hc ⊢
      exact Register.perform_follows h.register he now hc
    obtain ⟨g, hg⟩ := h.follow hcall
    exact ⟨_, hg⟩
  | transferred hp he now newId r => exact h.transfer hp he now newId r
  | announced hp ht => exact h.announce hp (h.mem_records.1 ht)
  | pulled hd => exact h.pull hd
  | dispatched hr hd stopping readings => exact h.dispatch hr hd stopping readings
  | attempted hd hkey he hpair ha => exact h.attempt hd hkey he hpair ha
  | dropped hd => exact h.drop hd
  | deleted e now id => exact ⟨x, h.delete e now id⟩
  | closed => exact ⟨_, h.close⟩
  | joined limit hb => exact ⟨x, h.join hb⟩
  | restarted limit hb => exact ⟨_, h.restart hb⟩

end Sound

/-- Every pipeline is made of some parts. -/
theorem Reachable.sound (h : s.Reachable) : ∃ x, s.Sound x := by
  induction h with
  | start limit hb => exact ⟨_, start_sound hb⟩
  | step _ hs ih =>
    obtain ⟨x, hx⟩ := ih
    exact hx.step hs

end Pipeline

end TransferLedger
