import TransferLedger.Proofs.Ledger.Overflow
import TransferLedger.Proofs.Pipeline.DoubleEntry
import TransferLedger.Proofs.Pipeline.Report

/-! # When balances and reports are answered

No balance of the ledger and no report is refused, in whatever order events came, came twice or were lost, and
whatever entries were deleted. What may stand in the way is the arithmetic: partial sums that leave the range
of decimals, and a balance and a ledger balance that are too far apart (`Reachable.answers`). Entries that are
small enough together always have both. But partial sums depend on the order of the entries alone: a ledger
that is complete and whose sum is in range may still not answer (`sampleCrossed_overflows`).
-/

namespace TransferLedger.Pipeline
set_option autoImplicit false

variable {s : Pipeline} {x : Parts}

/-- What the entries of an account contribute, as the table adds it up. -/
def summands (entries : List Entry) (account : String) : List Decimal :=
  (Entry.newestOf entries account).map (·.balance)

/-- The account and the ledger are too far apart for a difference. -/
def Apart (s : Pipeline) (account : String) (balance : Decimal) : Prop :=
  ∃ ledger, s.ledger.accountBalance .sound account = .ok ledger ∧
    (Decimal.bound : ℚ) - 1 / 2 ≤ |balance.value - ledger.value|

theorem report_eq_error_iff {es : List Entry} {g : Register} (hg : g.Sound) {id : String} {a : Account}
    (ha : g.Live id a) (broker : Broker) {c : Halt ServiceError} :
    Reconciliation.report .sound id ⟨g.books.bank, .listing es, broker⟩ = .error c ↔
      (c = .overflow .addition ∧ Decimal.Overruns (summands es id)) ∨
      (c = .overflow .subtraction ∧ ∃ ledger, TableLedger.accountBalance .sound id (.listing es) = .ok ledger ∧
        (Decimal.bound : ℚ) - 1 / 2 ≤ |a.balance.value - ledger.value|) := by
  rw [Reconciliation.report_eq es hg ha, Reconciliation.ledgerBalance]
  cases hsum : TableLedger.accountBalance .sound id (.listing es) with
  | error cause =>
    obtain ⟨rfl, hover⟩ := TableLedger.accountBalance_eq_error_iff.1 hsum
    constructor
    · rintro ⟨⟩
      exact .inl ⟨rfl, hover⟩
    · rintro (⟨rfl, -⟩ | ⟨-, ledger, hledger, -⟩)
      · rfl
      · cases hledger
  | ok ledger =>
    have hwithin : ¬ Decimal.Overruns (summands es id) := by
      intro hover
      rw [TableLedger.accountBalance_eq_error_iff.2 ⟨rfl, hover⟩] at hsum
      cases hsum
    simp only [bind, Except.bind, Except.mapError, Except.ok.injEq]
    cases hsub : a.balance.sub ledger with
    | error o =>
      obtain ⟨rfl, hfar⟩ := Decimal.sub_eq_error_iff_abs.1 hsub
      constructor
      · rintro ⟨⟩
        exact .inr ⟨rfl, ledger, rfl, hfar⟩
      · rintro (⟨-, hover⟩ | ⟨rfl, -⟩)
        · exact absurd hover hwithin
        · rfl
    | ok opening =>
      refine iff_of_false ?_ ?_
      · rintro ⟨⟩
      rintro (⟨-, hover⟩ | ⟨-, _, rfl, hfar⟩)
      · exact hwithin hover
      · rw [Decimal.sub_eq_error_iff_abs.2 ⟨rfl, hfar⟩] at hsub
        cases hsub

/-- Small contributions are added up, and small differences are worked out. -/
theorem exists_report {es : List Entry} {g : Register} (hg : g.Sound) (hscale : ∀ e ∈ es, e.balance.scale ≤ 8)
    {id : String} {a : Account} (ha : g.Live id a) (broker : Broker)
    (hsmall : (a.balance.value + ((Entry.contributions es id).map fun d => |d.value|).sum) * 10 ^ 8 <
      2 ^ 96) :
    ∃ r, Reconciliation.report .sound id ⟨g.books.bank, .listing es, broker⟩ = .ok r := by
  have hperm := (Entry.newestOf_perm es id).map (·.balance)
  have hscales : ∀ d ∈ summands es id, d.scale ≤ 8 := by
    intro d hd
    obtain ⟨e, he, rfl⟩ := List.mem_map.1 (hperm.mem_iff.1 hd)
    exact hscale e (List.mem_of_mem_filter he)
  obtain ⟨hnonneg, hown⟩ := hg.balances a ha.mem
  have habs := Decimal.sum_abs_value fun d hd => hscales d (hperm.mem_iff.2 hd)
  rw [Decimal.magnitude_perm hperm.symm] at habs
  have hunits := Decimal.abs_value_units hown
  rw [abs_of_nonneg (Decimal.value_nonneg hnonneg)] at hunits
  have hfit : (a.balance.units 8).natAbs + Decimal.magnitude 8 (summands es id) < Decimal.bound := by
    rw [add_mul, hunits] at hsmall
    have hbound : (Decimal.bound : ℚ) = 2 ^ 96 := by norm_num [Decimal.bound]
    rw [← hbound] at hsmall
    have hcast : (((a.balance.units 8).natAbs + Decimal.magnitude 8 (summands es id) : ℕ) : ℚ) <
        Decimal.bound := by
      push_cast
      exact habs ▸ hsmall
    exact_mod_cast hcast
  obtain ⟨total, hsum, htotal, hvalue⟩ := Decimal.sum_units (by decide) hscales (by omega)
  have hmagnitude := Decimal.natAbs_sum_le_magnitude 8 (summands es id)
  rw [← hvalue] at hmagnitude
  obtain ⟨opening, hsub, -⟩ := Decimal.sub?_units (by decide) hown htotal (by omega)
  have hbalance : TableLedger.accountBalance .sound id (.listing es) = .ok total := by
    have hsum : Decimal.sum ((Entry.newestOf es id).map (·.balance)) = .ok total := hsum
    rw [TableLedger.accountBalance_eq, hsum]
    rfl
  exact ⟨_, Reconciliation.report_eq_ok es hg ha broker hbalance (Decimal.sub_eq_ok.2 hsub)⟩

theorem Reachable.answers (h : s.Reachable) :
    ∃ entries, s.ledger.rows.mapM EntryRow.toEntry = .ok entries ∧
      (∀ account c, s.ledger.accountBalance .sound account = .error c ↔
        c = .overflow .addition ∧ Decimal.Overruns (summands entries account)) ∧
      (∀ m : MemoryLedger, m.Indexed → m.entries = entries → ∀ account o,
        m.accountBalance account = .error o ↔
          o = .addition ∧ Decimal.Overruns (Entry.contributions entries account)) ∧
      ∀ row ∈ s.books.bank.accounts, row.isLive = true →
        ∃ balance, readDecimalColumn row.balance = .ok balance ∧
          (∀ c, Reconciliation.report .sound row.id s.world = .error c ↔
            (c = .overflow .addition ∧ Decimal.Overruns (summands entries row.id)) ∨
            (c = .overflow .subtraction ∧ s.Apart row.id balance)) ∧
          ((balance.value + ((Entry.contributions entries row.id).map fun d => |d.value|).sum) * 10 ^ 8 <
              2 ^ 96 →
            ∃ r, Reconciliation.report .sound row.id s.world = .ok r) := by
  obtain ⟨x, hx⟩ := h.sound
  obtain ⟨es, hledger, hes⟩ := hx.exists_listing
  have hg := hx.register
  have hw := hx.wrote
  rw [hledger] at hw
  have hworld : s.world = ⟨x.register.books.bank, .listing es, s.broker⟩ := by
    rw [world, hx.bank_eq, hledger]
  refine ⟨es, by rw [hledger]; exact EntryRow.mapM_toEntry es, ?_, ?_, ?_⟩
  · intro account c
    rw [hledger]
    exact TableLedger.accountBalance_eq_error_iff
  · rintro m hm rfl account o
    exact hm.accountBalance_eq_error_iff
  · intro row hrow hlive
    obtain ⟨a, rfl, ha⟩ := hx.exists_live hrow hlive
    refine ⟨a.balance, readDecimalColumn_text a.balance, ?_, ?_⟩
    · intro c
      rw [hworld, Apart, hledger]
      exact report_eq_error_iff hg ha s.broker
    · intro hsmall
      rw [hworld]
      exact exists_report hg (hw.scale_le hg hes) ha s.broker hsmall

theorem sample_answers : sample.Reachable ∧
    ∃ entries, sample.ledger.rows.mapM EntryRow.toEntry = .ok entries ∧
      ∀ account c, sample.ledger.accountBalance .sound account = .error c ↔
        c = .overflow .addition ∧ Decimal.Overruns (summands entries account) := by
  obtain ⟨entries, hentries, hbalance, -⟩ := Reachable.answers sample_reachable
  exact ⟨sample_reachable, entries, hentries, hbalance⟩

/-! ## Crossed events -/

/-- A relay takes the next announcement, if there is one, and dispatches it. -/
def relayed (r : LedgerRelay) (s : Pipeline) : Pipeline :=
  match s.broker.pull consumerQueue with
  | .ok (some d, b) => dispatch r false 0 d { s with broker := b, held := s.held ++ [d] }
  | _ => s

theorem Reachable.relayed (h : s.Reachable) {r : LedgerRelay} (hr : r.Proper) :
    (s.relayed r).Reachable := by
  unfold Pipeline.relayed
  split
  · next d b hpull =>
    exact (h.step (.pulled hpull)).step
      (.dispatched hr (List.mem_append_right _ List.mem_cons_self) false 0)
  · exact h

/-- The broker is lost, and another one is set up. -/
def rewired (s : Pipeline) : Pipeline :=
  { s with
    broker := .wired false [] []
    held := []
    announced := [] }

/-- A relay whose clock stands still. -/
def relayAt (seconds : Int) : LedgerRelay := { LedgerRelay.sound with clock := fun _ => ⟨seconds, 0⟩ }

theorem relayAt_proper (seconds : Int) : (relayAt seconds).Proper :=
  ⟨LedgerRelay.sound_proper.faulty, LedgerRelay.sound_proper.passive⟩

/-- Alice has all that an account can have. -/
def sampleRich : Books :=
  Books.empty
  |>.perform .sound default (.openAccount "" ⟨"alice", "a", "", "EUR", "79228162514264337593543950335"⟩)
  |>.perform .sound default (.openAccount "" ⟨"bob", "b", "", "EUR", ""⟩)

/-- All that there is. -/
def sampleFortune : Decimal := ⟨79228162514264337593543950335, 0, by decide, Decimal.zero.scale_le⟩

def sampleRecord (id sender receiver : String) : Transaction :=
  ⟨id, sender, receiver, "transfer", sampleFortune, "EUR", "", .success, default, default⟩

def samplePay (id sender receiver : String) (s : Pipeline) : Pipeline :=
  s.transfer .direct .sound default id ⟨sender, receiver, sampleFortune.text, "EUR", "", ""⟩

/-- All of it goes to Bob, back to Alice, and to Bob again; the first event is lost, and delivered after
the second when it is announced again. -/
def sampleCrossed : Pipeline :=
  { start (.wired false [] []) with books := sampleRich }
  |>.samplePay "t" "alice" "bob"
  |>.rewired
  |>.samplePay "u" "bob" "alice"
  |>.relayed (relayAt 1)
  |>.announce .direct (sampleRecord "t" "alice" "bob")
  |>.relayed (relayAt 2)
  |>.samplePay "v" "alice" "bob"
  |>.relayed (relayAt 3)

theorem Reachable.samplePay (h : s.Reachable) (id sender receiver : String) :
    (s.samplePay id sender receiver).Reachable :=
  h.step (.transferred Publisher.direct_bestEffort Engine.sound_keepsInserts default _ _)

theorem Reachable.report_overflows (h : s.Reachable) {row : AccountRow}
    (hrow : row ∈ s.books.bank.accounts) (hlive : row.isLive = true)
    (hsum : s.ledger.accountBalance .sound row.id = .error (.overflow .addition)) :
    Reconciliation.report .sound row.id s.world = .error (.overflow .addition) := by
  obtain ⟨x, hx⟩ := h.sound
  obtain ⟨es, hledger, -⟩ := hx.exists_listing
  obtain ⟨a, rfl, ha⟩ := hx.exists_live hrow hlive
  rw [hledger] at hsum
  rw [world, hx.bank_eq, hledger]
  exact (report_eq_error_iff hx.register ha s.broker).2
    (.inl ⟨rfl, (TableLedger.accountBalance_eq_error_iff.1 hsum).2⟩)

theorem sampleCrossed_reachable : sampleCrossed.Reachable := by
  have he := Engine.sound_keepsInserts
  have hrich : sampleRich.Reachable := by
    refine .step (.step .start he default ?_) he default ?_
    · exact trivial
    · exact trivial
  have hlost := ((reachable_of_books (Broker.declare_empty 5) hrich).samplePay "t" "alice" "bob").step
    (.restarted 5 (Broker.declare_empty 5))
  have hsecond := (hlost.samplePay "u" "bob" "alice").relayed (relayAt_proper 1)
  have hagain := hsecond.step (.announced Publisher.direct_bestEffort
    (t := sampleRecord "t" "alice" "bob") (by decide +kernel))
  exact ((hagain.relayed (relayAt_proper 2)).samplePay "v" "alice" "bob").relayed (relayAt_proper 3)

/-- Both sides of all three transfers, as they were written. -/
def sampleWritten : List Entry :=
  [⟨sampleRecord "u" "bob" "alice", ⟨1, 0⟩⟩, ⟨sampleRecord "t" "alice" "bob", ⟨2, 0⟩⟩,
    ⟨sampleRecord "v" "alice" "bob", ⟨3, 0⟩⟩].flatMap Writing.pair

theorem sampleCrossed_ledger : sampleCrossed.ledger = .listing sampleWritten := by decide +kernel

theorem sampleWritten_balance :
    TableLedger.accountBalance .sound "bob" (.listing sampleWritten) = .error (.overflow .addition) := by
  have hrising : ((TableLedger.listing sampleWritten).rows.filter
      fun r => r.account == "bob" && r.isLive).Pairwise fun r r' => r.notOlder r' = false := by
    decide +kernel
  rw [TableLedger.accountBalance_of_rising hrising]
  decide +kernel

/-- The ledger is complete, and what it has of Bob comes to what he has. -/
theorem sampleCrossed_overflows : sampleCrossed.Reachable ∧
    sampleCrossed.books.bank.transactions.map (·.id) = ["t", "u", "v"] ∧
    (∀ id ∈ ["t", "u", "v"], sampleCrossed.ledger.liveCount id = 2) ∧
    (Entry.contributions sampleWritten "bob").map (·.value) = [-sampleFortune.value,
      sampleFortune.value, sampleFortune.value] ∧
    sampleCrossed.ledger = .listing sampleWritten ∧
    sampleCrossed.ledger.accountBalance .sound "bob" = .error (.overflow .addition) ∧
    ∃ row ∈ sampleCrossed.books.bank.accounts, row.isLive = true ∧ row.id = "bob" ∧
      row.balance = sampleFortune.text ∧
      Reconciliation.report .sound row.id sampleCrossed.world = .error (.overflow .addition) := by
  have hbank : sampleCrossed.books.bank.transactions.map (·.id) = ["t", "u", "v"] ∧
      ∃ row ∈ sampleCrossed.books.bank.accounts, row.isLive = true ∧ row.id = "bob" ∧
        row.balance = sampleFortune.text := by
    decide +kernel
  obtain ⟨hids, row, hrow, hlive, hid, hbalance⟩ := hbank
  refine ⟨sampleCrossed_reachable, hids, ?_, ?_, sampleCrossed_ledger, ?_, row, hrow, hlive, hid, hbalance,
    ?_⟩
  · rw [sampleCrossed_ledger]
    decide +kernel
  · have hcontributions : Entry.contributions sampleWritten "bob" =
        [sampleFortune.neg, sampleFortune, sampleFortune] := by decide +kernel
    rw [hcontributions, ← Decimal.neg_value]
    rfl
  · rw [sampleCrossed_ledger]
    exact sampleWritten_balance
  · apply sampleCrossed_reachable.report_overflows hrow hlive
    rw [hid, sampleCrossed_ledger]
    exact sampleWritten_balance

end TransferLedger.Pipeline
