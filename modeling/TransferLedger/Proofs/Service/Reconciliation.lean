import TransferLedger.Proofs.Books.Queries
import TransferLedger.Proofs.Broker.Relay
import TransferLedger.Proofs.Ledger.Reading

/-! # What replaying and reconciling do

On the books of a register and a ledger that lists some entries, where no statement fails:

* `replayMissing_eq`: a replay announces the committed transfers that the ledger does not have two entries
  of (`TableLedger.unentered`), oldest first, and does nothing else.
* `report_eq_ok`: the report of an account is its balance, that of the ledger, their difference, and the
  committed transfers of the account that the ledger does not have two live entries of
  (`TableLedger.incomplete`). The two sums may overflow; nothing else can go wrong (`report_eq`).
-/

namespace TransferLedger
set_option autoImplicit false

namespace TableLedger

/-- The records that the table does not have two entries of, deleted ones included. -/
def unentered (l : TableLedger) (records : List Transaction) : List Transaction :=
  records.filter fun t => l.count t.id ≠ 2

/-- The records that the table does not have two live entries of. -/
def incomplete (l : TableLedger) (records : List Transaction) : List Transaction :=
  records.filter fun t => l.liveCount t.id ≠ 2

end TableLedger

namespace Reconciliation

open TableLedger

variable (es : List Entry) {g : Register}

theorem entriesOf_listing (n : Nat) (id : String) :
    entriesOf (Engine.sound.after n) (listing es) id =
      .ok (Entry.debitsFirst (es.filter fun x => x.transactionId == id)) := by
  have hread : (listing es).entriesByTransaction (Engine.sound.after n) id = _ :=
    entriesByTransaction_listing es id
  rw [entriesOf, hread]
  rfl

/-! ## Replaying -/

/-- The messages that announce some records. -/
def announcements (records : List Transaction) : List Message :=
  records.map fun t => Broker.messageOf (.ofTransaction t)

theorem replayEach_listing (dead : List Message) : ∀ (records : List Transaction) (n : Nat)
    (ready : List Message), replayEach .sound (listing es) n records (.wired false dead ready) =
      (.ok (((listing es).unentered records).map (·.id)),
        .wired false dead (ready ++ announcements ((listing es).unentered records)))
  | [], _, ready => by
    rw [replayEach, unentered, List.filter_nil, announcements, List.map_nil, List.map_nil, List.append_nil]
  | t :: records, n, ready => by
    have hlength : (Entry.debitsFirst (es.filter fun x => x.transactionId == t.id)).length =
        (listing es).count t.id := by
      rw [(debitsFirst_perm _).length_eq, count_listing]
    rw [replayEach, entriesOf_listing]
    simp only [hlength]
    by_cases htwo : (listing es).count t.id = 2
    · have hnone : (listing es).unentered (t :: records) = (listing es).unentered records :=
        List.filter_cons_of_neg (by simpa using htwo)
      rw [if_pos htwo, hnone]
      exact replayEach_listing dead records (n + 1) ready
    · have hone : (listing es).unentered (t :: records) = t :: (listing es).unentered records :=
        List.filter_cons_of_pos (by simpa using htwo)
      rw [if_neg htwo, hone, Transactions.announce, Broker.wired_publishBestEffort,
        if_neg Bool.false_ne_true]
      simp only
      rw [replayEach_listing dead records (n + 1)]
      simp only [announcements, List.map_cons, List.append_assoc, List.singleton_append, if_true]

/-- The committed transfers whose entries are missing are announced, oldest first. -/
theorem replayMissing_eq (g : Register) (dead ready : List Message) :
    replayMissing .sound ⟨g.books.bank, listing es, .wired false dead ready⟩ =
      (.ok (((listing es).unentered g.committed).map (·.id)),
        ⟨g.books.bank, listing es,
          .wired false dead (ready ++ announcements ((listing es).unentered g.committed))⟩) := by
  have hrecords : Transactions.successful Engines.sound.bank g.books.bank = .ok g.committed :=
    g.successful_eq
  have heach : replayEach Engines.sound.ledger (listing es) 0 g.committed (.wired false dead ready) = _ :=
    replayEach_listing es dead g.committed 0 ready
  simp only [replayMissing, hrecords, heach]

/-! ## Reports -/

theorem missingIds_listing (k : Nat) : ∀ (records : List Transaction) (n : Nat),
    missingIds (Engine.sound.after k) (listing es) n records =
      .ok (((listing es).incomplete records).map (·.id))
  | [], _ => rfl
  | t :: records, n => by
    have hcount : (Entry.debitsFirst (es.filter fun x => x.transactionId == t.id)).countP
        (fun x => !x.isDeleted) = (listing es).liveCount t.id := by
      rw [(debitsFirst_perm _).countP_eq, liveCount_listing]
    have hentries : entriesOf ((Engine.sound.after k).after n) (listing es) t.id = _ :=
      entriesOf_listing es n t.id
    rw [missingIds, hentries, missingIds_listing k records (n + 1)]
    simp only [bind, Except.bind, hcount, Except.ok.injEq]
    by_cases htwo : (listing es).liveCount t.id = 2
    · have hnone : (listing es).incomplete (t :: records) = (listing es).incomplete records :=
        List.filter_cons_of_neg (by simpa using htwo)
      rw [if_pos htwo, hnone]
    · have hone : (listing es).incomplete (t :: records) = t :: (listing es).incomplete records :=
        List.filter_cons_of_pos (by simpa using htwo)
      rw [if_neg htwo, hone, List.map_cons]

/-- The committed transfers of an account, newest first. -/
def committedOf (g : Register) (id : String) : List Transaction :=
  (g.recordsOf id).filter fun t => t.status == .success

theorem mem_committedOf {t : Transaction} {id : String} :
    t ∈ committedOf g id ↔ t ∈ g.records ∧ t.touches id = true ∧ t.status = .success := by
  rw [committedOf, List.mem_filter, Register.mem_recordsOf, beq_iff_eq, and_assoc]

/-- The report of an account, once both sums are known. -/
def reportOf (g : Register) (l : TableLedger) (a : Account) (balance opening : Decimal) :
    ReconciliationReport where
  account := a.id
  currency := a.currency
  accountBalance := a.balance
  ledgerBalance := balance
  openingBalance := opening
  successful := (committedOf g a.id).length
  missing := (l.incomplete (committedOf g a.id)).map (·.id)

/-- Only the two sums can fail. -/
theorem report_eq (hg : g.Sound) {id : String} {a : Account} (ha : g.Live id a) (broker : Broker) :
    report .sound id ⟨g.books.bank, listing es, broker⟩ = (do
      let balance ← ledgerBalance .sound (listing es) id
      let opening ← (a.balance.sub balance).mapError Halt.overflow
      .ok (reportOf g (listing es) a balance opening)) := by
  have hget : Accounts.get Engines.sound.bank id g.books.bank = .ok a := hg.get ha
  have hrecords : Accounts.transactions (Engines.sound.bank.after 1) id g.books.bank =
      .ok (g.recordsOf id) := hg.transactions ha
  have hledger : ledgerBalance Engines.sound.ledger (listing es) id =
      ledgerBalance .sound (listing es) id := rfl
  have hmissing : missingIds (Engines.sound.ledger.after 1) (listing es) 0
      ((g.recordsOf id).filter fun t => t.status == .success) = _ :=
    missingIds_listing es 1 (committedOf g id) 0
  have hid := ha.id_eq
  subst hid
  rw [report, hget, hrecords, hledger]
  simp only [bind, Except.bind, Except.mapError, hmissing]
  rfl

/-- If neither sum overflows there is a report. -/
theorem report_eq_ok (hg : g.Sound) {id : String} {a : Account} (ha : g.Live id a) (broker : Broker)
    {balance opening : Decimal} (hbalance : (listing es).accountBalance .sound id = .ok balance)
    (hopening : a.balance.sub balance = .ok opening) :
    report .sound id ⟨g.books.bank, listing es, broker⟩ =
      .ok (reportOf g (listing es) a balance opening) := by
  rw [report_eq es hg ha, ledgerBalance, hbalance]
  simp only [bind, Except.bind, Except.mapError, hopening]

end Reconciliation

end TransferLedger
