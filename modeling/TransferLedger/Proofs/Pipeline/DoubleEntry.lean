import TransferLedger.Proofs.Ledger.Reading
import TransferLedger.Proofs.Pipeline.Invariant

/-! # Double entry

However often the announcements of records are delivered, by whichever relays, and whatever attempts to
insert their pairs fail before or after they were applied: the entries of a transaction are none or two,
the debit and the credit of a committed transfer that is on record, and what all entries contribute,
deleted ones included, cancels out.
-/

namespace TransferLedger
set_option autoImplicit false

/-- The entries are the debit and the credit of this record, of its amount and of one time. -/
structure Transaction.Booked (t : Transaction) (debit credit : Entry) : Prop where
  sides : debit.side = .debit ∧ credit.side = .credit
  transactions : debit.transactionId = t.id ∧ credit.transactionId = t.id
  accounts : debit.account = t.fromAccount ∧ credit.account = t.toAccount
  amounts : debit.amount = t.amount ∧ credit.amount = t.amount
  contributions : debit.balance = t.amount.neg ∧ credit.balance = t.amount
  currencies : debit.currency = t.currency ∧ credit.currency = t.currency
  descriptions : debit.description = t.description ∧ credit.description = t.description
  created : debit.createdAt = credit.createdAt

namespace Writing

/-- Marks of deletion do not matter to whether entries are those of a record. -/
theorem booked {w : Writing} {debit credit : Entry} (hd : debit.original = w.entry .debit)
    (hc : credit.original = w.entry .credit) : w.record.Booked debit credit where
  sides := ⟨congrArg Entry.side hd, congrArg Entry.side hc⟩
  transactions := ⟨congrArg Entry.transactionId hd, congrArg Entry.transactionId hc⟩
  accounts := ⟨congrArg Entry.account hd, congrArg Entry.account hc⟩
  amounts := ⟨congrArg Entry.amount hd, congrArg Entry.amount hc⟩
  contributions := ⟨congrArg Entry.balance hd, congrArg Entry.balance hc⟩
  currencies := ⟨congrArg Entry.currency hd, congrArg Entry.currency hc⟩
  descriptions := ⟨congrArg Entry.description hd, congrArg Entry.description hc⟩
  created := (congrArg Entry.createdAt hd).trans (congrArg Entry.createdAt hc).symm

/-- The two contributions of a writing cancel out. -/
theorem sum_pair (w : Writing) : (w.pair.map (·.balance.value)).sum = 0 := by
  have hdebit : (w.entry .debit).balance = w.record.amount.neg := rfl
  have hcredit : (w.entry .credit).balance = w.record.amount := rfl
  simp only [pair, List.map_cons, List.map_nil, List.sum_cons, List.sum_nil, hdebit, hcredit,
    Decimal.neg_value]
  ring

theorem sum_pairs (ws : List Writing) : ((ws.flatMap pair).map (·.balance.value)).sum = 0 := by
  induction ws with
  | nil => rfl
  | cons w ws ih => rw [List.flatMap_cons, List.map_append, List.sum_append, sum_pair, ih, add_zero]

end Writing

/-- The contributions of entries in pairs cancel out. -/
theorem Entry.Pairing.sum_balances {es : List Entry} {ws : List Writing} (h : Pairing es ws) :
    (es.map (·.balance.value)).sum = 0 := by
  have hmap : es.map (·.balance.value) = (es.map original).map (·.balance.value) := by
    rw [List.map_map]
    rfl
  rw [hmap, h.originals, Writing.sum_pairs]

namespace Pipeline

variable {s : Pipeline} {x : Parts}

/-- A committed transfer that is on record. -/
def Committed (s : Pipeline) (t : Transaction) : Prop :=
  .ofTransaction t ∈ s.books.bank.transactions ∧ t.status = .success

/-- These are all entries of the ledger, and they are entered twice: for every transaction none or the
debit and the credit of the committed transfer of this id. -/
structure DoubleEntry (s : Pipeline) (entries : List Entry) : Prop where
  read : s.ledger.rows.mapM EntryRow.toEntry = .ok entries
  each : ∀ id, entries.filter (fun e => e.transactionId == id) = [] ∨
    ∃ t debit credit, entries.filter (fun e => e.transactionId == id) = [debit, credit] ∧
      t.id = id ∧ s.Committed t ∧ t.Booked debit credit
  recorded : ∀ e ∈ entries, ∃ t, t.id = e.transactionId ∧ s.Committed t
  balanced : (entries.map (·.balance.value)).sum = 0

theorem Sound.bank_eq (h : s.Sound x) : s.books.bank = x.register.books.bank :=
  congrArg Books.bank h.books_eq

/-- Behind a row of a live account stands the account. -/
theorem Sound.exists_live (h : s.Sound x) {row : AccountRow} (hrow : row ∈ s.books.bank.accounts)
    (hlive : row.isLive = true) : ∃ a, row = .ofAccount a ∧ x.register.Live a.id a := by
  rw [h.bank_eq] at hrow
  obtain ⟨a, ha, rfl⟩ := List.mem_map.1 hrow
  exact ⟨a, rfl, ha, rfl, Option.isNone_iff_eq_none.1 hlive⟩

/-- Behind the ledger of a pipeline stands a list of entries in pairs. -/
theorem Sound.exists_listing (h : s.Sound x) :
    ∃ es, s.ledger = .listing es ∧ Entry.Pairing es x.writings :=
  h.wrote.holds.exists_listing

theorem Sound.committed (h : s.Sound x) {w : Writing} (hw : w ∈ x.writings) :
    s.Committed w.record :=
  ⟨h.mem_records.2 (h.wrote.committed w hw).1, (h.wrote.committed w hw).2⟩

theorem Reachable.double_entry (h : s.Reachable) : ∃ entries, s.DoubleEntry entries := by
  obtain ⟨x, hx⟩ := h.sound
  obtain ⟨es, hledger, hes⟩ := hx.exists_listing
  refine ⟨es, ?_, ?_, ?_, hes.sum_balances⟩
  · rw [hledger]
    exact EntryRow.mapM_toEntry es
  · intro id
    by_cases hid : id ∈ x.writings.map (·.record.id)
    · obtain ⟨w, hw, rfl⟩ := List.mem_map.1 hid
      obtain ⟨debit, credit, hfilter, hdebit, hcredit⟩ := hes.written hw
      exact .inr ⟨w.record, debit, credit, hfilter, rfl, hx.committed hw,
        Writing.booked hdebit hcredit⟩
    · exact .inl (hes.absent hid)
  · intro e he
    obtain ⟨w, hw, side, hside⟩ := hes.exists_writing he
    exact ⟨w.record, (congrArg Entry.transactionId hside).symm, hx.committed hw⟩

/-- The transfer of the sample has its two entries. -/
theorem sample_double_entry : (∃ entries, sample.DoubleEntry entries) ∧
    sample.ledger.rows.map (fun r => (r.account, r.side, r.balance)) =
      [("alice", "debit", "-3.25"), ("bob", "credit", "3.25")] :=
  ⟨Reachable.double_entry sample_reachable, by decide +kernel⟩

end Pipeline

end TransferLedger
