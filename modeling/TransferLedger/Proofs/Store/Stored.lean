import TransferLedger.Proofs.Bank.Atomicity
import TransferLedger.Proofs.Bank.Progress
import TransferLedger.Proofs.Ledger.Acceptance
import TransferLedger.Proofs.Ledger.Listing
import TransferLedger.Proofs.Store.Columns

/-! # Stored values are read back

What is inserted under a new id is found there as it was, by the operation that reads it and by the query that
stands for it on columns of texts (`stores_read_back`). Its row is the one that was added
(`Bank.insertAccount_sound` and the like), and a row is read as the value it was made of.
-/

namespace TransferLedger
set_option autoImplicit false

/-! ## Accounts and records -/

namespace Bank

variable {b : Bank}

theorem insertAccount_sound {a : Account} (hnew : b.account? a.id = none) :
    insertAccount .sound a b = (.ok (), { b with accounts := b.accounts ++ [.ofAccount a] }) := by
  have hunit : insertAccountUnit .sound a b =
      .ok ((), { b with accounts := b.accounts ++ [.ofAccount a] }) := by
    rw [insertAccountUnit, hnew]
    rfl
  rw [insertAccount, hunit]
  rfl

/-- A live account is found once its row is added. -/
theorem liveAccount?_added {a : Account} (hnew : b.account? a.id = none) (hlive : a.deletedAt = none) :
    liveAccount? { b with accounts := b.accounts ++ [.ofAccount a] } a.id = some (.ofAccount a) := by
  have hnone : (b.accounts.find? fun r => r.id == a.id && r.isLive) = none := by
    refine List.find?_eq_none.2 fun r hr hfound => ?_
    rw [Bool.and_eq_true] at hfound
    exact List.find?_eq_none.1 hnew r hr hfound.1
  have hadded : ((AccountRow.ofAccount a).id == a.id && (AccountRow.ofAccount a).isLive) = true := by
    simp [AccountRow.ofAccount, AccountRow.isLive, hlive]
  rw [liveAccount?, List.find?_append, hnone, Option.none_or, List.find?_cons, hadded]

theorem insertTransaction_sound {t : Transaction} (hnew : b.transaction? t.id = none)
    (hfrom : (b.account? t.fromAccount).isSome = true) (hto : (b.account? t.toAccount).isSome = true) :
    insertTransaction .sound t b =
      (.ok (), { b with transactions := b.transactions ++ [.ofTransaction t] }) := by
  rw [insertTransaction, addTransaction_sound (account?_isSome hfrom) (account?_isSome hto), hnew]
  rfl

/-- The account is read from the columns of the one row with its id. -/
theorem account_read_back {a : Account} (htimes : a.Timed) (hlive : a.deletedAt = none)
    (hnew : b.account? a.id = none) : ∃ b', insertAccount .sound a b = (.ok (), b') ∧
      getAccount .sound a.id b' = .ok a ∧
      ((b'.selectAccount a.id).bind AccountRow.ofColumns?).map AccountRow.toAccount = some (.ok a) := by
  have hfound := liveAccount?_added hnew hlive
  refine ⟨_, insertAccount_sound hnew, ?_, ?_⟩
  · rw [getAccount, accountRow_eq Engine.sound_neverFails, hfound]
    exact AccountRow.toAccount_ofAccount a
  · rw [selectAccount_eq, hfound, Option.map_some, Option.bind_some, AccountRow.ofColumns?_columns htimes,
      Option.map_some, AccountRow.toAccount_ofAccount]

theorem transaction_read_back {t : Transaction} (htimes : t.Timed) (hnew : b.transaction? t.id = none)
    (hfrom : (b.account? t.fromAccount).isSome = true) (hto : (b.account? t.toAccount).isSome = true) :
    ∃ b', insertTransaction .sound t b = (.ok (), b') ∧ getTransaction .sound t.id b' = .ok t ∧
      ((b'.selectTransaction t.id).bind TransactionRow.ofColumns?).map TransactionRow.toTransaction =
        some (.ok t) := by
  refine ⟨_, insertTransaction_sound hnew hfrom hto, getTransaction_added hnew rfl, ?_⟩
  rw [selectTransaction_eq, transaction?_added hnew rfl, Option.map_some, Option.bind_some,
    TransactionRow.ofColumns?_columns htimes, Option.map_some, TransactionRow.toTransaction_ofTransaction]

end Bank

/-! ## Entries -/

namespace TableLedger

/-- Among the entries of a transaction, the one with a new id is the one that was added. -/
theorem filter_debitsFirst_added {es : List Entry} {x : Entry} (hnew : x.id ∉ es.map (·.id)) :
    (Entry.debitsFirst ((es ++ [x]).filter fun y => y.transactionId == x.transactionId)).filter
      (fun y => y.id == x.id) = [x] := by
  have hnone : es.filter (fun y => y.id == x.id) = [] := by
    refine List.filter_eq_nil_iff.2 fun y hy hid => hnew ?_
    rw [← beq_iff_eq.1 hid]
    exact List.mem_map_of_mem hy
  have hadded : (es ++ [x]).filter (fun y => y.id == x.id) = [x] := by
    rw [List.filter_append, hnone]
    simp
  have hperm := (debitsFirst_perm ((es ++ [x]).filter fun y => y.transactionId == x.transactionId)).filter
    fun y => y.id == x.id
  rw [List.filter_comm (l := es ++ [x]), hadded] at hperm
  simpa using hperm

/-- The columns of entries are read as these entries. -/
theorem mapM_ofColumns? {es : List Entry} (h : ∀ x ∈ es, x.Timed) :
    (es.map fun x => (EntryRow.ofEntry x).columns).mapM EntryRow.ofColumns? =
      some (es.map EntryRow.ofEntry) := by
  induction es with
  | nil => rfl
  | cons x es ih =>
    rw [List.map_cons, List.mapM_cons, EntryRow.ofColumns?_columns (h x List.mem_cons_self),
      ih fun y hy => h y (List.mem_cons_of_mem x hy)]
    rfl

theorem insertEntries_new {es : List Entry} {x : Entry} (hnew : x.id ∉ es.map (·.id)) :
    insertEntries .sound [x] (listing es) = (.ok 1, listing (es ++ [x])) := by
  have hnone : (listing es).row? x.id = none := by
    rw [row?_listing, Option.map_eq_none_iff, List.find?_eq_none]
    intro y hy hid
    exact hnew (beq_iff_eq.1 hid ▸ List.mem_map_of_mem hy)
  have hfresh : (listing es).fresh [x] = [x] := by
    rw [fresh, List.filter_cons_of_pos (by rw [hnone]; rfl), List.filter_nil]
  have hnodup : ([x].map (·.id)).Nodup := List.nodup_singleton x.id
  rw [insertEntries_sound hnodup, adding, hfresh, listing, listing, List.map_append]
  rfl

theorem entry_read_back {es : List Entry} {x : Entry} (htimes : ∀ y ∈ es ++ [x], y.Timed)
    (hnew : x.id ∉ es.map (·.id)) : ∃ l' found, insertEntries .sound [x] (listing es) = (.ok 1, l') ∧
      entriesByTransaction .sound x.transactionId l' = .ok found ∧
      found.filter (fun y => y.id == x.id) = [x] ∧
      ((l'.selectByTransaction x.transactionId).mapM EntryRow.ofColumns?).map
        (List.mapM EntryRow.toEntry) = some (.ok found) := by
  refine ⟨_, _, insertEntries_new hnew, entriesByTransaction_listing _ _,
    filter_debitsFirst_added hnew, ?_⟩
  have hfound : ∀ y ∈ Entry.debitsFirst
      ((es ++ [x]).filter fun y => y.transactionId == x.transactionId), y.Timed := fun y hy =>
    htimes y (List.mem_of_mem_filter ((debitsFirst_perm _).mem_iff.1 hy))
  rw [selectByTransaction_listing, mapM_ofColumns? hfound, Option.map_some, EntryRow.mapM_toEntry]

end TableLedger

/-- **The stores return what was put in.** Each value is read back equal, from its row and from the texts of its
columns. A zero has no sign: none is written, and one that was written is not read. -/
theorem stores_read_back :
    (∀ (b : Bank) (a : Account), a.Timed → a.deletedAt = none → b.account? a.id = none →
      ∃ b', Bank.insertAccount .sound a b = (.ok (), b') ∧ Bank.getAccount .sound a.id b' = .ok a ∧
        ((b'.selectAccount a.id).bind AccountRow.ofColumns?).map AccountRow.toAccount = some (.ok a)) ∧
    (∀ (b : Bank) (t : Transaction), t.Timed → b.transaction? t.id = none →
      (b.account? t.fromAccount).isSome = true → (b.account? t.toAccount).isSome = true →
      ∃ b', Bank.insertTransaction .sound t b = (.ok (), b') ∧
        Bank.getTransaction .sound t.id b' = .ok t ∧
        ((b'.selectTransaction t.id).bind TransactionRow.ofColumns?).map TransactionRow.toTransaction =
          some (.ok t)) ∧
    (∀ (es : List Entry) (x : Entry), (∀ y ∈ es ++ [x], y.Timed) → x.id ∉ es.map (·.id) →
      ∃ l' found, TableLedger.insertEntries .sound [x] (.listing es) = (.ok 1, l') ∧
        TableLedger.entriesByTransaction .sound x.transactionId l' = .ok found ∧
        found.filter (fun y => y.id == x.id) = [x] ∧
        ((l'.selectByTransaction x.transactionId).mapM EntryRow.ofColumns?).map
          (List.mapM EntryRow.toEntry) = some (.ok found)) ∧
    ∀ d : Decimal, d.mantissa = 0 → '-' ∉ d.text.toList ∧ Decimal.read ("-" ++ d.text) = .ok d := by
  refine ⟨fun b a htimes hlive hnew => Bank.account_read_back htimes hlive hnew,
    fun b t htimes hnew hfrom hto => Bank.transaction_read_back htimes hnew hfrom hto,
    fun es x htimes hnew => TableLedger.entry_read_back htimes hnew,
    fun d hd => ⟨fun hminus => ?_, Decimal.read_minus_text hd⟩⟩
  rw [Decimal.minus_mem_text_iff, hd] at hminus
  exact absurd hminus (by decide)

/-- The least decimal of the largest scale: 29 digits, 28 of them after the point. -/
def leastDecimal : Decimal := ⟨1 - Decimal.bound, Decimal.maxScale, by decide, by decide⟩

/-- A closed account at the edges of what can be stored. -/
def storedAccount (id : String) : Account :=
  { id := id, ownerId := "", name := "Zoë \"main\" \x00 account 😀", currency := "BTC"
    balance := leastDecimal, status := .closed, createdAt := ⟨-62167219200, 1⟩
    updatedAt := ⟨253402300799, 999999999⟩, deletedAt := none }

/-- A deleted entry with trailing zeros in its amount and a leap second. -/
def storedEntry : Entry :=
  { id := "t:debit", account := "a", transactionId := "t", side := .debit
    amount := ⟨15000000, 7, by decide, by decide⟩, balance := ⟨-15000000, 7, by decide, by decide⟩
    currency := "BTC", description := "", createdAt := ⟨1483228799, 1000000000⟩
    updatedAt := ⟨1483228800, 250000⟩, deletedAt := some ⟨1483228800, 250000000⟩ }

theorem sample_stores_read_back :
    (storedAccount "b").Timed ∧ storedEntry.Timed ∧
    (∃ b', Bank.insertAccount .sound (storedAccount "b") ⟨[.ofAccount (storedAccount "a")], []⟩ =
        (.ok (), b') ∧
      Bank.getAccount .sound "b" b' = .ok (storedAccount "b")) ∧
    (∃ l' found, TableLedger.insertEntries .sound [storedEntry]
        (.listing [{ storedEntry with id := "t:credit" }]) = (.ok 1, l') ∧
      TableLedger.entriesByTransaction .sound "t" l' = .ok found ∧
      found.filter (fun y => y.id == "t:debit") = [storedEntry]) ∧
    Decimal.read "-0.00" = .ok ⟨0, 2, by decide, by decide⟩ := by
  obtain ⟨haccounts, -, hentries, hzeros⟩ := stores_read_back
  have haccount : (storedAccount "b").Timed := by decide +kernel
  have htimes : ∀ y ∈ [{ storedEntry with id := "t:credit" }] ++ [storedEntry], y.Timed := by
    decide +kernel
  obtain ⟨b', hinsert, hget, -⟩ :=
    haccounts ⟨[.ofAccount (storedAccount "a")], []⟩ (storedAccount "b") haccount rfl (by decide +kernel)
  obtain ⟨l', found, hinserted, hfound, hone, -⟩ :=
    hentries [{ storedEntry with id := "t:credit" }] storedEntry htimes (by decide +kernel)
  have hzero := (hzeros ⟨0, 2, by decide, by decide⟩ rfl).2
  have htext : "-" ++ Decimal.text ⟨0, 2, by decide, by decide⟩ = "-0.00" := by decide +kernel
  rw [htext] at hzero
  exact ⟨haccount, htimes _ (by simp), ⟨b', hinsert, hget⟩, ⟨l', found, hinserted, hfound, hone⟩, hzero⟩

end TransferLedger
