import TransferLedger.Proofs.Books.Overdraft

/-! # Transfers stay within one currency

The currency of a transfer is compared with those of its two accounts when the transfer is planned, and
never again: the unit that carries it out does not look at currencies, nor at whether the accounts differ
(`Books.sample_unchecked`). That every record names two accounts of its currency all the same
(`Register.Denominated`) is because an account keeps its id and its currency for good, and no id is given
twice (`Register.Step.holds`).
-/

namespace TransferLedger
set_option autoImplicit false

/-- A record of a positive amount between two accounts that have a row and hold its currency. -/
structure Transaction.WithinCurrency (t : Transaction) (b : Bank) (sender receiver : AccountRow) :
    Prop where
  distinct : t.fromAccount ≠ t.toAccount
  sender_found : b.account? t.fromAccount = some sender
  receiver_found : b.account? t.toAccount = some receiver
  sender_currency : Text.sameIgnoringCase sender.currency t.currency = true
  receiver_currency : Text.sameIgnoringCase receiver.currency t.currency = true
  same_currency : Text.sameIgnoringCase sender.currency receiver.currency = true
  positive : 0 < t.amount.value
  scale_le : t.amount.scale ≤ 8
  typed : t.type ≠ ""

theorem Text.sameIgnoringCase_of_common {s t u : String} (hs : sameIgnoringCase s u = true)
    (ht : sameIgnoringCase t u = true) : sameIgnoringCase s t = true := by
  rw [sameIgnoringCase, beq_iff_eq] at hs ht ⊢
  rw [hs, ht]

/-! ## What accounts hold -/

namespace Register

variable {g g' : Register}

/-- There is an account of this id, deleted or not, and it holds this currency. -/
def Holds (g : Register) (id currency : String) : Prop :=
  ∃ a ∈ g.accounts, a.id = id ∧ Text.sameIgnoringCase a.currency currency = true

theorem Live.holds {id currency : String} {a : Account} (h : g.Live id a)
    (hc : Text.sameIgnoringCase a.currency currency = true) : g.Holds id currency :=
  ⟨a, h.mem, h.id_eq, hc⟩

theorem Holds.map {id currency : String} (h : g.Holds id currency) {f : Account → Account}
    (hid : ∀ a, (f a).id = a.id) (hcurrency : ∀ a, (f a).currency = a.currency)
    (haccounts : g'.accounts = g.accounts.map f) : g'.Holds id currency := by
  obtain ⟨a, ha, rfl, hc⟩ := h
  refine ⟨f a, ?_, hid a, ?_⟩
  · rw [haccounts]
    exact List.mem_map_of_mem ha
  · rw [hcurrency]
    exact hc

theorem Step.holds (h : Step g g') {id currency : String} (hid : g.Holds id currency) :
    g'.Holds id currency := by
  cases h with
  | planned => exact hid
  | opened =>
    obtain ⟨a, ha, rest⟩ := hid
    exact ⟨a, List.mem_append_left _ ha, rest⟩
  | amended id m now =>
    refine hid.map ?_ ?_ rfl
    · intro a
      split
      · exact m.apply_id now a
      · rfl
    · intro a
      split
      · cases m <;> rfl
      · rfl
  | failed => exact hid
  | posted hp hnew m now =>
    refine hid.map (m.moved_id now) ?_ rfl
    intro a
    unfold Posting.moved
    split
    · rfl
    split <;> rfl

/-- Plans and records are in the currency of both of their accounts. -/
structure Denominated (g : Register) : Prop where
  plans : ∀ p ∈ g.plans, g.Holds p.fromAccount p.currency ∧ g.Holds p.toAccount p.currency
  records : ∀ t ∈ g.records, g.Holds t.fromAccount t.currency ∧ g.Holds t.toAccount t.currency

theorem Denominated.step (hg : g.Denominated) (h : Step g g') : g'.Denominated := by
  have hplans : ∀ p ∈ g.plans, g'.Holds p.fromAccount p.currency ∧ g'.Holds p.toAccount p.currency :=
    fun p hp => ⟨h.holds (hg.plans p hp).1, h.holds (hg.plans p hp).2⟩
  have hrecords : ∀ t ∈ g.records,
      g'.Holds t.fromAccount t.currency ∧ g'.Holds t.toAccount t.currency :=
    fun t ht => ⟨h.holds (hg.records t ht).1, h.holds (hg.records t ht).2⟩
  -- What is new is one plan, which was checked, or the record of a plan that is there.
  cases h with
  | planned newId hv hs hr hsf hrf hfunds =>
    refine ⟨?_, hrecords⟩
    intro p hp
    rcases List.mem_append.1 hp with hp | hp
    · exact hplans p hp
    · rw [List.mem_singleton.1 hp]
      exact ⟨hs.holds hsf.2, hr.holds hrf.2⟩
  | opened => exact ⟨hplans, hrecords⟩
  | amended => exact ⟨hplans, hrecords⟩
  | @failed p hp =>
    refine ⟨hplans, ?_⟩
    intro t ht
    rcases List.mem_append.1 ht with ht | ht
    · exact hrecords t ht
    · rw [List.mem_singleton.1 ht]
      exact hplans p hp
  | @posted p hp =>
    refine ⟨hplans, ?_⟩
    intro t ht
    rcases List.mem_append.1 ht with ht | ht
    · exact hrecords t ht
    · rw [List.mem_singleton.1 ht]
      exact hplans p hp

theorem Reachable.denominated (h : g.Reachable) : g.Denominated := by
  induction h with
  | refl => exact ⟨fun _ hp => (List.not_mem_nil hp).elim, fun _ ht => (List.not_mem_nil ht).elim⟩
  | tail _ hstep ih => exact ih.step hstep

/-! ## Records -/

theorem Sound.account? (hg : g.Sound) {a : Account} (ha : a ∈ g.accounts) :
    g.books.bank.account? a.id = some (.ofAccount a) := by
  cases hfind : g.books.bank.account? a.id with
  | none =>
    refine absurd ?_ (Bank.account?_eq_none hfind)
    rw [rows_ids]
    exact List.mem_map_of_mem ha
  | some row =>
    obtain ⟨hrow, hid⟩ := Bank.account?_eq_some hfind
    obtain ⟨b, hb, rfl⟩ := List.mem_map.1 hrow
    have heq : b = a := List.inj_on_of_nodup_map hg.accountIds hb ha hid
    rw [heq]

theorem Sound.withinCurrency (hg : g.Sound) (hd : g.Denominated) {t : Transaction}
    (ht : t ∈ g.records) : ∃ sender receiver, t.WithinCurrency g.books.bank sender receiver := by
  have hmov := hg.records t ht
  obtain ⟨⟨s, hs, hsid, hsc⟩, ⟨r, hr, hrid, hrc⟩⟩ := hd.records t ht
  exact ⟨.ofAccount s, .ofAccount r, {
    distinct := hmov.distinct
    sender_found := hsid ▸ hg.account? hs
    receiver_found := hrid ▸ hg.account? hr
    sender_currency := hsc
    receiver_currency := hrc
    same_currency := Text.sameIgnoringCase_of_common hsc hrc
    positive := Decimal.value_pos hmov.positive
    scale_le := hmov.scale_le
    typed := hmov.typed }⟩

theorem Sound.covered_one_currency (hg : g.Sound) (hd : g.Denominated) {p : TransferPlan}
    (hp : p ∈ g.plans) {b' : Bank} {now : Instant} {sender receiver : Account}
    (h : Covered g.books.bank b' p now sender receiver) :
    Text.sameIgnoringCase sender.currency receiver.currency = true := by
  obtain ⟨s, hs, hsrow⟩ := liveAccount?_books h.sender_found
  obtain ⟨r, hr, hrrow⟩ := liveAccount?_books h.receiver_found
  rw [AccountRow.ofAccount_injective hsrow, AccountRow.ofAccount_injective hrrow]
  -- Ids are unique, so these are the accounts that the plan was checked against.
  obtain ⟨⟨s', hs', hsid, hsc⟩, ⟨r', hr', hrid, hrc⟩⟩ := hd.plans p hp
  have hseq : s = s' := List.inj_on_of_nodup_map hg.accountIds hs.mem hs' (hs.id_eq.trans hsid.symm)
  have hreq : r = r' := List.inj_on_of_nodup_map hg.accountIds hr.mem hr' (hr.id_eq.trans hrid.symm)
  rw [hseq, hreq]
  exact Text.sameIgnoringCase_of_common hsc hrc

end Register

namespace Books

def sampleAstray : TransferPlan :=
  ⟨"u", "alice", "alice", "transfer", ⟨1, 1, by decide, by decide⟩, "USD", ""⟩

/-- The unit carries out what no check of a request would let pass. -/
theorem sample_unchecked : sampleAstray.fromAccount = sampleAstray.toAccount ∧
    (∀ a ∈ sample.bank.accounts,
      Text.sameIgnoringCase a.currency sampleAstray.currency = false) ∧
    (sample.bank.applyTransfer .sound default sampleAstray).1 =
      .ok (sampleAstray.record .success default) := by
  refine ⟨rfl, ?_, ?_⟩
  · decide +kernel
  · decide +kernel

theorem Reachable.one_currency {s : Books} (h : s.Reachable) :
    (∀ row ∈ s.bank.transactions, row.status = TransactionStatus.success.name →
      ∃ t sender receiver, row.toTransaction = .ok t ∧ t.status = .success ∧
        t.WithinCurrency s.bank sender receiver) ∧
    (∀ (e : Engine) (now : Instant) (p : TransferPlan) (t : Transaction) (b' : Bank),
      e.KeepsInserts → p ∈ s.plans → Transfer.commit e now p s.bank = (.ok t, b') →
        ∃ sender receiver, Covered s.bank b' p now sender receiver ∧
          Text.sameIgnoringCase sender.currency receiver.currency = true) ∧
    ∃ (b : Bank) (p : TransferPlan) (t : Transaction), p.fromAccount = p.toAccount ∧
      (∀ a ∈ b.accounts, Text.sameIgnoringCase a.currency p.currency = false) ∧
      (b.applyTransfer .sound default p).1 = .ok t := by
  obtain ⟨g, hreach, rfl⟩ := h.register
  have hg := Register.Reachable.sound hreach
  have hd := Register.Reachable.denominated hreach
  refine ⟨?_, ?_, _, _, _, sample_unchecked⟩
  · intro row hrow hstatus
    obtain ⟨t, ht, rfl⟩ := List.mem_map.1 hrow
    obtain ⟨sender, receiver, hwithin⟩ := hg.withinCurrency hd ht
    exact ⟨t, sender, receiver, TransactionRow.toTransaction_ofTransaction t,
      TransactionStatus.name_injective hstatus, hwithin⟩
  · intro e now p t b' he hp hcommit
    obtain ⟨-, m, -, rfl⟩ := Transfer.commit_eq_ok he hcommit
    obtain ⟨sender, receiver, hcovered⟩ := hg.covered hp m now
    exact ⟨sender, receiver, hcovered, hg.covered_one_currency hd hp hcovered⟩

/-- The transfer of the sample asked for `eur` between two accounts in `EUR`. -/
theorem sample_one_currency :
    ∃ row ∈ sample.bank.transactions, row.status = TransactionStatus.success.name ∧
      ∃ t sender receiver, row.toTransaction = .ok t ∧ t.status = .success ∧
        t.WithinCurrency sample.bank sender receiver := by
  obtain ⟨hrecords, -, -⟩ := Reachable.one_currency sample_reachable
  have hmem : .ofTransaction (samplePlan.record .success default) ∈ sample.bank.transactions := by
    decide +kernel
  exact ⟨_, hmem, rfl, hrecords _ hmem rfl⟩

end Books

end TransferLedger
