import TransferLedger.Proofs.Books.Accepted

/-! # The early look and the look under the lock

A request is looked at twice: when its plan is drawn, over accounts, and by the unit that commits the plan,
over rows. The unit has no eye for currencies and the early look none for the record; for a request in the
currency of its accounts and an id that is not taken, both refuse the same requests with the same errors
(`Books.Reachable.checks_agree`). Each of them is compared with `Bank.examineTransfer`: the early look
answers what the examination answers (`Register.prepare_eq_examination`), and a commit is refused exactly
by the examination (`Transfer.commit_refused_iff`).
-/

namespace TransferLedger
set_option autoImplicit false

/-! ## Commits -/

theorem Bank.applyTransfer_of_refused {b : Bank} {p : TransferPlan} {c : BankError}
    (h : b.examineTransfer .sound p = .error c) (now : Instant) :
    b.applyTransfer .sound now p = (.error (.refused c), b) := by
  have hbegin : (Engine.sound.ask 0 .beginUnit).mapError
      (fun cause => Halt.refused (BankError.database cause)) = .ok () := rfl
  rw [applyTransfer, transferUnit, hbegin, h]
  rfl

/-- Once the examination is passed the unit may still overflow, but it is not refused any more. -/
theorem Transfer.commit_refused_iff {b : Bank} (hids : (b.accounts.map (·.id)).Nodup)
    {p : TransferPlan} (hne : p.fromAccount ≠ p.toAccount) (hamount : 0 ≤ p.amount.mantissa)
    (hnew : b.transaction? p.transactionId = none) (now : Instant) (e : TransferError) :
    (commit .sound now p b).1 = .error (.refused e) ↔
      (b.examineTransfer .sound p).mapError (.ofBank "commit transfer") = .error e := by
  unfold commit
  cases hexamine : b.examineTransfer .sound p with
  | error c =>
    rw [Bank.applyTransfer_of_refused hexamine]
    simp [Except.mapError, Halt.map]
  | ok found =>
    obtain ⟨sender, receiver, senderBalance, receiverBalance⟩ := found
    obtain ⟨hs, hr, hst, hrt, hsb, hrb, hfunds⟩ := Bank.examineTransfer_eq_ok hexamine
    obtain ⟨debited, hdebited⟩ := Decimal.exists_sub? hamount hfunds
    let x : Bank.Examined b p := ⟨sender, receiver, senderBalance, receiverBalance, debited, hs, hr,
      hst, hrt, hsb, hrb, hfunds, Decimal.sub_eq_ok.2 hdebited⟩
    have hcommit := x.applyTransfer_eq hids hne now
    rw [hnew] at hcommit
    rw [hcommit]
    cases x.receiverBalance.add p.amount with
    | error o => exact iff_of_false nofun nofun
    | ok credited => exact iff_of_false nofun nofun

/-! ## Plans -/

namespace ValidTransfer

/-- The accounts of the transfer that are live hold its currency, letter case aside. -/
def MatchesCurrency (v : ValidTransfer) (b : Bank) : Prop :=
  ∀ id row, id = v.fromAccount ∨ id = v.toAccount → b.liveAccount? id = some row →
    Text.sameIgnoringCase row.currency v.currency = true

theorem checkAccount_eq {v : ValidTransfer} {a : Account}
    (h : Text.sameIgnoringCase a.currency v.currency = true) (operation : String) :
    v.checkAccount a =
      (Bank.checkTransferable (.ofAccount a)).mapError (.ofBank operation) := by
  have hrow : (AccountRow.ofAccount a).isTransferable = a.transferable := by
    cases a with
    | mk id ownerId name currency balance status createdAt updatedAt deletedAt =>
      cases status <;> rfl
  unfold checkAccount Bank.checkTransferable
  rw [hrow, h]
  cases a.transferable <;> rfl

end ValidTransfer

namespace Register

variable (g : Register)

theorem accountRow_eq (n : Nat) (id : String) :
    (Bank.accountRow .sound n id g.books.bank = .error (.notFound .account id) ∧
      Transfer.loadAccount .sound id g.books.bank = .error (.accountNotFound id)) ∨
    ∃ a, g.books.bank.liveAccount? id = some (.ofAccount a) ∧
      Bank.accountRow .sound n id g.books.bank = .ok (.ofAccount a) ∧
      Transfer.loadAccount .sound id g.books.bank = .ok a := by
  have hload : Transfer.loadAccount .sound id g.books.bank =
      ((Bank.accountRow .sound 0 id g.books.bank) >>= AccountRow.toAccount).mapError
        (.ofBank "load account") := rfl
  rw [hload, Bank.accountRow_eq Engine.sound_neverFails, Bank.accountRow_eq Engine.sound_neverFails]
  cases hfound : g.books.bank.liveAccount? id with
  | none => exact .inl ⟨rfl, rfl⟩
  | some row =>
    obtain ⟨a, -, rfl⟩ := liveAccount?_books hfound
    refine .inr ⟨a, rfl, rfl, ?_⟩
    simp only [bind, Except.bind, AccountRow.toAccount_ofAccount]
    rfl

theorem prepare_eq_examination {r : TransferRequest} {v : ValidTransfer} (hv : r.validate = .ok v)
    (hcurrency : v.MatchesCurrency g.books.bank) (newId : String) :
    Transfer.prepare .sound newId r g.books.bank =
      ((g.books.bank.examineTransfer .sound (v.plan newId)).mapError (.ofBank "commit transfer")).map
        fun _ => v.plan newId := by
  have hafter : Engine.sound.after 1 = .sound := rfl
  have hfrom : (v.plan newId).fromAccount = v.fromAccount := rfl
  have hto : (v.plan newId).toAccount = v.toAccount := rfl
  have hamount : (v.plan newId).amount = v.amount.value := rfl
  unfold Transfer.prepare Bank.examineTransfer
  rw [hv, hafter, hfrom, hto, hamount]
  obtain ⟨hs, hs'⟩ | ⟨sender, hsender, hs, hs'⟩ := g.accountRow_eq 1 v.fromAccount
  · simp only [bind, Except.bind, hs, hs']
    rfl
  obtain ⟨hr, hr'⟩ | ⟨receiver, hreceiver, hr, hr'⟩ := g.accountRow_eq 2 v.toAccount
  · simp only [bind, Except.bind, hs, hs', hr, hr']
    rfl
  have hscurrency : Text.sameIgnoringCase sender.currency v.currency = true :=
    hcurrency v.fromAccount (.ofAccount sender) (.inl rfl) hsender
  have hrcurrency : Text.sameIgnoringCase receiver.currency v.currency = true :=
    hcurrency v.toAccount (.ofAccount receiver) (.inr rfl) hreceiver
  have hscheck := v.checkAccount_eq hscurrency "commit transfer"
  have hrcheck := v.checkAccount_eq hrcurrency "commit transfer"
  have hsbalance : readDecimalColumn (AccountRow.ofAccount sender).balance = .ok sender.balance :=
    readDecimalColumn_text sender.balance
  have hrbalance : readDecimalColumn (AccountRow.ofAccount receiver).balance =
      .ok receiver.balance := readDecimalColumn_text receiver.balance
  simp only [bind, Except.bind, hs, hs', hr, hr', hscheck, hrcheck, hsbalance, hrbalance]
  -- The two looks now go through the same checks in the same order.
  cases Bank.checkTransferable (.ofAccount sender) with
  | error c => rfl
  | ok _ =>
    cases Bank.checkTransferable (.ofAccount receiver) with
    | error c => rfl
    | ok _ =>
      simp only [Except.mapError]
      cases sender.balance.below v.amount.value <;> rfl

end Register

/-! ## Agreement -/

namespace Books

theorem Reachable.checks_agree {s : Books} (h : s.Reachable) {r : TransferRequest}
    {v : ValidTransfer} (hv : r.validate = .ok v) (hcurrency : v.MatchesCurrency s.bank)
    {newId : String} (hnew : s.bank.transaction? newId = none) (now : Instant) (e : TransferError) :
    Transfer.prepare .sound newId r s.bank = .error e ↔
      (Transfer.commit .sound now (v.plan newId) s.bank).1 = .error (.refused e) := by
  obtain ⟨g, hreach, rfl⟩ := h.register
  have hids : (g.books.bank.accounts.map (·.id)).Nodup := by
    rw [Register.rows_ids]
    exact (Register.Reachable.sound hreach).accountIds
  have hne : (v.plan newId).fromAccount ≠ (v.plan newId).toAccount :=
    (TransferRequest.validate_eq_ok hv).1
  have hamount : 0 ≤ (v.plan newId).amount.mantissa := v.amount.positive.le
  rw [Transfer.commit_refused_iff hids hne hamount hnew, g.prepare_eq_examination hv hcurrency]
  cases (g.books.bank.examineTransfer .sound (v.plan newId)).mapError
      (TransferError.ofBank "commit transfer") with
  | error c => simp [Except.map]
  | ok found => simp [Except.map]

/-- Alice has 10.50. -/
def sampleGreedy : TransferRequest := ⟨"alice", "bob", "11", "EUR", "", ""⟩

theorem sample_checks_agree :
    ∃ v, sampleGreedy.validate = .ok v ∧ v.MatchesCurrency samplePlanned.bank ∧
      samplePlanned.bank.transaction? "t" = none ∧
      (Transfer.prepare .sound "t" sampleGreedy samplePlanned.bank =
          .error (.insufficientFunds "alice" ⟨1050, 2, by decide, by decide⟩
            ⟨11, 0, by decide, by decide⟩) ↔
        (Transfer.commit .sound default (v.plan "t") samplePlanned.bank).1 =
          .error (.refused (.insufficientFunds "alice" ⟨1050, 2, by decide, by decide⟩
            ⟨11, 0, by decide, by decide⟩))) := by
  have hvalid : sampleGreedy.validate = .ok ⟨"alice", "bob", ⟨⟨11, 0, by decide, by decide⟩,
      by decide, by decide⟩, "EUR", "transfer", ""⟩ := by decide +kernel
  have hrows : ∀ row ∈ samplePlanned.bank.accounts,
      Text.sameIgnoringCase row.currency "EUR" = true := by decide +kernel
  have hcurrency : ValidTransfer.MatchesCurrency ⟨"alice", "bob", ⟨⟨11, 0, by decide, by decide⟩,
      by decide, by decide⟩, "EUR", "transfer", ""⟩ samplePlanned.bank := by
    intro id row _ hrow
    exact hrows row (Bank.liveAccount?_eq_some hrow).1
  have hnew : samplePlanned.bank.transaction? "t" = none := by decide +kernel
  exact ⟨_, hvalid, hcurrency, hnew,
    samplePlanned_reachable.checks_agree hvalid hcurrency hnew default _⟩

end Books

end TransferLedger
