import TransferLedger.Proofs.Bank.Progress
import TransferLedger.Proofs.Books.Exact

/-! # Accepted plans

Everything that the unit of a transfer checks has been checked when its plan was drawn, and the difference
on the sender's side always has a decimal. The sum on the receiver's side is examined by nobody. So a plan
that is committed at once, while no statement fails, is carried out exactly if the receiver's new balance
fits into a decimal and the id is not taken (`Books.Reachable.accepted_commits`); otherwise the addition
overflows (`Books.sampleVast_overflows`).
-/

namespace TransferLedger
set_option autoImplicit false

namespace Register

variable {g : Register}

theorem isTransferable_ofAccount {a : Account} (h : a.transferable = true) :
    (AccountRow.ofAccount a).isTransferable = true := by
  simp only [Account.transferable, Bool.and_eq_true, beq_iff_eq] at h
  rw [AccountRow.isTransferable, Bool.and_eq_true, beq_iff_eq]
  exact ⟨congrArg AccountStatus.name h.1, h.2⟩

/-- A plan that is drawn has passed all that the unit will look at. -/
theorem exists_examined {e : Engine} {newId : String} {r : TransferRequest} {p : TransferPlan}
    (h : Transfer.prepare e newId r g.books.bank = .ok p) :
    ∃ (receiver : Account) (x : Bank.Examined g.books.bank p), g.Live p.toAccount receiver ∧
      x.receiver = .ofAccount receiver ∧ x.receiverBalance = receiver.balance := by
  obtain ⟨v, s, t, -, rfl, ⟨srow, hs, hsa⟩, ⟨trow, ht, hta⟩, hsf, htf, hfunds⟩ :=
    Transfer.prepare_eq_ok h
  obtain ⟨sender, -, rfl⟩ := liveAccount?_books hs
  obtain ⟨receiver, hlive, rfl⟩ := liveAccount?_books ht
  rw [AccountRow.toAccount_ofAccount, Except.ok.injEq] at hsa hta
  subst hsa hta
  obtain ⟨debited, hdebited⟩ := Decimal.exists_sub? v.amount.positive.le hfunds
  exact ⟨receiver, {
    sender := .ofAccount sender
    receiver := .ofAccount receiver
    senderBalance := sender.balance
    receiverBalance := receiver.balance
    debited := debited
    sender_found := hs
    receiver_found := ht
    sender_transferable := isTransferable_ofAccount hsf.1
    receiver_transferable := isTransferable_ofAccount htf.1
    senderBalance_read := readDecimalColumn_text sender.balance
    receiverBalance_read := readDecimalColumn_text receiver.balance
    funded := hfunds
    debited_eq := Decimal.sub_eq_ok.2 hdebited }, hlive, rfl, rfl⟩

end Register

namespace Books

theorem Reachable.accepted_commits {s : Books} (h : s.Reachable) {e : Engine} {newId : String}
    {r : TransferRequest} {p : TransferPlan} (hp : Transfer.prepare e newId r s.bank = .ok p)
    (now : Instant) :
    ∃ receiver, s.bank.liveAccount? p.toAccount = some (.ofAccount receiver) ∧
      ((∃ t, (Transfer.commit .sound now p s.bank).1 = .ok t) ↔
        receiver.balance.SumFits p.amount ∧ s.bank.transaction? newId = none) ∧
      (¬ receiver.balance.SumFits p.amount →
        Transfer.commit .sound now p s.bank = (.error (.overflow .addition), s.bank)) ∧
      (receiver.balance.SumFits p.amount → (s.bank.transaction? newId).isSome →
        Transfer.commit .sound now p s.bank = (.error (.refused (.internal "commit transfer"
          (.alreadyExists .transaction newId))), s.bank)) := by
  obtain ⟨g, hreach, rfl⟩ := h.register
  have hg := Register.Sound.step (Register.Reachable.sound hreach) (Register.prepare_follows hp)
  have hids : (g.books.bank.accounts.map (·.id)).Nodup := by
    rw [Register.rows_ids]
    exact hg.accountIds
  have hmov := hg.plans p (by simp)
  obtain ⟨receiver, x, hlive, hrow, hbalance⟩ := Register.exists_examined hp
  have hbalanceNonneg := (hg.balances receiver hlive.mem).1
  have hamountNonneg := hmov.positive.le
  have hcommit := x.applyTransfer_eq hids hmov.distinct now
  rw [hbalance, Transfer.prepare_id hp] at hcommit
  refine ⟨receiver, hrow ▸ x.receiver_found, ?_⟩
  unfold Transfer.commit
  rw [hcommit]
  cases hadd : receiver.balance.add p.amount with
  | error o =>
    obtain ⟨rfl, hnot⟩ := (Decimal.add_eq_error_iff hbalanceNonneg hamountNonneg).1 hadd
    exact ⟨iff_of_false nofun fun h => hnot h.1, fun _ => rfl, fun h => absurd h hnot⟩
  | ok credited =>
    have hfits := Decimal.sumFits_of_add hbalanceNonneg hamountNonneg hadd
    refine ⟨?_, fun h => absurd hfits h, ?_⟩
    · cases hfound : g.books.bank.transaction? newId with
      | none => exact iff_of_true ⟨_, rfl⟩ ⟨hfits, rfl⟩
      | some row => exact iff_of_false nofun fun h => nomatch h.2
    · intro _ htaken
      simp only [htaken, if_true]
      rfl

theorem sample_accepted_commits :
    Transfer.prepare .sound "t" sampleRequest samplePlanned.bank = .ok samplePlan ∧
    ∃ receiver, samplePlanned.bank.liveAccount? samplePlan.toAccount = some (.ofAccount receiver) ∧
      ((∃ t, (Transfer.commit .sound default samplePlan samplePlanned.bank).1 = .ok t) ↔
        receiver.balance.SumFits samplePlan.amount ∧
          samplePlanned.bank.transaction? "t" = none) := by
  have hp : Transfer.prepare .sound "t" sampleRequest samplePlanned.bank = .ok samplePlan := by
    decide +kernel
  obtain ⟨receiver, hfound, hcommits, -⟩ :=
    samplePlanned_reachable.accepted_commits hp default
  exact ⟨hp, receiver, hfound, hcommits⟩

/-! ## A plan that cannot be carried out -/

/-- A plan of more than half a unit to the account with the largest balance. -/
def sampleExcess : TransferPlan :=
  ⟨"t", "alice", "bob", "transfer", ⟨150000, 5, by decide, by decide⟩, "EUR", ""⟩

theorem sampleVast_overflows : sampleVast.Reachable ∧
    Transfer.prepare .sound "t" ⟨"alice", "bob", "1.50000", "EUR", "", ""⟩ sampleVast.bank =
      .ok sampleExcess ∧
    sampleVast.bank.transaction? "t" = none ∧
    Transfer.commit .sound default sampleExcess sampleVast.bank =
      (.error (.overflow .addition), sampleVast.bank) := by
  refine ⟨sampleVast_reachable, ?_, ?_, ?_⟩
  · decide +kernel
  · decide +kernel
  · decide +kernel

end Books

end TransferLedger
