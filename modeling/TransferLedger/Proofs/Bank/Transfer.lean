import Mathlib.Data.List.Nodup
import TransferLedger.Bank.Transfer
import TransferLedger.Proofs.Bank.Operations

/-! # What a transfer unit does

A unit that is carried out is a `Movement`: the two rows it found under the lock, the balances it read
and the balances it wrote. `applyTransfer_eq_ok` says that every successful unit is the result of
such a movement, `applyTransfer_eq_error` that every other unit leaves the bank as it was. Where ids
are unique the result is one write for each of the two accounts (`Movement.result_accounts`).
-/

namespace TransferLedger.Bank
set_option autoImplicit false

/-! ## Movements -/

/-- Writes a balance into a row. -/
def rebalanced (balance : Decimal) (now : Instant) (r : AccountRow) : AccountRow :=
  { r with balance := balance.text, updatedAt := now }

theorem rebalanced_id (balance : Decimal) (now : Instant) (r : AccountRow) :
    (rebalanced balance now r).id = r.id := rfl

/-- What the unit of a plan found in the bank and worked out before it wrote. -/
structure Movement (b : Bank) (p : TransferPlan) where
  sender : AccountRow
  receiver : AccountRow
  senderBalance : Decimal
  receiverBalance : Decimal
  debited : Decimal
  credited : Decimal
  sender_found : b.liveAccount? p.fromAccount = some sender
  receiver_found : b.liveAccount? p.toAccount = some receiver
  sender_transferable : sender.isTransferable = true
  receiver_transferable : receiver.isTransferable = true
  senderBalance_read : readDecimalColumn sender.balance = .ok senderBalance
  receiverBalance_read : readDecimalColumn receiver.balance = .ok receiverBalance
  funded : senderBalance.below p.amount = false
  debited_eq : senderBalance.sub p.amount = .ok debited
  credited_eq : receiverBalance.add p.amount = .ok credited
  record_new : b.transaction? p.transactionId = none

namespace Movement

variable {b : Bank} {p : TransferPlan}

/-- The row is one that a balance may be written to. -/
def isActive (condition : AccountRow → Bool) (r : AccountRow) : Bool :=
  r.status == AccountStatus.active.name && condition r

/-- Each of the two writes concerned one row; the debit comes first. -/
def Sole (m : Movement b p) (now : Instant) : Prop :=
  b.accounts.countP (fun r => r.id == m.sender.id && r.isLive &&
    isActive (fun r => r.balance == m.sender.balance) r) = 1 ∧
  (b.change m.sender.id (isActive fun r => r.balance == m.sender.balance)
    (rebalanced m.debited now)).accounts.countP (fun r => r.id == m.receiver.id && r.isLive &&
      isActive (fun _ => true) r) = 1

/-- The bank after the movement: debit, credit and the record of the transfer. -/
def result (m : Movement b p) (now : Instant) : Bank :=
  let debit := b.change m.sender.id (isActive fun r => r.balance == m.sender.balance)
    (rebalanced m.debited now)
  let credit := debit.change m.receiver.id (isActive fun _ => true) (rebalanced m.credited now)
  { credit with transactions := b.transactions ++ [.ofTransaction (p.record .success now)] }

theorem sender_id (m : Movement b p) : m.sender.id = p.fromAccount :=
  (liveAccount?_eq_some m.sender_found).2.1

theorem receiver_id (m : Movement b p) : m.receiver.id = p.toAccount :=
  (liveAccount?_eq_some m.receiver_found).2.1

end Movement

/-! ## The unit -/

theorem checkTransferable_eq_ok {r : AccountRow} {u : Unit} (h : checkTransferable r = .ok u) :
    r.isTransferable = true := by
  unfold checkTransferable at h
  split at h
  · assumption
  · cases h

theorem setBalance_eq_ok {e : Engine} {n : Nat} {id : String} {condition : AccountRow → Bool}
    {balance : Decimal} {now : Instant} {b b' : Bank}
    (h : setBalance e n id condition balance now b = .ok b') :
    b.accounts.countP (fun r => r.id == id && r.isLive && Movement.isActive condition r) = 1 ∧
      b' = b.change id (Movement.isActive condition) (rebalanced balance now) := by
  unfold setBalance at h
  obtain ⟨⟨k, b₁⟩, hk, h⟩ := bind_eq_ok.1 h
  simp only at h
  split at h
  · next hone =>
    cases h
    rcases updateAccounts_eq_ok hk with ⟨h0, -⟩ | ⟨hcount, hb⟩
    · omega
    · exact ⟨hcount.symm.trans hone, hb⟩
  · cases h

theorem examineTransfer_eq_ok {e : Engine} {p : TransferPlan} {b : Bank}
    {sender receiver : AccountRow} {senderBalance receiverBalance : Decimal}
    (h : examineTransfer e p b = .ok (sender, receiver, senderBalance, receiverBalance)) :
    b.liveAccount? p.fromAccount = some sender ∧ b.liveAccount? p.toAccount = some receiver ∧
      sender.isTransferable = true ∧ receiver.isTransferable = true ∧
      readDecimalColumn sender.balance = .ok senderBalance ∧
      readDecimalColumn receiver.balance = .ok receiverBalance ∧
      senderBalance.below p.amount = false := by
  unfold examineTransfer at h
  obtain ⟨s, hs, h⟩ := bind_eq_ok.1 h
  obtain ⟨r, hr, h⟩ := bind_eq_ok.1 h
  obtain ⟨_, hst, h⟩ := bind_eq_ok.1 h
  obtain ⟨_, hrt, h⟩ := bind_eq_ok.1 h
  obtain ⟨sb, hsb, h⟩ := bind_eq_ok.1 h
  obtain ⟨rb, hrb, h⟩ := bind_eq_ok.1 h
  split at h
  · cases h
  · next hfunds =>
    cases h
    exact ⟨accountRow_eq_ok hs, accountRow_eq_ok hr, checkTransferable_eq_ok hst,
      checkTransferable_eq_ok hrt, hsb, hrb, by simpa using hfunds⟩

theorem transferUnit_eq_ok {e : Engine} (he : e.KeepsInserts) {now : Instant} {p : TransferPlan}
    {b b' : Bank} {t : Transaction} (h : transferUnit e now p b = .ok (t, b')) :
    t = p.record .success now ∧ ∃ m : Movement b p, m.Sole now ∧ b' = m.result now := by
  unfold transferUnit at h
  obtain ⟨_, -, h⟩ := bind_eq_ok.1 h
  obtain ⟨⟨sender, receiver, senderBalance, receiverBalance⟩, hexamine, h⟩ := bind_eq_ok.1 h
  obtain ⟨debited, hdebited, h⟩ := bind_eq_ok.1 h
  obtain ⟨b₁, hdebit, h⟩ := bind_eq_ok.1 h
  obtain ⟨credited, hcredited, h⟩ := bind_eq_ok.1 h
  obtain ⟨b₂, hcredit, h⟩ := bind_eq_ok.1 h
  obtain ⟨⟨_, b₃⟩, hrecord, h⟩ := bind_eq_ok.1 h
  obtain ⟨_, -, h⟩ := bind_eq_ok.1 h
  obtain ⟨hs, hr, hst, hrt, hsb, hrb, hfunds⟩ :=
    examineTransfer_eq_ok (mapError_eq_ok.1 hexamine)
  obtain ⟨hnew, -, -, hb₃⟩ := addTransaction_eq_ok he (mapError_eq_ok.1 hrecord)
  obtain ⟨hone₁, hb₁⟩ := setBalance_eq_ok (mapError_eq_ok.1 hdebit)
  obtain ⟨hone₂, hb₂⟩ := setBalance_eq_ok (mapError_eq_ok.1 hcredit)
  simp only [Except.ok.injEq, Prod.mk.injEq] at h
  obtain ⟨rfl, rfl⟩ := h
  subst hb₁ hb₂ hb₃
  exact ⟨rfl, ⟨sender, receiver, senderBalance, receiverBalance, debited, credited, hs, hr, hst, hrt,
    hsb, hrb, hfunds, mapError_eq_ok.1 hdebited, mapError_eq_ok.1 hcredited, hnew⟩,
    ⟨hone₁, hone₂⟩, rfl⟩

theorem applyTransfer_eq_ok {e : Engine} (he : e.KeepsInserts) {now : Instant} {p : TransferPlan}
    {b b' : Bank} {t : Transaction} (h : applyTransfer e now p b = (.ok t, b')) :
    t = p.record .success now ∧ ∃ m : Movement b p, m.Sole now ∧ b' = m.result now :=
  transferUnit_eq_ok he (atomically_eq_ok h)

theorem applyTransfer_eq_error {e : Engine} {now : Instant} {p : TransferPlan} {b b' : Bank}
    {c : Halt BankError} (h : applyTransfer e now p b = (.error c, b')) : b' = b :=
  (atomically_eq_error h).2

/-! ## Unique ids -/

theorem eq_of_id_eq {rows : List AccountRow} (hids : (rows.map (·.id)).Nodup) {r s : AccountRow}
    (hr : r ∈ rows) (hs : s ∈ rows) (h : r.id = s.id) : r = s :=
  List.inj_on_of_nodup_map hids hr hs h

/-- Where ids are unique, one row is concerned by what looks for the id of a row that satisfies the condition. -/
theorem countP_target {b : Bank} (hids : (b.accounts.map (·.id)).Nodup) {r : AccountRow}
    (hr : r ∈ b.accounts) (hlive : r.isLive = true) {condition : AccountRow → Bool}
    (hcondition : condition r = true) :
    b.accounts.countP (fun x => x.id == r.id && x.isLive && condition x) = 1 := by
  rw [← List.count_eq_one_of_mem hids.of_map hr, List.count_eq_countP]
  apply List.countP_congr
  intro x hx
  rw [beq_iff_eq]
  constructor
  · intro h
    simp only [Bool.and_eq_true, beq_iff_eq] at h
    exact eq_of_id_eq hids hx hr h.1.1
  · rintro rfl
    rw [beq_self_eq_true, hlive, hcondition]
    rfl

namespace Movement

variable {b : Bank} {p : TransferPlan}

/-- What the movement makes of a row where ids are unique. -/
def moved (m : Movement b p) (now : Instant) (r : AccountRow) : AccountRow :=
  if r.id = p.fromAccount then rebalanced m.debited now r
  else if r.id = p.toAccount then rebalanced m.credited now r
  else r

theorem result_accounts (m : Movement b p) (now : Instant) (hne : p.fromAccount ≠ p.toAccount)
    (hids : (b.accounts.map (·.id)).Nodup) :
    (m.result now).accounts = b.accounts.map (m.moved now) := by
  have hs := liveAccount?_eq_some m.sender_found
  have hr := liveAccount?_eq_some m.receiver_found
  have hst := m.sender_transferable
  have hrt := m.receiver_transferable
  simp only [AccountRow.isTransferable, Bool.and_eq_true] at hst hrt
  simp only [result, change, List.map_map]
  apply List.map_congr_left
  intro r hmem
  simp only [Function.comp_apply, moved, isActive, m.sender_id, m.receiver_id]
  by_cases hfrom : r.id = p.fromAccount
  · -- The row is the sender's, so it satisfies the condition of the debit.
    have heq : r = m.sender := eq_of_id_eq hids hmem hs.1 (hfrom.trans hs.2.1.symm)
    subst heq
    simp [hfrom, hne, hst, rebalanced]
  · by_cases hto : r.id = p.toAccount
    · have heq : r = m.receiver := eq_of_id_eq hids hmem hr.1 (hto.trans hr.2.1.symm)
      subst heq
      simp [hto, hrt, Ne.symm hne]
    · simp [hfrom, hto]

end Movement

end TransferLedger.Bank
