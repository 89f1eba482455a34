import TransferLedger.Proofs.Bank.Transfer

/-! # What a transfer unit comes to where no statement fails

The checks of the unit are those a `Movement` lists. Where ids are unique and no statement fails, a unit
that passes the look at both accounts (`Examined`) comes to its end but for two obstacles: the credit may
not fit into a decimal, and the id of the record may be taken (`Examined.applyTransfer_eq`).
-/

namespace TransferLedger.Bank
set_option autoImplicit false

/-- Both accounts of a plan were found, are fit for the transfer, and the sender can pay for it. -/
structure Examined (b : Bank) (p : TransferPlan) where
  sender : AccountRow
  receiver : AccountRow
  senderBalance : Decimal
  receiverBalance : Decimal
  debited : Decimal
  sender_found : b.liveAccount? p.fromAccount = some sender
  receiver_found : b.liveAccount? p.toAccount = some receiver
  sender_transferable : sender.isTransferable = true
  receiver_transferable : receiver.isTransferable = true
  senderBalance_read : readDecimalColumn sender.balance = .ok senderBalance
  receiverBalance_read : readDecimalColumn receiver.balance = .ok receiverBalance
  funded : senderBalance.below p.amount = false
  debited_eq : senderBalance.sub p.amount = .ok debited

/-! ## Statements that do not fail -/

/-- Setting the balance of a row that satisfies the condition concerns that row alone. -/
theorem setBalance_sound {b : Bank} (hids : (b.accounts.map (·.id)).Nodup) {r : AccountRow}
    (hr : r ∈ b.accounts) (hlive : r.isLive = true) {condition : AccountRow → Bool}
    (hactive : Movement.isActive condition r = true) (n : Nat) (balance : Decimal) (now : Instant) :
    setBalance .sound n r.id condition balance now b =
      .ok (b.change r.id (Movement.isActive condition) (rebalanced balance now)) := by
  have hone := countP_target hids hr hlive hactive
  show (if b.accounts.countP (fun x => x.id == r.id && x.isLive && Movement.isActive condition x) = 1
    then _ else _) = _
  rw [if_pos hone]
  rfl

theorem addTransaction_sound {b : Bank} {t : Transaction}
    (hs : t.fromAccount ∈ b.accounts.map (·.id)) (hr : t.toAccount ∈ b.accounts.map (·.id)) (n : Nat) :
    addTransaction .sound n t b =
      if (b.transaction? t.id).isSome then .error (.alreadyExists .transaction t.id)
      else .ok ((), { b with transactions := b.transactions ++ [.ofTransaction t] }) := by
  have hs := account?_isSome_of_mem hs
  have hr := account?_isSome_of_mem hr
  have hrefs : ((b.account? t.fromAccount).isNone || (b.account? t.toAccount).isNone) = false := by
    rw [← Option.not_isSome, ← Option.not_isSome, hs, hr]
    rfl
  show (if (b.transaction? t.id).isSome then _ else if
    (b.account? t.fromAccount).isNone || (b.account? t.toAccount).isNone then _ else _) = _
  rw [hrefs]
  rfl

namespace Examined

variable {b : Bank} {p : TransferPlan}

theorem examine_eq (x : Examined b p) : examineTransfer .sound p b =
    .ok (x.sender, x.receiver, x.senderBalance, x.receiverBalance) := by
  have hs : accountRow .sound 1 p.fromAccount b = .ok x.sender := by
    rw [accountRow_eq Engine.sound_neverFails, x.sender_found]
  have hr : accountRow .sound 2 p.toAccount b = .ok x.receiver := by
    rw [accountRow_eq Engine.sound_neverFails, x.receiver_found]
  have hst : checkTransferable x.sender = .ok () := if_pos x.sender_transferable
  have hrt : checkTransferable x.receiver = .ok () := if_pos x.receiver_transferable
  rw [examineTransfer, hs, hr]
  simp only [bind, Except.bind, hst, hrt, x.senderBalance_read, x.receiverBalance_read, x.funded,
    Bool.false_eq_true, if_false]

/-- The bank once both balances are written. -/
def balanced (x : Examined b p) (credited : Decimal) (now : Instant) : Bank :=
  (b.change x.sender.id (Movement.isActive fun r => r.balance == x.sender.balance)
    (rebalanced x.debited now)).change x.receiver.id (Movement.isActive fun _ => true)
      (rebalanced credited now)

theorem debit_eq (x : Examined b p) (hids : (b.accounts.map (·.id)).Nodup) (now : Instant) :
    setBalance .sound 3 x.sender.id (fun r => r.balance == x.sender.balance) x.debited now b =
      .ok (b.change x.sender.id (Movement.isActive fun r => r.balance == x.sender.balance)
        (rebalanced x.debited now)) := by
  obtain ⟨hmem, -, hlive⟩ := liveAccount?_eq_some x.sender_found
  have htransferable := x.sender_transferable
  rw [AccountRow.isTransferable, Bool.and_eq_true] at htransferable
  apply setBalance_sound hids hmem hlive
  rw [Movement.isActive, htransferable.1, beq_self_eq_true]
  rfl

/-- The receiver is another account, so the debit did not touch its row. -/
theorem credit_eq (x : Examined b p) (hids : (b.accounts.map (·.id)).Nodup)
    (hne : p.fromAccount ≠ p.toAccount) (credited : Decimal) (now : Instant) :
    setBalance .sound 4 x.receiver.id (fun _ => true) credited now
      (b.change x.sender.id (Movement.isActive fun r => r.balance == x.sender.balance)
        (rebalanced x.debited now)) = .ok (x.balanced credited now) := by
  obtain ⟨-, hsid, -⟩ := liveAccount?_eq_some x.sender_found
  obtain ⟨hmem, hrid, hlive⟩ := liveAccount?_eq_some x.receiver_found
  have htransferable := x.receiver_transferable
  rw [AccountRow.isTransferable, Bool.and_eq_true] at htransferable
  apply setBalance_sound _ _ hlive
  · rw [Movement.isActive, htransferable.1]
    rfl
  · rw [change_ids _ _ _ (rebalanced_id x.debited now)]
    exact hids
  · have hother : (x.receiver.id == x.sender.id) = false := by
      rw [beq_eq_false_iff_ne, hrid, hsid]
      exact hne.symm
    refine List.mem_map.2 ⟨x.receiver, hmem, ?_⟩
    rw [hother]
    rfl

theorem balanced_ids (x : Examined b p) (credited : Decimal) (now : Instant) :
    (x.balanced credited now).accounts.map (·.id) = b.accounts.map (·.id) := by
  rw [balanced, change_ids _ _ _ (rebalanced_id credited now),
    change_ids _ _ _ (rebalanced_id x.debited now)]

/-- What a unit that passed the look at both accounts comes to. -/
theorem applyTransfer_eq (x : Examined b p) (hids : (b.accounts.map (·.id)).Nodup)
    (hne : p.fromAccount ≠ p.toAccount) (now : Instant) :
    b.applyTransfer .sound now p =
      match x.receiverBalance.add p.amount with
      | .error o => (.error (.overflow o), b)
      | .ok credited =>
        if (b.transaction? p.transactionId).isSome then
          (.error (.refused (.alreadyExists .transaction p.transactionId)), b)
        else (.ok (p.record .success now), ⟨(x.balanced credited now).accounts,
          b.transactions ++ [.ofTransaction (p.record .success now)]⟩) := by
  have hmem : ∀ {id : String} {r : AccountRow}, b.liveAccount? id = some r →
      id ∈ b.accounts.map (·.id) := by
    intro id r h
    obtain ⟨hr, rfl, -⟩ := liveAccount?_eq_some h
    exact List.mem_map_of_mem hr
  have hbegin : (Engine.sound.ask 0 .beginUnit).mapError
      (fun cause => Halt.refused (BankError.database cause)) = .ok () := rfl
  rw [applyTransfer, transferUnit, hbegin, x.examine_eq]
  simp only [bind, Except.bind, Except.mapError, x.debited_eq, x.debit_eq hids now]
  cases hadd : x.receiverBalance.add p.amount with
  | error o => rfl
  | ok credited =>
    have hadded := addTransaction_sound (b := x.balanced credited now) (t := p.record .success now)
      (by rw [balanced_ids]; exact hmem x.sender_found)
      (by rw [balanced_ids]; exact hmem x.receiver_found) 5
    have htaken : (x.balanced credited now).transaction? (p.record .success now).id =
        b.transaction? p.transactionId := rfl
    simp only [x.credit_eq hids hne credited now, hadded, htaken]
    cases (b.transaction? p.transactionId).isSome with
    | false => rfl
    | true => rfl

end Examined

end TransferLedger.Bank
