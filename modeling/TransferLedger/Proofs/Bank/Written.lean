import TransferLedger.Proofs.Bank.Transfer

/-! # Rows as they are written

The tables hold nothing but rows of accounts and rows of records (`Bank.Written`): an insertion adds such a
row, and a change of an account leaves the row of another account. All texts in such rows are read back
(`Written.exists_account`, `Written.exists_record`). As ids are unique, the two updates of a transfer unit find
the row that the unit read, and no other (`SingleUpdates`); it does not matter whether sender and receiver are
one account.
-/

namespace TransferLedger.Bank
set_option autoImplicit false

/-- Ids of accounts are unique, and every row was made of an account or of a record. -/
structure Written (b : Bank) : Prop where
  ids_nodup : (b.accounts.map (·.id)).Nodup
  accounts : ∀ r ∈ b.accounts, ∃ a, AccountRow.ofAccount a = r
  records : ∀ r ∈ b.transactions, ∃ t, TransactionRow.ofTransaction t = r

theorem empty_written : empty.Written := ⟨List.nodup_nil, nofun, nofun⟩

namespace Written

variable {b : Bank}

/-! ## Reading -/

theorem exists_account (h : b.Written) {r : AccountRow} (hr : r ∈ b.accounts) :
    ∃ a, r.toAccount = .ok a := by
  obtain ⟨a, rfl⟩ := h.accounts r hr
  exact ⟨a, AccountRow.toAccount_ofAccount a⟩

theorem exists_record (h : b.Written) {r : TransactionRow} (hr : r ∈ b.transactions) :
    ∃ t, r.toTransaction = .ok t := by
  obtain ⟨t, rfl⟩ := h.records r hr
  exact ⟨t, TransactionRow.toTransaction_ofTransaction t⟩

theorem exists_balance (h : b.Written) {r : AccountRow} (hr : r ∈ b.accounts) :
    ∃ d, readDecimalColumn r.balance = .ok d := by
  obtain ⟨a, rfl⟩ := h.accounts r hr
  exact ⟨a.balance, readDecimalColumn_text a.balance⟩

/-! ## Writing -/

theorem addAccount (h : b.Written) {a : Account} (hnew : b.account? a.id = none) :
    Written { b with accounts := b.accounts ++ [.ofAccount a] } where
  ids_nodup := by
    have hids : (b.accounts ++ [AccountRow.ofAccount a]).map (·.id) = b.accounts.map (·.id) ++ [a.id] :=
      List.map_append
    rw [hids]
    exact (List.perm_append_singleton ..).nodup_iff.2 (h.ids_nodup.cons (account?_eq_none hnew))
  accounts r hr := by
    rw [List.mem_append, List.mem_singleton] at hr
    obtain hr | rfl := hr
    · exact h.accounts r hr
    · exact ⟨a, rfl⟩
  records := h.records

theorem addRecord (h : b.Written) (t : Transaction) :
    Written { b with transactions := b.transactions ++ [.ofTransaction t] } where
  ids_nodup := h.ids_nodup
  accounts := h.accounts
  records r hr := by
    rw [List.mem_append, List.mem_singleton] at hr
    obtain hr | rfl := hr
    · exact h.records r hr
    · exact ⟨t, rfl⟩

/-- A change that leaves the row of an account, of the same id. -/
theorem change (h : b.Written) (id : String) (condition : AccountRow → Bool) {f : AccountRow → AccountRow}
    (hf : ∀ a, ∃ a' : Account, .ofAccount a' = f (.ofAccount a)) (hid : ∀ r, (f r).id = r.id) :
    Written (b.change id condition f) where
  ids_nodup := by
    rw [change_ids _ _ _ hid]
    exact h.ids_nodup
  accounts r hr := by
    obtain ⟨x, hx, rfl⟩ := List.mem_map.1 hr
    obtain ⟨a, rfl⟩ := h.accounts x hx
    split
    · exact hf a
    · exact ⟨a, rfl⟩
  records := h.records

theorem rebalance (h : b.Written) (id : String) (condition : AccountRow → Bool) (balance : Decimal)
    (now : Instant) : Written (b.change id condition (rebalanced balance now)) :=
  h.change id condition (fun a => ⟨{ a with balance := balance, updatedAt := now }, rfl⟩) fun _ => rfl

theorem movement (h : b.Written) {p : TransferPlan} (m : Movement b p) (now : Instant) :
    (m.result now).Written :=
  ((h.rebalance _ _ m.debited now).rebalance _ _ m.credited now).addRecord _

end Written

/-! ## Operations -/

namespace Written

variable {e : Engine} {b : Bank}

/-- Where what fails changes nothing, only what succeeds has to be looked at. -/
theorem of_ok {ε α : Type} {result : Except ε α × Bank} (h : b.Written)
    (hok : ∀ x b', result = (.ok x, b') → b'.Written)
    (herror : ∀ c b', result = (.error c, b') → b' = b) : result.2.Written := by
  obtain ⟨outcome, b'⟩ := result
  cases outcome with
  | ok x => exact hok x b' rfl
  | error c =>
    rw [herror c b' rfl]
    exact h

theorem insertAccount (h : b.Written) (he : e.KeepsInserts) (a : Account) :
    (b.insertAccount e a).2.Written := by
  refine h.of_ok (fun u b' hinsert => ?_) fun _ _ hinsert => (atomically_eq_error hinsert).2
  obtain ⟨hnew, rfl⟩ := insertAccount_eq_ok he hinsert
  exact h.addAccount hnew

/-- A change of a live account, made or not, that leaves the row of an account of the same id. -/
theorem updated (h : b.Written) {b' : Bank} {id : String} {f : AccountRow → AccountRow}
    (hb' : b' = b ∨ b' = b.change id (fun _ => true) f)
    (hf : ∀ a, ∃ a' : Account, .ofAccount a' = f (.ofAccount a)) (hid : ∀ r, (f r).id = r.id) :
    b'.Written := by
  obtain rfl | rfl := hb'
  · exact h
  · exact h.change id _ hf hid

theorem updateLive (h : b.Written) (id : String) {f : AccountRow → AccountRow}
    (hf : ∀ a, ∃ a' : Account, .ofAccount a' = f (.ofAccount a)) (hid : ∀ r, (f r).id = r.id) :
    (atomically b (Bank.updateLive e id f b)).2.Written :=
  h.updated (updateLive_atomically rfl) hf hid

theorem insertTransaction (h : b.Written) (he : e.KeepsInserts) (t : Transaction) :
    (b.insertTransaction e t).2.Written := by
  refine h.of_ok (fun u b' hinsert => ?_) fun _ _ hinsert => (atomically_eq_error hinsert).2
  obtain ⟨-, -, -, rfl⟩ := addTransaction_eq_ok he (atomically_eq_ok hinsert)
  exact h.addRecord t

theorem applyTransfer (h : b.Written) (he : e.KeepsInserts) (now : Instant) (p : TransferPlan) :
    (b.applyTransfer e now p).2.Written := by
  refine h.of_ok (fun t b' happly => ?_) fun _ _ => applyTransfer_eq_error
  obtain ⟨-, m, -, rfl⟩ := applyTransfer_eq_ok he happly
  exact h.movement m now

end Written

/-! ## The two updates of a unit -/

/-- Once a unit has examined both accounts, its debit concerns one row, and so does its credit afterwards. -/
def SingleUpdates (e : Engine) (now : Instant) (p : TransferPlan) (b : Bank) : Prop :=
  ∀ sender receiver senderBalance receiverBalance,
    examineTransfer e p b = .ok (sender, receiver, senderBalance, receiverBalance) →
    ∀ debited k b', updateAccounts e 3 sender.id (Movement.isActive fun r => r.balance == sender.balance)
        (rebalanced debited now) b = .ok (k, b') →
      k = 1 ∧ ∀ credited k' b'', updateAccounts e 4 receiver.id (Movement.isActive fun _ => true)
        (rebalanced credited now) b' = .ok (k', b'') → k' = 1

variable {e : Engine} {b b' : Bank}

/-- An update is made for every row that it looks for. -/
theorem updateAccounts_run (he : e.NeverSkips) {n k : Nat} {id : String} {condition : AccountRow → Bool}
    {f : AccountRow → AccountRow} (h : updateAccounts e n id condition f b = .ok (k, b')) :
    k = b.accounts.countP (fun r => r.id == id && r.isLive && condition r) ∧
      b' = b.change id condition f := by
  unfold updateAccounts at h
  obtain ⟨effect, hask, h⟩ := bind_eq_ok.1 h
  obtain rfl := he.takesEffect (mapError_eq_ok.1 hask)
  rw [if_pos rfl] at h
  cases h
  exact ⟨rfl, rfl⟩

/-- A row that is set to a balance is the same row in all that a further update looks at. -/
theorem exists_rebalanced {r : AccountRow} (hr : r ∈ b.accounts) (id : String)
    (condition : AccountRow → Bool) (balance : Decimal) (now : Instant) :
    ∃ x ∈ (b.change id condition (rebalanced balance now)).accounts,
      x.id = r.id ∧ x.isLive = r.isLive ∧ x.status = r.status := by
  refine ⟨_, List.mem_map_of_mem hr, ?_⟩
  split
  · exact ⟨rfl, rfl, rfl⟩
  · exact ⟨rfl, rfl, rfl⟩

theorem singleUpdates (he : e.NeverSkips) (hids : (b.accounts.map (·.id)).Nodup) (now : Instant)
    (p : TransferPlan) : SingleUpdates e now p b := by
  intro sender receiver senderBalance receiverBalance hexamine debited k b' hdebit
  obtain ⟨hsender, hreceiver, hs, hr, -⟩ := examineTransfer_eq_ok hexamine
  obtain ⟨hsmem, -, hslive⟩ := liveAccount?_eq_some hsender
  obtain ⟨hrmem, -, hrlive⟩ := liveAccount?_eq_some hreceiver
  rw [AccountRow.isTransferable, Bool.and_eq_true] at hs hr
  obtain ⟨rfl, rfl⟩ := updateAccounts_run he hdebit
  refine ⟨countP_target hids hsmem hslive ?_, ?_⟩
  · rw [Movement.isActive, hs.1, beq_self_eq_true]
    rfl
  · intro credited k' b'' hcredit
    obtain ⟨x, hx, hid, hlive, hstatus⟩ := exists_rebalanced hrmem sender.id
      (Movement.isActive fun r => r.balance == sender.balance) debited now
    obtain ⟨rfl, -⟩ := updateAccounts_run he hcredit
    rw [← hid]
    refine countP_target ?_ hx (hlive.trans hrlive) ?_
    · rw [change_ids _ _ _ (rebalanced_id debited now)]
      exact hids
    · rw [Movement.isActive, hstatus, hr.1]
      rfl

end TransferLedger.Bank
