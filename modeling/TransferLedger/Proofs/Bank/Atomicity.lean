import TransferLedger.Proofs.Bank.Transfer

/-! # All or nothing

A transfer unit that is refused or overflows leaves both tables as they were; one that answers a record
exchanged the rows of its two accounts, added the row of that record, and did nothing else
(`applyTransfer_atomic`). Nothing is asked of the tables for this: the unit insists that each of its two
writes concerns one row, and that row is the one it looked at (`Movement.result_exchanged`).
-/

namespace TransferLedger.Bank
set_option autoImplicit false

theorem eq_of_countP_eq_one {α : Type} {l : List α} {q : α → Bool} (h : l.countP q = 1) {a x : α}
    (ha : a ∈ l) (hqa : q a = true) (hx : x ∈ l) (hqx : q x = true) : x = a := by
  rw [List.countP_eq_length_filter, List.length_eq_one_iff] at h
  obtain ⟨y, hy⟩ := h
  have hay : a ∈ l.filter q := List.mem_filter.2 ⟨ha, hqa⟩
  have hxy : x ∈ l.filter q := List.mem_filter.2 ⟨hx, hqx⟩
  rw [hy, List.mem_singleton] at hay hxy
  rw [hay, hxy]

/-! ## The rows of a movement -/

namespace Movement

variable {b : Bank} {p : TransferPlan}

/-- What the movement makes of a row: only the two rows it looked at are written. -/
def exchanged (m : Movement b p) (now : Instant) (r : AccountRow) : AccountRow :=
  if r = m.sender then rebalanced m.debited now r
  else if r = m.receiver then rebalanced m.credited now r
  else r

theorem exchanged_id (m : Movement b p) (now : Instant) (r : AccountRow) :
    (m.exchanged now r).id = r.id := by
  unfold exchanged
  split_ifs <;> rfl

theorem exchanged_isLive (m : Movement b p) (now : Instant) (r : AccountRow) :
    (m.exchanged now r).isLive = r.isLive := by
  unfold exchanged
  split_ifs <;> rfl

theorem receiver_ne_sender (m : Movement b p) (hne : p.fromAccount ≠ p.toAccount) :
    m.receiver ≠ m.sender := by
  intro h
  apply hne
  rw [← m.sender_id, ← m.receiver_id, h]

/-- The row that the debit looked at is the only one it writes. -/
theorem debit_passes (m : Movement b p) {now : Instant} (hsole : m.Sole now) {r : AccountRow}
    (hmem : r ∈ b.accounts) (hs : r ≠ m.sender) :
    (r.id == m.sender.id && r.isLive && isActive (fun r => r.balance == m.sender.balance) r) =
      false := by
  obtain ⟨hsmem, -, hslive⟩ := liveAccount?_eq_some m.sender_found
  have hst := m.sender_transferable
  simp only [AccountRow.isTransferable, Bool.and_eq_true] at hst
  rw [← Bool.not_eq_true]
  intro htarget
  exact hs (eq_of_countP_eq_one hsole.1 hsmem (by simp [isActive, hslive, hst.1]) hmem htarget)

/-- So is the row that the credit looked at, among those that the debit has left alone. -/
theorem credit_passes (m : Movement b p) {now : Instant} (hsole : m.Sole now)
    (hne : p.fromAccount ≠ p.toAccount) {r : AccountRow} (hmem : r ∈ b.accounts)
    (hs : r ≠ m.sender) (hr : r ≠ m.receiver) :
    (r.id == m.receiver.id && r.isLive && isActive (fun _ => true) r) = false := by
  obtain ⟨hrmem, -, hrlive⟩ := liveAccount?_eq_some m.receiver_found
  have hrt := m.receiver_transferable
  simp only [AccountRow.isTransferable, Bool.and_eq_true] at hrt
  have hkept : ∀ {r : AccountRow}, r ∈ b.accounts → r ≠ m.sender →
      r ∈ (b.change m.sender.id (isActive fun r => r.balance == m.sender.balance)
        (rebalanced m.debited now)).accounts := by
    intro r hmem hs
    exact List.mem_map.2 ⟨r, hmem, by rw [m.debit_passes hsole hmem hs]; rfl⟩
  rw [← Bool.not_eq_true]
  intro htarget
  exact hr (eq_of_countP_eq_one hsole.2 (hkept hrmem (m.receiver_ne_sender hne))
    (by simp [isActive, hrlive, hrt.1]) (hkept hmem hs) htarget)

theorem result_exchanged (m : Movement b p) {now : Instant} (hsole : m.Sole now)
    (hne : p.fromAccount ≠ p.toAccount) :
    (m.result now).accounts = b.accounts.map (m.exchanged now) := by
  obtain ⟨-, hsid, hslive⟩ := liveAccount?_eq_some m.sender_found
  obtain ⟨-, hrid, hrlive⟩ := liveAccount?_eq_some m.receiver_found
  have hst := m.sender_transferable
  have hrt := m.receiver_transferable
  simp only [AccountRow.isTransferable, Bool.and_eq_true] at hst hrt
  have hids : m.sender.id ≠ m.receiver.id := by
    rw [hsid, hrid]
    exact hne
  simp only [result, change, List.map_map]
  apply List.map_congr_left
  intro r hmem
  simp only [Function.comp_apply, exchanged]
  by_cases hs : r = m.sender
  · -- The credit is for another id, so it passes the debited row over.
    subst hs
    simp [isActive, hslive, hst.1, rebalanced_id, hids]
  rw [if_neg hs, m.debit_passes hsole hmem hs]
  by_cases hr : r = m.receiver
  · subst hr
    simp [isActive, hrlive, hrt.1]
  · simp [m.credit_passes hsole hne hmem hs hr, hr]

/-- A live account is found where it was found before. -/
theorem liveAccount?_exchanged (m : Movement b p) {now : Instant} {b' : Bank}
    (h : b'.accounts = b.accounts.map (m.exchanged now)) (id : String) :
    b'.liveAccount? id = (b.liveAccount? id).map (m.exchanged now) := by
  rw [liveAccount?, h, List.find?_map]
  congr 2
  funext r
  rw [Function.comp_apply, exchanged_id, exchanged_isLive]

end Movement

/-! ## The unit -/

/-- What a unit did that answered a record: the rows of its two accounts are exchanged for rows with the new
balances, the record has a row of its own, and there is no other difference between the tables. -/
structure Exchange (b : Bank) (p : TransferPlan) (t : Transaction) (b' : Bank) extends
    Movement b p where
  accounts_eq : b'.accounts = b.accounts.map fun r =>
    if r = sender then { r with balance := debited.text, updatedAt := t.createdAt }
    else if r = receiver then { r with balance := credited.text, updatedAt := t.createdAt }
    else r
  sender_after : b'.liveAccount? p.fromAccount =
    some { sender with balance := debited.text, updatedAt := t.createdAt }
  receiver_after : b'.liveAccount? p.toAccount =
    some { receiver with balance := credited.text, updatedAt := t.createdAt }
  debited_read : readDecimalColumn debited.text = .ok debited
  credited_read : readDecimalColumn credited.text = .ok credited
  transactions_eq : b'.transactions = b.transactions ++ [.ofTransaction t]
  record_read : getTransaction .sound t.id b' = .ok t

theorem getTransaction_added {b : Bank} {t : Transaction} (hnew : b.transaction? t.id = none)
    {b' : Bank} (h : b'.transactions = b.transactions ++ [.ofTransaction t]) :
    getTransaction .sound t.id b' = .ok t := by
  rw [getTransaction, transaction?_added hnew h]
  exact TransactionRow.toTransaction_ofTransaction t

theorem Movement.nonempty_exchange {b : Bank} {p : TransferPlan} (m : Movement b p) {now : Instant}
    (hsole : m.Sole now) (hne : p.fromAccount ≠ p.toAccount) :
    Nonempty (b.Exchange p (p.record .success now) (m.result now)) := by
  have haccounts := m.result_exchanged hsole hne
  refine ⟨{ m with
    accounts_eq := haccounts
    sender_after := ?_
    receiver_after := ?_
    debited_read := readDecimalColumn_text m.debited
    credited_read := readDecimalColumn_text m.credited
    transactions_eq := rfl
    record_read := getTransaction_added m.record_new rfl }⟩
  · rw [m.liveAccount?_exchanged haccounts, m.sender_found, Option.map_some, exchanged, if_pos rfl]
    rfl
  · rw [m.liveAccount?_exchanged haccounts, m.receiver_found, Option.map_some, exchanged,
      if_neg (m.receiver_ne_sender hne), if_pos rfl]
    rfl

theorem applyTransfer_atomic {e : Engine} (he : e.KeepsInserts) (now : Instant) {p : TransferPlan}
    (hne : p.fromAccount ≠ p.toAccount) (b : Bank) :
    (∀ c b', b.applyTransfer e now p = (.error c, b') → b' = b) ∧
    ∀ t b', b.applyTransfer e now p = (.ok t, b') →
      t = p.record .success now ∧ Nonempty (b.Exchange p t b') := by
  constructor
  · intro c b' h
    exact applyTransfer_eq_error h
  · intro t b' h
    obtain ⟨rfl, m, hsole, rfl⟩ := applyTransfer_eq_ok he h
    exact ⟨rfl, m.nonempty_exchange hsole hne⟩

/-- Two accounts with ten in each. -/
def sampleBank : Bank :=
  ⟨["a", "b"].map fun id =>
    .ofAccount (.opened id "" "EUR" ⟨10, 0, by decide, Decimal.zero.scale_le⟩ default), []⟩

def sampleTransfer : TransferPlan :=
  ⟨"t", "a", "b", "transfer", ⟨4, 0, by decide, Decimal.zero.scale_le⟩, "EUR", ""⟩

/-- Both rows are already written when the statement for the record fails. -/
theorem sample_applyTransfer_atomic :
    (∃ b', sampleBank.applyTransfer .sound default sampleTransfer =
        (.ok (sampleTransfer.record .success default), b') ∧
      Nonempty (sampleBank.Exchange sampleTransfer (sampleTransfer.record .success default) b')) ∧
    ∃ c, sampleBank.applyTransfer (.failing fun n _ => if n = 5 then some .closed else none) default
      sampleTransfer = (.error c, sampleBank) := by
  have hne : sampleTransfer.fromAccount ≠ sampleTransfer.toAccount := by decide
  constructor
  · have hok : (sampleBank.applyTransfer .sound default sampleTransfer).1 =
        .ok (sampleTransfer.record .success default) := by decide +kernel
    have happly := Prod.ext hok rfl
    exact ⟨_, happly, ((applyTransfer_atomic Engine.sound_keepsInserts default hne sampleBank).2 _ _
      happly).2⟩
  · have hfails : (sampleBank.applyTransfer
        (.failing fun n _ => if n = 5 then some .closed else none) default sampleTransfer).1 =
        .error (.refused (.database .closed)) := by decide +kernel
    have happly := Prod.ext hfails rfl
    have hkept := (applyTransfer_atomic (Engine.failing_keepsInserts _) default hne sampleBank).1 _ _
      happly
    exact ⟨_, happly.trans (congrArg _ hkept)⟩

end TransferLedger.Bank
