import TransferLedger.Transfer.Execution
import TransferLedger.Proofs.Bank.Transfer

/-! # Plans: how they come about, and how they end

* `validate_asks`, `validate_eq_ok`: what a valid request asks for; it names two different accounts and
  has a type.
* `prepare_eq_ok`: a plan is that of a valid request whose two accounts were found, were fit for the
  transfer, and one of which could pay for it.
* `commit_eq_ok`, `commit_eq_error`: a commit carries the plan out as one movement or does nothing.
* `recordFailed_eq_ok`, `recordFailed_eq_error`: recording a failure adds one record or does nothing.
-/

namespace TransferLedger
set_option autoImplicit false

/-! ## Requests -/

/-- What a request that passes its checks asks for. -/
structure TransferRequest.Asks (r : TransferRequest) (v : ValidTransfer) : Prop where
  sender_eq : v.fromAccount = Text.trim r.fromAccount
  receiver_eq : v.toAccount = Text.trim r.toAccount
  amount_read : Amount.read r.amount = .ok v.amount
  currency_eq : v.currency = Text.upper (Text.trim r.currency)
  type_eq : v.type = if Text.trim r.type = "" then defaultTransactionType else Text.trim r.type
  description_eq : v.description = r.description
  sender_named : v.fromAccount ≠ ""
  receiver_named : v.toAccount ≠ ""
  currency_named : Text.trim r.currency ≠ ""
  distinct : v.fromAccount ≠ v.toAccount

theorem TransferRequest.validate_asks {r : TransferRequest} {v : ValidTransfer}
    (h : r.validate = .ok v) : r.Asks v := by
  unfold validate at h
  simp only at h
  split at h
  · cases h
  next hsender =>
  split at h
  · cases h
  next hreceiver =>
  split at h
  · cases h
  next amount hamount =>
  split at h
  · cases h
  next hcurrency =>
  split at h
  · cases h
  next hne =>
  cases h
  exact ⟨rfl, rfl, hamount, rfl, rfl, rfl, hsender, hreceiver, hcurrency, hne⟩

theorem TransferRequest.validate_eq_ok {r : TransferRequest} {v : ValidTransfer}
    (h : r.validate = .ok v) : v.fromAccount ≠ v.toAccount ∧ v.type ≠ "" := by
  have hasks := validate_asks h
  refine ⟨hasks.distinct, ?_⟩
  rw [hasks.type_eq]
  split
  · decide
  · assumption

/-! ## Plans -/

/-- An account fits a transfer: it may take part and holds the currency, letter case aside. -/
def ValidTransfer.Fits (v : ValidTransfer) (a : Account) : Prop :=
  a.transferable = true ∧ Text.sameIgnoringCase a.currency v.currency = true

theorem ValidTransfer.checkAccount_eq_ok {v : ValidTransfer} {a : Account} {u : Unit}
    (h : v.checkAccount a = .ok u) : v.Fits a := by
  unfold checkAccount at h
  split at h
  · cases h
  next ht =>
  split at h
  · cases h
  next hc => exact ⟨by simpa using ht, by simpa using hc⟩

namespace Transfer

theorem loadAccount_eq_ok {e : Engine} {id : String} {b : Bank} {a : Account}
    (h : loadAccount e id b = .ok a) : ∃ r, b.liveAccount? id = some r ∧ r.toAccount = .ok a :=
  Bank.getAccount_eq_ok (mapError_eq_ok.1 h)

theorem prepare_eq_ok {e : Engine} {newId : String} {r : TransferRequest} {b : Bank}
    {p : TransferPlan} (h : prepare e newId r b = .ok p) :
    ∃ v sender receiver, r.validate = .ok v ∧ p = v.plan newId ∧
      (∃ row, b.liveAccount? v.fromAccount = some row ∧ row.toAccount = .ok sender) ∧
      (∃ row, b.liveAccount? v.toAccount = some row ∧ row.toAccount = .ok receiver) ∧
      v.Fits sender ∧ v.Fits receiver ∧ sender.balance.below v.amount.value = false := by
  unfold prepare at h
  obtain ⟨v, hv, h⟩ := bind_eq_ok.1 h
  obtain ⟨sender, hs, h⟩ := bind_eq_ok.1 h
  obtain ⟨receiver, hr, h⟩ := bind_eq_ok.1 h
  obtain ⟨_, hsf, h⟩ := bind_eq_ok.1 h
  obtain ⟨_, hrf, h⟩ := bind_eq_ok.1 h
  split at h
  · cases h
  · next hfunds =>
    cases h
    exact ⟨v, sender, receiver, hv, rfl, loadAccount_eq_ok hs, loadAccount_eq_ok hr,
      ValidTransfer.checkAccount_eq_ok hsf, ValidTransfer.checkAccount_eq_ok hrf,
      by simpa using hfunds⟩

theorem prepare_id {e : Engine} {newId : String} {r : TransferRequest} {b : Bank} {p : TransferPlan}
    (h : prepare e newId r b = .ok p) : p.transactionId = newId := by
  obtain ⟨v, -, -, -, rfl, -⟩ := prepare_eq_ok h
  rfl

theorem prepare_distinct {e : Engine} {newId : String} {r : TransferRequest} {b : Bank} {p : TransferPlan}
    (h : prepare e newId r b = .ok p) : p.fromAccount ≠ p.toAccount := by
  obtain ⟨v, -, -, hv, rfl, -⟩ := prepare_eq_ok h
  exact (TransferRequest.validate_eq_ok hv).1

/-! ## Commits -/

theorem commit_eq_ok {e : Engine} (he : e.KeepsInserts) {now : Instant} {p : TransferPlan}
    {b b' : Bank} {t : Transaction} (h : commit e now p b = (.ok t, b')) :
    t = p.record .success now ∧ ∃ m : Bank.Movement b p, m.Sole now ∧ b' = m.result now := by
  simp only [commit, Prod.mk.injEq] at h
  exact Bank.applyTransfer_eq_ok he (Prod.ext (mapError_eq_ok.1 h.1) h.2)

theorem commit_eq_error {e : Engine} {now : Instant} {p : TransferPlan} {b b' : Bank}
    {c : Halt TransferError} (h : commit e now p b = (.error c, b')) : b' = b := by
  simp only [commit, Prod.mk.injEq] at h
  obtain ⟨c', hc, -⟩ := mapError_eq_error.1 h.1
  exact Bank.applyTransfer_eq_error (Prod.ext hc h.2)

/-- A transfer that is executed was planned and then committed. -/
theorem execute_eq_ok {e : Engine} {now : Instant} {newId : String} {r : TransferRequest}
    {b b' : Bank} {t : Transaction} (h : execute e now newId r b = (.ok t, b')) :
    ∃ p, prepare e newId r b = .ok p ∧ commit (e.after 2) now p b = (.ok t, b') := by
  unfold execute at h
  split at h
  · cases h
  · next p hprepare => exact ⟨p, hprepare, h⟩

/-! ## Failures -/

theorem recordFailed_eq_ok {e : Engine} (he : e.KeepsInserts) {now : Instant} {p : TransferPlan}
    {b b' : Bank} {t : Transaction} (h : recordFailed e now p b = (.ok t, b')) :
    t = p.record .failed now ∧ b.transaction? p.transactionId = none ∧
      (b.account? p.fromAccount).isSome = true ∧ (b.account? p.toAccount).isSome = true ∧
      b' = { b with transactions := b.transactions ++ [.ofTransaction t] } := by
  unfold recordFailed at h
  simp only at h
  split at h
  · next b₁ hins =>
    simp only [Prod.mk.injEq, Except.ok.injEq] at h
    obtain ⟨rfl, rfl⟩ := h
    exact ⟨rfl, Bank.addTransaction_eq_ok he (atomically_eq_ok hins)⟩
  · cases h

theorem recordFailed_eq_error {e : Engine} {now : Instant} {p : TransferPlan} {b b' : Bank}
    {c : TransferError} (h : recordFailed e now p b = (.error c, b')) : b' = b := by
  unfold recordFailed at h
  simp only at h
  split at h
  · cases h
  · next b₁ hins =>
    simp only [Prod.mk.injEq] at h
    rw [← h.2]
    exact (atomically_eq_error hins).2

end Transfer

end TransferLedger
