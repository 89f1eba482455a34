import TransferLedger.Proofs.Service.Accounts
import TransferLedger.Proofs.Transfer.Plan

/-! # What the services answer about an account that is not live

Every statement of the services looks for live rows only. So an account that is not live is neither shown
nor listed; what is asked of it fails and changes nothing, and so does every transfer that names it, also
the commit of a plan that was drawn while it was live (`Transfer.commit_notFound`).
-/

namespace TransferLedger
set_option autoImplicit false

/-- The request names the account. -/
def TransferRequest.Names (r : TransferRequest) (id : String) : Prop :=
  Text.trim r.fromAccount = id ∨ Text.trim r.toAccount = id

/-- The plan names the account. -/
def TransferPlan.Names (p : TransferPlan) (id : String) : Prop :=
  p.fromAccount = id ∨ p.toAccount = id

/-- The id that the request opens an account under. -/
def OpenAccount.effectiveId (newId : String) (r : OpenAccount) : String :=
  if Text.trim r.id = "" then newId else Text.trim r.id

variable {b : Bank} {id : String}

/-! ## Tables -/

namespace Bank

theorem examineTransfer_notFound {e : Engine} (he : e.NeverFails) {p : TransferPlan}
    (hp : p.Names id) (h : b.liveAccount? id = none) :
    ∃ x, examineTransfer e p b = .error (.notFound .account x) := by
  unfold examineTransfer
  simp only [accountRow_eq he]
  cases hs : b.liveAccount? p.fromAccount with
  | none => exact ⟨_, rfl⟩
  | some sender =>
    -- The sender is there, so it is the receiver that is missing.
    have hr : b.liveAccount? p.toAccount = none := by
      rcases hp with rfl | rfl
      · rw [h] at hs
        cases hs
      · exact h
    rw [hr]
    exact ⟨_, rfl⟩

theorem toAccount_id {r : AccountRow} {a : Account} (h : r.toAccount = .ok a) : a.id = r.id := by
  unfold AccountRow.toAccount at h
  split at h
  · cases h
  · obtain ⟨d, -, h⟩ := bind_eq_ok.1 h
    cases h
    rfl

theorem listAccounts_live {e : Engine} {page size : Nat} {accounts : List Account}
    (h : listAccounts e page size b = .ok accounts) {a : Account} (ha : a ∈ accounts) :
    ∃ r, b.liveAccount? a.id = some r := by
  unfold listAccounts at h
  obtain ⟨_, -, h⟩ := bind_eq_ok.1 h
  obtain ⟨r, hr, hra⟩ := (mem_of_mapM h a).1 ha
  have hlive := List.mem_of_mem_drop (List.mem_of_mem_take hr)
  rw [liveAccounts, List.mem_mergeSort, List.mem_filter] at hlive
  rw [← Option.isSome_iff_exists, liveAccount?, List.find?_isSome]
  refine ⟨r, hlive.1, ?_⟩
  rw [toAccount_id hra, beq_self_eq_true, hlive.2]
  rfl

end Bank

/-! ## Accounts -/

namespace Accounts

theorem get_of_none (h : b.liveAccount? id = none) (e : Engine) : ∃ c, get e id b = .error c := by
  cases hget : get e id b with
  | error c => exact ⟨c, rfl⟩
  | ok a =>
    obtain ⟨r, hr, -⟩ := Bank.getAccount_eq_ok (mapError_eq_ok.1 hget)
    rw [h] at hr
    cases hr

theorem list_live {e : Engine} {q : PageQuery} {page : AccountPage} (h : list e q b = .ok page)
    {a : Account} (ha : a ∈ page.accounts) : ∃ r, b.liveAccount? a.id = some r := by
  unfold list at h
  obtain ⟨accounts, hlist, h⟩ := bind_eq_ok.1 h
  cases h
  exact Bank.listAccounts_live (mapError_eq_ok.1 hlist) ha

theorem changed_of_none (h : b.liveAccount? id = none) (e : Engine) (operation : String)
    (f : AccountRow → AccountRow) :
    ∃ c, changed e operation id (atomically b (Bank.updateLive e id f b)) = (.error c, b) := by
  obtain ⟨c, hc⟩ := Bank.updateLive_of_none (e := e) (f := f) h
  rw [hc]
  exact ⟨_, rfl⟩

theorem rename_of_none (h : b.liveAccount? id = none) (e : Engine) (now : Instant)
    (r : RenameAccount) : ∃ c, rename e now id r b = (.error c, b) := by
  unfold rename
  simp only
  split
  · exact ⟨_, rfl⟩
  · exact changed_of_none h e _ _

theorem close_of_none (h : b.liveAccount? id = none) (e : Engine) (now : Instant) :
    ∃ c, close e now id b = (.error c, b) := changed_of_none h e _ _

theorem delete_of_none (h : b.liveAccount? id = none) (e : Engine) (now : Instant) :
    ∃ c, delete e now id b = (.error c, b) := by
  obtain ⟨c, hc⟩ := Bank.updateLive_of_none (e := e)
    (f := fun r => { r with deletedAt := some now, updatedAt := now }) h
  unfold delete Bank.deleteAccount
  rw [hc]
  exact ⟨_, rfl⟩

theorem ofRequest_id {now : Instant} {newId : String} {r : OpenAccount} {a : Account}
    (h : ofRequest now newId r = .ok a) : a.id = r.effectiveId newId := by
  unfold ofRequest at h
  simp only at h
  split at h
  · cases h
  split at h
  · cases h
  obtain ⟨d, -, h⟩ := bind_eq_ok.1 h
  cases h
  rfl

/-- No account is opened under an id that has a row, deleted or not. -/
theorem create_of_taken {e : Engine} (he : e.KeepsInserts) {newId : String} {r : OpenAccount}
    (h : b.account? (r.effectiveId newId) ≠ none) (now : Instant) :
    ∃ c, create e now newId r b = (.error c, b) := by
  cases hcreate : create e now newId r b with
  | mk outcome b' =>
    cases outcome with
    | error c =>
      rw [create_eq_error hcreate]
      exact ⟨c, rfl⟩
    | ok a =>
      obtain ⟨ha, hnew, -⟩ := create_eq_ok he hcreate
      rw [ofRequest_id ha] at hnew
      exact absurd hnew h

end Accounts

/-! ## Transfers -/

namespace Transfer

theorem prepare_of_none (h : b.liveAccount? id = none) {r : TransferRequest} (hr : r.Names id)
    (e : Engine) (newId : String) : ∃ c, prepare e newId r b = .error c := by
  cases hprepare : prepare e newId r b with
  | error c => exact ⟨c, rfl⟩
  | ok p =>
    obtain ⟨v, -, -, hv, -, ⟨srow, hs, -⟩, ⟨trow, ht, -⟩, -⟩ := prepare_eq_ok hprepare
    have hasks := TransferRequest.validate_asks hv
    rcases hr with rfl | rfl
    · rw [hasks.sender_eq, h] at hs
      cases hs
    · rw [hasks.receiver_eq, h] at ht
      cases ht

theorem commit_of_none (h : b.liveAccount? id = none) {p : TransferPlan} (hp : p.Names id)
    {e : Engine} (he : e.KeepsInserts) (now : Instant) : ∃ c, commit e now p b = (.error c, b) := by
  cases hcommit : commit e now p b with
  | mk outcome b' =>
    cases outcome with
    | error c =>
      rw [commit_eq_error hcommit]
      exact ⟨c, rfl⟩
    | ok t =>
      obtain ⟨-, m, -, -⟩ := commit_eq_ok he hcommit
      rcases hp with rfl | rfl
      · exact absurd m.sender_found (by rw [h]; exact nofun)
      · exact absurd m.receiver_found (by rw [h]; exact nofun)

theorem commit_notFound (h : b.liveAccount? id = none) {p : TransferPlan} (hp : p.Names id)
    {e : Engine} (he : e.NeverFails) (now : Instant) :
    ∃ c, commit e now p b = (.error (.refused c), b) ∧ c.code = .notFound := by
  obtain ⟨x, hx⟩ := Bank.examineTransfer_notFound he hp h
  have hunit : Bank.transferUnit e now p b = .error (.refused (.notFound .account x)) := by
    rw [Bank.transferUnit, he.ask, hx]
    rfl
  refine ⟨.accountNotFound x, ?_, rfl⟩
  rw [commit, Bank.applyTransfer, hunit]
  rfl

end Transfer

end TransferLedger
