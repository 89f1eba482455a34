import TransferLedger.Proofs.Bank.Operations
import TransferLedger.Service.Accounts

/-! # What the account service does to the tables

* `create_eq_ok`, `create_eq_error`: an account that is opened gets a new row with an opening balance
  that is not negative and has at most eight fraction digits; one that is not leaves the tables as
  they were.
* `rename_bank`, `close_bank`, `delete_bank`: the other calls change one live account or nothing.
* `rename_eq_error`, `close_eq_error`, `delete_eq_error`: one that is answered with an error that is not
  internal changes nothing.
-/

namespace TransferLedger
set_option autoImplicit false

theorem AccountRow.toAccount_error {r : AccountRow} {c : BankError} (h : r.toAccount = .error c)
    (operation : String) : (ServiceError.tables operation c).code = .internal := by
  unfold toAccount at h
  split at h
  · cases h
    rfl
  · cases hread : readDecimalColumn r.balance with
    | ok d =>
      rw [hread] at h
      cases h
    | error cause =>
      obtain ⟨_, -, rfl⟩ := mapError_eq_error.1 hread
      rw [hread] at h
      cases h
      rfl

namespace Accounts

theorem readOpeningBalance_eq_ok {text : String} {d : Decimal}
    (h : readOpeningBalance text = .ok d) : 0 ≤ d.mantissa ∧ d.scale ≤ 8 := by
  unfold readOpeningBalance at h
  simp only at h
  split at h
  · cases h
    exact ⟨by decide, by decide⟩
  split at h
  · cases h
  split at h
  · cases h
  next hrange =>
  cases h
  simp only [Decimal.isNegative, Bool.or_eq_true, decide_eq_true_eq, not_or, Int.not_lt,
    Nat.not_lt] at hrange
  exact hrange

theorem ofRequest_eq_ok {now : Instant} {newId : String} {r : OpenAccount} {a : Account}
    (h : ofRequest now newId r = .ok a) :
    0 ≤ a.balance.mantissa ∧ a.balance.scale ≤ 8 ∧ a.status = .active ∧ a.deletedAt = none := by
  unfold ofRequest at h
  simp only at h
  split at h
  · cases h
  split at h
  · cases h
  obtain ⟨d, hd, h⟩ := bind_eq_ok.1 h
  obtain ⟨hpos, hscale⟩ := readOpeningBalance_eq_ok hd
  cases h
  exact ⟨hpos, hscale, rfl, rfl⟩

theorem create_eq_ok {e : Engine} (he : e.KeepsInserts) {now : Instant} {newId : String}
    {r : OpenAccount} {b b' : Bank} {a : Account} (h : create e now newId r b = (.ok a, b')) :
    ofRequest now newId r = .ok a ∧ b.account? a.id = none ∧
      b' = { b with accounts := b.accounts ++ [.ofAccount a] } := by
  unfold create at h
  split at h
  · cases h
  next a' ha =>
  split at h
  · next b₁ hins =>
    cases h
    exact ⟨ha, Bank.insertAccount_eq_ok he hins⟩
  · cases h

theorem create_eq_error {e : Engine} {now : Instant} {newId : String} {r : OpenAccount}
    {b b' : Bank} {c : ServiceError} (h : create e now newId r b = (.error c, b')) : b' = b := by
  unfold create at h
  split at h
  · cases h
    rfl
  split at h
  · cases h
  · next b₁ hins =>
    cases h
    exact (atomically_eq_error hins).2

theorem changed_bank (e : Engine) (operation id : String) (change : Except BankError Unit × Bank) :
    (changed e operation id change).2 = change.2 := by
  unfold changed
  split <;> rfl

theorem changed_eq_ok {e : Engine} {operation id : String} {f : AccountRow → AccountRow}
    {b b' : Bank} {a : Account}
    (h : changed e operation id (atomically b (Bank.updateLive e id f b)) = (.ok a, b')) :
    (∃ row, b.liveAccount? id = some row) ∧ b' = b.change id (fun _ => true) f := by
  unfold changed at h
  split at h
  · cases h
  · next b₁ hchange =>
    have hupdate := atomically_eq_ok hchange
    rw [(Prod.mk.inj h).2] at hupdate
    exact ⟨Bank.updateLive_live hupdate, Bank.updateLive_eq_ok hupdate⟩

theorem close_eq_ok {e : Engine} {now : Instant} {id : String} {b b' : Bank} {a : Account}
    (h : close e now id b = (.ok a, b')) :
    (∃ row, b.liveAccount? id = some row) ∧ b' = b.change id (fun _ => true) fun row =>
      { row with status := AccountStatus.closed.name, updatedAt := now } := changed_eq_ok h

theorem delete_eq_ok {e : Engine} {now : Instant} {id : String} {b b' : Bank} {u : Unit}
    (h : delete e now id b = (.ok u, b')) :
    (∃ row, b.liveAccount? id = some row) ∧ b' = b.change id (fun _ => true) fun row =>
      { row with deletedAt := some now, updatedAt := now } := by
  unfold delete at h
  simp only [Prod.mk.injEq] at h
  have hupdate := atomically_eq_ok (Prod.ext (mapError_eq_ok.1 h.1) h.2)
  exact ⟨Bank.updateLive_live hupdate, Bank.updateLive_eq_ok hupdate⟩

theorem rename_bank (e : Engine) (now : Instant) (id : String) (r : RenameAccount) (b : Bank) :
    (rename e now id r b).2 = b ∨
      (rename e now id r b).2 = b.change id (fun _ => true) fun row =>
        { row with name := Text.trim r.name, updatedAt := now } := by
  unfold rename
  simp only
  split
  · exact .inl rfl
  · rw [changed_bank]
    exact Bank.updateLive_atomically rfl

theorem close_bank (e : Engine) (now : Instant) (id : String) (b : Bank) :
    (close e now id b).2 = b ∨
      (close e now id b).2 = b.change id (fun _ => true) fun row =>
        { row with status := AccountStatus.closed.name, updatedAt := now } := by
  unfold close
  rw [changed_bank]
  exact Bank.updateLive_atomically rfl

theorem delete_bank (e : Engine) (now : Instant) (id : String) (b : Bank) :
    (delete e now id b).2 = b ∨
      (delete e now id b).2 = b.change id (fun _ => true) fun row =>
        { row with deletedAt := some now, updatedAt := now } :=
  Bank.updateLive_atomically rfl

/-! ## Errors -/

/-- Where there is a live account, reading it can only fail for internal reasons. -/
theorem get_of_live {e : Engine} {id : String} {b : Bank} {row : AccountRow}
    (h : b.liveAccount? id = some row) {c : ServiceError} (hget : get e id b = .error c) :
    c.code = .internal := by
  obtain ⟨cause, hcause, rfl⟩ := mapError_eq_error.1 hget
  unfold Bank.getAccount Bank.accountRow at hcause
  rw [h] at hcause
  unfold Bank.askRead at hcause
  cases hask : e.ask 0 .read with
  | error cause' =>
    rw [hask] at hcause
    cases hcause
    rfl
  | ok u =>
    rw [hask] at hcause
    exact AccountRow.toAccount_error hcause _

/-- A change that is answered with anything but an internal error was not made. -/
theorem changed_eq_error {e : Engine} {operation id : String} {f : AccountRow → AccountRow}
    {b b' : Bank} {c : ServiceError}
    (h : changed e operation id (atomically b (Bank.updateLive e id f b)) = (.error c, b'))
    (hc : c.code ≠ .internal) (hid : ∀ r, (f r).id = r.id)
    (hlive : ∀ r, (f r).isLive = r.isLive) : b' = b := by
  unfold changed at h
  split at h
  · next b₁ hchange =>
    rw [← (Prod.mk.inj h).2]
    exact (atomically_eq_error hchange).2
  · next b₁ hchange =>
    have hupdate := atomically_eq_ok hchange
    obtain ⟨row, hrow⟩ := Bank.updateLive_live hupdate
    have hfound : (b.change id (fun _ => true) f).liveAccount? id = (b.liveAccount? id).map f :=
      Bank.liveAccount?_change hid hlive
    rw [← Bank.updateLive_eq_ok hupdate, hrow] at hfound
    exact absurd (get_of_live hfound (Prod.mk.inj h).1) hc

theorem rename_eq_error {e : Engine} {now : Instant} {id : String} {r : RenameAccount} {b b' : Bank}
    {c : ServiceError} (h : rename e now id r b = (.error c, b')) (hc : c.code ≠ .internal) :
    b' = b := by
  unfold rename at h
  simp only at h
  split at h
  · exact (Prod.mk.inj h).2.symm
  · exact changed_eq_error h hc (fun _ => rfl) fun _ => rfl

theorem close_eq_error {e : Engine} {now : Instant} {id : String} {b b' : Bank} {c : ServiceError}
    (h : close e now id b = (.error c, b')) (hc : c.code ≠ .internal) : b' = b :=
  changed_eq_error h hc (fun _ => rfl) fun _ => rfl

theorem delete_eq_error {e : Engine} {now : Instant} {id : String} {b b' : Bank} {c : ServiceError}
    (h : delete e now id b = (.error c, b')) : b' = b := by
  unfold delete at h
  simp only [Prod.mk.injEq] at h
  obtain ⟨cause, hcause, -⟩ := mapError_eq_error.1 h.1
  exact (atomically_eq_error (Prod.ext hcause h.2)).2

end Accounts

end TransferLedger
