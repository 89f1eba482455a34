import TransferLedger.Bank.Basic
import TransferLedger.Proofs.Bank.Row

/-! # What the operations on the two tables do

One statement for each operation: what a successful call found and what it wrote. A failed call
changes nothing, since every operation is one atomic unit (`atomically_eq_error`).
-/

namespace TransferLedger.Bank
set_option autoImplicit false

/-! ## Looking rows up -/

theorem account?_eq_some {b : Bank} {id : String} {r : AccountRow} (h : b.account? id = some r) :
    r ∈ b.accounts ∧ r.id = id :=
  ⟨List.mem_of_find?_eq_some h, by simpa using List.find?_some h⟩

theorem account?_eq_none {b : Bank} {id : String} (h : b.account? id = none) :
    id ∉ b.accounts.map (·.id) := by
  simp only [List.mem_map, not_exists, not_and]
  intro r hr
  simpa using List.find?_eq_none.1 h r hr

theorem account?_isSome {b : Bank} {id : String} (h : (b.account? id).isSome = true) :
    id ∈ b.accounts.map (·.id) := by
  obtain ⟨r, hr⟩ := Option.isSome_iff_exists.1 h
  obtain ⟨hm, rfl⟩ := account?_eq_some hr
  exact List.mem_map_of_mem hm

theorem account?_isSome_of_mem {b : Bank} {id : String} (h : id ∈ b.accounts.map (·.id)) :
    (b.account? id).isSome = true := by
  obtain ⟨r, hr, rfl⟩ := List.mem_map.1 h
  rw [account?, List.find?_isSome]
  exact ⟨r, hr, beq_self_eq_true r.id⟩

theorem transaction?_eq_none {b : Bank} {id : String} (h : b.transaction? id = none) :
    id ∉ b.transactions.map (·.id) := by
  simp only [List.mem_map, not_exists, not_and]
  intro r hr
  simpa using List.find?_eq_none.1 h r hr

/-- A record is found once its row is added. -/
theorem transaction?_added {b b' : Bank} {t : Transaction} (hnew : b.transaction? t.id = none)
    (h : b'.transactions = b.transactions ++ [.ofTransaction t]) :
    b'.transaction? t.id = some (.ofTransaction t) := by
  have hadded : ((TransactionRow.ofTransaction t).id == t.id) = true := beq_self_eq_true t.id
  rw [transaction?] at hnew
  rw [transaction?, h, List.find?_append, hnew, Option.none_or, List.find?_cons, hadded]

theorem liveAccount?_eq_some {b : Bank} {id : String} {r : AccountRow}
    (h : b.liveAccount? id = some r) : r ∈ b.accounts ∧ r.id = id ∧ r.isLive = true :=
  ⟨List.mem_of_find?_eq_some h, by simpa using List.find?_some h⟩

theorem accountRow_eq_ok {e : Engine} {n : Nat} {id : String} {b : Bank} {r : AccountRow}
    (h : accountRow e n id b = .ok r) : b.liveAccount? id = some r := by
  unfold accountRow at h
  obtain ⟨_, -, h⟩ := bind_eq_ok.1 h
  split at h
  · next hr =>
    cases h
    exact hr
  · cases h

/-- Where no statement fails, what is answered is what is found. -/
theorem accountRow_eq {e : Engine} (he : e.NeverFails) (n : Nat) (id : String) (b : Bank) :
    accountRow e n id b =
      match b.liveAccount? id with
      | some r => .ok r
      | none => .error (.notFound .account id) := by
  have hask : askRead e n = .ok () := by
    rw [askRead, he.ask]
    rfl
  rw [accountRow, hask]
  rfl

theorem getAccount_eq_ok {e : Engine} {id : String} {b : Bank} {a : Account}
    (h : getAccount e id b = .ok a) : ∃ r, b.liveAccount? id = some r ∧ r.toAccount = .ok a := by
  unfold getAccount at h
  obtain ⟨r, hr, h⟩ := bind_eq_ok.1 h
  exact ⟨r, accountRow_eq_ok hr, h⟩

/-! ## Accounts -/

theorem insertAccount_eq_ok {e : Engine} (he : e.KeepsInserts) {a : Account} {b b' : Bank}
    (h : insertAccount e a b = (.ok (), b')) :
    b.account? a.id = none ∧ b' = { b with accounts := b.accounts ++ [.ofAccount a] } := by
  have h := atomically_eq_ok h
  unfold insertAccountUnit at h
  obtain ⟨takesEffect, ht, h⟩ := bind_eq_ok.1 h
  have ht := he.takesEffect rfl (mapError_eq_ok.1 ht)
  subst ht
  simp only [Bool.not_true, Bool.false_eq_true, if_false] at h
  split at h
  · cases h
  · next hnone =>
    simp only [Except.ok.injEq, Prod.mk.injEq, true_and] at h
    exact ⟨by simpa using hnone, h.symm⟩

/-- The bank in which the rows of one live account that satisfy a condition are changed. -/
def change (b : Bank) (id : String) (condition : AccountRow → Bool)
    (f : AccountRow → AccountRow) : Bank :=
  { b with accounts := b.accounts.map fun r =>
      if r.id == id && r.isLive && condition r then f r else r }

theorem change_ids (b : Bank) (id : String) (condition : AccountRow → Bool)
    {f : AccountRow → AccountRow} (hf : ∀ r, (f r).id = r.id) :
    (b.change id condition f).accounts.map (·.id) = b.accounts.map (·.id) := by
  simp only [change, List.map_map]
  apply List.map_congr_left
  intro r _
  simp only [Function.comp_apply]
  split
  · exact hf r
  · rfl

theorem updateAccounts_eq_ok {e : Engine} {n k : Nat} {id : String} {condition : AccountRow → Bool}
    {f : AccountRow → AccountRow} {b b' : Bank}
    (h : updateAccounts e n id condition f b = .ok (k, b')) :
    (k = 0 ∧ b' = b) ∨
      (k = b.accounts.countP (fun r => r.id == id && r.isLive && condition r) ∧
        b' = b.change id condition f) := by
  unfold updateAccounts at h
  obtain ⟨takesEffect, -, h⟩ := bind_eq_ok.1 h
  split at h
  · simp only [Except.ok.injEq, Prod.mk.injEq] at h
    exact .inr ⟨h.1.symm, h.2.symm⟩
  · simp only [Except.ok.injEq, Prod.mk.injEq] at h
    exact .inl ⟨h.1.symm, h.2.symm⟩

theorem updateLive_eq_ok {e : Engine} {id : String} {f : AccountRow → AccountRow} {b b' : Bank}
    {u : Unit} (h : updateLive e id f b = .ok (u, b')) :
    b' = b.change id (fun _ => true) f := by
  unfold updateLive at h
  obtain ⟨⟨k, b₁⟩, hk, h⟩ := bind_eq_ok.1 h
  simp only at h
  split at h
  · cases h
  · next hne =>
    cases h
    rcases updateAccounts_eq_ok hk with ⟨h0, -⟩ | ⟨-, hb⟩
    · exact absurd h0 hne
    · exact hb

/-- Only a live account is changed. -/
theorem updateLive_live {e : Engine} {id : String} {f : AccountRow → AccountRow} {b b' : Bank}
    {u : Unit} (h : updateLive e id f b = .ok (u, b')) : ∃ r, b.liveAccount? id = some r := by
  unfold updateLive at h
  obtain ⟨⟨k, b₁⟩, hk, h⟩ := bind_eq_ok.1 h
  simp only at h
  split at h
  · cases h
  next hne =>
  rcases updateAccounts_eq_ok hk with ⟨h0, -⟩ | ⟨hcount, -⟩
  · exact absurd h0 hne
  rw [hcount] at hne
  obtain ⟨r, hr, htarget⟩ := List.countP_pos_iff.1 (Nat.pos_of_ne_zero hne)
  rw [Bool.and_true] at htarget
  rw [← Option.isSome_iff_exists, liveAccount?, List.find?_isSome]
  exact ⟨r, hr, htarget⟩

theorem updateLive_of_none {e : Engine} {id : String} {f : AccountRow → AccountRow} {b : Bank}
    (h : b.liveAccount? id = none) : ∃ c, updateLive e id f b = .error c := by
  cases hupdate : updateLive e id f b with
  | error c => exact ⟨c, rfl⟩
  | ok result =>
    obtain ⟨r, hr⟩ := updateLive_live hupdate
    rw [h] at hr
    cases hr

/-- What is found of an account once it was changed. -/
theorem liveAccount?_change {b : Bank} {id : String} {f : AccountRow → AccountRow}
    (hid : ∀ r, (f r).id = r.id) (hlive : ∀ r, (f r).isLive = r.isLive) :
    (b.change id (fun _ => true) f).liveAccount? id = (b.liveAccount? id).map f := by
  simp only [liveAccount?, change, List.find?_map]
  have hsame : ((fun r : AccountRow => r.id == id && r.isLive) ∘ fun r =>
      if r.id == id && r.isLive && true then f r else r) = fun r => r.id == id && r.isLive := by
    funext r
    simp only [Function.comp_apply]
    split
    · rw [hid, hlive]
    · rfl
  rw [hsame]
  cases hfind : b.accounts.find? fun r => r.id == id && r.isLive with
  | none => rfl
  | some r =>
    have htarget := List.find?_some hfind
    rw [Option.map_some, Option.map_some, Bool.and_true, if_pos htarget]

/-- A change of one live account is made or the bank stays as it is. -/
theorem updateLive_atomically {e : Engine} {id : String} {f : AccountRow → AccountRow}
    {b b' : Bank} {outcome : Except BankError Unit}
    (h : atomically b (updateLive e id f b) = (outcome, b')) :
    b' = b ∨ b' = b.change id (fun _ => true) f := by
  cases outcome with
  | error c => exact .inl (atomically_eq_error h).2
  | ok u => exact .inr (updateLive_eq_ok (atomically_eq_ok h))

/-! ## Records -/

theorem addTransaction_eq_ok {e : Engine} (he : e.KeepsInserts) {n : Nat} {t : Transaction}
    {b b' : Bank} {u : Unit} (h : addTransaction e n t b = .ok (u, b')) :
    b.transaction? t.id = none ∧ (b.account? t.fromAccount).isSome = true ∧
      (b.account? t.toAccount).isSome = true ∧
      b' = { b with transactions := b.transactions ++ [.ofTransaction t] } := by
  unfold addTransaction at h
  obtain ⟨takesEffect, ht, h⟩ := bind_eq_ok.1 h
  have ht := he.takesEffect rfl (mapError_eq_ok.1 ht)
  subst ht
  simp only [Bool.not_true, Bool.false_eq_true, if_false] at h
  split at h
  · cases h
  next hnew =>
  split at h
  · cases h
  next href =>
  simp only [Except.ok.injEq, Prod.mk.injEq, true_and] at h
  simp only [Bool.or_eq_true, not_or, Option.isNone_iff_eq_none, ← ne_eq, Option.ne_none_iff_isSome]
    at href
  exact ⟨by simpa using hnew, href.1, href.2, h.symm⟩

end TransferLedger.Bank
