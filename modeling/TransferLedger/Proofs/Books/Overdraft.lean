import TransferLedger.Proofs.Books.Simulation

/-! # No overdraft

Plans may be committed long after they were drawn, in any order and between any other calls; the
unit examines both accounts again. So balances are never negative nor more precise than eight fraction
digits, whatever their size and however often they are rounded, and every transfer that is carried
out is covered by what the sender has at that moment.
-/

namespace TransferLedger
set_option autoImplicit false

/-- The row of an account reads as a balance that is not negative and has at most eight fraction
digits. -/
def AccountRow.Solvent (r : AccountRow) : Prop :=
  ∃ a, r.toAccount = .ok a ∧ 0 ≤ a.balance.value ∧ a.balance.scale ≤ 8

/-- A plan was carried out from one table of accounts to the next: it debited a live active account
that could pay for it and credited another live active one. -/
structure Covered (b b' : Bank) (p : TransferPlan) (now : Instant) (sender receiver : Account) :
    Prop where
  distinct : p.fromAccount ≠ p.toAccount
  sender_found : b.liveAccount? p.fromAccount = some (.ofAccount sender)
  receiver_found : b.liveAccount? p.toAccount = some (.ofAccount receiver)
  sender_active : sender.status = .active
  receiver_active : receiver.status = .active
  covered : p.amount.value ≤ sender.balance.value
  written : ∃ debited credited, sender.balance.sub p.amount = .ok debited ∧
    receiver.balance.add p.amount = .ok credited ∧
    b'.accounts = b.accounts.map fun r =>
      if r.id = p.fromAccount then { r with balance := debited.text, updatedAt := now }
      else if r.id = p.toAccount then { r with balance := credited.text, updatedAt := now }
      else r

namespace Register

variable {g : Register}

theorem Sound.solvent (hg : g.Sound) {r : AccountRow} (hr : r ∈ g.books.bank.accounts) :
    r.Solvent := by
  obtain ⟨a, ha, rfl⟩ := List.mem_map.1 hr
  obtain ⟨hpos, hscale⟩ := hg.balances a ha
  exact ⟨a, AccountRow.toAccount_ofAccount a, Decimal.value_nonneg hpos, hscale⟩

theorem Sound.covered (hg : g.Sound) {p : TransferPlan} (hp : p ∈ g.plans)
    (m : Bank.Movement g.books.bank p) (now : Instant) :
    ∃ sender receiver, Covered g.books.bank (m.result now) p now sender receiver := by
  obtain ⟨k, hs, hr, hd, hc⟩ := exists_posting m
  have hids : (g.books.bank.accounts.map (·.id)).Nodup := by
    rw [rows_ids]
    exact hg.accountIds
  have hne := (hg.plans p hp).distinct
  have hcovered : p.amount.value ≤ k.sender.balance.value := by
    have hfunds := k.funded
    rwa [← Bool.not_eq_true, Decimal.below_iff_value, not_lt] at hfunds
  refine ⟨k.sender, k.receiver, ?_⟩
  exact {
    distinct := hne
    sender_found := hs ▸ m.sender_found
    receiver_found := hr ▸ m.receiver_found
    sender_active := k.sender_active
    receiver_active := k.receiver_active
    covered := hcovered
    written := ⟨k.debited, k.credited, Decimal.sub_eq_ok.2 k.debited_eq,
      Decimal.add_eq_ok.2 k.credited_eq, hd ▸ hc ▸ m.result_accounts now hne hids⟩ }

end Register

theorem Books.Reachable.no_overdraft {s : Books} (h : s.Reachable) :
    (∀ r ∈ s.bank.accounts, r.Solvent) ∧
    ∀ (e : Engine) (now : Instant) (p : TransferPlan) (t : Transaction) (b' : Bank),
      e.KeepsInserts → p ∈ s.plans → Transfer.commit e now p s.bank = (.ok t, b') →
        ∃ sender receiver, Covered s.bank b' p now sender receiver := by
  obtain ⟨g, hreach, rfl⟩ := h.register
  have hg := Register.Reachable.sound hreach
  refine ⟨fun r hr => hg.solvent hr, ?_⟩
  intro e now p t b' he hp hcommit
  obtain ⟨-, m, -, rfl⟩ := Transfer.commit_eq_ok he hcommit
  exact hg.covered hp m now

theorem Books.sample_no_overdraft :
    (∀ r ∈ Books.samplePlanned.bank.accounts, r.Solvent) ∧
    ∃ t b', Transfer.commit .sound default Books.samplePlan Books.samplePlanned.bank = (.ok t, b') ∧
      ∃ sender receiver,
        Covered Books.samplePlanned.bank b' Books.samplePlan default sender receiver := by
  obtain ⟨hsolvent, hcovered⟩ := Books.Reachable.no_overdraft Books.samplePlanned_reachable
  have hok : (Transfer.commit .sound default Books.samplePlan Books.samplePlanned.bank).1 =
      .ok (Books.samplePlan.record .success default) := by decide +kernel
  refine ⟨hsolvent, _, _, Prod.ext hok rfl, ?_⟩
  exact hcovered .sound default _ _ _ Engine.sound_keepsInserts Books.samplePlan_mem
    (Prod.ext hok rfl)

end TransferLedger
