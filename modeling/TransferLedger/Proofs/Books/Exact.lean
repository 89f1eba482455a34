import TransferLedger.Proofs.Books.Queries
import TransferLedger.Proofs.Books.Simulation
import TransferLedger.Proofs.Decimal.Rounding

/-! # How exact transfers are

The two balances that a transfer writes are the exact difference and the exact sum wherever there are
decimals of these numbers, and otherwise near them (`Books.Reachable.execute_settles`). While the two
accounts have less than `2^96 / 10^8` between them there always are. Opening balances are bounded in their
fraction digits, though, and not in size: beside a large one an amount may be rounded away
(`Books.sampleVast_rounded`).
-/

namespace TransferLedger
set_option autoImplicit false

/-- A transfer changed the balances of its two accounts by its amount, as far as decimals go. -/
structure Settled (b b' : Bank) (t : Transaction) (sender receiver sender' receiver' : Account) :
    Prop where
  distinct : t.fromAccount ≠ t.toAccount
  sender_before : b.liveAccount? t.fromAccount = some (.ofAccount sender)
  receiver_before : b.liveAccount? t.toAccount = some (.ofAccount receiver)
  sender_after : b'.liveAccount? t.fromAccount = some (.ofAccount sender')
  receiver_after : b'.liveAccount? t.toAccount = some (.ofAccount receiver')
  debited : sender'.balance.Approximates (sender.balance.value - t.amount.value)
  credited : receiver'.balance.Approximates (receiver.balance.value + t.amount.value)

namespace Register

variable {g : Register}

/-! ## Postings -/

namespace Posting

variable {p : TransferPlan}

/-- The register after the posting. -/
def result (m : g.Posting p) (now : Instant) : Register :=
  { g with accounts := g.accounts.map (m.moved now)
           records := g.records ++ [p.record .success now] }

theorem sender_moved (m : g.Posting p) (now : Instant) :
    (m.result now).Live p.fromAccount (m.sender.rebalanced m.debited now) where
  mem := List.mem_map.2 ⟨m.sender, m.sender_live.mem, if_pos m.sender_live.id_eq⟩
  id_eq := m.sender_live.id_eq
  not_deleted := m.sender_live.not_deleted

theorem receiver_moved (m : g.Posting p) (hne : p.fromAccount ≠ p.toAccount) (now : Instant) :
    (m.result now).Live p.toAccount (m.receiver.rebalanced m.credited now) where
  mem := by
    have hother : m.receiver.id ≠ p.fromAccount := by
      rw [m.receiver_live.id_eq]
      exact hne.symm
    refine List.mem_map.2 ⟨m.receiver, m.receiver_live.mem, ?_⟩
    rw [moved, if_neg hother, if_pos m.receiver_live.id_eq]
  id_eq := m.receiver_live.id_eq
  not_deleted := m.receiver_live.not_deleted

end Posting

theorem Sound.settled (hg : g.Sound) {p : TransferPlan} (hp : p ∈ g.plans)
    (m : Bank.Movement g.books.bank p) (now : Instant) :
    ∃ k : g.Posting p, Settled g.books.bank (m.result now) (p.record .success now) k.sender k.receiver
      (k.sender.rebalanced k.debited now) (k.receiver.rebalanced k.credited now) := by
  obtain ⟨k, -, -, hd, hc⟩ := exists_posting m
  have hne := (hg.plans p hp).distinct
  have hafter := hg.step (.posted hp (transaction?_books_none m.record_new) k now)
  have hbooks : m.result now = (k.result now).books.bank := posted_books hg hp m now hd hc
  refine ⟨k, ?_⟩
  exact {
    distinct := hne
    sender_before := hg.liveAccount? k.sender_live
    receiver_before := hg.liveAccount? k.receiver_live
    sender_after := hbooks ▸ Sound.liveAccount? hafter (k.sender_moved now)
    receiver_after := hbooks ▸ Sound.liveAccount? hafter (k.receiver_moved hne now)
    debited := Decimal.sub?_approximates k.debited_eq
    credited := Decimal.add?_approximates k.credited_eq }

/-- Of accounts that have little enough between them, difference and sum have decimals. -/
theorem Posting.representable {p : TransferPlan} (k : g.Posting p) (hg : g.Sound) (hp : p ∈ g.plans)
    (h : k.sender.balance.value + k.receiver.balance.value < Decimal.bound / 10 ^ 8) :
    Decimal.Representable (k.sender.balance.value - p.amount.value) ∧
      Decimal.Representable (k.receiver.balance.value + p.amount.value) := by
  obtain ⟨hspos, hsscale⟩ := hg.balances _ k.sender_live.mem
  obtain ⟨hrpos, hrscale⟩ := hg.balances _ k.receiver_live.mem
  have hmov := hg.plans p hp
  have hamount := Decimal.value_pos hmov.positive
  have hreceiver := Decimal.value_nonneg hrpos
  have hfunds : p.amount.value ≤ k.sender.balance.value := by
    have hfunds := k.funded
    rwa [← Bool.not_eq_true, Decimal.below_iff_value, not_lt] at hfunds
  refine ⟨Decimal.representable_sub (by decide) hsscale hmov.scale_le ?_ ?_,
    Decimal.representable_add (by decide) hrscale hmov.scale_le ?_ ?_⟩
  · linarith
  · linarith
  · linarith
  · linarith

end Register

/-! ## Executed transfers -/

namespace Books

theorem Reachable.execute_settles {s : Books} (h : s.Reachable) {e : Engine} (he : e.KeepsInserts)
    {now : Instant} {newId : String} {r : TransferRequest} {t : Transaction} {b' : Bank}
    (hexec : Transfer.execute e now newId r s.bank = (.ok t, b')) :
    (∃ v, r.validate = .ok v ∧ t = (v.plan newId).record .success now) ∧
    ∃ sender receiver sender' receiver', Settled s.bank b' t sender receiver sender' receiver' ∧
      (sender'.balance.value = sender.balance.value - t.amount.value ↔
        Decimal.Representable (sender.balance.value - t.amount.value)) ∧
      (receiver'.balance.value = receiver.balance.value + t.amount.value ↔
        Decimal.Representable (receiver.balance.value + t.amount.value)) ∧
      (sender.balance.value + receiver.balance.value < Decimal.bound / 10 ^ 8 →
        sender'.balance.value = sender.balance.value - t.amount.value ∧
          receiver'.balance.value = receiver.balance.value + t.amount.value) := by
  obtain ⟨g, hreach, rfl⟩ := h.register
  obtain ⟨p, hprepare, hcommit⟩ := Transfer.execute_eq_ok hexec
  obtain ⟨rfl, m, -, rfl⟩ := Transfer.commit_eq_ok (he.after 2) hcommit
  have hstep := Register.prepare_follows hprepare
  have hg := Register.Sound.step (Register.Reachable.sound hreach) hstep
  -- The plan is noted first; that does not touch the tables.
  obtain ⟨k, hsettled⟩ := Register.Sound.settled hg (p := p) (by simp) m now
  obtain ⟨v, -, -, hv, hp, -⟩ := Transfer.prepare_eq_ok hprepare
  refine ⟨⟨v, hv, by rw [hp]⟩, k.sender, k.receiver, _, _, hsettled, hsettled.debited.exact_iff,
    hsettled.credited.exact_iff, ?_⟩
  intro hsmall
  obtain ⟨hs, hr⟩ := k.representable hg (by simp) hsmall
  exact ⟨hsettled.debited.exact hs, hsettled.credited.exact hr⟩

/-- The request that the plan of the sample was drawn for. -/
def sampleRequest : TransferRequest := ⟨"alice", "bob", "3.25", "eur", "", ""⟩

theorem sample_execute_settles :
    ∃ b', Transfer.execute .sound default "t" sampleRequest samplePlanned.bank =
        (.ok (samplePlan.record .success default), b') ∧
      ∃ sender receiver sender' receiver', Settled samplePlanned.bank b'
        (samplePlan.record .success default) sender receiver sender' receiver' := by
  have hok : (Transfer.execute .sound default "t" sampleRequest samplePlanned.bank).1 =
      .ok (samplePlan.record .success default) := by decide +kernel
  have hexec : Transfer.execute .sound default "t" sampleRequest samplePlanned.bank =
      (.ok (samplePlan.record .success default),
        (Transfer.execute .sound default "t" sampleRequest samplePlanned.bank).2) := by rw [← hok]
  obtain ⟨-, sender, receiver, sender', receiver', hsettled, -⟩ :=
    samplePlanned_reachable.execute_settles Engine.sound_keepsInserts hexec
  exact ⟨_, hexec, sender, receiver, sender', receiver', hsettled⟩

/-! ## An amount that is rounded away -/

/-- The largest balance there is. -/
def sampleLargest : Decimal :=
  { Decimal.zero with mantissa := Decimal.bound - 1, mantissa_lt := by decide }

/-- Two accounts are opened, one of them with the largest balance. -/
def sampleVast : Books :=
  empty
  |>.perform .sound default (.openAccount "" ⟨"alice", "a", "", "EUR", "10"⟩)
  |>.perform .sound default (.openAccount "" ⟨"bob", "b", "", "EUR", "79228162514264337593543950335"⟩)

theorem sampleVast_reachable : sampleVast.Reachable := by
  have he := Engine.sound_keepsInserts
  unfold sampleVast
  refine .step (.step .start he default ?_) he default ?_
  · exact trivial
  · exact trivial

def sampleBob : Account := ⟨"bob", "b", "", "EUR", sampleLargest, .active, default, default, none⟩

def sampleSmall : TransferRequest := ⟨"alice", "bob", "0.4", "EUR", "", ""⟩

/-- The transfer succeeds, and the receiver has what it had before. -/
theorem sampleVast_rounded : sampleVast.Reachable ∧
    ∃ t b', Transfer.execute .sound default "t" sampleSmall sampleVast.bank = (.ok t, b') ∧
      sampleVast.bank.liveAccount? t.toAccount = some (.ofAccount sampleBob) ∧
      b'.liveAccount? t.toAccount = some (.ofAccount sampleBob) ∧
      sampleBob.balance.value ≠ sampleBob.balance.value + t.amount.value := by
  have hok : (Transfer.execute .sound default "t" sampleSmall sampleVast.bank).1 =
      .ok ⟨"t", "alice", "bob", "transfer", ⟨4, 1, by decide, by decide⟩, "EUR", "", .success,
        default, default⟩ := by decide +kernel
  refine ⟨sampleVast_reachable, _, _, Prod.ext hok rfl, ?_, ?_, ?_⟩
  · decide +kernel
  · decide +kernel
  · norm_num [Decimal.value]

end Books

end TransferLedger
