import Mathlib.Data.List.Nodup
import Mathlib.Data.List.Forall2
import Mathlib.Logic.Relation
import TransferLedger.Proofs.Books.Run
import TransferLedger.Proofs.Decimal.Value
import TransferLedger.Proofs.Transfer.Plan

/-! # The books as accounts and records

A `Register` holds the accounts and records themselves where the tables hold their rows. `Step` lists
all that the calls of the services do to it: a plan is drawn, an account is opened or amended, a plan
is recorded as failed, or a plan is posted. No engine and no failing statement occurs in it.

`Sound` collects what every register keeps: unique ids, balances and openings that are not negative
and have at most eight fraction digits, and plans and records of positive amounts between different
accounts (`Sound.step`).
-/

namespace TransferLedger
set_option autoImplicit false

/-- The accounts and records, the accounts as they were opened, and the plans drawn so far. -/
structure Register where
  accounts : List Account
  records : List Transaction
  opened : List Account
  plans : List TransferPlan

/-- A change of an account other than by a transfer. -/
inductive Amendment
  | rename (name : String)
  | close
  | delete

/-- The amended account. -/
def Amendment.apply (now : Instant) (a : Account) : Amendment → Account
  | .rename name => { a with name := name, updatedAt := now }
  | .close => { a with status := .closed, updatedAt := now }
  | .delete => { a with deletedAt := some now, updatedAt := now }

theorem Amendment.apply_id (now : Instant) (a : Account) (m : Amendment) :
    (m.apply now a).id = a.id := by
  cases m <;> rfl

theorem Amendment.apply_balance (now : Instant) (a : Account) (m : Amendment) :
    (m.apply now a).balance = a.balance := by
  cases m <;> rfl

/-- No amendment opens an account again. -/
theorem Amendment.apply_closed {a : Account} (h : a.status = .closed) (now : Instant)
    (m : Amendment) : (m.apply now a).status = .closed := by
  cases m with
  | rename name => exact h
  | close => rfl
  | delete => exact h

/-- The account with another balance. -/
def Account.rebalanced (balance : Decimal) (now : Instant) (a : Account) : Account :=
  { a with balance := balance, updatedAt := now }

namespace Register

/-- No accounts, records or plans. -/
def empty : Register := ⟨[], [], [], []⟩

/-- The books that hold these accounts and records. -/
def books (g : Register) : Books :=
  ⟨⟨g.accounts.map .ofAccount, g.records.map .ofTransaction⟩, g.opened, g.plans⟩

/-- An account of a register that is not deleted. -/
structure Live (g : Register) (id : String) (a : Account) : Prop where
  mem : a ∈ g.accounts
  id_eq : a.id = id
  not_deleted : a.deletedAt = none

theorem Live.mem_ids {g : Register} {id : String} {a : Account} (h : g.Live id a) :
    id ∈ g.accounts.map (·.id) := by
  rw [← h.id_eq]
  exact List.mem_map_of_mem h.mem

/-- What a plan needs to be posted, and what the posting writes. -/
structure Posting (g : Register) (p : TransferPlan) where
  sender : Account
  receiver : Account
  debited : Decimal
  credited : Decimal
  sender_live : g.Live p.fromAccount sender
  receiver_live : g.Live p.toAccount receiver
  sender_active : sender.status = .active
  receiver_active : receiver.status = .active
  funded : sender.balance.below p.amount = false
  debited_eq : sender.balance.sub? p.amount = some debited
  credited_eq : receiver.balance.add? p.amount = some credited

/-- What the posting of a plan makes of an account. -/
def Posting.moved {g : Register} {p : TransferPlan} (m : g.Posting p) (now : Instant) (a : Account) :
    Account :=
  if a.id = p.fromAccount then a.rebalanced m.debited now
  else if a.id = p.toAccount then a.rebalanced m.credited now
  else a

/-- What one call may do. -/
inductive Step (g : Register) : Register → Prop
  | planned {r : TransferRequest} {v : ValidTransfer} {sender receiver : Account} (newId : String)
      (hv : r.validate = .ok v) (hs : g.Live v.fromAccount sender)
      (hr : g.Live v.toAccount receiver) (hsf : v.Fits sender) (hrf : v.Fits receiver)
      (hfunds : sender.balance.below v.amount.value = false) :
      Step g { g with plans := g.plans ++ [v.plan newId] }
  | opened {a : Account} (hnew : a.id ∉ g.accounts.map (·.id)) (hpos : 0 ≤ a.balance.mantissa)
      (hscale : a.balance.scale ≤ 8) :
      Step g { g with accounts := g.accounts ++ [a], opened := g.opened ++ [a] }
  | amended (id : String) (m : Amendment) (now : Instant) :
      Step g { g with accounts := g.accounts.map fun a =>
        if a.id = id ∧ a.deletedAt = none then m.apply now a else a }
  | failed {p : TransferPlan} (hp : p ∈ g.plans)
      (hnew : p.transactionId ∉ g.records.map (·.id))
      (hs : p.fromAccount ∈ g.accounts.map (·.id)) (hr : p.toAccount ∈ g.accounts.map (·.id))
      (now : Instant) :
      Step g { g with records := g.records ++ [p.record .failed now] }
  | posted {p : TransferPlan} (hp : p ∈ g.plans)
      (hnew : p.transactionId ∉ g.records.map (·.id)) (m : g.Posting p) (now : Instant) :
      Step g { g with accounts := g.accounts.map (m.moved now)
                      records := g.records ++ [p.record .success now] }

/-- The registers after some run. -/
def Reachable (g : Register) : Prop := Relation.ReflTransGen Step empty g

/-! ## What every step keeps -/

/-- A decimal that an account may hold. -/
def Holdable (d : Decimal) : Prop := 0 ≤ d.mantissa ∧ d.scale ≤ 8

/-- A sum that may be moved between two accounts. -/
structure Movable (sender receiver type : String) (amount : Decimal) : Prop where
  distinct : sender ≠ receiver
  typed : type ≠ ""
  positive : 0 < amount.mantissa
  scale_le : amount.scale ≤ 8

/-- What holds of every register. -/
structure Sound (g : Register) : Prop where
  accountIds : (g.accounts.map (·.id)).Nodup
  recordIds : (g.records.map (·.id)).Nodup
  openedIds : g.opened.map (·.id) = g.accounts.map (·.id)
  balances : ∀ a ∈ g.accounts, Holdable a.balance
  openings : ∀ a ∈ g.opened, Holdable a.balance
  plans : ∀ p ∈ g.plans, Movable p.fromAccount p.toAccount p.type p.amount
  records : ∀ t ∈ g.records, Movable t.fromAccount t.toAccount t.type t.amount
  named : ∀ t ∈ g.records,
    t.fromAccount ∈ g.accounts.map (·.id) ∧ t.toAccount ∈ g.accounts.map (·.id)

theorem empty_sound : empty.Sound where
  accountIds := List.nodup_nil
  recordIds := List.nodup_nil
  openedIds := rfl
  balances := fun _ h => nomatch h
  openings := fun _ h => nomatch h
  plans := fun _ h => nomatch h
  records := fun _ h => nomatch h
  named := fun _ h => nomatch h

/-- Changing accounts in place keeps their ids. -/
theorem map_ids {accounts : List Account} {f : Account → Account} (h : ∀ a, (f a).id = a.id) :
    (accounts.map f).map (·.id) = accounts.map (·.id) := by
  rw [List.map_map]
  exact List.map_congr_left fun a _ => h a

theorem nodup_append_singleton {ids : List String} {id : String} (h : ids.Nodup) (hnew : id ∉ ids) :
    (ids ++ [id]).Nodup := by
  rw [List.nodup_append]
  refine ⟨h, List.nodup_singleton id, ?_⟩
  intro x hx y hy
  rw [List.mem_singleton.1 hy]
  exact fun heq => hnew (heq ▸ hx)

namespace Posting

variable {g : Register} {p : TransferPlan}

theorem moved_id (m : g.Posting p) (now : Instant) (a : Account) : (m.moved now a).id = a.id := by
  unfold moved
  split
  · rfl
  split <;> rfl

/-- No balance becomes negative or more precise, even where it is rounded. -/
theorem holdable (m : g.Posting p) (hg : g.Sound) (hp : p ∈ g.plans) :
    Holdable m.debited ∧ Holdable m.credited := by
  have hs := hg.balances _ m.sender_live.mem
  have hr := hg.balances _ m.receiver_live.mem
  have hmov := hg.plans p hp
  obtain ⟨hd, hds⟩ := Decimal.sub?_nonneg m.funded m.debited_eq
  obtain ⟨hc, hcs⟩ := Decimal.add?_nonneg hr.1 hmov.positive.le m.credited_eq
  exact ⟨⟨hd, hds.trans (Nat.max_le.2 ⟨hs.2, hmov.scale_le⟩)⟩,
    ⟨hc, hcs.trans (Nat.max_le.2 ⟨hr.2, hmov.scale_le⟩)⟩⟩

end Posting

theorem Sound.step {g g' : Register} (hg : g.Sound) (h : Step g g') : g'.Sound := by
  cases h with
  | planned newId hv hs hr hsf hrf hfunds =>
    refine { hg with plans := ?_ }
    intro p hp
    rcases List.mem_append.1 hp with hp | hp
    · exact hg.plans p hp
    · rw [List.mem_singleton.1 hp]
      obtain ⟨hne, htype⟩ := TransferRequest.validate_eq_ok hv
      exact ⟨hne, htype, Amount.positive _, Amount.scale_le _⟩
  | @opened a hnew hpos hscale =>
    have hids : (g.accounts ++ [a]).map (·.id) = g.accounts.map (·.id) ++ [a.id] := by simp
    have hopen : (g.opened ++ [a]).map (·.id) = g.opened.map (·.id) ++ [a.id] := by simp
    refine { hg with accountIds := ?_, openedIds := ?_, balances := ?_, openings := ?_, named := ?_ }
    · rw [hids]
      exact nodup_append_singleton hg.accountIds hnew
    · rw [hids, hopen, hg.openedIds]
    · intro x hx
      rcases List.mem_append.1 hx with hx | hx
      · exact hg.balances x hx
      · rw [List.mem_singleton.1 hx]
        exact ⟨hpos, hscale⟩
    · intro x hx
      rcases List.mem_append.1 hx with hx | hx
      · exact hg.openings x hx
      · rw [List.mem_singleton.1 hx]
        exact ⟨hpos, hscale⟩
    · intro t ht
      obtain ⟨hs, hr⟩ := hg.named t ht
      rw [hids]
      exact ⟨List.mem_append_left _ hs, List.mem_append_left _ hr⟩
  | amended id m now =>
    have hids : (g.accounts.map fun a =>
        if a.id = id ∧ a.deletedAt = none then m.apply now a else a).map (·.id) =
          g.accounts.map (·.id) := by
      apply map_ids
      intro a
      split
      · exact m.apply_id now a
      · rfl
    refine { hg with accountIds := ?_, openedIds := ?_, balances := ?_, named := ?_ }
    · rw [hids]
      exact hg.accountIds
    · rw [hids]
      exact hg.openedIds
    · intro x hx
      obtain ⟨a, ha, rfl⟩ := List.mem_map.1 hx
      split
      · rw [m.apply_balance]
        exact hg.balances a ha
      · exact hg.balances a ha
    · rw [hids]
      exact hg.named
  | @failed p hp hnew hs hr now =>
    refine { hg with recordIds := ?_, records := ?_, named := ?_ }
    · rw [List.map_append]
      exact nodup_append_singleton hg.recordIds hnew
    · intro t ht
      rcases List.mem_append.1 ht with ht | ht
      · exact hg.records t ht
      · rw [List.mem_singleton.1 ht]
        exact hg.plans p hp
    · intro t ht
      rcases List.mem_append.1 ht with ht | ht
      · exact hg.named t ht
      · rw [List.mem_singleton.1 ht]
        exact ⟨hs, hr⟩
  | @posted p hp hnew m now =>
    have hids := @map_ids g.accounts _ (m.moved_id now)
    obtain ⟨hdebited, hcredited⟩ := m.holdable hg hp
    refine { hg with accountIds := ?_, recordIds := ?_, openedIds := ?_, balances := ?_,
                     records := ?_, named := ?_ }
    · rw [hids]
      exact hg.accountIds
    · rw [List.map_append]
      exact nodup_append_singleton hg.recordIds hnew
    · rw [hids]
      exact hg.openedIds
    · intro x hx
      obtain ⟨a, ha, rfl⟩ := List.mem_map.1 hx
      unfold Posting.moved
      split
      · exact hdebited
      split
      · exact hcredited
      · exact hg.balances a ha
    · intro t ht
      rcases List.mem_append.1 ht with ht | ht
      · exact hg.records t ht
      · rw [List.mem_singleton.1 ht]
        exact hg.plans p hp
    · intro t ht
      rw [hids]
      rcases List.mem_append.1 ht with ht | ht
      · exact hg.named t ht
      · rw [List.mem_singleton.1 ht]
        exact ⟨m.sender_live.mem_ids, m.receiver_live.mem_ids⟩

/-- Records are never removed or changed. -/
theorem Step.records_subset {g g' : Register} (h : Step g g') : g.records ⊆ g'.records := by
  cases h with
  | planned => exact List.Subset.refl _
  | opened => exact List.Subset.refl _
  | amended => exact List.Subset.refl _
  | failed => exact List.subset_append_left _ _
  | posted => exact List.subset_append_left _ _

theorem records_subset {g g' : Register} (h : Relation.ReflTransGen Step g g') :
    g.records ⊆ g'.records := by
  induction h with
  | refl => exact List.Subset.refl _
  | tail _ hstep ih => exact List.Subset.trans ih hstep.records_subset

theorem Sound.run {g g' : Register} (hg : g.Sound) (h : Relation.ReflTransGen Step g g') :
    g'.Sound := by
  induction h with
  | refl => exact hg
  | tail _ hstep ih => exact ih.step hstep

theorem Reachable.sound {g : Register} (h : g.Reachable) : g.Sound := empty_sound.run h

end Register

end TransferLedger
