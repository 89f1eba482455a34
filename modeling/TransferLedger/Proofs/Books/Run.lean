import TransferLedger.Proofs.Store.Engine
import TransferLedger.Service.Accounts
import TransferLedger.Service.Transactions

/-! # Runs of the account and transaction services

`Books` are the two tables together with what callers remember of their dealings: the accounts as
they were opened, and the plans that were drawn. A run is any sequence of calls:

* `Call`: opening, renaming, closing and deleting accounts, the three steps of a transfer one by
  one, and a whole transfer. The steps of different transfers may interleave in any way.
* `Books.perform`: one call under an engine that may fail any statement of it.
* `Books.Reachable`: the books after any number of calls on empty tables. Only plans that were drawn
  are committed or recorded as failed, at any later time and any number of times.
* `Books.Later`: the books after any further calls.
-/

namespace TransferLedger
set_option autoImplicit false

/-- The two tables, the accounts as they were opened, and the plans drawn so far. -/
structure Books where
  bank : Bank
  opened : List Account
  plans : List TransferPlan

/-- A call of one of the two services, or one step of a transfer. -/
inductive Call
  | openAccount (newId : String) (r : OpenAccount)
  | rename (id : String) (r : RenameAccount)
  | close (id : String)
  | delete (id : String)
  | prepare (newId : String) (r : TransferRequest)
  | commit (p : TransferPlan)
  | recordFailed (p : TransferPlan)
  /-- A whole transfer, in a world with this ledger and this broker. -/
  | transfer (newId : String) (r : TransferRequest) (ledger : TableLedger) (broker : Broker)

namespace Books

/-- Empty tables. -/
def empty : Books := ⟨.empty, [], []⟩

/-- The books after a call. -/
def perform (e : Engine) (now : Instant) (s : Books) : Call → Books
  | .openAccount newId r =>
    match Accounts.create e now newId r s.bank with
    | (.ok a, b) => { s with bank := b, opened := s.opened ++ [a] }
    | (.error _, b) => { s with bank := b }
  | .rename id r => { s with bank := (Accounts.rename e now id r s.bank).2 }
  | .close id => { s with bank := (Accounts.close e now id s.bank).2 }
  | .delete id => { s with bank := (Accounts.delete e now id s.bank).2 }
  | .prepare newId r =>
    { s with plans := s.plans ++ (Transfer.prepare e newId r s.bank).toOption.toList }
  | .commit p => { s with bank := (Transfer.commit e now p s.bank).2 }
  | .recordFailed p => { s with bank := (Transfer.recordFailed e now p s.bank).2 }
  | .transfer newId r ledger broker =>
    { s with
      bank := (Transactions.create e now newId r ⟨s.bank, ledger, broker⟩).2.bank
      plans := s.plans ++ (Transfer.prepare e newId r s.bank).toOption.toList }

/-- A call that uses a plan uses one that was drawn. -/
def Permits (s : Books) : Call → Prop
  | .commit p | .recordFailed p => p ∈ s.plans
  | _ => True

/-- Plans are kept for good. -/
theorem plans_subset (s : Books) (e : Engine) (now : Instant) (c : Call) :
    s.plans ⊆ (s.perform e now c).plans := by
  cases c with
  | openAccount newId r =>
    unfold perform
    simp only
    split
    · exact List.Subset.refl _
    · exact List.Subset.refl _
  | rename id r => exact List.Subset.refl _
  | close id => exact List.Subset.refl _
  | delete id => exact List.Subset.refl _
  | prepare newId r => exact List.subset_append_left _ _
  | commit p => exact List.Subset.refl _
  | recordFailed p => exact List.Subset.refl _
  | transfer newId r ledger broker => exact List.subset_append_left _ _

/-- The books after some run. -/
inductive Reachable : Books → Prop
  | start : Reachable empty
  | step {s : Books} {e : Engine} {c : Call} (h : Reachable s) (he : e.KeepsInserts)
      (now : Instant) (hc : s.Permits c) : Reachable (s.perform e now c)

/-- The books after some further calls. -/
inductive Later (s : Books) : Books → Prop
  | refl : Later s s
  | step {s' : Books} {e : Engine} {c : Call} (h : Later s s') (he : e.KeepsInserts)
      (now : Instant) (hc : s'.Permits c) : Later s (s'.perform e now c)

/-! ## A run -/

/-- Two accounts are opened and a plan between them is drawn. -/
def samplePlanned : Books :=
  empty
  |>.perform .sound default (.openAccount "" ⟨"alice", "a", "", "EUR", "10.50"⟩)
  |>.perform .sound default (.openAccount "" ⟨"bob", "b", "", "EUR", ""⟩)
  |>.perform .sound default (.prepare "t" ⟨"alice", "bob", "3.25", "eur", "", ""⟩)

/-- The plan that was drawn. -/
def samplePlan : TransferPlan :=
  ⟨"t", "alice", "bob", "transfer", ⟨325, 2, by decide, by decide⟩, "EUR", ""⟩

/-- The plan is committed. -/
def sample : Books := samplePlanned.perform .sound default (.commit samplePlan)

theorem samplePlanned_reachable : samplePlanned.Reachable := by
  have he := Engine.sound_keepsInserts
  unfold samplePlanned
  refine .step (.step (.step .start he default ?_) he default ?_) he default ?_
  · exact trivial
  · exact trivial
  · exact trivial

theorem samplePlan_mem : samplePlan ∈ samplePlanned.plans := by decide +kernel

theorem sample_reachable : sample.Reachable :=
  samplePlanned_reachable.step Engine.sound_keepsInserts default samplePlan_mem

end Books

end TransferLedger
