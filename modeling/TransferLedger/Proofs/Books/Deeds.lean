import Mathlib.Data.List.Nodup
import TransferLedger.Proofs.Books.Run
import TransferLedger.Proofs.Service.Accounts
import TransferLedger.Proofs.Service.Transactions

/-! # Everything that can be done to the tables

* `Deed`: a call of one of the services, with any plan, or an operation on one table by itself.
* `Bank.Built`: the tables after any deeds on empty ones, each under an engine of its own.
* `Bank.Grown`: all that a deed can do to the keys of the tables: at most one new account and at most one
  new record, of an id that it names (`Deed.perform_grown`). So ids stay unique (`Bank.Built.accountIds`).
-/

namespace TransferLedger
set_option autoImplicit false

inductive Deed
  | call (c : Call)
  | insertAccount (a : Account)
  | renameAccount (id name : String)
  | setAccountStatus (id : String) (status : AccountStatus)
  | deleteAccount (id : String)
  | insertTransaction (t : Transaction)
  | applyTransfer (p : TransferPlan)

namespace Deed

def perform (e : Engine) (now : Instant) (b : Bank) : Deed → Bank
  | .call c => (Books.perform e now ⟨b, [], []⟩ c).bank
  | .insertAccount a => (b.insertAccount e a).2
  | .renameAccount id name => (b.renameAccount e now id name).2
  | .setAccountStatus id status => (b.setAccountStatus e now id status).2
  | .deleteAccount id => (b.deleteAccount e now id).2
  | .insertTransaction t => (b.insertTransaction e t).2
  | .applyTransfer p => (b.applyTransfer e now p).2

/-- The id under which the deed may write a record. -/
def recordId? : Deed → Option String
  | .call (.commit p) | .call (.recordFailed p) | .applyTransfer p => some p.transactionId
  | .call (.transfer newId _ _ _) => some newId
  | .insertTransaction t => some t.id
  | _ => none

end Deed

namespace Bank

inductive Built : Bank → Prop
  | empty : Built .empty
  | deed {b : Bank} {e : Engine} (h : Built b) (he : e.KeepsInserts) (now : Instant) (d : Deed) :
    Built (d.perform e now b)

def recordsOf (b : Bank) (id : String) : List TransactionRow := b.transactions.filter (·.id == id)

theorem recordsOf_eq_nil {b : Bank} {id : String} :
    b.recordsOf id = [] ↔ b.transaction? id = none := by
  rw [recordsOf, List.filter_eq_nil_iff, transaction?, List.find?_eq_none]

theorem recordsOf_recorded {b b' : Bank} {t : Transaction} (hnew : b.transaction? t.id = none)
    (h : b'.transactions = b.transactions ++ [.ofTransaction t]) :
    b'.recordsOf t.id = [.ofTransaction t] := by
  have hnil := recordsOf_eq_nil.2 hnew
  have hid : ((TransactionRow.ofTransaction t).id == t.id) = true := beq_self_eq_true t.id
  unfold recordsOf at hnil ⊢
  rw [h, List.filter_append, hnil, List.filter_singleton, hid]
  rfl

/-! ## Keys -/

/-- At most one account and one record are new, the record of a given id if of any. -/
structure Grown (b b' : Bank) (id? : Option String) : Prop where
  accounts : b'.accounts.map (·.id) = b.accounts.map (·.id) ∨
    ∃ id, b.account? id = none ∧ b'.accounts.map (·.id) = b.accounts.map (·.id) ++ [id]
  records : b'.transactions = b.transactions ∨
    ∃ t : Transaction, id? = some t.id ∧ b.transaction? t.id = none ∧
      b'.transactions = b.transactions ++ [.ofTransaction t]

variable {b b' : Bank} {id? : Option String}

theorem grown_self (b : Bank) (id? : Option String) : b.Grown b id? := ⟨.inl rfl, .inl rfl⟩

theorem change_grown {id : String} {f : AccountRow → AccountRow}
    (h : b' = b ∨ b' = b.change id (fun _ => true) f) (hf : ∀ r, (f r).id = r.id) :
    b.Grown b' id? := by
  rcases h with rfl | rfl
  · exact grown_self _ _
  · exact ⟨.inl (b.change_ids id _ hf), .inl rfl⟩

theorem Movement.result_ids {p : TransferPlan} (m : b.Movement p) (now : Instant) :
    (m.result now).accounts.map (·.id) = b.accounts.map (·.id) := by
  simp only [Movement.result]
  rw [change_ids _ _ _ (rebalanced_id m.credited now), change_ids _ _ _ (rebalanced_id m.debited now)]

theorem Movement.grown {p : TransferPlan} (m : b.Movement p) (now : Instant) :
    b.Grown (m.result now) (some p.transactionId) where
  accounts := .inl (m.result_ids now)
  records := .inr ⟨p.record .success now, rfl, m.record_new, rfl⟩

/-- Where what fails changes nothing, only what succeeds has to be looked at. -/
theorem grown_of_ok {ε α : Type} {result : Except ε α × Bank}
    (hok : ∀ x b', result = (.ok x, b') → b.Grown b' id?)
    (herror : ∀ c b', result = (.error c, b') → b' = b) : b.Grown result.2 id? := by
  obtain ⟨outcome, b'⟩ := result
  cases outcome with
  | ok x => exact hok x b' rfl
  | error c =>
    rw [herror c b' rfl]
    exact grown_self b id?

theorem applyTransfer_grown {e : Engine} (he : e.KeepsInserts) (now : Instant) (p : TransferPlan)
    (b : Bank) : b.Grown (b.applyTransfer e now p).2 (some p.transactionId) := by
  refine grown_of_ok (fun t b' h => ?_) fun _ _ => applyTransfer_eq_error
  obtain ⟨-, m, -, rfl⟩ := applyTransfer_eq_ok he h
  exact m.grown now

theorem insertAccount_grown {e : Engine} (he : e.KeepsInserts) (a : Account) (b : Bank) :
    b.Grown (b.insertAccount e a).2 id? := by
  refine grown_of_ok (fun u b' h => ?_) fun _ _ h => (atomically_eq_error h).2
  obtain ⟨hnew, rfl⟩ := insertAccount_eq_ok he h
  exact ⟨.inr ⟨a.id, hnew, by simp [AccountRow.ofAccount]⟩, .inl rfl⟩

theorem insertTransaction_grown {e : Engine} (he : e.KeepsInserts) (t : Transaction) (b : Bank) :
    b.Grown (b.insertTransaction e t).2 (some t.id) := by
  refine grown_of_ok (fun u b' h => ?_) fun _ _ h => (atomically_eq_error h).2
  obtain ⟨hnew, -, -, rfl⟩ := addTransaction_eq_ok he (atomically_eq_ok h)
  exact ⟨.inl rfl, .inr ⟨t, rfl, hnew, rfl⟩⟩

theorem recordFailed_grown {e : Engine} (he : e.KeepsInserts) (now : Instant) (p : TransferPlan)
    (b : Bank) : b.Grown (Transfer.recordFailed e now p b).2 (some p.transactionId) := by
  refine grown_of_ok (fun t b' h => ?_) fun _ _ => Transfer.recordFailed_eq_error
  obtain ⟨rfl, hnew, -, -, rfl⟩ := Transfer.recordFailed_eq_ok he h
  exact ⟨.inl rfl, .inr ⟨_, rfl, hnew, rfl⟩⟩

theorem Grown.recordsOf_eq (h : b.Grown b' id?) {id : String} (hid : id? ≠ some id) :
    b'.recordsOf id = b.recordsOf id := by
  rcases h.records with heq | ⟨t, ht, -, heq⟩
  · rw [recordsOf, recordsOf, heq]
  · have hne : ((TransactionRow.ofTransaction t).id == id) = false := by
      rw [beq_eq_false_iff_ne]
      exact fun h => hid (ht.trans (congrArg some h))
    rw [recordsOf, recordsOf, heq, List.filter_append, List.filter_singleton, hne]
    simp

theorem Grown.accountIds (h : b.Grown b' id?) (hb : (b.accounts.map (·.id)).Nodup) :
    (b'.accounts.map (·.id)).Nodup := by
  rcases h.accounts with heq | ⟨id, hnew, heq⟩
  · rw [heq]
    exact hb
  · rw [heq]
    exact (List.perm_append_singleton ..).nodup_iff.2 (hb.cons (account?_eq_none hnew))

end Bank

/-! ## Deeds -/

namespace Call

theorem perform_grown {e : Engine} (he : e.KeepsInserts) (now : Instant) (b : Bank) (c : Call) :
    b.Grown (Books.perform e now ⟨b, [], []⟩ c).bank (Deed.call c).recordId? := by
  cases c with
  | openAccount newId r =>
    unfold Books.perform
    simp only
    split
    · next a b' hcreate =>
      obtain ⟨-, hnew, rfl⟩ := Accounts.create_eq_ok he hcreate
      exact ⟨.inr ⟨a.id, hnew, by simp [AccountRow.ofAccount]⟩, .inl rfl⟩
    · next c b' hcreate =>
      rw [Accounts.create_eq_error hcreate]
      exact Bank.grown_self _ _
  | rename id r => exact Bank.change_grown (Accounts.rename_bank e now id r b) fun _ => rfl
  | close id => exact Bank.change_grown (Accounts.close_bank e now id b) fun _ => rfl
  | delete id => exact Bank.change_grown (Accounts.delete_bank e now id b) fun _ => rfl
  | prepare newId r => exact Bank.grown_self _ _
  | commit p => exact Bank.applyTransfer_grown he now p b
  | recordFailed p => exact Bank.recordFailed_grown he now p b
  | transfer newId r ledger broker =>
    show b.Grown (Transactions.create e now newId r ⟨b, ledger, broker⟩).2.bank (some newId)
    rcases Transactions.createWith_ending .direct he now newId r ⟨b, ledger, broker⟩ with
      ⟨cause, -, hcreate⟩ | ⟨p, hp, hending⟩
    · rw [Transactions.create, hcreate]
      exact Bank.grown_self _ _
    · -- However the transfer ends, the record that it writes has the new id: it is that of its plan.
      obtain ⟨v, -, -, -, rfl, -⟩ := Transfer.prepare_eq_ok hp
      rw [Transactions.create]
      generalize Transactions.createWith .direct e now newId r ⟨b, ledger, broker⟩ = out at hending
      obtain ⟨answer, w⟩ := out
      cases hending with
      | carriedOut m _ => exact m.grown now
      | refused _ => exact Bank.grown_self _ _
      | failed _ => exact Bank.grown_self _ _
      | recorded _ hnew _ _ => exact ⟨.inl rfl, .inr ⟨_, rfl, hnew, rfl⟩⟩
      | overflowed _ => exact Bank.grown_self _ _

end Call

theorem Deed.perform_grown {e : Engine} (he : e.KeepsInserts) (now : Instant) (b : Bank) (d : Deed) :
    b.Grown (d.perform e now b) d.recordId? := by
  cases d with
  | call c => exact c.perform_grown he now b
  | insertAccount a => exact Bank.insertAccount_grown he a b
  | renameAccount id name =>
    have h : b.renameAccount e now id name = (_, perform e now b (.renameAccount id name)) := rfl
    exact Bank.change_grown (Bank.updateLive_atomically h) fun _ => rfl
  | setAccountStatus id status =>
    have h : b.setAccountStatus e now id status =
        (_, perform e now b (.setAccountStatus id status)) := rfl
    exact Bank.change_grown (Bank.updateLive_atomically h) fun _ => rfl
  | deleteAccount id =>
    have h : b.deleteAccount e now id = (_, perform e now b (.deleteAccount id)) := rfl
    exact Bank.change_grown (Bank.updateLive_atomically h) fun _ => rfl
  | insertTransaction t => exact Bank.insertTransaction_grown he t b
  | applyTransfer p => exact Bank.applyTransfer_grown he now p b

theorem Bank.Built.accountIds {b : Bank} (h : b.Built) : (b.accounts.map (·.id)).Nodup := by
  induction h with
  | empty => exact List.nodup_nil
  | deed _ he now d ih => exact (d.perform_grown he now _).accountIds ih

end TransferLedger
