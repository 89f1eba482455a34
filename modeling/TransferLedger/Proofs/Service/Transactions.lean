import TransferLedger.Proofs.Transfer.Plan
import TransferLedger.Service.Transactions

/-! # How a requested transfer ends

`Ending` lists the ways in which carrying out a plan can end and what each leaves behind. Whatever
statements fail and whatever becomes of the announcement, `carryOutWith` ends in one of them
(`carryOutWith_ending`), and a request either gets no plan and changes nothing, or its plan is
carried out (`createWith_ending`).
-/

namespace TransferLedger.Transactions
set_option autoImplicit false

/-- The ways a plan can end, with the answer and the world afterwards. -/
inductive Ending (publish : Publisher) (now : Instant) (p : TransferPlan) (w : World) :
    Except (Halt TransferError) Transaction → World → Prop
  | carriedOut (m : Bank.Movement w.bank p) (hsole : m.Sole now) :
    Ending publish now p w (.ok (p.record .success now))
      { w with
        bank := m.result now
        broker := (publish (.ofTransaction (p.record .success now)) w.broker).2 }
  | refused {cause : TransferError} (h : cause.code ≠ .internal) :
    Ending publish now p w (.error (.refused cause)) w
  | failed {cause : TransferError} (h : cause.code = .internal) :
    Ending publish now p w (.error (.refused cause)) w
  | recorded {cause : TransferError} (h : cause.code = .internal)
      (hnew : w.bank.transaction? p.transactionId = none)
      (hs : (w.bank.account? p.fromAccount).isSome = true)
      (hr : (w.bank.account? p.toAccount).isSome = true) :
    Ending publish now p w (.error (.refused cause))
      { w with
        bank := { w.bank with
          transactions := w.bank.transactions ++ [.ofTransaction (p.record .failed now)] }
        broker := (publish (.ofTransaction (p.record .failed now)) w.broker).2 }
  | overflowed (o : Overflow) : Ending publish now p w (.error (.overflow o)) w

variable {e : Engine} (publish : Publisher)

theorem recordFailureWith_ending (he : e.KeepsInserts) (now : Instant) (p : TransferPlan)
    (w : World) {cause : TransferError} (h : cause.code = .internal) :
    Ending publish now p w (.error (.refused cause)) (recordFailureWith publish e now p w) := by
  unfold recordFailureWith
  split
  · next t b hrec =>
    obtain ⟨rfl, hnew, hs, hr, rfl⟩ := Transfer.recordFailed_eq_ok he hrec
    exact .recorded h hnew hs hr
  · next c b hrec =>
    rw [Transfer.recordFailed_eq_error hrec]
    exact .failed h

theorem carryOutWith_ending (he : e.KeepsInserts) (now : Instant) (p : TransferPlan) (w : World) :
    Ending publish now p w (carryOutWith publish e now p w).1
      (carryOutWith publish e now p w).2 := by
  unfold carryOutWith
  split
  · next t b hcommit =>
    obtain ⟨rfl, m, hsole, rfl⟩ := Transfer.commit_eq_ok he hcommit
    exact .carriedOut m hsole
  · next cause b hcommit =>
    have hb := Transfer.commit_eq_error hcommit
    subst hb
    simp only
    split
    · next hcode => exact recordFailureWith_ending publish (he.after 7) now p w hcode
    · next hcode => exact .refused hcode
  · next o b hcommit =>
    have hb := Transfer.commit_eq_error hcommit
    subst hb
    exact .overflowed o

theorem createWith_ending (he : e.KeepsInserts) (now : Instant) (newId : String)
    (r : TransferRequest) (w : World) :
    (∃ cause, Transfer.prepare e newId r w.bank = .error cause ∧
      createWith publish e now newId r w = (.error (.refused cause), w)) ∨
    ∃ p, Transfer.prepare e newId r w.bank = .ok p ∧
      Ending publish now p w (createWith publish e now newId r w).1
        (createWith publish e now newId r w).2 := by
  unfold createWith
  split
  · next cause hprepare => exact .inl ⟨cause, hprepare, rfl⟩
  · next p hprepare =>
    exact .inr ⟨p, hprepare, carryOutWith_ending publish (he.after 2) now p w⟩

/-- What a request publishes is one record that the tables have afterwards, which is the answer if
there is one. -/
theorem createWith_announced (he : e.KeepsInserts) (now : Instant) (newId : String)
    (r : TransferRequest) (w : World) :
    (createWith publish e now newId r w).2.ledger = w.ledger ∧
    ((createWith publish e now newId r w).1.toOption = none ∧
        (createWith publish e now newId r w).2.broker = w.broker ∨
      ∃ t, .ofTransaction t ∈ (createWith publish e now newId r w).2.bank.transactions ∧
        ((createWith publish e now newId r w).1.toOption = none ∨
          (createWith publish e now newId r w).1.toOption = some t) ∧
        (createWith publish e now newId r w).2.broker =
          (publish (.ofTransaction t) w.broker).2) := by
  rcases createWith_ending publish he now newId r w with ⟨cause, -, hcreate⟩ | ⟨p, -, hending⟩
  · rw [hcreate]
    exact ⟨rfl, .inl ⟨rfl, rfl⟩⟩
  · generalize createWith publish e now newId r w = out at hending
    obtain ⟨answer, w'⟩ := out
    cases hending with
    | carriedOut m _ =>
      refine ⟨rfl, .inr ⟨p.record .success now, ?_, .inr rfl, rfl⟩⟩
      exact List.mem_append_right _ (List.mem_singleton.2 rfl)
    | refused _ => exact ⟨rfl, .inl ⟨rfl, rfl⟩⟩
    | failed _ => exact ⟨rfl, .inl ⟨rfl, rfl⟩⟩
    | recorded _ _ _ _ =>
      refine ⟨rfl, .inr ⟨p.record .failed now, ?_, .inl rfl, rfl⟩⟩
      exact List.mem_append_right _ (List.mem_singleton.2 rfl)
    | overflowed _ => exact ⟨rfl, .inl ⟨rfl, rfl⟩⟩

end TransferLedger.Transactions
