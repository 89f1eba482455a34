import TransferLedger.Proofs.Books.Deeds

/-! # A plan takes effect at most once

`TransferPlan.Course` is what may happen once a plan is drawn: it is committed and recorded as failed any
number of times, in any order and between any other deeds, and any statement may fail. The course counts
the commits that succeed, and each of them moves the amount (`TransferPlan.Once.moves`).

Only the insertion of the record, after both balances are written, finds out that the plan was used
before. It fails the whole unit, so the first ending that is recorded is the last one
(`TransferPlan.Course.fate`).
-/

namespace TransferLedger
set_option autoImplicit false

namespace TransferPlan

/-- What may become of a plan. From the tables `start` on a number of commits succeeded; other deeds write
no record of the plan's id. -/
inductive Course (p : TransferPlan) (start : Bank) : ℕ → Bank → Prop
  | start : Course p start 0 start
  | committed {n : ℕ} {b b' : Bank} {e : Engine} {now : Instant} {t : Transaction}
    (h : Course p start n b) (he : e.KeepsInserts) (hc : Transfer.commit e now p b = (.ok t, b')) :
    Course p start (n + 1) b'
  | refused {n : ℕ} {b b' : Bank} {e : Engine} {now : Instant} {c : Halt TransferError}
    (h : Course p start n b) (he : e.KeepsInserts) (hc : Transfer.commit e now p b = (.error c, b')) :
    Course p start n b'
  | recorded {n : ℕ} {b b' : Bank} {e : Engine} {now : Instant}
    {outcome : Except TransferError Transaction} (h : Course p start n b) (he : e.KeepsInserts)
    (hr : Transfer.recordFailed e now p b = (outcome, b')) : Course p start n b'
  | other {n : ℕ} {b : Bank} {e : Engine} (h : Course p start n b) (he : e.KeepsInserts)
    (now : Instant) (d : Deed) (hd : d.recordId? ≠ some p.transactionId) :
    Course p start n (d.perform e now b)

variable {p : TransferPlan} {start b b' : Bank} {n : ℕ}

/-! ## Endings -/

theorem commit_eq_ok_recordsOf {e : Engine} (he : e.KeepsInserts) {now : Instant} {t : Transaction}
    (h : Transfer.commit e now p b = (.ok t, b')) :
    b.recordsOf p.transactionId = [] ∧
      b'.recordsOf p.transactionId = [.ofTransaction (p.record .success now)] := by
  obtain ⟨-, m, -, rfl⟩ := Transfer.commit_eq_ok he h
  exact ⟨Bank.recordsOf_eq_nil.2 m.record_new,
    Bank.recordsOf_recorded (t := p.record .success now) m.record_new rfl⟩

theorem recordFailed_eq_ok_recordsOf {e : Engine} (he : e.KeepsInserts) {now : Instant}
    {t : Transaction} (h : Transfer.recordFailed e now p b = (.ok t, b')) :
    b.recordsOf p.transactionId = [] ∧
      b'.recordsOf p.transactionId = [.ofTransaction (p.record .failed now)] := by
  obtain ⟨rfl, hnew, -, -, rfl⟩ := Transfer.recordFailed_eq_ok he h
  exact ⟨Bank.recordsOf_eq_nil.2 hnew,
    Bank.recordsOf_recorded (t := p.record .failed now) hnew rfl⟩

/-- Neither ending of the plan succeeds any more, nor does trying it change anything. -/
def Spent (p : TransferPlan) (b : Bank) : Prop :=
  ∀ (e : Engine) (now : Instant), e.KeepsInserts →
    (∃ c, Transfer.commit e now p b = (.error c, b)) ∧
      ∃ c, Transfer.recordFailed e now p b = (.error c, b)

theorem refused_of_not_ok {ε α : Type} {result : Except ε α × Bank}
    (hok : ∀ x b', result ≠ (.ok x, b')) (herror : ∀ c b', result = (.error c, b') → b' = b) :
    ∃ c, result = (.error c, b) := by
  obtain ⟨outcome, b'⟩ := result
  cases outcome with
  | ok x => exact absurd rfl (hok x b')
  | error c => exact ⟨c, by rw [herror c b' rfl]⟩

theorem spent_of_recorded (h : b.recordsOf p.transactionId ≠ []) : p.Spent b := by
  intro e now he
  refine ⟨refused_of_not_ok (fun t b' hc => ?_) fun _ _ => Transfer.commit_eq_error,
    refused_of_not_ok (fun t b' hr => ?_) fun _ _ => Transfer.recordFailed_eq_error⟩
  · exact h (commit_eq_ok_recordsOf he hc).1
  · exact h (recordFailed_eq_ok_recordsOf he hr).1

/-! ## Courses -/

/-- How often the plan was carried out, and the record that says so. -/
inductive Fate (p : TransferPlan) : ℕ → List TransactionRow → Prop
  | pending : Fate p 0 []
  | failed (now : Instant) : Fate p 0 [.ofTransaction (p.record .failed now)]
  | succeeded (now : Instant) : Fate p 1 [.ofTransaction (p.record .success now)]

theorem Fate.of_nil (h : p.Fate n []) : n = 0 := by
  cases h
  rfl

/-- Only an ending that finds no record of the plan changes what there is of it: it adds its record. -/
theorem Course.recordsOf_induction {motive : ℕ → List TransactionRow → Prop}
    (hstart : motive 0 (start.recordsOf p.transactionId))
    (hcommitted : ∀ n now, motive n [] → motive (n + 1) [.ofTransaction (p.record .success now)])
    (hrecorded : ∀ n now, motive n [] → motive n [.ofTransaction (p.record .failed now)])
    (h : p.Course start n b) : motive n (b.recordsOf p.transactionId) := by
  induction h with
  | start => exact hstart
  | committed _ he hc ih =>
    obtain ⟨hbefore, hafter⟩ := commit_eq_ok_recordsOf he hc
    rw [hafter]
    exact hcommitted _ _ (hbefore ▸ ih)
  | refused _ _ hc ih =>
    rw [Transfer.commit_eq_error hc]
    exact ih
  | @recorded _ _ _ _ _ outcome _ he hr ih =>
    cases outcome with
    | ok t =>
      obtain ⟨hbefore, hafter⟩ := recordFailed_eq_ok_recordsOf he hr
      rw [hafter]
      exact hrecorded _ _ (hbefore ▸ ih)
    | error c =>
      rw [Transfer.recordFailed_eq_error hr]
      exact ih
  | other _ he now d hd ih =>
    rw [(d.perform_grown he now _).recordsOf_eq hd]
    exact ih

theorem Course.fate (hnew : start.recordsOf p.transactionId = []) (h : p.Course start n b) :
    p.Fate n (b.recordsOf p.transactionId) := by
  refine h.recordsOf_induction (hnew ▸ .pending) (fun k now hk => ?_) fun k now hk => ?_
  · rw [hk.of_nil]
    exact .succeeded now
  · rw [hk.of_nil]
    exact .failed now

/-- A record that is written stays, and stays the only one. -/
theorem Course.recordsOf_eq (hold : start.recordsOf p.transactionId ≠ []) (h : p.Course start n b) :
    b.recordsOf p.transactionId = start.recordsOf p.transactionId :=
  h.recordsOf_induction (motive := fun _ rows => rows = start.recordsOf p.transactionId) rfl
    (fun _ _ hnil => absurd hnil.symm hold) fun _ _ hnil => absurd hnil.symm hold

theorem Course.spent {row : TransactionRow} (hrecord : start.recordsOf p.transactionId = [row])
    (h : p.Course start n b) : p.Spent b := by
  have hold : start.recordsOf p.transactionId ≠ [] := by
    rw [hrecord]
    exact List.cons_ne_nil _ _
  apply spent_of_recorded
  rw [h.recordsOf_eq hold]
  exact hold

theorem Course.built (hstart : start.Built) (h : p.Course start n b) : b.Built := by
  -- Whatever happens in a course is a deed, the endings of the plan among them.
  induction h with
  | start => exact hstart
  | @committed _ b b' e now _ _ he hc ih =>
    have hbank : Deed.perform e now b (.call (.commit p)) = b' := congrArg Prod.snd hc
    exact hbank ▸ ih.deed he now _
  | @refused _ b b' e now _ _ he hc ih =>
    have hbank : Deed.perform e now b (.call (.commit p)) = b' := congrArg Prod.snd hc
    exact hbank ▸ ih.deed he now _
  | @recorded _ b b' e now _ _ he hr ih =>
    have hbank : Deed.perform e now b (.call (.recordFailed p)) = b' := congrArg Prod.snd hr
    exact hbank ▸ ih.deed he now _
  | other _ he now d _ ih => exact ih.deed he now d

/-- What holds of a plan that was carried out `n` times, whatever else became of it and of the tables. -/
structure Once (p : TransferPlan) (n : ℕ) (b : Bank) : Prop where
  one_record : (b.recordsOf p.transactionId).length ≤ 1
  record_kept : ∀ k b', p.Course b k b' → ∀ row ∈ b.recordsOf p.transactionId,
    b'.recordsOf p.transactionId = [row]
  one_move : n ≤ 1
  moved_iff : n = 1 ↔
    ∃ row ∈ b.recordsOf p.transactionId, row.status = TransactionStatus.success.name
  /-- A commit that succeeds writes the two balances and the record, and nothing else. -/
  moves : ∀ e now t b', e.KeepsInserts → Transfer.commit e now p b = (.ok t, b') →
    ∃ m : b.Movement p, b' = ⟨b.accounts.map (m.moved now),
      b.transactions ++ [.ofTransaction (p.record .success now)]⟩
  /-- A failure that is recorded writes its record and nothing else. -/
  moves_nothing : ∀ e now t b', e.KeepsInserts → Transfer.recordFailed e now p b = (.ok t, b') →
    b' = ⟨b.accounts, b.transactions ++ [.ofTransaction (p.record .failed now)]⟩
  commit_refused : ∀ e now c b', Transfer.commit e now p b = (.error c, b') → b' = b
  recordFailed_refused : ∀ e now c b', Transfer.recordFailed e now p b = (.error c, b') → b' = b
  spent_by_commit : ∀ e now t b', e.KeepsInserts → Transfer.commit e now p b = (.ok t, b') →
    ∀ k b'', p.Course b' k b'' → p.Spent b''
  spent_by_recordFailed : ∀ e now t b', e.KeepsInserts →
    Transfer.recordFailed e now p b = (.ok t, b') → ∀ k b'', p.Course b' k b'' → p.Spent b''

theorem Fate.once (h : p.Fate n (b.recordsOf p.transactionId))
    (hids : (b.accounts.map (·.id)).Nodup) (hne : p.fromAccount ≠ p.toAccount) : p.Once n b where
  one_record := by
    generalize b.recordsOf p.transactionId = rows at h
    cases h <;> simp
  record_kept := by
    intro k b' hcourse row hrow
    rw [hcourse.recordsOf_eq (List.ne_nil_of_mem hrow)]
    generalize b.recordsOf p.transactionId = rows at h hrow
    cases h with
    | pending => exact absurd hrow List.not_mem_nil
    | failed now => rw [List.mem_singleton.1 hrow]
    | succeeded now => rw [List.mem_singleton.1 hrow]
  one_move := by
    generalize b.recordsOf p.transactionId = rows at h
    cases h <;> omega
  moved_iff := by
    generalize b.recordsOf p.transactionId = rows at h
    cases h with
    | pending => simp
    | failed now =>
      refine ⟨fun h => absurd h (by decide), ?_⟩
      rintro ⟨row, hrow, hstatus⟩
      rw [List.mem_singleton.1 hrow] at hstatus
      have heq : TransactionStatus.failed = .success := TransactionStatus.name_injective hstatus
      exact nomatch heq
    | succeeded now => exact ⟨fun _ => ⟨_, List.mem_singleton.2 rfl, rfl⟩, fun _ => rfl⟩
  moves := by
    intro e now t b' he hc
    obtain ⟨-, m, -, rfl⟩ := Transfer.commit_eq_ok he hc
    refine ⟨m, ?_⟩
    rw [← m.result_accounts now hne hids]
    rfl
  moves_nothing := by
    intro e now t b' he hr
    obtain ⟨rfl, -, -, -, hb⟩ := Transfer.recordFailed_eq_ok he hr
    exact hb
  commit_refused := fun _ _ _ _ hc => Transfer.commit_eq_error hc
  recordFailed_refused := fun _ _ _ _ hr => Transfer.recordFailed_eq_error hr
  spent_by_commit := fun _ _ _ _ he hc _ _ hcourse =>
    hcourse.spent (commit_eq_ok_recordsOf he hc).2
  spent_by_recordFailed := fun _ _ _ _ he hr _ _ hcourse =>
    hcourse.spent (recordFailed_eq_ok_recordsOf he hr).2

/-- `newId` is an identifier that no record has, so the plan is the first of its id. -/
theorem Course.at_most_once {e : Engine} {newId : String} {r : TransferRequest} (hb : start.Built)
    (hnew : start.transaction? newId = none) (hp : Transfer.prepare e newId r start = .ok p)
    (h : p.Course start n b) : p.Once n b := by
  obtain ⟨v, -, -, hv, rfl, -⟩ := Transfer.prepare_eq_ok hp
  have hfate := h.fate (Bank.recordsOf_eq_nil.2 hnew)
  exact hfate.once (h.built hb).accountIds (TransferRequest.validate_eq_ok hv).1

end TransferPlan

namespace Books

theorem samplePlanned_built : samplePlanned.bank.Built := by
  have he := Engine.sound_keepsInserts
  have hopened := ((Bank.Built.empty.deed he default
    (.call (.openAccount "" ⟨"alice", "a", "", "EUR", "10.50"⟩))).deed he default
    (.call (.openAccount "" ⟨"bob", "b", "", "EUR", ""⟩)))
  have hbank : samplePlanned.bank = Deed.perform .sound default (Deed.perform .sound default .empty
      (.call (.openAccount "" ⟨"alice", "a", "", "EUR", "10.50"⟩)))
      (.call (.openAccount "" ⟨"bob", "b", "", "EUR", ""⟩)) := by decide +kernel
  rw [hbank]
  exact hopened

theorem sample_at_most_once :
    samplePlanned.bank.transaction? "t" = none ∧
    Transfer.prepare .sound "t" ⟨"alice", "bob", "3.25", "eur", "", ""⟩ samplePlanned.bank =
      .ok samplePlan ∧
    samplePlan.Course samplePlanned.bank 1 sample.bank ∧ samplePlan.Once 1 sample.bank := by
  have he := Engine.sound_keepsInserts
  have hnew : samplePlanned.bank.transaction? "t" = none := by decide +kernel
  have hp : Transfer.prepare .sound "t" ⟨"alice", "bob", "3.25", "eur", "", ""⟩ samplePlanned.bank =
      .ok samplePlan := by decide +kernel
  have hok : (Transfer.commit .sound default samplePlan samplePlanned.bank).1 =
      .ok (samplePlan.record .success default) := by decide +kernel
  have hcommit : Transfer.commit .sound default samplePlan samplePlanned.bank =
      (.ok (samplePlan.record .success default), sample.bank) := Prod.ext hok rfl
  have hcourse : samplePlan.Course samplePlanned.bank 1 sample.bank := .committed .start he hcommit
  exact ⟨hnew, hp, hcourse, hcourse.at_most_once samplePlanned_built hnew hp⟩

end Books

end TransferLedger
