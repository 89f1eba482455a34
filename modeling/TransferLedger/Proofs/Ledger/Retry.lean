import Mathlib.Data.List.Basic
import TransferLedger.Ledger.Retry

/-! # Trying again, call by call

`Retry.Series` is a series of attempts with all its calls, one constructor for each way in which an attempt
can go; every run of an operation is one (`attempt_series`). What is true of the calls and of the answer is
an induction on it. The calls of a series are those that the operation really gets: an operation that notes
its calls notes these (`Series.noted`).

Between two attempts there is a wait, and it ends when the token is cancelled. To an attempt it is the
same whether that was while the attempt before it ran or in the wait; `Retry.Moment` tells the two apart.
-/

namespace TransferLedger.Retry
set_option autoImplicit false

variable {α σ : Type}

/-! ## Calls -/

/-- A call of an operation: the number of the attempt, and what the operation answered. -/
structure Call (α : Type) where
  number : Nat
  outcome : Except StoreError α

/-- The call failed with an error that leads to another attempt. -/
def Call.Transient (x : Call α) : Prop := ∃ e, x.outcome = .error e ∧ e.isTransient = true

@[simp] theorem Call.not_transient_ok (n : Nat) (a : α) : ¬ Call.Transient ⟨n, .ok a⟩ := by
  simp [Transient]

@[simp] theorem Call.transient_error {n : Nat} {e : StoreError} :
    (⟨n, .error e⟩ : Call α).Transient ↔ e.isTransient = true := by
  simp [Transient]

/-- The operation with a note of every call. -/
def noting (call : Nat → σ → Except StoreError α × σ) (n : Nat) (s : σ × List (Call α)) :
    Except StoreError α × σ × List (Call α) :=
  ((call n s.1).1, (call n s.1).2, s.2 ++ [⟨n, (call n s.1).1⟩])

/-! ## Series of attempts -/

/-- The attempts from a number on, with `left` more allowed after that one: the calls, the answer and the
state that is left. -/
inductive Series (operation : String) (cancelled : Nat → Bool)
    (call : Nat → σ → Except StoreError α × σ) :
    Nat → Nat → σ → List (Call α) → Except LedgerError α → σ → Prop
  | cancelled {left n : Nat} {s : σ} (hc : cancelled n = true) :
    Series operation cancelled call left n s [] (.error (.cancelled operation)) s
  | returned {left n : Nat} {s s' : σ} {a : α} (hc : cancelled n = false)
      (hcall : call n s = (.ok a, s')) :
    Series operation cancelled call left n s [⟨n, .ok a⟩] (.ok a) s'
  | failed {left n : Nat} {s s' : σ} {e : StoreError} (hc : cancelled n = false)
      (hcall : call n s = (.error e, s')) (he : e.isTransient = false) :
    Series operation cancelled call left n s [⟨n, .error e⟩] (.error (.store e)) s'
  | exhausted {n : Nat} {s s' : σ} {e : StoreError} (hc : cancelled n = false)
      (hcall : call n s = (.error e, s')) (he : e.isTransient = true) :
    Series operation cancelled call 0 n s [⟨n, .error e⟩] (.error (.retriesExhausted operation n e)) s'
  | again {left n : Nat} {s s₁ s' : σ} {e : StoreError} {calls : List (Call α)}
      {answer : Except LedgerError α} (hc : cancelled n = false)
      (hcall : call n s = (.error e, s₁)) (he : e.isTransient = true)
      (hrest : Series operation cancelled call left (n + 1) s₁ calls answer s') :
    Series operation cancelled call (left + 1) n s (⟨n, .error e⟩ :: calls) answer s'

variable {operation : String} {cancelled : Nat → Bool} {call : Nat → σ → Except StoreError α × σ}

variable (operation cancelled call) in
theorem attempt_series (left n : Nat) (s : σ) :
    ∃ calls, Series operation cancelled call left n s calls
      (attempt operation cancelled call left n s).1 (attempt operation cancelled call left n s).2 := by
  fun_induction attempt operation cancelled call left n s with
  | case1 left n s hc => exact ⟨[], .cancelled hc⟩
  | case2 left n s hc a s' hcall => exact ⟨_, .returned (Bool.eq_false_iff.2 hc) hcall⟩
  | case3 left n s hc e s' hcall he =>
    exact ⟨_, .failed (Bool.eq_false_iff.2 hc) hcall (by simpa using he)⟩
  | case4 n s hc e s' hcall he =>
    exact ⟨_, .exhausted (Bool.eq_false_iff.2 hc) hcall (by simpa using he)⟩
  | case5 n s hc e s' hcall he left ih =>
    obtain ⟨calls, hrest⟩ := ih
    exact ⟨_, .again (Bool.eq_false_iff.2 hc) hcall (by simpa using he) hrest⟩

namespace Series

variable {left n : Nat} {s s' : σ} {calls : List (Call α)} {answer : Except LedgerError α}

theorem noted (h : Series operation cancelled call left n s calls answer s') (log : List (Call α)) :
    attempt operation cancelled (noting call) left n (s, log) = (answer, s', log ++ calls) := by
  induction h generalizing log with
  | cancelled hc => simp [attempt, hc]
  | returned hc hcall => simp [attempt, hc, noting, hcall]
  | failed hc hcall he => simp [attempt, hc, noting, hcall, he]
  | exhausted hc hcall he => simp [attempt, hc, noting, hcall, he]
  | again hc hcall he _ ih => simp [attempt, hc, noting, hcall, he, ih]

/-- What every call keeps is kept. -/
theorem keeps {P : σ → Prop} (hcall : ∀ n s, P s → P (call n s).2)
    (h : Series operation cancelled call left n s calls answer s') (hs : P s) : P s' := by
  induction h with
  | cancelled => exact hs
  | @returned _ n s _ _ _ h => simpa [h] using hcall n s hs
  | @failed _ n s _ _ _ h => simpa [h] using hcall n s hs
  | @exhausted n s _ _ _ h => simpa [h] using hcall n s hs
  | @again _ n s _ _ _ _ _ _ h _ _ ih => exact ih (by simpa [h] using hcall n s hs)

/-- An answer other than an error is that of the last call, which finds all that the calls keep. -/
theorem last_call {P : σ → Prop} (hcall : ∀ n s, P s → P (call n s).2)
    (h : Series operation cancelled call left n s calls answer s') (hs : P s) {a : α}
    (ha : answer = .ok a) : ∃ k s₀, P s₀ ∧ call k s₀ = (.ok a, s') := by
  induction h with
  | @returned _ n s _ _ _ h =>
    cases ha
    exact ⟨n, s, hs, h⟩
  | @again _ n s _ _ _ _ _ _ h _ _ ih => exact ih (by simpa [h] using hcall n s hs) ha
  | _ => cases ha

/-- Where a call that fails changes nothing, a series that succeeds is one call, and any other is none. -/
theorem one_call (hfailed : ∀ n s e s', call n s = (.error e, s') → s' = s)
    (h : Series operation cancelled call left n s calls answer s') :
    (∃ c, answer = .error c ∧ s' = s) ∨ ∃ a k, answer = .ok a ∧ call k s = (.ok a, s') := by
  induction h with
  | cancelled => exact .inl ⟨_, rfl, rfl⟩
  | @returned _ n _ _ a _ hcall => exact .inr ⟨a, n, rfl, hcall⟩
  | failed _ hcall => exact .inl ⟨_, rfl, hfailed _ _ _ _ hcall⟩
  | exhausted _ hcall => exact .inl ⟨_, rfl, hfailed _ _ _ _ hcall⟩
  | again _ hcall _ _ ih => exact hfailed _ _ _ _ hcall ▸ ih

/-! ## The calls -/

theorem numbers (h : Series operation cancelled call left n s calls answer s') :
    calls.map Call.number = List.range' n calls.length := by
  induction h with
  | again _ _ _ _ ih => simp [ih, List.range'_succ]
  | _ => simp

theorem length_le (h : Series operation cancelled call left n s calls answer s') :
    calls.length ≤ left + 1 := by
  induction h with
  | again _ _ _ _ ih => simpa using ih
  | _ => simp

theorem retried (h : Series operation cancelled call left n s calls answer s') :
    ∀ x ∈ calls.dropLast, x.Transient := by
  induction h with
  | @again _ _ _ _ _ _ calls _ _ _ he _ ih =>
    cases calls with
    | nil => simp
    | cons y calls => simpa [he] using ih
  | _ => simp

theorem uncancelled (h : Series operation cancelled call left n s calls answer s') :
    ∀ x ∈ calls, cancelled x.number = false := by
  induction h with
  | cancelled => simp
  | again hc _ _ _ ih => simpa [hc] using ih
  | returned hc => simp [hc]
  | failed hc => simp [hc]
  | exhausted hc => simp [hc]

/-! ## The answer -/

theorem eq_ok_iff (h : Series operation cancelled call left n s calls answer s') (a : α) :
    answer = .ok a ↔ ∃ k, calls.getLast? = some ⟨k, .ok a⟩ := by
  induction h with
  | @again _ _ _ _ _ _ calls _ _ _ _ _ ih =>
    rw [ih, List.getLast?_cons]
    cases calls.getLast? <;> simp
  | _ => simp

theorem eq_store_iff (h : Series operation cancelled call left n s calls answer s') (e : StoreError) :
    answer = .error (.store e) ↔
      e.isTransient = false ∧ ∃ k, calls.getLast? = some ⟨k, .error e⟩ := by
  induction h with
  | cancelled => simp
  | returned => simp
  | @failed _ _ _ _ e' _ _ he =>
    by_cases hee : e' = e
    · subst hee
      simp [he]
    · simp [hee]
  | @exhausted _ _ _ e' _ _ he =>
    by_cases hee : e' = e
    · subst hee
      simp [he]
    · simp [hee]
  | @again _ _ _ _ _ e' calls _ _ _ he _ ih =>
    rw [ih, List.getLast?_cons]
    cases calls.getLast? with
    | some y => simp
    | none =>
      by_cases hee : e' = e
      · subst hee
        simp [he]
      · simp [hee]

theorem eq_exhausted_iff (h : Series operation cancelled call left n s calls answer s')
    (k : Nat) (e : StoreError) :
    answer = .error (.retriesExhausted operation k e) ↔
      n + left = k ∧ calls.length = left + 1 ∧ (∀ x ∈ calls, x.Transient) ∧
        calls.getLast? = some ⟨k, .error e⟩ := by
  induction h with
  | cancelled => simp
  | returned => simp
  | failed _ _ he => simp [he]
  | exhausted _ _ he => simp [he]
  | @again left n _ _ _ _ calls _ _ _ he _ ih =>
    rw [ih, List.getLast?_cons, show n + 1 + left = n + (left + 1) by omega]
    -- Where no call follows, the series was cancelled with attempts left to it.
    cases calls with
    | nil => simp
    | cons y calls => simp [he, List.getLast?_cons]

theorem eq_cancelled_iff (h : Series operation cancelled call left n s calls answer s') :
    answer = .error (.cancelled operation) ↔
      cancelled n = true ∨ ∃ x ∈ calls, x.Transient ∧ x.number < n + left ∧
        cancelled (x.number + 1) = true := by
  induction h with
  | cancelled hc => simp [hc]
  | returned hc => simp [hc]
  | failed hc _ he => simp [hc, he]
  | exhausted hc => simp [hc]
  | @again left n _ _ _ _ calls _ hc _ he _ ih =>
    rw [ih, show n + 1 + left = n + (left + 1) by omega]
    simp [hc, he]

theorem answered (h : Series operation cancelled call left n s calls answer s') :
    (∃ a, answer = .ok a) ∨ (∃ e, answer = .error (.store e)) ∨
      (∃ k e, answer = .error (.retriesExhausted operation k e)) ∨
        answer = .error (.cancelled operation) := by
  induction h with
  | again _ _ _ _ ih => exact ih
  | _ => simp

end Series

section

variable {left n : Nat} {s s' : σ} {P : σ → Prop}

theorem attempt_keeps (hcall : ∀ n s, P s → P (call n s).2) (hs : P s) :
    P (attempt operation cancelled call left n s).2 := by
  obtain ⟨calls, h⟩ := attempt_series operation cancelled call left n s
  exact h.keeps hcall hs

theorem attempt_eq_ok (hcall : ∀ n s, P s → P (call n s).2) {a : α} (hs : P s)
    (h : attempt operation cancelled call left n s = (.ok a, s')) :
    ∃ k s₀, P s₀ ∧ call k s₀ = (.ok a, s') := by
  obtain ⟨calls, hseries⟩ := attempt_series operation cancelled call left n s
  rw [h] at hseries
  exact hseries.last_call hcall hs rfl

theorem run_one_call (policy : RetryPolicy) (operation : String) (cancelled : Nat → Bool)
    (hfailed : ∀ n s e s', call n s = (.error e, s') → s' = s) (s : σ) :
    (∃ c, run policy operation cancelled call s = (.error c, s)) ∨
      ∃ a k s', run policy operation cancelled call s = (.ok a, s') ∧ call k s = (.ok a, s') := by
  obtain ⟨calls, h⟩ := attempt_series operation cancelled call (policy.attempts - 1) 1 s
  obtain ⟨c, hanswer, hs⟩ | ⟨a, k, hanswer, hcall⟩ := h.one_call hfailed
  · exact .inl ⟨c, Prod.ext hanswer hs⟩
  · exact .inr ⟨a, k, _, Prod.ext hanswer rfl, hcall⟩

/-- Whatever ends a series of attempts, it is not the event. -/
theorem attempt_eq_error {c : LedgerError}
    (h : attempt operation cancelled call left n s = (.error c, s')) : c.isPermanent = false := by
  obtain ⟨calls, hseries⟩ := attempt_series operation cancelled call left n s
  rw [h] at hseries
  rcases hseries.answered with ⟨a, ha⟩ | ⟨e, he⟩ | ⟨k, e, he⟩ | hc
  · cases ha
  · cases he
    rfl
  · cases he
    rfl
  · cases hc
    rfl

end

/-! ## Runs under a token -/

/-- When a token is cancelled, as a series of attempts sees it. -/
inductive Moment
  | never
  | beforehand
  | during (attempt : Nat)
  /-- In the wait after an attempt. -/
  | waiting (attempt : Nat)

/-- The token is cancelled when the attempt may start: from the outset, or by the end of the wait that
comes before the attempt. -/
def Moment.before : Moment → Nat → Bool
  | .never, _ => false
  | .beforehand, _ => true
  | .during k, n => decide (k < n)
  | .waiting k, n => decide (k < n)

/-- The calls and the answer are what a policy asks for. -/
structure Followed (policy : RetryPolicy) (operation : String) (moment : Moment) (calls : List (Call α))
    (answer : Except LedgerError α) : Prop where
  numbers : calls.map Call.number = List.range' 1 calls.length
  length_le : calls.length ≤ max 1 policy.maxAttempts
  retried : ∀ x ∈ calls.dropLast, x.Transient
  uncancelled : ∀ x ∈ calls, moment.before x.number = false
  answered : (∃ a, answer = .ok a) ∨ (∃ e, answer = .error (.store e)) ∨
    (∃ k e, answer = .error (.retriesExhausted operation k e)) ∨ answer = .error (.cancelled operation)
  ok_iff : ∀ a, answer = .ok a ↔ ∃ k, calls.getLast? = some ⟨k, .ok a⟩
  store_iff : ∀ e, answer = .error (.store e) ↔
    e.isTransient = false ∧ ∃ k, calls.getLast? = some ⟨k, .error e⟩
  exhausted_iff : ∀ k e, answer = .error (.retriesExhausted operation k e) ↔
    max 1 policy.maxAttempts = k ∧ calls.length = max 1 policy.maxAttempts ∧
      (∀ x ∈ calls, x.Transient) ∧ calls.getLast? = some ⟨k, .error e⟩
  cancelled_iff : answer = .error (.cancelled operation) ↔
    moment.before 1 = true ∨ ∃ x ∈ calls, x.Transient ∧ x.number < max 1 policy.maxAttempts ∧
      moment.before (x.number + 1) = true

/-- **An operation is called as its policy asks, until its token is cancelled.** -/
theorem run_followed (policy : RetryPolicy) (operation : String) (moment : Moment)
    (call : Nat → σ → Except StoreError α × σ) (s : σ) :
    ∃ calls answer s', run policy operation moment.before call s = (answer, s') ∧
      run policy operation moment.before (noting call) (s, []) = (answer, s', calls) ∧
      Followed policy operation moment calls answer := by
  obtain ⟨calls, h⟩ := attempt_series operation moment.before call (policy.attempts - 1) 1 s
  have hleft : policy.attempts - 1 + 1 = max 1 policy.maxAttempts := by
    rw [RetryPolicy.attempts]
    omega
  have hlast : 1 + (policy.attempts - 1) = max 1 policy.maxAttempts := by omega
  refine ⟨calls, _, _, rfl, h.noted [], ?_⟩
  exact {
    numbers := h.numbers
    length_le := hleft ▸ h.length_le
    retried := h.retried
    uncancelled := h.uncancelled
    answered := h.answered
    ok_iff := h.eq_ok_iff
    store_iff := h.eq_store_iff
    exhausted_iff := by simpa only [hleft, hlast] using h.eq_exhausted_iff
    cancelled_iff := by simpa only [hlast] using h.eq_cancelled_iff }

/-- After the last attempt there is no wait that could be cut short. -/
example : run { maxAttempts := 0 } "read" (Moment.during 1).before
    (fun _ (s : Unit) => ((.error (.network "down") : Except StoreError Nat), s)) () =
      (.error (.retriesExhausted "read" 1 (.network "down")), ()) := rfl

end TransferLedger.Retry
