import TransferLedger.Binary64.Basic
import TransferLedger.Ledger.Error

/-!
Trying again. An operation is called with attempt numbers 1, 2, … until it succeeds, fails for good
or has been tried often enough; only transient errors lead to another attempt. Cancellation is
looked at before every attempt, which is also where a wait between attempts ends.
-/
namespace TransferLedger
set_option autoImplicit false

/-- How often to try, and how long to wait in between. -/
structure RetryPolicy where
  maxAttempts : Nat := 3
  baseNanos : Nat := 100000000
  multiplier : Binary64 := .ofRatio false 3 2
deriving DecidableEq, Repr

namespace RetryPolicy

/-- The number of attempts: at least one. -/
def attempts (p : RetryPolicy) : Nat := max p.maxAttempts 1

/-- Every wait fits into 64 bits of nanoseconds. -/
def maxNanos : Nat := 18446744073709551615

/-- The exponent for the wait after an attempt: its number less one, as a signed word of 32 bits. -/
def exponent (attempt : Nat) : Int := Int.bmod (attempt - 1 : Nat) 4294967296

/-- Nanoseconds to wait after an attempt: the base times a power of the multiplier, rounded to
binary numbers and at the end to the nearest whole number. -/
def delayAfter (p : RetryPolicy) (attempt : Nat) : Nat :=
  ((Binary64.ofNat p.baseNanos).mul (p.multiplier.pow (exponent attempt))).toNatSaturating maxNanos

end RetryPolicy

namespace Retry

variable {α σ : Type}

/-- The attempts from a number on, of which `left` are allowed after this one. `cancelled n` says
whether the operation is cancelled by the time attempt `n` may start. -/
def attempt (operation : String) (cancelled : Nat → Bool)
    (call : Nat → σ → Except StoreError α × σ) :
    Nat → Nat → σ → Except LedgerError α × σ
  | left, n, s =>
    if cancelled n then (.error (.cancelled operation), s)
    else match call n s with
      | (.ok a, s) => (.ok a, s)
      | (.error e, s) =>
        if !e.isTransient then (.error (.store e), s)
        else match left with
          | 0 => (.error (.retriesExhausted operation n e), s)
          | left + 1 => attempt operation cancelled call left (n + 1) s

/-- Calls an operation as often as a policy asks for. -/
def run (policy : RetryPolicy) (operation : String) (cancelled : Nat → Bool)
    (call : Nat → σ → Except StoreError α × σ) (s : σ) : Except LedgerError α × σ :=
  attempt operation cancelled call (policy.attempts - 1) 1 s

end Retry

end TransferLedger
