import TransferLedger.Ledger.Retry
import TransferLedger.Broker.Relay

/-!
Writing events into the ledger: the pair of entries of an event is inserted as one batch, with
retries, and the ids make a repeated event harmless. The relay handler of committed transfers
does this; the handler of failed transfers has nothing to write.
-/
namespace TransferLedger
set_option autoImplicit false

/-- What writing an event is called in errors. -/
def insertOperation : String := "insert ledger entries"

/-- Writes the entries of an event. `insert n` is how the store inserts a batch at attempt `n`. -/
def writeEvent {σ : Type} (policy : RetryPolicy) (insert : Nat → List Entry → σ → Except StoreError Nat × σ)
    (cancelled : Nat → Bool) (now : Instant) (e : Event) (s : σ) :
    Except LedgerError (Entry × Entry) × σ :=
  match Entry.pairOfEvent e now with
  | .error cause => (.error (LedgerError.ofEntryError cause), s)
  | .ok (debit, credit) =>
    match Retry.run policy insertOperation cancelled (fun n => insert n [debit, credit]) s with
    | (.ok _, s) => (.ok (debit, credit), s)
    | (.error cause, s) => (.error cause, s)

/-- What a failed write means for the delivery. -/
def LedgerError.verdict (e : LedgerError) : Verdict :=
  if e.isPermanent then .permanent e.message else .transient e.message

/-- Readings of a clock, first one first. -/
abbrev Clock := Nat → Instant

/-- The handler that writes events of committed transfers; any other event is passed over. Its world
counts the readings of the clock. `stopped n` says that the relay is stopped while an event is being
handled, before attempt `n`. -/
def ledgerHandlerUntil {σ : Type} (policy : RetryPolicy)
    (insert : Nat → List Entry → σ → Except StoreError Nat × σ) (clock : Clock)
    (stopped : Nat → Bool) : Handler (Nat × σ) where
  name := "ledger-writer"
  handle := fun e cancelled (readings, s) =>
    if !e.isSuccess then (.handled, readings, s)
    else match writeEvent policy insert (fun n => cancelled || stopped n) (clock readings) e s with
      | (.ok _, s) => (.handled, readings + 1, s)
      | (.error cause, s) => (cause.verdict, readings + 1, s)

/-- The handler under a relay that is not stopped while an event is being handled. -/
def ledgerHandler {σ : Type} (policy : RetryPolicy)
    (insert : Nat → List Entry → σ → Except StoreError Nat × σ) (clock : Clock) :
    Handler (Nat × σ) :=
  ledgerHandlerUntil policy insert clock fun _ => false

def failedTransactionHandler {σ : Type} : Handler σ where
  name := "failed-transaction"
  handle := fun _ _ s => (.handled, s)

end TransferLedger
