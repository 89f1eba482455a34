import TransferLedger.Decimal.Arithmetic

/-!
The storage engine under the tables. A table operation is a fixed sequence of statements; before a
statement takes effect the engine says whether it runs, changes nothing, or fails. An `Engine` is
the whole of these answers, so an operation can be followed through every pattern of failures.
-/
namespace TransferLedger
set_option autoImplicit false

/-- A statement, as far as an engine may treat it differently from others. -/
inductive Statement
  | createTables
  /-- Opens a unit of work and takes the write lock. -/
  | beginUnit
  | commitUnit
  | read
  | insertAccount
  | updateAccount (id : String)
  /-- Inserts a transaction record with the status of this name. -/
  | insertTransaction (status : String)
  /-- Inserts a ledger entry of the side of this name. -/
  | insertEntry (side : String)
  /-- Marks a ledger entry deleted; the flag says whether there is a row to mark. -/
  | updateEntry (found : Bool)
deriving DecidableEq, Repr

/-- The statement needs the write lock. -/
def Statement.writes : Statement → Bool
  | .read | .commitUnit => false
  | _ => true

/-- Why the engine does not carry out a statement. -/
inductive EngineError
  | closed
  | noConnection
  /-- The database refuses, with its number for the cause. -/
  | database (code : Nat) (reason : String)
  | configuration (reason : String)
deriving DecidableEq, Repr

namespace EngineError

def message : EngineError → String
  | .closed => "attempted to acquire a connection on a closed pool"
  | .noConnection => "pool timed out while waiting for an open connection"
  | .database code reason => s!"error returned from database: (code: {code}) {reason}"
  | .configuration reason => s!"error with configuration: {reason}"

/-- A uniqueness rule was broken: the number stands for a primary key or a unique column. -/
def isDuplicate : EngineError → Bool
  | .database code _ => code == 1555 || code == 2067
  | _ => false

/-- The database is locked by someone else: the low byte of the number says so. -/
def isLocked : EngineError → Bool
  | .database code _ => code % 256 == 5 || code % 256 == 6
  | _ => false

/-- Another connection holds the write lock. -/
def locked : EngineError := .database 5 "database is locked"

/-- A row with this key is there already. -/
def duplicateKey (column : String) : EngineError :=
  .database 1555 s!"UNIQUE constraint failed: {column}"

/-- A row that the new one refers to is not there. -/
def missingReference : EngineError := .database 787 "FOREIGN KEY constraint failed"

end EngineError

/-- What the engine says to a statement. -/
inductive Reply
  | run
  /-- The statement succeeds and changes no row. -/
  | skip
  | fail (cause : EngineError)
deriving DecidableEq, Repr

/-- The answer to the n-th statement of an operation. -/
abbrev Engine := Nat → Statement → Reply

namespace Engine

/-- The engine as it behaves after a number of statements. -/
def after (e : Engine) (n : Nat) : Engine := fun k s => e (n + k) s

/-- Asks for a statement that changes no rows. -/
def ask (e : Engine) (n : Nat) (s : Statement) : Except EngineError Unit :=
  match e n s with
  | .fail cause => .error cause
  | _ => .ok ()

/-- Asks for a statement that changes rows, and hears whether it takes effect. -/
def askChange (e : Engine) (n : Nat) (s : Statement) : Except EngineError Bool :=
  match e n s with
  | .run => .ok true
  | .skip => .ok false
  | .fail cause => .error cause

/-! ## Engines -/

def sound : Engine := fun _ _ => .run

/-- Every statement runs unless a pattern of failures names it. -/
def failing (faults : Nat → Statement → Option EngineError) : Engine := fun n s =>
  match faults n s with
  | some cause => .fail cause
  | none => .run

def down (cause : EngineError) : Engine := fun _ _ => .fail cause

/-- Another connection holds the write lock; reading still works. -/
def writeLocked : Engine := fun _ s => if s.writes then .fail .locked else .run

/-- Some kinds of statements get the same answer whenever they come. -/
def answering (select : Statement → Bool) (reply : Reply) : Engine := fun _ s =>
  if select s then reply else .run

end Engine

/-- An operation that cannot finish: it is refused, or a decimal result does not fit. -/
inductive Halt (ε : Type)
  | refused (cause : ε)
  | overflow (operation : Overflow)
deriving DecidableEq, Repr

def Halt.map {ε φ : Type} (f : ε → φ) : Halt ε → Halt φ
  | .refused cause => .refused (f cause)
  | .overflow operation => .overflow operation

/-- The outcome of a unit of work on some contents. The unit answers a result and its working copy;
the copy becomes the contents only if nothing went wrong. -/
def atomically {ε α σ : Type} (contents : σ) (unit : Except ε (α × σ)) : Except ε α × σ :=
  match unit with
  | .ok (a, copy) => (.ok a, copy)
  | .error e => (.error e, contents)

end TransferLedger
