import TransferLedger.Ledger.Entry
import TransferLedger.Store.Engine

/-!
What can go wrong with the ledger: errors of a ledger store, of which some are worth another try,
and errors of writing an event, of which some can never be helped.
-/
namespace TransferLedger
set_option autoImplicit false

/-- An error of a ledger store. -/
inductive StoreError
  | network (reason : String)
  | timeout (reason : String)
  | duplicateKey (reason : String)
  | notFound (id : String)
  | other (reason : String)
deriving DecidableEq, Repr

namespace StoreError

def message : StoreError → String
  | .network r => s!"network error: {r}"
  | .timeout r => s!"operation timed out: {r}"
  | .duplicateKey r => s!"duplicate key: {r}"
  | .notFound id => s!"entry {id} not found"
  | .other r => r

/-- Another try may help. -/
def isTransient : StoreError → Bool
  | .network _ | .timeout _ | .duplicateKey _ => true
  | .notFound _ | .other _ => false

/-- The store error of an engine error. -/
def ofEngine (e : EngineError) : StoreError :=
  match e with
  | .closed => .network e.message
  | .noConnection => .timeout e.message
  | .configuration _ => .other e.message
  | .database _ _ =>
    if e.isDuplicate then .duplicateKey e.message
    else if e.isLocked then .timeout e.message
    else .other e.message

end StoreError

/-- An error of writing or reading the ledger. -/
inductive LedgerError
  | invalidAmount (text : String)
  | missingField (name : String)
  | cancelled (operation : String)
  | retriesExhausted (operation : String) (attempts : Nat) (last : StoreError)
  | store (cause : StoreError)
deriving DecidableEq, Repr

namespace LedgerError

def message : LedgerError → String
  | .invalidAmount t => s!"Invalid amount '{t}'"
  | .missingField n => s!"{n} is required"
  | .cancelled op => s!"{op} cancelled"
  | .retriesExhausted op n e => s!"{op} failed after {n} attempts: {e.message}"
  | .store e => s!"Ledger store error: {e.message}"

/-- The event itself is unusable, so delivering it again cannot help. -/
def isPermanent : LedgerError → Bool
  | .invalidAmount _ | .missingField _ => true
  | _ => false

/-- The ledger error of an event that yields no entries. -/
def ofEntryError : EntryError → LedgerError
  | .missingField n => .missingField n
  | .invalidAmount t => .invalidAmount t

end LedgerError

end TransferLedger
