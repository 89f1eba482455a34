import TransferLedger.Ledger.Error
import TransferLedger.Transfer.Error

/-!
Errors of the services on accounts and reconciliation.
-/
namespace TransferLedger
set_option autoImplicit false

/-- An error of a service. -/
inductive ServiceError
  | transfer (cause : TransferError)
  | invalidArgument (reason : String)
  /-- The tables failed while something was being done. -/
  | tables (operation : String) (cause : BankError)
  | ledger (cause : LedgerError)
deriving DecidableEq, Repr

namespace ServiceError

def message : ServiceError → String
  | .transfer e => e.message
  | .invalidArgument r => r
  | .tables operation e => s!"Failed to {operation}: {e.message}"
  | .ledger e => s!"Ledger error: {e.message}"

def code : ServiceError → ErrorCode
  | .transfer e => e.code
  | .invalidArgument _ => .invalidArgument
  | .tables _ (.notFound _ _) => .notFound
  | .tables _ (.alreadyExists _ _) => .invalidArgument
  | .tables _ _ => .internal
  | .ledger _ => .internal

end ServiceError

end TransferLedger
