import TransferLedger.Amount
import TransferLedger.Bank.Error

/-!
What can go wrong with a transfer, and the three codes under which callers hear of it.
-/
namespace TransferLedger
set_option autoImplicit false

/-- What an error means to a caller. -/
inductive ErrorCode
  | invalidArgument
  | notFound
  | internal
deriving DecidableEq, Repr

namespace ErrorCode

def name : ErrorCode → String
  | .invalidArgument => "InvalidArgument"
  | .notFound => "NotFound"
  | .internal => "Internal"

def wireName : ErrorCode → String
  | .invalidArgument => "INVALID_ARGUMENT"
  | .notFound => "NOT_FOUND"
  | .internal => "INTERNAL"

end ErrorCode

/-- An error of a transfer. -/
inductive TransferError
  | missingField (name : String)
  | invalidAmount (cause : AmountError)
  | sameAccount
  | insufficientFunds (account : String) (available requested : Decimal)
  | accountUnavailable (id : String)
  | currencyMismatch (account expected actual : String)
  | accountNotFound (id : String)
  | transactionNotFound (id : String)
  /-- The tables failed while something was being done. -/
  | internal (operation : String) (cause : BankError)
deriving DecidableEq, Repr

namespace TransferError

def message : TransferError → String
  | .missingField n => s!"{n} is required"
  | .invalidAmount e => s!"invalid amount: {e.message}"
  | .sameAccount => "from and to account cannot be the same"
  | .insufficientFunds id available requested =>
    s!"insufficient balance in account {id}: available {available}, requested {requested}"
  | .accountUnavailable id => s!"account {id} is closed or deleted"
  | .currencyMismatch id expected actual => s!"account {id} holds {expected}, transfer is in {actual}"
  | .accountNotFound id => s!"account {id} not found"
  | .transactionNotFound id => s!"transaction {id} not found"
  | .internal operation e => s!"failed to {operation}: {e.message}"

def code : TransferError → ErrorCode
  | .missingField _ | .invalidAmount _ | .sameAccount | .insufficientFunds _ _ _
  | .accountUnavailable _ | .currencyMismatch _ _ _ => .invalidArgument
  | .accountNotFound _ | .transactionNotFound _ => .notFound
  | .internal _ _ => .internal

/-- The caller asked for something that cannot be. -/
def isValidation (e : TransferError) : Bool := e.code == .invalidArgument

/-- The transfer error of a table error that came up during an operation: what a caller can
understand keeps its meaning, all else is internal. -/
def ofBank (operation : String) : BankError → TransferError
  | .notFound .account id => .accountNotFound id
  | .notFound .transaction id => .transactionNotFound id
  | .insufficientFunds id available requested => .insufficientFunds id available requested
  | .accountUnavailable id => .accountUnavailable id
  | e => .internal operation e

end TransferError

end TransferLedger
