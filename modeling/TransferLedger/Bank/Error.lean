import TransferLedger.Decimal.Reader
import TransferLedger.Store.Engine

/-!
What can go wrong with the tables of accounts and transaction records.
-/
namespace TransferLedger
set_option autoImplicit false

/-- The two kinds of rows. -/
inductive Entity
  | account
  | transaction
deriving DecidableEq, Repr

def Entity.name : Entity → String
  | .account => "Account"
  | .transaction => "Transaction"

/-- An error of the tables. -/
inductive BankError
  | database (cause : EngineError)
  | notFound (entity : Entity) (id : String)
  | alreadyExists (entity : Entity) (id : String)
  | insufficientFunds (account : String) (available requested : Decimal)
  | accountUnavailable (id : String)
  /-- A row changed between reading and writing it. -/
  | concurrentUpdate (id : String)
  | invalidDecimal (text : String) (cause : DecimalError)
  | invalidStatus (column value : String)
deriving DecidableEq, Repr

namespace BankError

def message : BankError → String
  | .database e => s!"Database error: {e.message}"
  | .notFound entity id => s!"Record not found: {entity.name} with id {id}"
  | .alreadyExists entity id => s!"Record already exists: {entity.name} with id {id}"
  | .insufficientFunds id available requested =>
    s!"Insufficient balance in account {id}: available {available}, requested {requested}"
  | .accountUnavailable id => s!"Account {id} is closed or deleted"
  | .concurrentUpdate id => s!"Account {id} was modified concurrently"
  | .invalidDecimal text e => s!"Invalid decimal value: {text}: {e.message}"
  | .invalidStatus column value => s!"Invalid enum value: {column} = {value}"

/-- A row was asked for that is not there. -/
def isNotFound : BankError → Bool
  | .notFound _ _ => true
  | _ => false

/-- The error of a failed insertion: a key that is taken means that the row exists. -/
def ofInsertion (entity : Entity) (id : String) (e : EngineError) : BankError :=
  if e.isDuplicate then .alreadyExists entity id else .database e

end BankError

end TransferLedger
