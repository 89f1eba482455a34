import TransferLedger.Amount
import TransferLedger.Bank.Basic
import TransferLedger.Service.Error

/-!
The account service: opening, showing, listing, renaming, closing and deleting accounts. Balances
are set once, when an account is opened; from then on only transfers change them.
-/
namespace TransferLedger
set_option autoImplicit false

/-- An account as a caller asks for it. -/
structure OpenAccount where
  id : String
  ownerId : String
  name : String
  currency : String
  balance : String
deriving DecidableEq, Repr, Inhabited

def OpenAccount.shape : Json.Shape OpenAccount where
  name := "CreateAccountRequest"
  blank := default
  fields := [
    .optional "id" Json.readText fun s r => { r with id := s },
    .required "owner_id" Json.readText fun s r => { r with ownerId := s },
    .optional "name" Json.readText fun s r => { r with name := s },
    .required "currency" Json.readText fun s r => { r with currency := s },
    .optional "balance" Json.readText fun s r => { r with balance := s }]

/-- A new name for an account. -/
structure RenameAccount where
  name : String
deriving DecidableEq, Repr, Inhabited

def RenameAccount.shape : Json.Shape RenameAccount where
  name := "UpdateAccountRequest"
  blank := default
  fields := [.required "name" Json.readText fun s r => { r with name := s }]

/-- Which page of the accounts to list. -/
structure PageQuery where
  page : Nat
  size : Nat
deriving DecidableEq, Repr, Inhabited

namespace PageQuery

def defaultSize : Nat := 20

def maxSize : Nat := 100

/-- The page that is listed: page zero is the first. -/
def effectivePage (q : PageQuery) : Nat := max q.page 1

/-- The size that is listed: zero stands for the default size. -/
def effectiveSize (q : PageQuery) : Nat := if q.size = 0 then defaultSize else min q.size maxSize

end PageQuery

/-- One page of accounts. -/
structure AccountPage where
  accounts : List Account
  page : Nat
  size : Nat
deriving DecidableEq, Repr

/-- The JSON form; the count is that of the accounts on the page. -/
def AccountPage.toJson (p : AccountPage) : Json.Value :=
  .record [("accounts", .list (p.accounts.map Account.toJson)), ("page", .integer p.page),
    ("page_size", .integer p.size), ("total_count", .integer p.accounts.length)]

namespace Accounts

/-- The opening balance of a text: zero if it is blank, and never negative or too precise. -/
def readOpeningBalance (text : String) : Except ServiceError Decimal :=
  let raw := Text.trim text
  if raw = "" then .ok .zero
  else match Decimal.read raw with
    | .error _ => .error (.invalidArgument s!"invalid balance: {raw}")
    | .ok d =>
      if d.isNegative || currencyScale < d.scale then
        .error (.invalidArgument s!"invalid opening balance: {d}")
      else .ok d

/-- The account that a request asks for; `newId` is its id if the request names none. -/
def ofRequest (now : Instant) (newId : String) (r : OpenAccount) : Except ServiceError Account :=
  let owner := Text.trim r.ownerId
  let currency := Text.trim r.currency
  let id := Text.trim r.id
  if owner = "" then .error (.invalidArgument "owner_id is required")
  else if currency = "" then .error (.invalidArgument "currency is required")
  else do
    let balance ← readOpeningBalance r.balance
    let account := Account.opened (if id = "" then newId else id) owner (Text.upper currency) balance now
    .ok { account with name := Text.trim r.name }

def create (e : Engine) (now : Instant) (newId : String) (r : OpenAccount) (b : Bank) :
    Except ServiceError Account × Bank :=
  match ofRequest now newId r with
  | .error cause => (.error cause, b)
  | .ok account =>
    match b.insertAccount e account with
    | (.ok _, b) => (.ok account, b)
    | (.error cause, b) => (.error (.tables "create account" cause), b)

def get (e : Engine) (id : String) (b : Bank) : Except ServiceError Account :=
  (b.getAccount e id).mapError (.tables "get account")

def list (e : Engine) (q : PageQuery) (b : Bank) : Except ServiceError AccountPage := do
  let accounts ← (b.listAccounts e q.effectivePage q.effectiveSize).mapError
    (.tables "list accounts")
  .ok ⟨accounts, q.effectivePage, q.effectiveSize⟩

def changed (e : Engine) (operation id : String) (change : Except BankError Unit × Bank) :
    Except ServiceError Account × Bank :=
  match change with
  | (.error cause, b) => (.error (.tables operation cause), b)
  | (.ok _, b) => (get (e.after 1) id b, b)

def rename (e : Engine) (now : Instant) (id : String) (r : RenameAccount) (b : Bank) :
    Except ServiceError Account × Bank :=
  let name := Text.trim r.name
  if name = "" then (.error (.invalidArgument "name is required"), b)
  else changed e "update account" id (b.renameAccount e now id name)

def close (e : Engine) (now : Instant) (id : String) (b : Bank) :
    Except ServiceError Account × Bank :=
  changed e "close account" id (b.setAccountStatus e now id .closed)

def delete (e : Engine) (now : Instant) (id : String) (b : Bank) :
    Except ServiceError Unit × Bank :=
  let (outcome, b) := b.deleteAccount e now id
  (outcome.mapError (.tables "delete account"), b)

/-- The records of an account, newest first. -/
def transactions (e : Engine) (id : String) (b : Bank) : Except ServiceError (List Transaction) := do
  let _ ← get e id b
  (b.transactionsOf (e.after 1) id).mapError (.tables "list transactions")

end Accounts

end TransferLedger
