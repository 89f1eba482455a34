import TransferLedger.Proofs.Bank.Written
import TransferLedger.Proofs.Service.Accounts
import TransferLedger.Proofs.Service.Transactions
import TransferLedger.Service.Reconciliation

/-! # Histories of the tables

`Operation` lists what can be asked of the two tables, of the transfers and of the services, what reads included.
`Operation.perform` says which error of the tables it reports, itself or as the cause of its own error, and
leaves the tables as they are afterwards; the rest of a world may be any. A history is any sequence of operations
in which any statements fail. Whatever it is, the tables hold rows as they are written
(`Bank.history_written`).
-/

namespace TransferLedger
set_option autoImplicit false

/-! ## Errors of the tables -/

/-- Errors that may be errors of the tables or have one as their cause. -/
class TableError (ε : Type) where
  cause? : ε → Option BankError

namespace TableError

instance : TableError BankError where
  cause? := some

instance : TableError TransferError where
  cause?
    | .internal _ cause => some cause
    | _ => none

instance : TableError ServiceError where
  cause?
    | .transfer cause => TableError.cause? cause
    | .tables _ cause => some cause
    | _ => none

instance {ε : Type} [TableError ε] : TableError (Halt ε) where
  cause?
    | .refused cause => TableError.cause? cause
    | .overflow _ => none

end TableError

/-- The error of the tables that an answer reports. -/
def tableError? {ε α : Type} [TableError ε] : Except ε α → Option BankError
  | .error e => TableError.cause? e
  | .ok _ => none

/-! ## Operations -/

namespace Bank

/-- An operation on one table, or the transfer unit. -/
inductive TableOperation
  | insertAccount (a : Account)
  | accountRow (id : String)
  | getAccount (id : String)
  | listAccounts (page size : Nat)
  | renameAccount (id name : String)
  | setAccountStatus (id : String) (status : AccountStatus)
  | deleteAccount (id : String)
  | insertTransaction (t : Transaction)
  | getTransaction (id : String)
  | transactionsOf (account : String)
  | transactionsWithStatus (status : TransactionStatus)
  | applyTransfer (p : TransferPlan)

/-- A step of a transfer, a whole transfer without its announcement, or a look at records. -/
inductive TransferOperation
  | prepare (newId : String) (r : TransferRequest)
  | commit (p : TransferPlan)
  | recordFailed (p : TransferPlan)
  | execute (newId : String) (r : TransferRequest)
  | getTransaction (id : String)
  | withStatus (status : TransactionStatus)

/-- A call of the services on accounts, transactions and reconciliation. -/
inductive ServiceOperation
  | create (newId : String) (r : OpenAccount)
  | get (id : String)
  | list (q : PageQuery)
  | rename (id : String) (r : RenameAccount)
  | close (id : String)
  | delete (id : String)
  | transactions (id : String)
  | transfer (publish : Publisher) (newId : String) (r : TransferRequest) (ledger : TableLedger)
      (broker : Broker)
  | successful
  | report (ledgerEngine : Engine) (id : String) (ledger : TableLedger) (broker : Broker)
  | replayMissing (ledgerEngine : Engine) (ledger : TableLedger) (broker : Broker)

inductive Operation
  | table (o : TableOperation)
  | transfer (o : TransferOperation)
  | service (o : ServiceOperation)

/-- What an operation makes known of the tables: the error that it reports and the tables afterwards. -/
abbrev Outcome := Option BankError × Bank

def outcome {ε α : Type} [TableError ε] (result : Except ε α × Bank) : Outcome :=
  (tableError? result.1, result.2)

variable (e : Engine) (now : Instant) (b : Bank)

def TableOperation.perform : TableOperation → Outcome
  | .insertAccount a => outcome (b.insertAccount e a)
  | .accountRow id => outcome (b.accountRow e 0 id, b)
  | .getAccount id => outcome (b.getAccount e id, b)
  | .listAccounts page size => outcome (b.listAccounts e page size, b)
  | .renameAccount id name => outcome (b.renameAccount e now id name)
  | .setAccountStatus id status => outcome (b.setAccountStatus e now id status)
  | .deleteAccount id => outcome (b.deleteAccount e now id)
  | .insertTransaction t => outcome (b.insertTransaction e t)
  | .getTransaction id => outcome (b.getTransaction e id, b)
  | .transactionsOf account => outcome (b.transactionsOf e account, b)
  | .transactionsWithStatus status => outcome (b.transactionsWithStatus e status, b)
  | .applyTransfer p => outcome (b.applyTransfer e now p)

def TransferOperation.perform : TransferOperation → Outcome
  | .prepare newId r => outcome (Transfer.prepare e newId r b, b)
  | .commit p => outcome (Transfer.commit e now p b)
  | .recordFailed p => outcome (Transfer.recordFailed e now p b)
  | .execute newId r => outcome (Transfer.execute e now newId r b)
  | .getTransaction id => outcome (Transfer.getTransaction e id b, b)
  | .withStatus status => outcome (Transfer.withStatus e status b, b)

def ServiceOperation.perform : ServiceOperation → Outcome
  | .create newId r => outcome (Accounts.create e now newId r b)
  | .get id => outcome (Accounts.get e id b, b)
  | .list q => outcome (Accounts.list e q b, b)
  | .rename id r => outcome (Accounts.rename e now id r b)
  | .close id => outcome (Accounts.close e now id b)
  | .delete id => outcome (Accounts.delete e now id b)
  | .transactions id => outcome (Accounts.transactions e id b, b)
  | .transfer publish newId r ledger broker =>
    let (answer, w) := Transactions.createWith publish e now newId r ⟨b, ledger, broker⟩
    outcome (answer, w.bank)
  | .successful => outcome (Transactions.successful e b, b)
  | .report ledgerEngine id ledger broker =>
    outcome (Reconciliation.report ⟨e, ledgerEngine⟩ id ⟨b, ledger, broker⟩, b)
  | .replayMissing ledgerEngine ledger broker =>
    let (answer, w) := Reconciliation.replayMissing ⟨e, ledgerEngine⟩ ⟨b, ledger, broker⟩
    outcome (answer, w.bank)

def Operation.perform : Operation → Outcome
  | .table o => o.perform e now b
  | .transfer o => o.perform e now b
  | .service o => o.perform e now b

/-- An operation, when it comes and which of its statements fail. -/
structure Turn where
  faults : Nat → Statement → Option EngineError
  now : Instant
  operation : Operation

/-- The tables after the turns, one after the other on empty ones. -/
def history (turns : List Turn) : Bank :=
  turns.foldl (fun b t => (t.operation.perform (.failing t.faults) t.now b).2) empty

/-! ## Rows as they are written -/

variable {e b}

theorem TableOperation.perform_written (he : e.KeepsInserts) (hb : b.Written) (o : TableOperation) :
    (o.perform e now b).2.Written := by
  cases o with
  | insertAccount a => exact hb.insertAccount he a
  | accountRow id => exact hb
  | getAccount id => exact hb
  | listAccounts page size => exact hb
  | renameAccount id name =>
    exact hb.updateLive id (fun a => ⟨{ a with name := name, updatedAt := now }, rfl⟩) fun _ => rfl
  | setAccountStatus id status =>
    exact hb.updateLive id (fun a => ⟨{ a with status := status, updatedAt := now }, rfl⟩) fun _ => rfl
  | deleteAccount id =>
    exact hb.updateLive id (fun a => ⟨{ a with deletedAt := some now, updatedAt := now }, rfl⟩) fun _ => rfl
  | insertTransaction t => exact hb.insertTransaction he t
  | getTransaction id => exact hb
  | transactionsOf account => exact hb
  | transactionsWithStatus status => exact hb
  | applyTransfer p => exact hb.applyTransfer he now p

theorem TransferOperation.perform_written (he : e.KeepsInserts) (hb : b.Written) (o : TransferOperation) :
    (o.perform e now b).2.Written := by
  cases o with
  | prepare newId r => exact hb
  | commit p => exact hb.applyTransfer he now p
  | recordFailed p =>
    refine hb.of_ok (fun t b' hrecord => ?_) fun _ _ => Transfer.recordFailed_eq_error
    obtain ⟨-, -, -, -, rfl⟩ := Transfer.recordFailed_eq_ok he hrecord
    exact hb.addRecord _
  | execute newId r =>
    rw [perform, outcome, Transfer.execute]
    cases Transfer.prepare e newId r b with
    | error cause => exact hb
    | ok p => exact hb.applyTransfer (he.after 2) now p
  | getTransaction id => exact hb
  | withStatus status => exact hb

theorem ServiceOperation.perform_written (he : e.KeepsInserts) (hb : b.Written) (o : ServiceOperation) :
    (o.perform e now b).2.Written := by
  cases o with
  | create newId r =>
    refine hb.of_ok (fun a b' hcreate => ?_) fun _ _ => Accounts.create_eq_error
    obtain ⟨-, hnew, rfl⟩ := Accounts.create_eq_ok he hcreate
    exact hb.addAccount hnew
  | get id => exact hb
  | list q => exact hb
  | rename id r =>
    exact hb.updated (Accounts.rename_bank e now id r b)
      (fun a => ⟨{ a with name := Text.trim r.name, updatedAt := now }, rfl⟩) fun _ => rfl
  | close id =>
    exact hb.updated (Accounts.close_bank e now id b)
      (fun a => ⟨{ a with status := .closed, updatedAt := now }, rfl⟩) fun _ => rfl
  | delete id =>
    exact hb.updated (Accounts.delete_bank e now id b)
      (fun a => ⟨{ a with deletedAt := some now, updatedAt := now }, rfl⟩) fun _ => rfl
  | transactions id => exact hb
  | transfer publish newId r ledger broker =>
    rw [perform]
    obtain ⟨cause, -, hcreate⟩ | ⟨p, -, hending⟩ :=
      Transactions.createWith_ending publish he now newId r ⟨b, ledger, broker⟩
    · rw [hcreate]
      exact hb
    · generalize Transactions.createWith publish e now newId r ⟨b, ledger, broker⟩ = ended at hending
      obtain ⟨answer, w⟩ := ended
      cases hending with
      | carriedOut m _ => exact hb.movement m now
      | refused _ => exact hb
      | failed _ => exact hb
      | recorded _ _ _ _ => exact hb.addRecord _
      | overflowed _ => exact hb
  | successful => exact hb
  | report ledgerEngine id ledger broker => exact hb
  | replayMissing ledgerEngine ledger broker =>
    rw [perform, Reconciliation.replayMissing]
    cases Transactions.successful e b with
    | error cause => exact hb
    | ok records => exact hb

theorem Operation.perform_written (he : e.KeepsInserts) (hb : b.Written) (o : Operation) :
    (o.perform e now b).2.Written := by
  cases o with
  | table o => exact o.perform_written now he hb
  | transfer o => exact o.perform_written now he hb
  | service o => exact o.perform_written now he hb

theorem history_written (turns : List Turn) : (history turns).Written := by
  have hrun : ∀ b : Bank, b.Written → Written
      (turns.foldl (fun b t => (t.operation.perform (.failing t.faults) t.now b).2) b) := by
    induction turns with
    | nil => exact fun _ hb => hb
    | cons t ts ih =>
      intro b hb
      exact ih _ (t.operation.perform_written t.now (Engine.failing_keepsInserts t.faults) hb)
  exact hrun empty empty_written

end Bank

end TransferLedger
