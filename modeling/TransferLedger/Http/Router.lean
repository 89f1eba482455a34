import TransferLedger.Http.JsonBody
import TransferLedger.Http.Query
import TransferLedger.Http.Resource
import TransferLedger.Service.Reconciliation

/-!
The HTTP interface: a request is answered from the world and may change it. A method that a resource
does not know is answered before its id is looked at, the id before the query, the query before the
body. `HEAD` is answered as `GET`, without the body.
-/
namespace TransferLedger.Http
set_option autoImplicit false

/-- An answer and the world afterwards; there is no answer where a decimal result does not fit. -/
abbrev Answered := Except Overflow HttpResponse × World

/-- What a request is answered with, apart from the world itself. -/
structure Surroundings where
  engines : Engines
  now : Instant
  /-- The id of an account or a transfer that the request creates. -/
  newId : String

def ofOutcome {α : Type} (status : Nat) (toJson : α → Json.Value) :
    Except ServiceError α → HttpResponse
  | .ok a => .json status (toJson a)
  | .error e => .ofServiceError e

/-- The answer to an outcome that may be missing. -/
def ofHalting {α ε : Type} (status : Nat) (toJson : α → Json.Value) (refuse : ε → HttpResponse) :
    Except (Halt ε) α → Except Overflow HttpResponse
  | .ok a => .ok (.json status (toJson a))
  | .error (.refused e) => .ok (refuse e)
  | .error (.overflow o) => .error o

def ofRejection (r : JsonBody.Rejection) : HttpResponse := .error .invalidArgument r.message

def listJson {α : Type} (toJson : α → Json.Value) (items : List α) : Json.Value :=
  .list (items.map toJson)

/-! ## Changing the world -/

def createTransaction (s : Surroundings) (r : HttpRequest) (w : World) : Answered :=
  match JsonBody.read TransferRequest.shape r with
  | .error rejection => (.ok (ofRejection rejection), w)
  | .ok request =>
    let (outcome, w) := Transactions.create s.engines.bank s.now s.newId request w
    (ofHalting 201 Transaction.toJson HttpResponse.ofTransferError outcome, w)

def createAccount (s : Surroundings) (r : HttpRequest) (w : World) : HttpResponse × World :=
  match JsonBody.read OpenAccount.shape r with
  | .error rejection => (ofRejection rejection, w)
  | .ok request =>
    let (outcome, bank) := Accounts.create s.engines.bank s.now s.newId request w.bank
    (ofOutcome 201 Account.toJson outcome, { w with bank := bank })

def renameAccount (s : Surroundings) (id : String) (r : HttpRequest) (w : World) :
    HttpResponse × World :=
  match JsonBody.read RenameAccount.shape r with
  | .error rejection => (ofRejection rejection, w)
  | .ok request =>
    let (outcome, bank) := Accounts.rename s.engines.bank s.now id request w.bank
    (ofOutcome 200 Account.toJson outcome, { w with bank := bank })

def deleteAccount (s : Surroundings) (id : String) (w : World) : HttpResponse × World :=
  match Accounts.delete s.engines.bank s.now id w.bank with
  | (.ok _, bank) => (.bare 204, { w with bank := bank })
  | (.error e, bank) => (.ofServiceError e, { w with bank := bank })

def closeAccount (s : Surroundings) (id : String) (w : World) : HttpResponse × World :=
  let (outcome, bank) := Accounts.close s.engines.bank s.now id w.bank
  (ofOutcome 200 Account.toJson outcome, { w with bank := bank })

/-! ## Showing the world -/

def showTransaction (s : Surroundings) (id : String) (w : World) : HttpResponse :=
  match Transfer.getTransaction s.engines.bank id w.bank with
  | .ok record => .json 200 record.toJson
  | .error e => .ofTransferError e

def showEntries (entries : Except StoreError (List Entry)) : HttpResponse :=
  ofOutcome 200 (listJson Entry.toJson) (entries.mapError fun cause => .ledger (.store cause))

def listAccounts (s : Surroundings) (r : HttpRequest) (w : World) : HttpResponse :=
  match Query.page r.query with
  | .error rejection => .text 400 rejection.message
  | .ok query => ofOutcome 200 AccountPage.toJson (Accounts.list s.engines.bank query w.bank)

/-- Shows the entries of an account, all or those of one side. -/
def showAccountLedger (s : Surroundings) (id : String) (r : HttpRequest) (w : World) :
    HttpResponse :=
  match Query.entryType r.query with
  | .error rejection => .text 400 rejection.message
  | .ok none => showEntries (w.ledger.entriesByAccount s.engines.ledger id)
  | .ok (some type) =>
    match Side.ofName? type with
    | some side => showEntries (w.ledger.entriesBySide s.engines.ledger side id)
    | none => .error .invalidArgument s!"invalid entry type: {type}"

def showLedgerBalance (s : Surroundings) (id : String) (w : World) :
    Except Overflow HttpResponse :=
  ofHalting 200 (fun d : Decimal => .record [("account_id", .text id), ("balance", .text d.text)])
    HttpResponse.ofServiceError (Reconciliation.ledgerBalance s.engines.ledger w.ledger id)

/-! ## Requests -/

/-- Answers `GET` for a resource; `id` is the decoded id in its path. -/
def answerGet (s : Surroundings) (resource : Resource) (id : String) (r : HttpRequest) (w : World) :
    Except Overflow HttpResponse :=
  match resource with
  | .transaction _ => .ok (showTransaction s id w)
  | .transactionLedger _ => .ok (showEntries (w.ledger.entriesByTransaction s.engines.ledger id))
  | .accounts => .ok (listAccounts s r w)
  | .account _ => .ok (ofOutcome 200 Account.toJson (Accounts.get s.engines.bank id w.bank))
  | .accountTransactions _ =>
    .ok (ofOutcome 200 (listJson Transaction.toJson) (Accounts.transactions s.engines.bank id w.bank))
  | .accountLedger _ => .ok (showAccountLedger s id r w)
  | .ledgerBalance _ => showLedgerBalance s id w
  | .reconciliation _ =>
    ofHalting 200 ReconciliationReport.toJson HttpResponse.ofServiceError
      (Reconciliation.report s.engines id w)
  | .transactions | .closing _ => .ok (.bare 405)

def answerChange (s : Surroundings) (resource : Resource) (id : String) (r : HttpRequest)
    (w : World) : Answered :=
  let done (answer : HttpResponse × World) : Answered := (.ok answer.1, answer.2)
  match resource with
  | .transactions => createTransaction s r w
  | .accounts => done (createAccount s r w)
  | .closing _ => done (closeAccount s id w)
  | .account _ =>
    if r.method = "DELETE" then done (deleteAccount s id w) else done (renameAccount s id r w)
  | _ => (.ok (.bare 405), w)

/-- Answers a request for a resource by a method that the resource knows. -/
def answerKnown (s : Surroundings) (resource : Resource) (id : String) (r : HttpRequest)
    (w : World) : Answered :=
  if r.method = "GET" then (answerGet s resource id r w, w)
  else if r.method = "HEAD" then ((answerGet s resource id r w).map (·.withoutBody), w)
  else answerChange s resource id r w

def answer (s : Surroundings) (r : HttpRequest) (w : World) : Answered :=
  match Resource.ofPath? r.path with
  | none => (.ok (.bare 404), w)
  | some resource =>
    if !resource.methods.contains r.method then
      (.ok { status := 405, allow := some resource.methods }, w)
    else match resource.rawId? with
      | none => answerKnown s resource "" r w
      | some raw =>
        match Percent.decodeSegment? raw with
        | some id => answerKnown s resource id r w
        | none =>
          let refusal := HttpResponse.text 400 "Invalid URL: Invalid UTF-8 in `id`"
          (.ok (if r.method = "HEAD" then refusal.withoutBody else refusal), w)

end TransferLedger.Http
