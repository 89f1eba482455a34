import TransferLedger.Json.Writer
import TransferLedger.Service.Error
import TransferLedger.Text.Split

/-!
Requests and responses of the HTTP interface.
-/
namespace TransferLedger
set_option autoImplicit false

/-- A request: its method, the path and query of its target as they were sent, the type of its body
and the body. -/
structure HttpRequest where
  method : String
  path : List Char
  query : List Char
  contentType : Option String
  body : Bytes
deriving DecidableEq, Repr

/-- A request with a target: the query begins after the first question mark, and what follows a
number sign is not sent. -/
def HttpRequest.ofTarget (method target : String) (contentType : Option String) (body : Bytes) :
    HttpRequest :=
  let (sent, _) := Text.cut '#' target.toList
  let (path, query) := Text.cut '?' sent
  ⟨method, path, query.getD [], contentType, body⟩

/-- The body of a response. -/
inductive HttpBody
  | empty
  | json (value : Json.Value)
  | text (content : String)

/-- A response. -/
structure HttpResponse where
  status : Nat
  contentType : Option String := none
  /-- The methods that the resource knows, where the request used another one. -/
  allow : Option (List String) := none
  body : HttpBody := .empty

namespace HttpResponse

def json (status : Nat) (value : Json.Value) : HttpResponse where
  status := status
  contentType := some "application/json"
  body := .json value

def text (status : Nat) (content : String) : HttpResponse where
  status := status
  contentType := some "text/plain; charset=utf-8"
  body := .text content

def bare (status : Nat) : HttpResponse where
  status := status

def withoutBody (r : HttpResponse) : HttpResponse := { r with body := .empty }

end HttpResponse

def ErrorCode.status : ErrorCode → Nat
  | .invalidArgument => 400
  | .notFound => 404
  | .internal => 500

namespace HttpResponse

def error (code : ErrorCode) (message : String) : HttpResponse :=
  .json code.status (.record [("code", .text code.wireName), ("message", .text message)])

def ofTransferError (e : TransferError) : HttpResponse := error e.code e.message

def ofServiceError (e : ServiceError) : HttpResponse := error e.code e.message

end HttpResponse

end TransferLedger
