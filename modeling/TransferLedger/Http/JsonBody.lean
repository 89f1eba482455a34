import TransferLedger.Http.MediaType
import TransferLedger.Http.Message
import TransferLedger.Json.Record

/-!
Reading the JSON body of a request. The header has to name JSON, the body may not be too long, and
its first value has to have the expected shape; what follows that value is not looked at.
-/
namespace TransferLedger.JsonBody
set_option autoImplicit false

def maxLength : Nat := 2097152

/-- Why a body is refused. -/
inductive Rejection
  | contentType
  | tooLong
  | malformed
  | unfit (place : Option String) (mismatch : Json.Mismatch)
deriving DecidableEq, Repr

def Rejection.message : Rejection → String
  | .contentType => "Expected request with `Content-Type: application/json`"
  | .tooLong => "Failed to buffer the request body: length limit exceeded"
  | .malformed => "Failed to parse the request body as JSON"
  | .unfit place m =>
    let where_ := match place with
      | some p => p ++ ": "
      | none => ""
    s!"Failed to deserialize the JSON body into the target type: {where_}{m.message}"

def read {α : Type} (shape : Json.Shape α) (r : HttpRequest) : Except Rejection α :=
  if !(r.contentType.any MediaType.isJson) then .error .contentType
  else if maxLength < r.body.length then .error .tooLong
  else match shape.read r.body with
    | .ok (a, _) => .ok a
    | .error (.unfit place m) => .error (.unfit place m)
    | .error .ended => .error .malformed
    | .error .malformed => .error .malformed

end TransferLedger.JsonBody
