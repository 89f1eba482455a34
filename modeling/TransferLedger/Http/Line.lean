import TransferLedger.Http.Router

/-!
The server on lines of text. A request is a line with a method, a target and a JSON body, the body
being optional; a response is a line with a status and the body. The relay works off its queue after
every request.
-/
namespace TransferLedger
set_option autoImplicit false

def HttpRequest.ofLine (line : String) : HttpRequest :=
  let (method, rest) := Text.cut ' ' line.toList
  let (target, body) := Text.cut ' ' (rest.getD [])
  .ofTarget (String.ofList method) (String.ofList target) (body.map fun _ => "application/json")
    (Text.toBytes (String.ofList (body.getD [])))

def HttpBody.line : HttpBody → String
  | .empty => ""
  | .json value => value.render
  | .text content => content

def HttpResponse.line (r : HttpResponse) : String := s!"{r.status} {r.body.line}"

def World.exchange (s : Settings) (surroundings : Http.Surroundings) (line : String) (w : World) :
    String × World :=
  let (answer, w) := Http.answer surroundings (.ofLine line) w
  let shown := match answer with
    | .ok response => response.line
    | .error overflow => overflow.message
  let now := surroundings.now
  (shown, w.runRelay s surroundings.engines.ledger fun k => { now with nanos := now.nanos + k })

end TransferLedger
