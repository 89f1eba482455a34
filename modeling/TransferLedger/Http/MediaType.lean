import TransferLedger.Text.Split
import TransferLedger.Text.Upper

/-!
Media types as they stand in a `Content-Type` header, as far as one has to know them in order to
tell whether a body is JSON.
-/
namespace TransferLedger.MediaType
set_option autoImplicit false

def isTokenChar (c : Char) : Bool := c.isAlphanum || "!#$%&'*+-.^_\x60|~".toList.contains c

/-- A character between the quotes of a parameter value. -/
def isQuotedChar (c : Char) : Bool := 32 ≤ c.toNat && c.toNat != 127

/-- A non-empty name at the head, and the rest. -/
def token? (cs : List Char) : Option (List Char × List Char) :=
  match cs.takeWhile isTokenChar with
  | [] => none
  | name => some (name, cs.dropWhile isTokenChar)

/-- What follows a quoted value, whose opening quote is read already. A value has at least one
character. -/
def afterQuoted? : List Char → Option (List Char)
  | [] => none
  | c :: cs =>
    if isQuotedChar c then
      match cs.dropWhile fun c => isQuotedChar c && c != '"' with
      | '"' :: rest => some (rest.dropWhile (· == ' '))
      | _ => none
    else none

def afterValue? : List Char → Option (List Char)
  | '"' :: rest => afterQuoted? rest
  | [] => some []
  | cs => (token? cs).map (·.2)

/-- A list of parameters between semicolons; the first argument bounds their number. -/
def parametersAccepted : Nat → List Char → Bool
  | 0, _ => false
  | fuel + 1, cs =>
    match cs.dropWhile (· == ' ') with
    | [] => true
    | cs =>
      match token? cs with
      | some (_, '=' :: rest) =>
        match afterValue? rest with
        | some [] => true
        | some (';' :: rest) => parametersAccepted fuel rest
        | _ => false
      | _ => false

/-- The subtype in front of its last plus sign, and the suffix after it. -/
def splitSuffix (subtype : List Char) : List Char × Option (List Char) :=
  match (Text.split '+' subtype).reverse with
  | suffix :: piece :: pieces =>
    match "+".toList.intercalate (piece :: pieces).reverse with
    | [] => (subtype, none)
    | stem => (stem, some suffix)
  | _ => (subtype, none)

/-- The header names JSON: `application/json`, or an `application` type with the suffix `json`, in
any letter case and with any parameters. -/
def isJson (header : String) : Bool :=
  match token? (Text.asciiLower header).toList with
  | some (type, '/' :: rest) =>
    match token? rest with
    | some (subtype, rest) =>
      let accepted := match rest with
        | [] => true
        | ';' :: rest => parametersAccepted (rest.length + 1) rest
        | _ => false
      let (stem, suffix) := splitSuffix subtype
      accepted && type == "application".toList
        && (stem == "json".toList || suffix == some "json".toList)
    | none => false
  | _ => false

end TransferLedger.MediaType
