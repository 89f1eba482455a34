import TransferLedger.Text.Hexadecimal

/-!
JSON text as the program writes it: compact, the fields of an object in a fixed order. In strings
the quote, the backslash and the control characters below U+0020 are escaped and nothing else.
-/
namespace TransferLedger.Json
set_option autoImplicit false

def escapeChar (c : Char) : List Char :=
  match c with
  | '"' => ['\\', '"']
  | '\\' => ['\\', '\\']
  | '\x08' => ['\\', 'b']
  | '\t' => ['\\', 't']
  | '\n' => ['\\', 'n']
  | '\x0c' => ['\\', 'f']
  | '\r' => ['\\', 'r']
  | _ =>
    if c.toNat < 0x20 then ['\\', 'u', '0', '0'] ++ Text.hexChars c.toNat.toUInt8 else [c]

def stringChars (s : String) : List Char := '"' :: s.toList.flatMap escapeChar ++ ['"']

/-- A value that the program writes. -/
inductive Value
  | null
  | boolean (b : Bool)
  | integer (n : Int)
  | text (s : String)
  | list (items : List Value)
  | record (fields : List (String × Value))

mutual

def Value.chars : Value → List Char
  | .null => "null".toList
  | .boolean b => (if b then "true" else "false").toList
  | .integer n => (toString n).toList
  | .text s => stringChars s
  | .list items => '[' :: itemsChars true items ++ [']']
  | .record fields => '\x7b' :: fieldsChars true fields ++ ['\x7d']

/-- The elements of a list with commas between them. -/
def itemsChars : Bool → List Value → List Char
  | _, [] => []
  | first, v :: vs => (if first then [] else [',']) ++ v.chars ++ itemsChars false vs

/-- The fields of an object with commas between them. -/
def fieldsChars : Bool → List (String × Value) → List Char
  | _, [] => []
  | first, (k, v) :: fs =>
    (if first then [] else [',']) ++ stringChars k ++ ':' :: v.chars ++ fieldsChars false fs

end

def Value.render (v : Value) : String := String.ofList v.chars

/-- The compact text of a value in UTF-8. -/
def Value.bytes (v : Value) : Bytes := Text.toBytes v.render

end TransferLedger.Json
