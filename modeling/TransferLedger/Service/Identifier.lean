import TransferLedger.Text.Hexadecimal

/-!
Identifiers of accounts and transfers: sixteen random bytes in hexadecimal, in five groups, with the
digit four for random identifiers and the two fixed bits of their variant.
-/
namespace TransferLedger.Identifier
set_option autoImplicit false

/-- A byte with the fixed bits of its place. -/
def marked (place : Nat) (b : UInt8) : UInt8 :=
  if place = 6 then b % 16 + 0x40 else if place = 8 then b % 64 + 0x80 else b

/-- The characters in front of the byte at a place. -/
def separator (place : Nat) : List Char := if [4, 6, 8, 10].contains place then ['-'] else []

def ofBytes (bytes : Bytes) : String :=
  String.ofList ((bytes.take 16).zipIdx.flatMap fun (b, place) =>
    separator place ++ Text.hexChars (marked place b))

end TransferLedger.Identifier
