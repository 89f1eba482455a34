import TransferLedger.Json.Error
import TransferLedger.Text.Utf8

/-!
The lowest layer of reading JSON from bytes: white space, single bytes and the three words. Each
reader answers what it read and what is left.
-/
namespace TransferLedger.Json
set_option autoImplicit false

/-- A reader of some part of the text at the head of the bytes. -/
abbrev Reader (α : Type) := Bytes → Except ReadError (α × Bytes)

/-- Blank, tab, line feed and carriage return may stand between all parts. -/
def isSpace (b : UInt8) : Bool := b == 0x20 || b == 0x09 || b == 0x0A || b == 0x0D

def skipSpace (bs : Bytes) : Bytes := bs.dropWhile isSpace

def isDigit (b : UInt8) : Bool := 0x30 ≤ b && b ≤ 0x39

def digitValue (b : UInt8) : Nat := b.toNat - 0x30

def readWord : Bytes → Bytes → Except ReadError Bytes
  | [], rest => .ok rest
  | _ :: _, [] => .error .ended
  | w :: ws, b :: rest => if b = w then readWord ws rest else .error .malformed

/-- `ull`, the rest of the word `null`. -/
def restOfNull : Bytes := [0x75, 0x6C, 0x6C]

/-- `rue`, the rest of the word `true`. -/
def restOfTrue : Bytes := [0x72, 0x75, 0x65]

/-- `alse`, the rest of the word `false`. -/
def restOfFalse : Bytes := [0x61, 0x6C, 0x73, 0x65]

/-- The next byte, which has to be a given one. -/
def expectByte (b : UInt8) : Bytes → Except ReadError Bytes
  | [] => .error .ended
  | c :: rest => if c = b then .ok rest else .error .malformed

end TransferLedger.Json
