import TransferLedger.Text.Hexadecimal
import TransferLedger.Text.Split

/-!
Percent encoding. A percent sign with two hexadecimal digits stands for a byte; any other percent
sign stands for itself. Segments of a path have to be UTF-8 once decoded. In a query plus signs are
blanks, and faulty bytes show as U+FFFD.
-/
namespace TransferLedger
set_option autoImplicit false

namespace Percent

/-- The bytes that are meant; the first argument bounds the number of steps. -/
def decodeBytes : Nat → Bytes → Bytes
  | 0, _ => []
  | _, [] => []
  | fuel + 1, b :: bs =>
    if b = 0x25 then
      match Text.hexByte? bs with
      | some (x, rest) => x :: decodeBytes fuel rest
      | none => b :: decodeBytes fuel bs
    else b :: decodeBytes fuel bs

/-- The bytes that are meant. -/
def decode (bs : Bytes) : Bytes := decodeBytes bs.length bs

/-- A segment of a path, if it is UTF-8. -/
def decodeSegment? (s : String) : Option String := Text.ofBytes? (decode (Text.toBytes s))

def decodeQueryPart (cs : List Char) : String :=
  let spaced := cs.map fun c => if c = '+' then ' ' else c
  Text.ofBytesLossy (decode (Text.toBytes (String.ofList spaced)))

/-- The names and values of a query; parts that are empty are passed over, and a name without an
equals sign has an empty value. -/
def queryPairs (query : List Char) : List (String × String) :=
  ((Text.split '&' query).filter fun part => !part.isEmpty).map fun part =>
    let (name, value) := Text.cut '=' part
    (decodeQueryPart name, decodeQueryPart (value.getD []))

end Percent

end TransferLedger
