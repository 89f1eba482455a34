/-!
Texts as bytes: UTF-8 encoding, decoding that refuses bytes which are no UTF-8, and decoding that
puts a replacement character in place of each faulty stretch.
-/
namespace TransferLedger
set_option autoImplicit false

/-- A message body, a file, a line on the wire. -/
abbrev Bytes := List UInt8

namespace Text

/-- The UTF-8 encoding of a text. -/
def toBytes (s : String) : Bytes := s.toUTF8.data.toList

/-- The text encoded by these bytes, if they are UTF-8. -/
def ofBytes? (bs : Bytes) : Option String := String.fromUTF8? (ByteArray.mk bs.toArray)

def isContinuation (b : UInt8) : Bool := 0x80 ≤ b && b ≤ 0xBF

/-- How many bytes the longest beginning of a character at the head takes, and whether it is a whole
character. Nothing that begins a character counts as one faulty byte. -/
def leadingCharacter (bs : Bytes) : Nat × Bool :=
  match bs with
  | [] => (0, true)
  | a :: rest =>
    let second (low high : UInt8) : Bool := match rest with
      | b :: _ => low ≤ b && b ≤ high
      | [] => false
    let third : Bool := match rest with
      | _ :: c :: _ => isContinuation c
      | _ => false
    let fourth : Bool := match rest with
      | _ :: _ :: d :: _ => isContinuation d
      | _ => false
    let three (ok : Bool) : Nat × Bool :=
      if !ok then (1, false) else if third then (3, true) else (2, false)
    let four (ok : Bool) : Nat × Bool :=
      if !ok then (1, false) else if !third then (2, false)
      else if fourth then (4, true) else (3, false)
    if a ≤ 0x7F then (1, true)
    else if 0xC2 ≤ a && a ≤ 0xDF then (if second 0x80 0xBF then (2, true) else (1, false))
    else if a == 0xE0 then three (second 0xA0 0xBF)
    else if a == 0xED then three (second 0x80 0x9F)
    else if 0xE1 ≤ a && a ≤ 0xEF then three (second 0x80 0xBF)
    else if a == 0xF0 then four (second 0x90 0xBF)
    else if 0xF1 ≤ a && a ≤ 0xF3 then four (second 0x80 0xBF)
    else if a == 0xF4 then four (second 0x80 0x8F)
    else (1, false)

/-- The bytes with every faulty stretch replaced by the encoding of U+FFFD. -/
def repair : Nat → Bytes → Bytes
  | 0, _ => []
  | _, [] => []
  | fuel + 1, bs =>
    let (n, whole) := leadingCharacter bs
    (if whole then bs.take n else [0xEF, 0xBF, 0xBD]) ++ repair fuel (bs.drop n)

/-- The text of any bytes, faulty stretches shown as U+FFFD. -/
def ofBytesLossy (bs : Bytes) : String := (ofBytes? (repair bs.length bs)).getD ""

end Text

end TransferLedger
