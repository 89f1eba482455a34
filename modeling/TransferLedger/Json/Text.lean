import TransferLedger.Json.Scanner
import TransferLedger.Text.Hexadecimal

/-!
Reading JSON strings: escapes stand for characters, and what comes out has to be UTF-8. A string whose
content does not matter is only passed over.
-/
namespace TransferLedger.Json
set_option autoImplicit false

def readHex : Reader Nat
  | a :: b :: c :: d :: rest =>
    match Text.hexValue? a, Text.hexValue? b, Text.hexValue? c, Text.hexValue? d with
    | some a, some b, some c, some d => .ok (((a * 16 + b) * 16 + c) * 16 + d, rest)
    | _, _, _, _ => .error .malformed
  | _ => .error .ended

/-- The character of a `u` escape in UTF-8. Characters beyond U+FFFF are written as two halves, and
a half never stands alone. -/
def readUnicode : Reader Bytes := fun bs => do
  let (n, rest) ← readHex bs
  if 0xDC00 ≤ n && n ≤ 0xDFFF then .error .malformed
  else if n < 0xD800 || 0xDBFF < n then .ok (String.utf8EncodeChar (Char.ofNat n), rest)
  else do
    let rest ← expectByte 0x5C rest
    let rest ← expectByte 0x75 rest
    let (m, rest) ← readHex rest
    if m < 0xDC00 || 0xDFFF < m then .error .malformed
    else
      let code := (n - 0xD800) * 1024 + (m - 0xDC00) + 0x10000
      .ok (String.utf8EncodeChar (Char.ofNat code), rest)

/-- What follows a backslash, as the bytes it stands for. -/
def readEscape : Reader Bytes
  | [] => .error .ended
  | b :: rest =>
    if b = 0x22 || b = 0x5C || b = 0x2F then .ok ([b], rest)
    else if b = 0x62 then .ok ([0x08], rest)
    else if b = 0x66 then .ok ([0x0C], rest)
    else if b = 0x6E then .ok ([0x0A], rest)
    else if b = 0x72 then .ok ([0x0D], rest)
    else if b = 0x74 then .ok ([0x09], rest)
    else if b = 0x75 then readUnicode rest
    else .error .malformed

/-- The bytes of a string up to its closing quote, collected in reverse; the first argument bounds
the number of steps. -/
def readStringBytes : Nat → Bytes → Reader Bytes
  | 0, _, _ => .error .ended
  | _, _, [] => .error .ended
  | fuel + 1, acc, b :: rest =>
    if b = 0x22 then .ok (acc.reverse, rest)
    else if b = 0x5C then
      match readEscape rest with
      | .ok (out, rest) => readStringBytes fuel (out.reverse ++ acc) rest
      | .error e => .error e
    else if b < 0x20 then .error .malformed
    else readStringBytes fuel (b :: acc) rest

/-- The text of a string after its opening quote. -/
def readString : Reader String := fun bs => do
  let (out, rest) ← readStringBytes (bs.length + 1) [] bs
  match Text.ofBytes? out with
  | some s => .ok (s, rest)
  | none => .error .malformed

/-- What is left after a string whose content does not matter; a half character may stand alone. -/
def skipString : Bytes → Except ReadError Bytes
  | [] => .error .ended
  | 0x22 :: rest => .ok rest
  | 0x5C :: 0x75 :: a :: b :: c :: d :: rest =>
    if (Text.hexValue? a).isSome && (Text.hexValue? b).isSome && (Text.hexValue? c).isSome && (Text.hexValue? d).isSome
    then skipString rest else .error .malformed
  | 0x5C :: 0x75 :: _ => .error .ended
  | 0x5C :: b :: rest =>
    if b = 0x22 || b = 0x5C || b = 0x2F || b = 0x62 || b = 0x66 || b = 0x6E || b = 0x72 || b = 0x74
    then skipString rest else .error .malformed
  | [0x5C] => .error .ended
  | b :: rest => if b < 0x20 then .error .malformed else skipString rest

end TransferLedger.Json
