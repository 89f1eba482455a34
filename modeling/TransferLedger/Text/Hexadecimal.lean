import TransferLedger.Text.Utf8

/-!
Bytes as two hexadecimal digits: read in either letter case, written in lower case.
-/
namespace TransferLedger.Text
set_option autoImplicit false

def hexValue? (b : UInt8) : Option Nat :=
  if 0x30 ≤ b && b ≤ 0x39 then some (b.toNat - 0x30)
  else if 0x41 ≤ b && b ≤ 0x46 then some (b.toNat - 0x41 + 10)
  else if 0x61 ≤ b && b ≤ 0x66 then some (b.toNat - 0x61 + 10)
  else none

/-- The byte of two digits at the head, and the rest. -/
def hexByte? : Bytes → Option (UInt8 × Bytes)
  | high :: low :: rest => do
    let h ← hexValue? high
    let l ← hexValue? low
    some ((h * 16 + l).toUInt8, rest)
  | _ => none

def hexChars (b : UInt8) : List Char :=
  [Nat.digitChar (b.toNat / 16), Nat.digitChar (b.toNat % 16)]

end TransferLedger.Text
