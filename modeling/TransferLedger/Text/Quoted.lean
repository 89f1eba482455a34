import TransferLedger.Text.Unprintable

/-!
Texts in double quotes as error messages show them: the two characters with a meaning inside quotes
and the common control characters get a backslash, every other character without a picture of its
own is written by number.
-/
namespace TransferLedger.Text
set_option autoImplicit false

def quoteChar (c : Char) : List Char :=
  match c with
  | '\x00' => ['\\', '0']
  | '\t' => ['\\', 't']
  | '\r' => ['\\', 'r']
  | '\n' => ['\\', 'n']
  | '"' => ['\\', '"']
  | '\\' => ['\\', '\\']
  | _ =>
    if unprintable c then ['\\', 'u', '\x7b'] ++ Nat.toDigits 16 c.toNat ++ ['\x7d'] else [c]

def quoted (s : String) : String :=
  String.ofList ('"' :: s.toList.flatMap quoteChar ++ ['"'])

end TransferLedger.Text
