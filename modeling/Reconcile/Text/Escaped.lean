import Reconcile.Text.Printable
/-!
# Escaped text

A text in a diagnostic stands between double quotes, on one line and in printable
characters.  The quote, the backslash and the common control characters have short
escapes; every other character that is not printable is given by its code point.
-/

namespace Reconcile.Text

def hexDigits (n : Nat) : List Char :=
  Nat.toDigits 16 n

def escapedChar (c : Char) : List Char :=
  match c with
  | '\x22' => ['\x5c', '\x22']
  | '\x5c' => ['\x5c', '\x5c']
  | '\n' => ['\x5c', 'n']
  | '\r' => ['\x5c', 'r']
  | '\t' => ['\x5c', 't']
  | '\x00' => ['\x5c', '0']
  | _ =>
      if isPrintable c then [c]
      else ['\x5c', 'u', '\x7b'] ++ hexDigits c.toNat ++ ['\x7d']

def escaped (s : String) : String :=
  String.ofList ('\x22' :: s.toList.flatMap escapedChar ++ ['\x22'])

end Reconcile.Text
