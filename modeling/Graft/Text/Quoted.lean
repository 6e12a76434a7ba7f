import Graft.Text.GraphemeExtend
import Graft.Text.Unprintable

/-!
# Quoted text

How a listing shows a string: between double quotes, with short escapes for the tab, the line
ends, NUL, the quote and the backslash, and the code point in hexadecimal for any other character
that has no visible form of its own.
-/

namespace Graft.Text

/-- The digits of a number in base sixteen, lower case, without leading zeros. -/
def hexDigits (n : Nat) : List Char := Nat.toDigits 16 n

/-- Is a character shown as it is? -/
def isPlain (c : Char) : Bool :=
  ! merges c && ! unprintable.has c && ! fillers.has c

/-- The form of one character inside quotes. -/
def escape (c : Char) : List Char :=
  match c with
  | '\x00' => ['\\', '0']
  | '\t' => ['\\', 't']
  | '\r' => ['\\', 'r']
  | '\n' => ['\\', 'n']
  | '"' => ['\\', '"']
  | '\\' => ['\\', '\\']
  | c => if isPlain c then [c] else ['\\', 'u', '\x7b'] ++ hexDigits c.toNat ++ ['\x7d']

/-- A text between double quotes. -/
def quoted (s : String) : String :=
  String.ofList ('"' :: s.toList.flatMap escape ++ ['"'])

end Graft.Text
