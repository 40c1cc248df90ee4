import Evergreen.Text.Unseen

/-!
# Quoted text

Diagnostic texts put a string between double quotes. A quote and a backslash are escaped,
the usual controls have a letter, any other character that does not show on its own is
written by its number in hexadecimal, and the rest stands as it is.
-/

namespace Evergreen.Text

/-- A number in lower-case hexadecimal, without leading zeros. -/
def hexadecimal (n : Nat) : String := String.ofList (Nat.toDigits 16 n)

/-- How one character is written between quotes. -/
def escape (c : Char) : String :=
  match c with
  | '"' => "\\\""
  | '\\' => "\\\\"
  | '\n' => "\\n"
  | '\r' => "\\r"
  | '\t' => "\\t"
  | '\x00' => "\\0"
  | c => if isUnseen c then "\\u\x7b" ++ hexadecimal c.toNat ++ "\x7d" else c.toString

/-- A string between quotes. -/
def quoted (s : String) : String :=
  "\"" ++ String.join (s.toList.map escape) ++ "\""

end Evergreen.Text
