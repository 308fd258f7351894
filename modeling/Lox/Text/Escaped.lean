import Lox.Text.Printable
import Lox.Text.GraphemeExtend
/-!
Text in escaped form, the way messages show a path: between double quotes, the quote and the
backslash behind a backslash, four controls by their letters, every character that is not printable
or that extends a grapheme by its code point in lowercase hexadecimal (`\u` and the digits in
braces), and all other characters, the apostrophe included, as themselves.
-/
namespace Lox.Escaped

/-- A number in lowercase hexadecimal digits, without leading zeros. -/
def hex (n : Nat) : String := String.ofList (Nat.toDigits 16 n)

/-- How one character is written in escaped text. -/
def escapeChar (c : Char) : String :=
  if c = '\x00' then "\\0"
  else if c = '\t' then "\\t"
  else if c = '\r' then "\\r"
  else if c = '\n' then "\\n"
  else if c = '\\' then "\\\\"
  else if c = '"' then "\\\""
  else if isGraphemeExtend c || !isPrintable c then "\\u" ++ "\x7b" ++ hex c.toNat ++ "\x7d"
  else String.singleton c

/-- A text in escaped form, with its quotes. -/
def quote (s : String) : String :=
  "\"" ++ String.join (s.toList.map escapeChar) ++ "\""

end Lox.Escaped
