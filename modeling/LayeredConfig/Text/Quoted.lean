import LayeredConfig.Text.Printable

/-!
Text in quotes, as messages show it.

Quotes and backslashes are escaped, as are tab, line feed, carriage return and
NUL by their letters; every other character that would not show as itself is
given by its code point in braces. A single quote stands for itself.
-/

namespace LayeredConfig.Text

/-- A natural number in lower-case hexadecimal. -/
def hex (n : Nat) : String := String.ofList (Nat.toDigits 16 n)

/-- How one character appears between quotes. -/
def quoteChar (c : Char) : String :=
  match c with
  | '"' => "\\\""
  | '\\' => "\\\\"
  | '\t' => "\\t"
  | '\n' => "\\n"
  | '\r' => "\\r"
  | '\x00' => "\\0"
  | c => if isPlain c then c.toString else "\\u\x7b" ++ hex c.toNat ++ "\x7d"

/-- A text in double quotes. -/
def quoted (s : String) : String :=
  "\"" ++ String.join (s.toList.map quoteChar) ++ "\""

end LayeredConfig.Text
