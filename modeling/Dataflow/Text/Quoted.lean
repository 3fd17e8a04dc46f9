import Dataflow.Text.Printable

/-! Text as messages show it: between quotes, with escapes for what a reader could not see. -/

namespace Dataflow.Text

/-- Hexadecimal digits of a code point, in lower case and without leading zeros. -/
def hexDigits (code : Nat) : List Char := Nat.toDigits 16 code

/-- One character inside quotes of the kind `mark`, which gets a backslash; the other kind of quote
is shown as it is. -/
def escapeChar (mark c : Char) : List Char :=
  if c = '\x00' then ['\\', '0']
  else if c = '\t' then ['\\', 't']
  else if c = '\n' then ['\\', 'n']
  else if c = '\r' then ['\\', 'r']
  else if c = '\\' || c = mark then ['\\', c]
  else if isShown c then [c]
  else ['\\', 'u', '\x7b'] ++ hexDigits c.toNat ++ ['\x7d']

/-- A text in double quotes. -/
def quoted (s : String) : String :=
  String.ofList ('"' :: s.toList.flatMap (escapeChar '"') ++ ['"'])

/-- A character in single quotes. -/
def quotedChar (c : Char) : String :=
  String.ofList ('\'' :: escapeChar '\'' c ++ ['\''])

example : quoted "a\u0301\t\"" = "\"a\\u\x7b301\x7d\\t\\\"\"" := by decide +kernel
example : quotedChar '\'' = "'\\''" := by decide +kernel

end Dataflow.Text
