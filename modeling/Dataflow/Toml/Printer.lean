import Dataflow.Toml.Basic

/-! Writing TOML tables of strings, one entry a line. -/

namespace Dataflow.Toml

/-- One character inside a string: quotes, backslashes and control characters are escaped. -/
def escapeChar (c : Char) : List Char :=
  if c = '"' then ['\\', '"']
  else if c = '\\' then ['\\', '\\']
  else if c.toNat < 0x20 || c.toNat = 0x7F then
    ['\\', 'u', '0', '0', Nat.digitChar (c.toNat / 16), Nat.digitChar (c.toNat % 16)]
  else [c]

def stringText (s : String) : String := .ofList ('"' :: s.toList.flatMap escapeChar ++ ['"'])

/-- A line that gives a string to a key. -/
def entryLine (key value : String) : String := key ++ " = " ++ stringText value ++ "\n"

/-- A table of strings under its header. -/
def tableText (header : String) (entries : List (String × String)) : String :=
  "\n[" ++ header ++ "]\n" ++ String.join (entries.map fun e => entryLine e.1 e.2)

end Dataflow.Toml
