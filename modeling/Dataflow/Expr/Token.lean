import Dataflow.Constant
import Dataflow.Binary64.Decimal
import Dataflow.Text.Blank
import Dataflow.Text.Letter
import Dataflow.Text.Quoted

/-! The words of the expression language. A lexeme is taken off the front of a text together with
its spelling, so the spellings and the blanks between them add up to the text again; a token is a
lexeme with the number of UTF-8 bytes before it. -/

namespace Dataflow

inductive Lexeme
  | symbol (name : String)
  | literal (value : Constant)
  | operator (op : Arithmetic)
  | opening
  | closing
  | comma
  | equals
deriving DecidableEq

structure Token where
  lexeme : Lexeme
  position : Nat
deriving DecidableEq

/-- The lexeme as messages name it. -/
def Lexeme.describe : Lexeme → String
  | .symbol name => "symbol " ++ Text.quoted name
  | .literal (.string s) => "string " ++ Text.quoted s
  | .literal c => "number " ++ c.text
  | .operator op => "operator `" ++ op.symbol ++ "`"
  | .opening => "`(`"
  | .closing => "`)`"
  | .comma => "`,`"
  | .equals => "`=`"

/-- What can be wrong with the text of a statement. -/
inductive ParseProblem
  | unterminatedString
  | unexpectedCharacter (c : Char)
  | invalidNumber (spelling : String)
  | missingTarget
  | unexpected (found : Lexeme)
  | unexpectedEnd
  | unclosed (found : Option Lexeme)
  | other (text : String)
deriving DecidableEq

def ParseProblem.message : ParseProblem → String
  | .unterminatedString => "unterminated string literal"
  | .unexpectedCharacter c => "unexpected character " ++ Text.quotedChar c
  | .invalidNumber spelling => "invalid number " ++ Text.quoted spelling
  | .missingTarget => "missing target: expected `name = expression`"
  | .unexpected found => "unexpected " ++ found.describe
  | .unexpectedEnd => "unexpected end of input"
  | .unclosed (some found) => "expected `)`, found " ++ found.describe
  | .unclosed none => "expected `)`, found end of input"
  | .other text => text

structure ParseError where
  position : Nat
  problem : ParseProblem
deriving DecidableEq

def ParseError.message (e : ParseError) : String :=
  e.problem.message ++ " (at offset " ++ toString e.position ++ ")"

namespace Token

/-- The number of bytes of a text in UTF-8. -/
def byteLength : List Char → Nat
  | [] => 0
  | c :: cs => c.utf8Size + byteLength cs

/-- What can continue a number after `before`: an ASCII letter or digit, a point, and a sign right
after the letter of an exponent. -/
def continuesNumber (before c : Char) : Bool :=
  c.isAlphanum || c == '.' || (c == '+' || c == '-') && (before == 'e' || before == 'E')

/-- Cut off the longest run that continues a number. -/
def numberSpan : Char → List Char → List Char × List Char
  | _, [] => ([], [])
  | before, c :: cs =>
    if continuesNumber before c then (c :: (numberSpan c cs).1, (numberSpan c cs).2)
    else ([], c :: cs)

def continuesSymbol (c : Char) : Bool := Text.isLetterOrNumeral c || c == '_'

/-- The character that an escape stands for. -/
def unescape (c : Char) : Char :=
  if c = 'n' then '\n' else if c = 't' then '\t' else c

/-- The body of a string: its value, its spelling with the closing quote, and what follows. -/
def stringBody (quote : Char) : List Char → Option (List Char × List Char × List Char)
  | [] => none
  | ['\\'] => none
  | '\\' :: c :: cs =>
    (stringBody quote cs).map fun (value, spelling, rest) =>
      (unescape c :: value, '\\' :: c :: spelling, rest)
  | c :: cs =>
    if c = quote then some ([], [c], cs)
    else (stringBody quote cs).map fun (value, spelling, rest) => (c :: value, c :: spelling, rest)

/-- A number's value: an integer if it is all digits and fits 64 bits, else a finite float. -/
def readNumber? (spelling : List Char) : Option Constant :=
  let integer :=
    if spelling.all Char.isDigit then Constant.ofInt? (Binary64.digitsValue spelling) else none
  match integer with
  | some c => some c
  | none =>
    match Binary64.ofText? (.ofList spelling) with
    | some x => if x.isFinite then some (.float x) else none
    | none => none

/-- The lexemes of one character. -/
def single? (c : Char) : Option Lexeme :=
  match Arithmetic.all.find? fun op => op.mark == c with
  | some op => some (.operator op)
  | none =>
    if c = '(' then some .opening
    else if c = ')' then some .closing
    else if c = ',' then some .comma
    else if c = '=' then some .equals
    else none

/-- The lexeme at the front of a text that starts with `c`, its spelling, and what follows it. -/
def first (c : Char) (cs : List Char) : Except ParseProblem (Lexeme × List Char × List Char) :=
  match single? c with
  | some lexeme => .ok (lexeme, [c], cs)
  | none =>
    if c = '"' || c = '\'' then
      match stringBody c cs with
      | some (value, spelling, rest) => .ok (.literal (.string (.ofList value)), c :: spelling, rest)
      | none => .error .unterminatedString
    else if c.isDigit || c = '.' then
      let spelling := c :: (numberSpan c cs).1
      match readNumber? spelling with
      | some value => .ok (.literal value, spelling, (numberSpan c cs).2)
      | none => .error (.invalidNumber (.ofList spelling))
    else if Text.isLetter c || c = '_' then
      let spelling := c :: cs.takeWhile continuesSymbol
      .ok (.symbol (.ofList spelling), spelling, cs.dropWhile continuesSymbol)
    else .error (.unexpectedCharacter c)

/-- The tokens of a text that starts `position` bytes into the input. Each step uses up at least one
character, so a text is finished before the fuel of its own length is. -/
def scanFrom : Nat → Nat → List Char → Except ParseError (List Token)
  | 0, _, _ | _, _, [] => .ok []
  | fuel + 1, position, c :: cs =>
    if Text.isBlank c then scanFrom fuel (position + c.utf8Size) cs
    else match first c cs with
      | .error problem => .error ⟨position, problem⟩
      | .ok (lexeme, spelling, rest) => do
        let more ← scanFrom fuel (position + byteLength spelling) rest
        return ⟨lexeme, position⟩ :: more

def scan (text : String) : Except ParseError (List Token) :=
  scanFrom text.toList.length 0 text.toList

end Token

end Dataflow
