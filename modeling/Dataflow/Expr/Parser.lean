import Dataflow.Expr.Basic
import Dataflow.Expr.Token

/-! From tokens to expressions, by the grammar

    statement := SYMBOL = sum
    sum       := product ((+ | -) product)*
    product   := unary ((* | /) unary)*
    unary     := - unary | primary
    primary   := LITERAL | SYMBOL | SYMBOL ( [sum (, sum)*] ) | ( sum )

Every function takes the tokens from its own start on and returns those it left. Between two tokens
that are used up there are at most four calls, so fuel of five per token, and five for the end, is
never used up. -/

namespace Dataflow

namespace Expr

/-- An expression and the tokens after it. -/
abbrev Parsed := Except ParseError (Expr × List Token)

/-- The operators of sums. -/
def isAdditive (op : Arithmetic) : Bool := op = .add || op = .sub

/-- The operators of products. -/
def isMultiplicative (op : Arithmetic) : Bool := op = .mul || op = .div

/-- A closing parenthesis at the front, or what stands there instead. -/
def expectClosing (finish : Nat) : List Token → Except ParseError (List Token)
  | ⟨.closing, _⟩ :: rest => .ok rest
  | ⟨found, position⟩ :: _ => .error ⟨position, .unclosed (some found)⟩
  | [] => .error ⟨finish, .unclosed none⟩

mutual

def parseSum (finish : Nat) : Nat → List Token → Parsed
  | 0, _ => .error ⟨finish, .unexpectedEnd⟩
  | fuel + 1, tokens => do
    let (left, rest) ← parseProduct finish fuel tokens
    parseTerms finish fuel left rest

/-- The further terms of a sum that has come to `left`. -/
def parseTerms (finish : Nat) : Nat → Expr → List Token → Parsed
  | 0, _, _ => .error ⟨finish, .unexpectedEnd⟩
  | fuel + 1, left, tokens =>
    match tokens with
    | ⟨.operator op, _⟩ :: rest =>
      if isAdditive op then do
        let (right, rest) ← parseProduct finish fuel rest
        parseTerms finish fuel (binary op left right) rest
      else .ok (left, tokens)
    | _ => .ok (left, tokens)

def parseProduct (finish : Nat) : Nat → List Token → Parsed
  | 0, _ => .error ⟨finish, .unexpectedEnd⟩
  | fuel + 1, tokens => do
    let (left, rest) ← parseUnary finish fuel tokens
    parseFactors finish fuel left rest

/-- The further factors of a product that has come to `left`. -/
def parseFactors (finish : Nat) : Nat → Expr → List Token → Parsed
  | 0, _, _ => .error ⟨finish, .unexpectedEnd⟩
  | fuel + 1, left, tokens =>
    match tokens with
    | ⟨.operator op, _⟩ :: rest =>
      if isMultiplicative op then do
        let (right, rest) ← parseUnary finish fuel rest
        parseFactors finish fuel (binary op left right) rest
      else .ok (left, tokens)
    | _ => .ok (left, tokens)

def parseUnary (finish : Nat) : Nat → List Token → Parsed
  | 0, _ => .error ⟨finish, .unexpectedEnd⟩
  | fuel + 1, tokens =>
    match tokens with
    | ⟨.operator .sub, _⟩ :: rest => do
      let (operand, rest) ← parseUnary finish fuel rest
      return (negate operand, rest)
    | _ => parsePrimary finish fuel tokens

def parsePrimary (finish : Nat) : Nat → List Token → Parsed
  | 0, _ => .error ⟨finish, .unexpectedEnd⟩
  | fuel + 1, tokens =>
    match tokens with
    | [] => .error ⟨finish, .unexpectedEnd⟩
    | ⟨.literal value, _⟩ :: rest => .ok (.literal value, rest)
    | ⟨.symbol name, _⟩ :: ⟨.opening, _⟩ :: ⟨.closing, _⟩ :: rest => .ok (.apply name [], rest)
    | ⟨.symbol name, _⟩ :: ⟨.opening, _⟩ :: rest => do
      let (arguments, rest) ← parseArguments finish fuel rest
      let rest ← expectClosing finish rest
      return (.apply name arguments, rest)
    | ⟨.symbol name, _⟩ :: rest => .ok (.symbol name, rest)
    | ⟨.opening, _⟩ :: rest => do
      let (inner, rest) ← parseSum finish fuel rest
      let rest ← expectClosing finish rest
      return (inner, rest)
    | ⟨found, position⟩ :: _ => .error ⟨position, .unexpected found⟩

/-- One or more arguments with commas between them. -/
def parseArguments (finish : Nat) : Nat → List Token → Except ParseError (List Expr × List Token)
  | 0, _ => .error ⟨finish, .unexpectedEnd⟩
  | fuel + 1, tokens => do
    let (argument, rest) ← parseSum finish fuel tokens
    match rest with
    | ⟨.comma, _⟩ :: rest =>
      let (more, rest) ← parseArguments finish fuel rest
      return (argument :: more, rest)
    | _ => return ([argument], rest)

end

/-- The statement that a whole list of tokens makes; `finish` is the offset of the text's end. -/
def ofTokens (finish : Nat) (tokens : List Token) : Except ParseError (String × Expr) :=
  match tokens with
  | ⟨.symbol target, _⟩ :: ⟨.equals, _⟩ :: tokens => do
    let (value, rest) ← parseSum finish (5 * tokens.length + 5) tokens
    match rest with
    | [] => return (target, value)
    | ⟨found, position⟩ :: _ => .error ⟨position, .unexpected found⟩
  | _ => .error ⟨0, .missingTarget⟩

/-- The target and the expression of a statement. -/
def ofText (text : String) : Except ParseError (String × Expr) := do
  ofTokens text.utf8ByteSize (← Token.scan text)

end Expr

/-- A name is valid if it reads as one symbol, whatever blanks surround it. -/
def isValidName (name : String) : Bool :=
  match Token.scan name with
  | .ok [⟨.symbol _, _⟩] => true
  | _ => false

end Dataflow
