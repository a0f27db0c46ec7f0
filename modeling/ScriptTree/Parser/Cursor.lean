import ScriptTree.Error
import ScriptTree.Tree.Basic
/-! Readers of a token buffer, with a cursor in it. They look at the token under the cursor, the
one behind that, the one before it and the last of all. The cursor stays where a reader fails. -/
namespace ScriptTree

abbrev Parser := ReaderT (Array Token) (ExceptT Error (StateM Nat))

namespace Parser

def current : Parser (Option Token) := do
  let buffer ← read
  let cursor ← get
  return buffer[cursor]?

def peekNext : Parser (Option Token) := do
  let buffer ← read
  let cursor ← get
  return buffer[cursor + 1]?

def isEnd : Parser Bool := do
  let buffer ← read
  let cursor ← get
  return buffer.size ≤ cursor

def previousEnd : Parser Nat := do
  let buffer ← read
  match ← get with
  | 0 => return 0
  | before + 1 => return buffer[before]?.elim 0 (·.span.stop)

def advance : Parser Unit := modify (· + 1)

def currentKind : Parser (Option Kind) := do
  let found ← current
  return found.map Token.kind

def currentIn (kinds : List Kind) : Parser Bool := do
  let found ← current
  return found.any fun t => t.kind ∈ kinds

def currentIs (kind : Kind) : Parser Bool := do
  let found ← current
  return found.any (·.is kind)

def unexpected (expected : List Kind) : Parser α := do
  let buffer ← read
  let actual ← current
  let last := buffer.back?.elim 0 (·.span.stop)
  throw (.unexpectedToken (actual.elim last (·.span.start)) expected actual)

def oneOf (kinds : List Kind) : Parser Token := do
  match ← current with
  | some t =>
    if t.kind ∈ kinds then
      advance
      return t
    else unexpected kinds
  | none => unexpected kinds

def expect (kind : Kind) : Parser Span := do
  let t ← oneOf [kind]
  return t.span

def skipped (kind : Kind) : Parser Bool := do
  let found ← currentIs kind
  if found then advance
  return found

def literals : List Kind := [.number, .string]

def identifier : Parser Identifier := do
  let t ← oneOf [.identifier]
  return .ofToken t

def literal : Parser Literal := do
  let t ← oneOf literals
  return .ofToken t

def stringLiteral : Parser Literal := do
  let t ← oneOf [.string]
  return .ofToken t

/- Loops have a budget, which any number above that of the tokens ahead leaves unspent. -/
def exhausted : Parser α := unexpected []

def ended : Option Punct → Parser Bool
  | none => isEnd
  | some mark => do
    if ← isEnd then return true
    else currentIs (.punct mark)

def many (stop : Option Punct) (item : Parser α) : Nat → Parser (List α)
  | 0 => exhausted
  | budget + 1 => do
    if ← ended stop then return []
    else
      let first ← item
      let others ← many stop item budget
      return first :: others

def separated (item : Parser α) : Parser α := do
  let value ← item
  if ← currentIs (.punct .parenRight) then return value
  else
    let _ ← expect (.punct .comma)
    return value

def listed (item : Parser α) : Parser α := do
  let value ← item
  let _ ← skipped (.punct .comma)
  return value

def parameters (item : Parser α) (budget : Nat) : Parser (List α × Nat) := do
  let _ ← expect (.punct .parenLeft)
  let list ← many (some .parenRight) (separated item) budget
  let closing ← expect (.punct .parenRight)
  return (list, closing.stop)

end Parser

end ScriptTree
