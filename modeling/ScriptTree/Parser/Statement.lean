import ScriptTree.Grammar.Statement
import ScriptTree.Parser.Declaration
/-! Statements and programs, read at the cursor. -/
namespace ScriptTree.Parser
open Grammar (leads)

def returns (expression : Parser Expression) : Parser Statement := do
  let word ← expect (.keyword .returnWord)
  let argument ← expression
  return .returns (word.through argument.span) argument

def unterminated (expression : Parser Expression) (inner : Parser Statement) (budget : Nat) :
    Parser Statement := do
  match ← currentKind with
  | some (.keyword .functionWord) =>
    let f ← functionDef inner budget
    return .function f
  | some .identifier =>
    let e ← expression
    return .expression e.span e
  | some (.punct .braceLeft) =>
    let b ← block inner budget
    return .block b
  | some (.keyword .returnWord) => returns expression
  | some (.keyword .importWord) =>
    let declaration ← imports budget
    return .imports declaration
  | some (.keyword .exportWord) => exports expression (functionDef inner budget) budget
  | some (.keyword .letWord) | some (.keyword .varWord) | some (.keyword .constWord) =>
    let declaration ← variableDeclaration expression budget
    return .vars declaration
  | _ => unexpected leads

def statement (expression : Parser Expression) (inner : Parser Statement) (budget : Nat) :
    Parser Statement := do
  let read ← unterminated expression inner budget
  let _ ← skipped (.punct .semicolon)
  return read

/- Expressions and statements hold each other, so both are there for each level of nesting. -/
structure Nesting where
  expression : Parser Expression
  statement : Parser Statement

namespace Nesting

def next (inner : Nesting) (budget : Nat) : Nesting :=
  let expression := Parser.expression inner.expression inner.statement budget
  ⟨expression, Parser.statement expression inner.statement budget⟩

def upTo : Nat → Nesting
  | 0 => ⟨exhausted, exhausted⟩
  | depth + 1 => next (upTo depth) depth

end Nesting

def program : Parser Program := do
  let buffer ← read
  let body ← many none (Nesting.upTo (buffer.size + 1)).statement (buffer.size + 1)
  return .ofStatements body

end ScriptTree.Parser
