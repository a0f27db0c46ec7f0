import ScriptTree.Grammar.Expression
import ScriptTree.Parser.Cursor
/-! Expressions and functions, read at the cursor. Left operands wait on a stack. -/
namespace ScriptTree.Parser
open Grammar (Pending join)

def block (statement : Parser Statement) (budget : Nat) : Parser Block := do
  let opening ← expect (.punct .braceLeft)
  let body ← many (some .braceRight) statement budget
  let closing ← expect (.punct .braceRight)
  return ⟨opening.through closing, body⟩

def optionalName : Parser (Option Identifier) := do
  if ← currentIs .identifier then
    let name ← identifier
    return some name
  else return none

def functionDef (statement : Parser Statement) (budget : Nat) : Parser FunctionDef := do
  let word ← expect (.keyword .functionWord)
  let name ← optionalName
  let (params, _) ← parameters identifier budget
  let body ← block statement budget
  return ⟨word.through body.span, name, params, body⟩

/-- An operand, and whether calls, accesses and operators may follow it. -/
def operand (statement : Parser Statement) (budget : Nat) : Parser (Expression × Bool) := do
  if ← currentIs (.keyword .functionWord) then
    let f ← functionDef statement budget
    return (.function f, false)
  else if ← currentIn literals then
    let lit ← literal
    return (.literal lit, false)
  else
    let id ← identifier
    return (.identifier id, true)

def call (argument : Parser Expression) (budget : Nat) (callee : Expression) :
    Parser Expression := do
  let (arguments, closing) ← parameters argument budget
  if ← currentIs (.punct .semicolon) then
    let semicolon ← expect (.punct .semicolon)
    return .call ⟨callee.span.start, semicolon.stop⟩ callee arguments
  else return .call ⟨callee.span.start, closing⟩ callee arguments

def member (object : Expression) : Parser Expression := do
  let _ ← expect (.punct .dot)
  let property ← identifier
  return .member (object.span.through property.span) object property false

def chain (argument : Parser Expression) (operand : Parser (Expression × Bool)) :
    Nat → List Pending → Bool → Expression → Parser Expression
  | 0, _, _, _ => exhausted
  | budget + 1, pending, chained, left => do
    match ← if chained then currentKind else pure none with
    | some (.punct .parenLeft) =>
      let wider ← call argument budget left
      chain argument operand budget pending true wider
    | some (.punct .dot) =>
      let wider ← member left
      chain argument operand budget pending true wider
    | some (.operator op) =>
      let _ ← expect (.operator op)
      let (right, goesOn) ← operand
      chain argument operand budget (⟨left, op⟩ :: pending) goesOn right
    | _ =>
      match pending with
      | [] => return left
      | p :: pending => chain argument operand budget pending true (join p.left p.operator left)

/- A turn takes a token or completes an operand, for which one was taken before. -/
def expression (argument : Parser Expression) (statement : Parser Statement) (budget : Nat) :
    Parser Expression := do
  let (first, goesOn) ← operand statement budget
  chain argument (operand statement budget) (2 * budget + 1) [] goesOn first

end ScriptTree.Parser
