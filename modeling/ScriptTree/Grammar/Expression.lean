import ScriptTree.Grammar.Production
import ScriptTree.Tree.Basic
/-! Expressions. An operand is a head, which calls, accesses and operators may follow, or a
tail, which ends the operands it stands among. Operators have no precedence: a head behind an
operator takes the rest of the chain, while a tail is joined to its left operand at once. -/
namespace ScriptTree.Grammar

def identifier : Production Identifier := do
  let t ← expect .identifier
  pure (.ofToken t)

def literal : Production Literal := do
  let t ← oneOf [.number, .string]
  pure (.ofToken t)

def block (statement : Production Statement) (budget : Nat) : Production Block := do
  let (span, body) ← braced statement budget
  pure ⟨span, body⟩

def functionDef (statement : Production Statement) (budget : Nat) :
    Production FunctionDef := do
  let word ← expect (.keyword .functionWord)
  let name ← accept .identifier
  let (_, params) ← parenthesized identifier budget
  let body ← block statement budget
  pure ⟨word.span.through body.span, name.map .ofToken, params, body⟩

inductive Operand where
  | head (id : Identifier)
  | tail (expression : Expression)

def operand (statement : Production Statement) (budget : Nat) : Production Operand := do
  match ← peek with
  | some (.keyword .functionWord) =>
    let f ← functionDef statement budget
    pure (.tail (.function f))
  | some .number | some .string =>
    let lit ← literal
    pure (.tail (.literal lit))
  | _ =>
    let id ← identifier
    pure (.head id)

/-- A `;` right behind the arguments belongs to the call. -/
def call (argument : Production Expression) (budget : Nat) (callee : Expression) :
    Production Expression := do
  let (span, arguments) ← parenthesized argument budget
  let semicolon ← accept (.punct .semicolon)
  let stop := semicolon.elim span.stop (·.span.stop)
  pure (.call ⟨callee.span.start, stop⟩ callee arguments)

def member (object : Expression) : Production Expression := do
  let _ ← expect (.punct .dot)
  let property ← identifier
  pure (.member (object.span.through property.span) object property false)

def join (left : Expression) (operator : Operator) (right : Expression) : Expression :=
  .binary (left.span.through right.span) operator left right

structure Pending where
  left : Expression
  operator : Operator

def resolve (pending : List Pending) (last : Expression) : Expression :=
  pending.foldl (fun right p => join p.left p.operator right) last

def continued (argument : Production Expression) (operand : Production Operand) :
    Nat → List Pending → Expression → Production Expression
  | 0, _, _ => exhausted
  | budget + 1, pending, current => do
    match ← peek with
    | some (.punct .parenLeft) =>
      let current ← call argument budget current
      continued argument operand budget pending current
    | some (.punct .dot) =>
      let current ← member current
      continued argument operand budget pending current
    | some (.operator op) =>
      let _ ← expect (.operator op)
      match ← operand with
      | .tail right => continued argument operand budget pending (join current op right)
      | .head id =>
        continued argument operand budget (⟨current, op⟩ :: pending) (.identifier id)
    | _ => pure (resolve pending current)

def expression (argument : Production Expression) (statement : Production Statement)
    (budget : Nat) : Production Expression := do
  match ← operand statement budget with
  | .tail e => pure e
  | .head id => continued argument (operand statement budget) budget [] (.identifier id)

end ScriptTree.Grammar
