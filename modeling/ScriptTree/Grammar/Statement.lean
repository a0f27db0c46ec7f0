import ScriptTree.Grammar.Declaration
/-! Statements, and whole programs. Expressions and statements hold each other; the level of
nesting that a reading may still enter is counted down like the budget of its loops. -/
namespace ScriptTree.Grammar

def leads : List Kind :=
  [.keyword .functionWord, .identifier, .punct .braceLeft, .keyword .returnWord,
    .keyword .importWord, .keyword .exportWord, .keyword .letWord, .keyword .varWord,
    .keyword .constWord]

def returns (expression : Production Expression) : Production Statement := do
  let word ← expect (.keyword .returnWord)
  let argument ← expression
  pure (.returns (word.span.through argument.span) argument)

def unterminated (expression : Production Expression) (inner : Production Statement)
    (budget : Nat) : Production Statement := do
  match ← peek with
  | some (.keyword .functionWord) =>
    let f ← functionDef inner budget
    pure (.function f)
  | some .identifier =>
    let e ← expression
    pure (.expression e.span e)
  | some (.punct .braceLeft) =>
    let b ← block inner budget
    pure (.block b)
  | some (.keyword .returnWord) => returns expression
  | some (.keyword .importWord) =>
    let declaration ← imports budget
    pure (.imports declaration)
  | some (.keyword .exportWord) => exports expression (functionDef inner budget) budget
  | some (.keyword .letWord) =>
    let declaration ← variableDeclaration expression budget .letKind
    pure (.vars declaration)
  | some (.keyword .constWord) =>
    let declaration ← variableDeclaration expression budget .constKind
    pure (.vars declaration)
  | some (.keyword .varWord) =>
    let declaration ← variableDeclaration expression budget .varKind
    pure (.vars declaration)
  | _ => fail leads

def statement (expression : Production Expression) (inner : Production Statement)
    (budget : Nat) : Production Statement := do
  let read ← unterminated expression inner budget
  let _ ← accept (.punct .semicolon)
  pure read

structure Productions where
  expression : Production Expression
  statement : Production Statement

namespace Productions

def next (inner : Productions) (budget : Nat) : Productions :=
  let expression := Grammar.expression inner.expression inner.statement budget
  ⟨expression, Grammar.statement expression inner.statement budget⟩

def upTo : Nat → Productions
  | 0 => ⟨exhausted, exhausted⟩
  | level + 1 => next (upTo level) level

end Productions

def statements (budget : Nat) : Production (List Statement) :=
  many none (Productions.upTo budget).statement budget

def program : Production Program := fun tokens =>
  (Program.ofStatements <$> statements (tokens.length + 1)) tokens

end ScriptTree.Grammar
