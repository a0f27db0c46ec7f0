import ScriptTree.Token
/-! Productions read the front of a token list. One that fails says which kinds would have
been taken where it stopped, and the tokens from there on. Productions look at two tokens at
most, and loops have a budget that any number above the tokens left satisfies. The parsers that
run have a cursor, and follow them from it on. -/
namespace ScriptTree.Grammar

inductive Outcome (α : Type) where
  | done (value : α) (rest : List Token)
  | failed (expected : List Kind) (rest : List Token)
  deriving DecidableEq, Repr

namespace Outcome

def rest : Outcome α → List Token
  | done _ rest => rest
  | failed _ rest => rest

end Outcome

def Production (α : Type) := List Token → Outcome α

namespace Production

instance : Monad Production where
  pure value := fun tokens => .done value tokens
  bind first next := fun tokens =>
    match first tokens with
    | .done value rest => next value rest
    | .failed expected rest => .failed expected rest

@[simp] theorem pureApply (value : α) (tokens : List Token) :
    (pure value : Production α) tokens = .done value tokens := rfl

@[simp] theorem bindApply (first : Production α) (next : α → Production β)
    (tokens : List Token) :
    (first >>= next) tokens = match first tokens with
      | .done value rest => next value rest
      | .failed expected rest => .failed expected rest := rfl

end Production

def fail (expected : List Kind) : Production α := fun tokens => .failed expected tokens

def exhausted : Production α := fail []

def peek : Production (Option Kind) := fun tokens =>
  .done (tokens.head?.map Token.kind) tokens

def peekSecond : Production (Option Kind) := fun tokens =>
  .done ((tokens.drop 1).head?.map Token.kind) tokens

def oneOf (kinds : List Kind) : Production Token
  | [] => .failed kinds []
  | t :: rest => if t.kind ∈ kinds then .done t rest else .failed kinds (t :: rest)

def expect (kind : Kind) : Production Token := oneOf [kind]

def accept (kind : Kind) : Production (Option Token)
  | [] => .done none []
  | t :: rest => if t.kind = kind then .done (some t) rest else .done none (t :: rest)

def many (stop : Option Kind) (item : Production α) : Nat → Production (List α)
  | 0 => exhausted
  | budget + 1 => do
    let next ← peek
    if next = none ∨ next = stop then pure []
    else
      let first ← item
      let others ← many stop item budget
      pure (first :: others)

def enclosed (left right : Punct) (item : Production α) (budget : Nat) :
    Production (Span × List α) := do
  let opening ← expect (.punct left)
  let items ← many (some (.punct right)) item budget
  let closing ← expect (.punct right)
  pure (opening.span.through closing.span, items)

def separated (item : Production α) : Production α := do
  let value ← item
  let next ← peek
  if next = some (.punct .parenRight) then pure value
  else
    let _ ← expect (.punct .comma)
    pure value

def parenthesized (item : Production α) (budget : Nat) : Production (Span × List α) :=
  enclosed .parenLeft .parenRight (separated item) budget

def listed (item : Production α) : Production α := do
  let value ← item
  let _ ← accept (.punct .comma)
  pure value

def braced (item : Production α) (budget : Nat) : Production (Span × List α) :=
  enclosed .braceLeft .braceRight item budget

end ScriptTree.Grammar
