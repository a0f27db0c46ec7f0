import ScriptTree.Token
/-! The syntax tree of a module script. Every node records the bytes it covers. An access by
brackets and a name declared without a value have a place in the tree, like the rest of the
shape that readers of such trees expect. -/
namespace ScriptTree

structure Identifier where
  span : Span
  name : String
  deriving DecidableEq, Repr

/-- A number or a quoted text. The value has no quotes, `raw` is how it was written. -/
structure Literal where
  span : Span
  value : String
  raw : String
  deriving DecidableEq, Repr

inductive VariableKind where
  | letKind | constKind | varKind
  deriving DecidableEq, Repr

inductive ImportSpecifier where
  | byDefault (span : Span) (binding : Identifier)
  | named (span : Span) (imported binding : Identifier)
  | wholeModule (span : Span) (binding : Identifier)
  deriving DecidableEq, Repr

structure ExportSpecifier where
  span : Span
  binding : Identifier
  exported : Identifier
  deriving DecidableEq, Repr

structure ImportDeclaration where
  span : Span
  specifiers : List ImportSpecifier
  source : Literal
  deriving DecidableEq, Repr

structure ExportAll where
  span : Span
  exported : Option Identifier
  source : Literal
  deriving DecidableEq, Repr

mutual

inductive Expression where
  | identifier (id : Identifier)
  | literal (literal : Literal)
  | function (function : FunctionDef)
  | member (span : Span) (object : Expression) (property : Identifier) (computed : Bool)
  | call (span : Span) (callee : Expression) (arguments : List Expression)
  | binary (span : Span) (operator : Operator) (left right : Expression)

structure FunctionDef where
  span : Span
  name : Option Identifier
  params : List Identifier
  body : Block

structure Block where
  span : Span
  body : List Statement

structure Declarator where
  span : Span
  id : Identifier
  init : Option Expression

structure VariableDeclaration where
  span : Span
  kind : VariableKind
  declarators : List Declarator

inductive Declaration where
  | vars (declaration : VariableDeclaration)
  | function (function : FunctionDef)

inductive DefaultDeclaration where
  | expression (expression : Expression)
  | function (function : FunctionDef)

inductive Statement where
  | vars (declaration : VariableDeclaration)
  | function (function : FunctionDef)
  | block (block : Block)
  | returns (span : Span) (argument : Expression)
  | expression (span : Span) (expression : Expression)
  | imports (declaration : ImportDeclaration)
  | exportNamed (span : Span) (declaration : Option Declaration)
      (specifiers : List ExportSpecifier) (source : Option Literal)
  | exportDefault (span : Span) (declaration : DefaultDeclaration)
  | exportAll (declaration : ExportAll)

end

structure Program where
  start : Nat
  stop : Option Nat
  body : List Statement

namespace Identifier

def ofToken (t : Token) : Identifier := ⟨t.span, t.text⟩

end Identifier

namespace Literal

def ofToken (t : Token) : Literal := ⟨t.span, t.text, t.lexeme⟩

end Literal

namespace VariableKind

def lexeme : VariableKind → String
  | letKind => "let"
  | constKind => "const"
  | varKind => "var"

end VariableKind

namespace ImportSpecifier

def span : ImportSpecifier → Span
  | byDefault span _ => span
  | named span _ _ => span
  | wholeModule span _ => span

end ImportSpecifier

namespace Expression

def span : Expression → Span
  | identifier id => id.span
  | literal lit => lit.span
  | function f => f.span
  | member span _ _ _ => span
  | call span _ _ => span
  | binary span _ _ _ => span

end Expression

namespace Declaration

def span : Declaration → Span
  | vars declaration => declaration.span
  | function f => f.span

end Declaration

namespace DefaultDeclaration

def span : DefaultDeclaration → Span
  | expression e => e.span
  | function f => f.span

end DefaultDeclaration

namespace Statement

def span : Statement → Span
  | vars declaration => declaration.span
  | function f => f.span
  | block b => b.span
  | returns span _ => span
  | expression span _ => span
  | imports declaration => declaration.span
  | exportNamed span _ _ _ => span
  | exportDefault span _ => span
  | exportAll declaration => declaration.span

end Statement

namespace Program

def ofStatements (body : List Statement) : Program :=
  ⟨0, body.getLast?.map (·.span.stop), body⟩

end Program

end ScriptTree
