import ScriptTree.Tree.NodeKind
/-! The outline of a tree: each node under a heading of its own, with all its parts below it
in the order in which they are written. -/
namespace ScriptTree

inductive Detail where
  | nothing
  | text (text : String)
  | literal (value raw : String)
  | count (count : Nat)
  | flag (flag : Bool)
  | node (kind : NodeKind) (span : Span)
  deriving DecidableEq, Repr

structure Heading where
  kind : NodeKind
  start : Nat
  stop : Option Nat
  detail : Detail
  deriving DecidableEq, Repr

inductive Outline where
  | node (heading : Heading) (parts : List Outline)

namespace Outline

def heading : Outline → Heading
  | node heading _ => heading

def parts : Outline → List Outline
  | node _ parts => parts

def spanning (kind : NodeKind) (span : Span) (detail : Detail) (parts : List Outline) :
    Outline :=
  node ⟨kind, span.start, some span.stop, detail⟩ parts

structure Row where
  depth : Nat
  heading : Heading
  deriving DecidableEq, Repr

mutual

def rowsThen (depth : Nat) (behind : List Row) : Outline → List Row
  | node heading parts => ⟨depth, heading⟩ :: rowsOfAllThen (depth + 1) behind parts

def rowsOfAllThen (depth : Nat) (behind : List Row) : List Outline → List Row
  | [] => behind
  | part :: others => rowsThen depth (rowsOfAllThen depth behind others) part

end

def rows (outline : Outline) : List Row := outline.rowsThen 0 []

end Outline

namespace Identifier

def outline (id : Identifier) : Outline := .spanning .identifier id.span (.text id.name) []

end Identifier

namespace Literal

def outline (lit : Literal) : Outline :=
  .spanning .literal lit.span (.literal lit.value lit.raw) []

end Literal

namespace ImportSpecifier

def outline : ImportSpecifier → Outline
  | byDefault span binding =>
    .spanning .importDefaultSpecifier span (.text binding.name) [binding.outline]
  | named span imported binding =>
    .spanning .importSpecifier span (.text binding.name) [imported.outline, binding.outline]
  | wholeModule span binding =>
    .spanning .importNamespaceSpecifier span (.text binding.name) [binding.outline]

end ImportSpecifier

namespace ExportSpecifier

def outline (s : ExportSpecifier) : Outline :=
  .spanning .exportSpecifier s.span .nothing [s.binding.outline, s.exported.outline]

end ExportSpecifier

namespace ImportDeclaration

def outline (d : ImportDeclaration) : Outline :=
  .spanning .importDeclaration d.span (.count d.specifiers.length)
    (d.specifiers.map ImportSpecifier.outline ++ [d.source.outline])

end ImportDeclaration

namespace ExportAll

def outline (d : ExportAll) : Outline :=
  .spanning .exportAllDeclaration d.span (.flag d.exported.isSome)
    (d.exported.toList.map Identifier.outline ++ [d.source.outline])

end ExportAll

mutual

def Expression.outline : Expression → Outline
  | .identifier id => id.outline
  | .literal lit => lit.outline
  | .function f => f.outline .functionExpression
  | .member span object property computed =>
    .spanning .memberExpression span (.flag computed) [object.outline, property.outline]
  | .call span callee arguments =>
    .spanning .callExpression span (.count arguments.length)
      (callee.outline :: Expression.outlines arguments)
  | .binary span operator left right =>
    .spanning .binaryExpression span (.text operator.lexeme) [left.outline, right.outline]

def Expression.outlines : List Expression → List Outline
  | [] => []
  | e :: others => e.outline :: Expression.outlines others

def FunctionDef.outline (kind : NodeKind) : FunctionDef → Outline
  | ⟨span, name, params, body⟩ =>
    .spanning kind span (.count params.length)
      (name.toList.map Identifier.outline ++ params.map Identifier.outline ++ [body.outline])

def Block.outline : Block → Outline
  | ⟨span, body⟩ =>
    .spanning .blockStatement span (.count body.length) (Statement.outlines body)

def Declarator.outline : Declarator → Outline
  | ⟨span, id, none⟩ => .spanning .variableDeclarator span .nothing [id.outline]
  | ⟨span, id, some init⟩ =>
    .spanning .variableDeclarator span .nothing [id.outline, init.outline]

def Declarator.outlines : List Declarator → List Outline
  | [] => []
  | d :: others => d.outline :: Declarator.outlines others

def VariableDeclaration.outline : VariableDeclaration → Outline
  | ⟨span, kind, declarators⟩ =>
    .spanning .variableDeclaration span (.text kind.lexeme) (Declarator.outlines declarators)

def Declaration.outline : Declaration → Outline
  | .vars declaration => declaration.outline
  | .function f => f.outline .functionDeclaration

def DefaultDeclaration.outline : DefaultDeclaration → Outline
  | .expression e => e.outline
  | .function f => f.outline .functionDeclaration

def Statement.outline : Statement → Outline
  | .vars declaration => declaration.outline
  | .function f => f.outline .functionDeclaration
  | .block b => b.outline
  | .returns span argument => .spanning .returnStatement span .nothing [argument.outline]
  | .expression span e => .spanning .expressionStatement span .nothing [e.outline]
  | .imports declaration => declaration.outline
  | .exportNamed span none specifiers source =>
    .spanning .exportNamedDeclaration span (.count specifiers.length)
      (specifiers.map ExportSpecifier.outline ++ source.toList.map Literal.outline)
  | .exportNamed span (some declaration) specifiers source =>
    .spanning .exportNamedDeclaration span (.count specifiers.length)
      (declaration.outline ::
        (specifiers.map ExportSpecifier.outline ++ source.toList.map Literal.outline))
  | .exportDefault span declaration =>
    .spanning .exportDefaultDeclaration span (.node declaration.nodeKind declaration.span)
      [declaration.outline]
  | .exportAll declaration => declaration.outline

def Statement.outlines : List Statement → List Outline
  | [] => []
  | s :: others => s.outline :: Statement.outlines others

end

namespace Program

def outline (p : Program) : Outline :=
  .node ⟨.program, p.start, p.stop, .count p.body.length⟩ (Statement.outlines p.body)

def rows (p : Program) : List Outline.Row := p.outline.rows

end Program

end ScriptTree
