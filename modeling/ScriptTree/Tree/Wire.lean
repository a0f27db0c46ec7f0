import ScriptTree.Tree.NodeKind
import ScriptTree.Wire
/-! The wire form of a tree: a record for each node, with its sort under `type`. -/
namespace ScriptTree

namespace Wire

def node (kind : NodeKind) (span : Span) (fields : List (String × Wire)) : Wire :=
  .record (("type", .text kind.name) :: span.fields ++ fields)

end Wire

namespace Identifier

def wire (id : Identifier) : Wire := .node .identifier id.span [("name", .text id.name)]

end Identifier

namespace Literal

def wire (lit : Literal) : Wire :=
  .node .literal lit.span [("value", .text lit.value), ("raw", .text lit.raw)]

end Literal

namespace ImportSpecifier

def wire : ImportSpecifier → Wire
  | byDefault span binding =>
    .node .importDefaultSpecifier span [("local", binding.wire)]
  | named span imported binding =>
    .node .importSpecifier span [("imported", imported.wire), ("local", binding.wire)]
  | wholeModule span binding =>
    .node .importNamespaceSpecifier span [("local", binding.wire)]

end ImportSpecifier

namespace ExportSpecifier

def wire (s : ExportSpecifier) : Wire :=
  .node .exportSpecifier s.span [("local", s.binding.wire), ("exported", s.exported.wire)]

end ExportSpecifier

namespace ImportDeclaration

def wire (d : ImportDeclaration) : Wire :=
  .node .importDeclaration d.span
    [("specifiers", .list (d.specifiers.map ImportSpecifier.wire)), ("source", d.source.wire)]

end ImportDeclaration

namespace ExportAll

def wire (d : ExportAll) : Wire :=
  .node .exportAllDeclaration d.span
    [("exported", .optional Identifier.wire d.exported), ("source", d.source.wire)]

end ExportAll

mutual

def Expression.wire : Expression → Wire
  | .identifier id => id.wire
  | .literal lit => lit.wire
  | .function f => f.wire .functionExpression
  | .member span object property computed =>
    .node .memberExpression span
      [("object", object.wire), ("property", property.wire), ("computed", .flag computed)]
  | .call span callee arguments =>
    .node .callExpression span
      [("callee", callee.wire), ("arguments", .list (Expression.wires arguments))]
  | .binary span operator left right =>
    .node .binaryExpression span
      [("operator", .text operator.lexeme), ("left", left.wire), ("right", right.wire)]

def Expression.wires : List Expression → List Wire
  | [] => []
  | e :: others => e.wire :: Expression.wires others

def FunctionDef.wire (kind : NodeKind) : FunctionDef → Wire
  | ⟨span, name, params, body⟩ =>
    .node kind span
      [("id", .optional Identifier.wire name), ("params", .list (params.map Identifier.wire)),
        ("body", body.wire)]

def Block.wire : Block → Wire
  | ⟨span, body⟩ => .node .blockStatement span [("body", .list (Statement.wires body))]

def Declarator.wire : Declarator → Wire
  | ⟨span, id, none⟩ => .node .variableDeclarator span [("id", id.wire), ("init", .null)]
  | ⟨span, id, some init⟩ =>
    .node .variableDeclarator span [("id", id.wire), ("init", init.wire)]

def Declarator.wires : List Declarator → List Wire
  | [] => []
  | d :: others => d.wire :: Declarator.wires others

def VariableDeclaration.wire : VariableDeclaration → Wire
  | ⟨span, kind, declarators⟩ =>
    .node .variableDeclaration span
      [("kind", .text kind.lexeme), ("declarations", .list (Declarator.wires declarators))]

def Declaration.wire : Declaration → Wire
  | .vars declaration => declaration.wire
  | .function f => f.wire .functionDeclaration

def DefaultDeclaration.wire : DefaultDeclaration → Wire
  | .expression e => e.wire
  | .function f => f.wire .functionDeclaration

def Statement.wire : Statement → Wire
  | .vars declaration => declaration.wire
  | .function f => f.wire .functionDeclaration
  | .block b => b.wire
  | .returns span argument => .node .returnStatement span [("argument", argument.wire)]
  | .expression span e => .node .expressionStatement span [("expression", e.wire)]
  | .imports declaration => declaration.wire
  | .exportNamed span none specifiers source =>
    .node .exportNamedDeclaration span
      [("declaration", .null), ("specifiers", .list (specifiers.map ExportSpecifier.wire)),
        ("source", .optional Literal.wire source)]
  | .exportNamed span (some declaration) specifiers source =>
    .node .exportNamedDeclaration span
      [("declaration", declaration.wire),
        ("specifiers", .list (specifiers.map ExportSpecifier.wire)),
        ("source", .optional Literal.wire source)]
  | .exportDefault span declaration =>
    .node .exportDefaultDeclaration span [("declaration", declaration.wire)]
  | .exportAll declaration => declaration.wire

def Statement.wires : List Statement → List Wire
  | [] => []
  | s :: others => s.wire :: Statement.wires others

end

namespace Program

def wire (p : Program) : Wire :=
  .record
    [("type", .text NodeKind.program.name), ("start", .number p.start),
      ("end", .optional Wire.number p.stop), ("body", .list (Statement.wires p.body))]

end Program

end ScriptTree
