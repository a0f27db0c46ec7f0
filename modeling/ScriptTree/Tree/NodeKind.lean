import ScriptTree.Tree.Basic
/-! The names of the sorts of nodes, which both the outline and the wire form of a tree use. -/
namespace ScriptTree

inductive NodeKind where
  | program | identifier | literal | variableDeclaration | variableDeclarator
  | functionDeclaration | functionExpression | blockStatement | returnStatement
  | expressionStatement | memberExpression | callExpression | binaryExpression
  | importDeclaration | importDefaultSpecifier | importSpecifier | importNamespaceSpecifier
  | exportNamedDeclaration | exportDefaultDeclaration | exportAllDeclaration
  | exportSpecifier
  deriving DecidableEq, Repr

namespace NodeKind

def name : NodeKind → String
  | program => "Program"
  | identifier => "Identifier"
  | literal => "Literal"
  | variableDeclaration => "VariableDeclaration"
  | variableDeclarator => "VariableDeclarator"
  | functionDeclaration => "FunctionDeclaration"
  | functionExpression => "FunctionExpression"
  | blockStatement => "BlockStatement"
  | returnStatement => "ReturnStatement"
  | expressionStatement => "ExpressionStatement"
  | memberExpression => "MemberExpression"
  | callExpression => "CallExpression"
  | binaryExpression => "BinaryExpression"
  | importDeclaration => "ImportDeclaration"
  | importDefaultSpecifier => "ImportDefaultSpecifier"
  | importSpecifier => "ImportSpecifier"
  | importNamespaceSpecifier => "ImportNamespaceSpecifier"
  | exportNamedDeclaration => "ExportNamedDeclaration"
  | exportDefaultDeclaration => "ExportDefaultDeclaration"
  | exportAllDeclaration => "ExportAllDeclaration"
  | exportSpecifier => "ExportSpecifier"

end NodeKind

def Expression.nodeKind : Expression → NodeKind
  | .identifier _ => .identifier
  | .literal _ => .literal
  | .function _ => .functionExpression
  | .member _ _ _ _ => .memberExpression
  | .call _ _ _ => .callExpression
  | .binary _ _ _ _ => .binaryExpression

def DefaultDeclaration.nodeKind : DefaultDeclaration → NodeKind
  | .expression e => e.nodeKind
  | .function _ => .functionDeclaration

end ScriptTree
