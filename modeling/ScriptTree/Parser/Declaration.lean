import ScriptTree.Grammar.Declaration
import ScriptTree.Parser.Expression
/-! Declarations of variables and of modules, read at the cursor. -/
namespace ScriptTree.Parser
open Grammar (exportDeclared)

def variableWords : List Kind := [.keyword .letWord, .keyword .varWord, .keyword .constWord]

def declarator (expression : Parser Expression) : Parser Declarator := do
  let id ← identifier
  if ← skipped (.punct .assign) then
    if ← currentIn literals then
      let lit ← literal
      return ⟨id.span.through lit.span, id, some (.literal lit)⟩
    else
      let init ← expression
      return ⟨id.span.through init.span, id, some init⟩
  else return ⟨id.span, id, none⟩

/-- No terminator is looked for. Without a `;` a declaration ends where no `=` stands behind the
next token. -/
def declarationEnded : Parser Bool := do
  if ← skipped (.punct .semicolon) then return true
  else
    let next ← peekNext
    return !next.any (·.is (.punct .assign))

def declarators (expression : Parser Expression) : Nat → Parser (List Declarator)
  | 0 => exhausted
  | budget + 1 => do
    if ← declarationEnded then return []
    else
      let first ← declarator expression
      let _ ← skipped (.punct .comma)
      let others ← declarators expression budget
      return first :: others

def variableKind : Kind → Option VariableKind
  | .keyword .letWord => some .letKind
  | .keyword .varWord => some .varKind
  | .keyword .constWord => some .constKind
  | _ => none

def variableDeclaration (expression : Parser Expression) (budget : Nat) :
    Parser VariableDeclaration := do
  let word ← current
  match word, word.bind (variableKind ·.kind) with
  | some word, some kind =>
    advance
    let declared ← declarators expression budget
    let stop ← previousEnd
    return ⟨⟨word.span.start, stop⟩, kind, declared⟩
  | _, _ => unexpected variableWords

def renamed : Parser (Identifier × Identifier) := do
  let name ← identifier
  if ← skipped (.keyword .asWord) then
    let other ← identifier
    return (name, other)
  else return (name, name)

def namedImport : Parser ImportSpecifier := do
  let (imported, binding) ← renamed
  return .named (imported.span.through binding.span) imported binding

def exportSpecifier : Parser ExportSpecifier := do
  let (binding, exported) ← renamed
  return ⟨binding.span.through exported.span, binding, exported⟩

def defaultImport : Parser (List ImportSpecifier) := do
  if ← currentIs .identifier then
    let binding ← identifier
    let _ ← skipped (.punct .comma)
    return [.byDefault binding.span binding]
  else return []

def otherImports (budget : Nat) : Parser (List ImportSpecifier) := do
  if ← skipped (.punct .braceLeft) then
    let specifiers ← many (some .braceRight) (listed namedImport) budget
    let _ ← expect (.punct .braceRight)
    return specifiers
  else if ← currentIs (.punct .asterisk) then
    let star ← expect (.punct .asterisk)
    let _ ← expect (.keyword .asWord)
    let binding ← identifier
    return [.wholeModule (star.through binding.span) binding]
  else return []

def imports (budget : Nat) : Parser ImportDeclaration := do
  let word ← expect (.keyword .importWord)
  let first ← defaultImport
  let others ← otherImports budget
  let _ ← skipped (.keyword .fromWord)
  let source ← stringLiteral
  return ⟨word.through source.span, first ++ others, source⟩

def defaultDeclaration (expression : Parser Expression) (function : Parser FunctionDef) :
    Parser DefaultDeclaration := do
  let _ ← expect (.keyword .defaultWord)
  match ← currentKind with
  | some .identifier =>
    let e ← expression
    return .expression e
  | some (.keyword .functionWord) =>
    let f ← function
    return .function f
  | _ => unexpected [.identifier, .keyword .functionWord]

def exportSpecifiers (budget : Nat) : Parser (List ExportSpecifier × Nat) := do
  let _ ← expect (.punct .braceLeft)
  let specifiers ← many (some .braceRight) (listed exportSpecifier) budget
  let closing ← expect (.punct .braceRight)
  return (specifiers, closing.stop)

def otherSource : Parser (Option Literal) := do
  if ← skipped (.keyword .fromWord) then
    let source ← stringLiteral
    return some source
  else return none

def exportList (start budget : Nat) : Parser Statement := do
  let (specifiers, closing) ← exportSpecifiers budget
  let source ← otherSource
  return .exportNamed ⟨start, source.elim closing (·.span.stop)⟩ none specifiers source

def otherName : Parser (Option Identifier) := do
  if ← skipped (.keyword .asWord) then
    let name ← identifier
    return some name
  else return none

def exportAll (start : Nat) : Parser ExportAll := do
  let _ ← expect (.punct .asterisk)
  let exported ← otherName
  let _ ← expect (.keyword .fromWord)
  let source ← stringLiteral
  return ⟨⟨start, source.span.stop⟩, exported, source⟩

def exports (expression : Parser Expression) (function : Parser FunctionDef) (budget : Nat) :
    Parser Statement := do
  let word ← expect (.keyword .exportWord)
  match ← currentKind with
  | some (.keyword .defaultWord) =>
    let declaration ← defaultDeclaration expression function
    return .exportDefault ⟨word.start, declaration.span.stop⟩ declaration
  | some (.punct .braceLeft) => exportList word.start budget
  | some (.keyword .letWord) | some (.keyword .varWord) | some (.keyword .constWord) =>
    let declaration ← variableDeclaration expression budget
    return exportDeclared word.start (.vars declaration)
  | some (.keyword .functionWord) =>
    let f ← function
    return exportDeclared word.start (.function f)
  | _ =>
    let everything ← exportAll word.start
    return .exportAll everything

end ScriptTree.Parser
