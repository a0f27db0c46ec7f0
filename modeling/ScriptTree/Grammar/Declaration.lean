import ScriptTree.Grammar.Expression
/-! Declarations of variables, and what a module takes from others and gives to them. -/
namespace ScriptTree.Grammar

def variableWord : VariableKind → Keyword
  | .letKind => .letWord
  | .constKind => .constWord
  | .varKind => .varWord

def declarator (expression : Production Expression) : Production Declarator := do
  let id ← identifier
  match ← accept (.punct .assign) with
  | none => pure ⟨id.span, id, none⟩
  | some _ =>
    let init ← expression
    pure ⟨id.span.through init.span, id, some init⟩

/-- Also tells where the last token read stops, which is `stop` before any is. -/
def declarators (expression : Production Expression) :
    Nat → Nat → Production (Nat × List Declarator)
  | 0, _ => exhausted
  | budget + 1, stop => do
    match ← accept (.punct .semicolon) with
    | some semicolon => pure (semicolon.span.stop, [])
    | none =>
      if (← peekSecond) = some (.punct .assign) then
        let first ← declarator expression
        let comma ← accept (.punct .comma)
        let stop := comma.elim first.span.stop (·.span.stop)
        let (stop, others) ← declarators expression budget stop
        pure (stop, first :: others)
      else pure (stop, [])

def variableDeclaration (expression : Production Expression) (budget : Nat) (kind : VariableKind) :
    Production VariableDeclaration := do
  let word ← expect (.keyword (variableWord kind))
  let (stop, declared) ← declarators expression budget word.span.stop
  pure ⟨⟨word.span.start, stop⟩, kind, declared⟩

def otherName : Production (Option Identifier) := do
  match ← accept (.keyword .asWord) with
  | none => pure none
  | some _ =>
    let name ← identifier
    pure (some name)

def renamed : Production (Identifier × Identifier) := do
  let name ← identifier
  let other ← otherName
  pure (name, other.getD name)

def namedImport : Production ImportSpecifier := do
  let (imported, binding) ← renamed
  pure (.named (imported.span.through binding.span) imported binding)

def exportSpecifier : Production ExportSpecifier := do
  let (binding, exported) ← renamed
  pure ⟨binding.span.through exported.span, binding, exported⟩

def defaultImport : Production (List ImportSpecifier) := do
  match ← accept .identifier with
  | none => pure []
  | some t =>
    let _ ← accept (.punct .comma)
    pure [.byDefault t.span (.ofToken t)]

def otherImports (budget : Nat) : Production (List ImportSpecifier) := do
  match ← peek with
  | some (.punct .braceLeft) =>
    let (_, specifiers) ← braced (listed namedImport) budget
    pure specifiers
  | some (.punct .asterisk) =>
    let star ← expect (.punct .asterisk)
    let _ ← expect (.keyword .asWord)
    let binding ← identifier
    pure [.wholeModule (star.span.through binding.span) binding]
  | _ => pure []

def moduleSource : Production Literal := do
  let t ← expect .string
  pure (.ofToken t)

def imports (budget : Nat) : Production ImportDeclaration := do
  let word ← expect (.keyword .importWord)
  let first ← defaultImport
  let others ← otherImports budget
  let _ ← accept (.keyword .fromWord)
  let source ← moduleSource
  pure ⟨word.span.through source.span, first ++ others, source⟩

def defaultDeclaration (expression : Production Expression)
    (function : Production FunctionDef) : Production DefaultDeclaration := do
  let _ ← expect (.keyword .defaultWord)
  match ← peek with
  | some .identifier =>
    let e ← expression
    pure (.expression e)
  | some (.keyword .functionWord) =>
    let f ← function
    pure (.function f)
  | _ => fail [.identifier, .keyword .functionWord]

def otherSource : Production (Option Literal) := do
  match ← accept (.keyword .fromWord) with
  | none => pure none
  | some _ =>
    let source ← moduleSource
    pure (some source)

def exportList (start budget : Nat) : Production Statement := do
  let (span, specifiers) ← braced (listed exportSpecifier) budget
  let source ← otherSource
  let stop := source.elim span.stop (·.span.stop)
  pure (.exportNamed ⟨start, stop⟩ none specifiers source)

def exportDeclared (start : Nat) (declaration : Declaration) : Statement :=
  .exportNamed ⟨start, declaration.span.stop⟩ (some declaration) [] none

def exportAll (start : Nat) : Production ExportAll := do
  let _ ← expect (.punct .asterisk)
  let exported ← otherName
  let _ ← expect (.keyword .fromWord)
  let source ← moduleSource
  pure ⟨⟨start, source.span.stop⟩, exported, source⟩

def exports (expression : Production Expression) (function : Production FunctionDef)
    (budget : Nat) : Production Statement := do
  let word ← expect (.keyword .exportWord)
  let start := word.span.start
  match ← peek with
  | some (.keyword .defaultWord) =>
    let declaration ← defaultDeclaration expression function
    pure (.exportDefault ⟨start, declaration.span.stop⟩ declaration)
  | some (.punct .braceLeft) => exportList start budget
  | some (.keyword .letWord) =>
    let declaration ← variableDeclaration expression budget .letKind
    pure (exportDeclared start (.vars declaration))
  | some (.keyword .constWord) =>
    let declaration ← variableDeclaration expression budget .constKind
    pure (exportDeclared start (.vars declaration))
  | some (.keyword .varWord) =>
    let declaration ← variableDeclaration expression budget .varKind
    pure (exportDeclared start (.vars declaration))
  | some (.keyword .functionWord) =>
    let f ← function
    pure (exportDeclared start (.function f))
  | _ =>
    let everything ← exportAll start
    pure (.exportAll everything)

end ScriptTree.Grammar
