import ScriptTree.Proofs.Derivation
/-! Tokens and trees with other offsets and other texts. A reading looks at the kinds of tokens
alone and copies the rest into the tree, so it commutes with every change of what it copies. -/
namespace ScriptTree

structure Relabeling where
  offset : Nat → Nat
  text : String → String

namespace Relabeling

def placeless : Relabeling := ⟨fun _ => 0, id⟩

def since (origin : Nat) : Relabeling := ⟨fun pos => pos - origin, id⟩

def onward (origin : Nat) : Relabeling := ⟨fun pos => pos + origin, id⟩

def unchanged : Relabeling := ⟨id, id⟩

variable (r : Relabeling)

def span (s : Span) : Span := ⟨r.offset s.start, r.offset s.stop⟩

def token (t : Token) : Token := ⟨t.kind, r.text t.text, r.span t.span, t.raw.map r.text⟩

def tokens (ts : List Token) : List Token := ts.map r.token

def identifier (id : Identifier) : Identifier := ⟨r.span id.span, r.text id.name⟩

def literal (lit : Literal) : Literal := ⟨r.span lit.span, r.text lit.value, r.text lit.raw⟩

def importSpecifier : ImportSpecifier → ImportSpecifier
  | .byDefault s binding => .byDefault (r.span s) (r.identifier binding)
  | .named s imported binding => .named (r.span s) (r.identifier imported) (r.identifier binding)
  | .wholeModule s binding => .wholeModule (r.span s) (r.identifier binding)

def exportSpecifier (s : ExportSpecifier) : ExportSpecifier :=
  ⟨r.span s.span, r.identifier s.binding, r.identifier s.exported⟩

def imports (d : ImportDeclaration) : ImportDeclaration :=
  ⟨r.span d.span, d.specifiers.map r.importSpecifier, r.literal d.source⟩

def exportAll (d : ExportAll) : ExportAll :=
  ⟨r.span d.span, d.exported.map r.identifier, r.literal d.source⟩

mutual

def expression : Expression → Expression
  | .identifier id => .identifier (r.identifier id)
  | .literal lit => .literal (r.literal lit)
  | .function f => .function (function f)
  | .member s object property computed =>
    .member (r.span s) (expression object) (r.identifier property) computed
  | .call s callee arguments => .call (r.span s) (expression callee) (expressions arguments)
  | .binary s op left right => .binary (r.span s) op (expression left) (expression right)

def expressions : List Expression → List Expression
  | [] => []
  | e :: others => expression e :: expressions others

def function : FunctionDef → FunctionDef
  | ⟨s, name, params, body⟩ =>
    ⟨r.span s, name.map r.identifier, params.map r.identifier, block body⟩

def block : Block → Block
  | ⟨s, body⟩ => ⟨r.span s, statements body⟩

def declarator : Declarator → Declarator
  | ⟨s, id, none⟩ => ⟨r.span s, r.identifier id, none⟩
  | ⟨s, id, some init⟩ => ⟨r.span s, r.identifier id, some (expression init)⟩

def declarators : List Declarator → List Declarator
  | [] => []
  | d :: others => declarator d :: declarators others

def vars : VariableDeclaration → VariableDeclaration
  | ⟨s, kind, ds⟩ => ⟨r.span s, kind, declarators ds⟩

def declaration : Declaration → Declaration
  | .vars d => .vars (vars d)
  | .function f => .function (function f)

def defaultDeclaration : DefaultDeclaration → DefaultDeclaration
  | .expression e => .expression (expression e)
  | .function f => .function (function f)

def statement : Statement → Statement
  | .vars d => .vars (vars d)
  | .function f => .function (function f)
  | .block b => .block (block b)
  | .returns s argument => .returns (r.span s) (expression argument)
  | .expression s e => .expression (r.span s) (expression e)
  | .imports d => .imports (r.imports d)
  | .exportNamed s none specifiers source =>
    .exportNamed (r.span s) none (specifiers.map r.exportSpecifier) (source.map r.literal)
  | .exportNamed s (some d) specifiers source =>
    .exportNamed (r.span s) (some (declaration d)) (specifiers.map r.exportSpecifier)
      (source.map r.literal)
  | .exportDefault s d => .exportDefault (r.span s) (defaultDeclaration d)
  | .exportAll d => .exportAll (r.exportAll d)

def statements : List Statement → List Statement
  | [] => []
  | s :: others => statement s :: statements others

end

theorem expressionSpan (e : Expression) : (r.expression e).span = r.span e.span := by
  cases e with
  | function f =>
    cases f
    rfl
  | _ => rfl

theorem blockSpan (b : Block) : (r.block b).span = r.span b.span := by
  cases b
  rfl

theorem functionSpan (f : FunctionDef) : (r.function f).span = r.span f.span := by
  cases f
  rfl

theorem declarationSpan (d : Declaration) : (r.declaration d).span = r.span d.span := by
  cases d with
  | vars d =>
    cases d
    rfl
  | function f => exact r.functionSpan f

theorem statementSpan (s : Statement) : (r.statement s).span = r.span s.span := by
  cases s with
  | vars d =>
    cases d
    rfl
  | function f => exact r.functionSpan f
  | block b => exact r.blockSpan b
  | exportNamed s d => cases d <;> rfl
  | _ => rfl

theorem listUnchanged {f : α → α} (each : ∀ a, f a = a) (as : List α) : as.map f = as := by
  have same : f = id := funext each
  rw [same, List.map_id]

theorem tokensUnchanged (ts : List Token) : unchanged.tokens ts = ts := by
  refine listUnchanged ?_ ts
  intro t
  obtain ⟨kind, text, span, raw⟩ := t
  cases raw <;> rfl

theorem importUnchanged (s : ImportSpecifier) : unchanged.importSpecifier s = s := by
  cases s <;> rfl

mutual

theorem expressionUnchanged (e : Expression) : unchanged.expression e = e := by
  cases e with
  | identifier => rfl
  | literal => rfl
  | function f => rw [expression, functionUnchanged f]
  | member s object property computed =>
    rw [expression, expressionUnchanged object]
    rfl
  | call s callee arguments =>
    rw [expression, expressionUnchanged callee, expressionsUnchanged arguments]
    rfl
  | binary s op left right =>
    rw [expression, expressionUnchanged left, expressionUnchanged right]
    rfl

theorem expressionsUnchanged (es : List Expression) : unchanged.expressions es = es := by
  cases es with
  | nil => rfl
  | cons e others => rw [expressions, expressionUnchanged e, expressionsUnchanged others]

theorem functionUnchanged (f : FunctionDef) : unchanged.function f = f := by
  obtain ⟨s, name, params, body⟩ := f
  have names : params.map unchanged.identifier = params := listUnchanged (fun _ => rfl) params
  rw [function, blockUnchanged body, names]
  cases name <;> rfl

theorem blockUnchanged (b : Block) : unchanged.block b = b := by
  obtain ⟨s, body⟩ := b
  rw [block, statementsUnchanged body]
  rfl

theorem declaratorUnchanged (d : Declarator) : unchanged.declarator d = d := by
  obtain ⟨s, id, init⟩ := d
  cases init with
  | none => rfl
  | some init =>
    rw [declarator, expressionUnchanged init]
    rfl

theorem declaratorsUnchanged (ds : List Declarator) : unchanged.declarators ds = ds := by
  cases ds with
  | nil => rfl
  | cons d others => rw [declarators, declaratorUnchanged d, declaratorsUnchanged others]

theorem variablesUnchanged (d : VariableDeclaration) : unchanged.vars d = d := by
  obtain ⟨s, kind, ds⟩ := d
  rw [vars, declaratorsUnchanged ds]
  rfl

theorem declarationUnchanged (d : Declaration) : unchanged.declaration d = d := by
  cases d with
  | vars d => rw [declaration, variablesUnchanged d]
  | function f => rw [declaration, functionUnchanged f]

theorem defaultUnchanged (d : DefaultDeclaration) : unchanged.defaultDeclaration d = d := by
  cases d with
  | expression e => rw [defaultDeclaration, expressionUnchanged e]
  | function f => rw [defaultDeclaration, functionUnchanged f]

theorem statementUnchanged (s : Statement) : unchanged.statement s = s := by
  cases s with
  | vars d => rw [statement, variablesUnchanged d]
  | function f => rw [statement, functionUnchanged f]
  | block b => rw [statement, blockUnchanged b]
  | returns s argument =>
    rw [statement, expressionUnchanged argument]
    rfl
  | expression s e =>
    rw [statement, expressionUnchanged e]
    rfl
  | imports d =>
    rw [statement, imports, listUnchanged importUnchanged]
    rfl
  | exportNamed s d specifiers source =>
    have list : specifiers.map unchanged.exportSpecifier = specifiers :=
      listUnchanged (fun _ => rfl) specifiers
    cases d with
    | none =>
      rw [statement, list]
      cases source <;> rfl
    | some d =>
      rw [statement, list, declarationUnchanged d]
      cases source <;> rfl
  | exportDefault s d =>
    rw [statement, defaultUnchanged d]
    rfl
  | exportAll d =>
    obtain ⟨s, exported, source⟩ := d
    rw [statement, exportAll]
    cases exported <;> rfl

theorem statementsUnchanged (body : List Statement) : unchanged.statements body = body := by
  cases body with
  | nil => rfl
  | cons s others => rw [statements, statementUnchanged s, statementsUnchanged others]

end

end Relabeling

namespace Grammar

variable {r : Relabeling}

@[simp] theorem kindRelabeled (t : Token) : (r.token t).kind = t.kind := rfl

@[simp] theorem frontRelabeled (ts : List Token) : front (r.tokens ts) = front ts := by
  cases ts <;> rfl

@[simp] theorem tokensNil : r.tokens [] = [] := rfl

@[simp] theorem tokensCons (t : Token) (ts : List Token) :
    r.tokens (t :: ts) = r.token t :: r.tokens ts := rfl

@[simp] theorem tokensAppend (ts us : List Token) :
    r.tokens (ts ++ us) = r.tokens ts ++ r.tokens us := List.map_append

@[simp] theorem tokensOption (o : Option Token) : r.tokens o.toList = (o.map r.token).toList := by
  cases o <;> rfl

theorem literalToken (t : Token) : Literal.ofToken (r.token t) = r.literal (.ofToken t) := by
  obtain ⟨kind, text, span, raw⟩ := t
  cases raw <;> rfl

theorem stopRelabeled (before : Nat) (ts : List Token) :
    stopOf (r.offset before) (r.tokens ts) = r.offset (stopOf before ts) := by
  induction ts generalizing before with
  | nil => rfl
  | cons t ts ih => exact ih t.span.stop

end Grammar

end ScriptTree
