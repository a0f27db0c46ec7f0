import ScriptTree.Proofs.Relabeling
import ScriptTree.Session
import Mathlib.Data.List.Forall2
/-! Token lists that differ only in what two relabelings take away. Readings look at the kinds of
tokens alone, so on such lists every production goes the same way, up to where it stops or fails,
and makes values that differ only in the same. -/
namespace ScriptTree

namespace Relabeling

def program (r : Relabeling) (p : Program) : Program :=
  ⟨p.start, p.stop.map r.offset, r.statements p.body⟩

end Relabeling

namespace Grammar

variable {r r' : Relabeling}

structure Twins (r r' : Relabeling) (t u : Token) : Prop where
  kind : t.kind = u.kind
  text : r.text t.text = r'.text u.text
  lexeme : r.text t.lexeme = r'.text u.lexeme
  span : r.span t.span = r'.span u.span

inductive Matches (r r' : Relabeling) (same : α → β → Prop) : Outcome α → Outcome β → Prop where
  | done {value value' rest rest'} (values : same value value')
      (behind : List.Forall₂ (Twins r r') rest rest') :
      Matches r r' same (.done value rest) (.done value' rest')
  | failed {expected rest rest'} (behind : List.Forall₂ (Twins r r') rest rest') :
      Matches r r' same (.failed expected rest) (.failed expected rest')

def Mirrors (r r' : Relabeling) (same : α → β → Prop) (p : Production α) (q : Production β) :
    Prop :=
  ∀ ⦃ts us⦄, List.Forall₂ (Twins r r') ts us → Matches r r' same (p ts) (q us)

theorem twinFronts {ts us} (twins : List.Forall₂ (Twins r r') ts us) : front ts = front us := by
  cases twins with
  | nil => rfl
  | cons one behind => exact congrArg some one.kind

theorem twinBehind {ts us} (twins : List.Forall₂ (Twins r r') ts us) :
    List.Forall₂ (Twins r r') (ts.drop 1) (us.drop 1) := by
  cases twins with
  | nil => exact .nil
  | cons one behind => exact behind

theorem listsAgree {f : α → γ} {g : β → γ} {as : List α} {bs : List β}
    (each : List.Forall₂ (fun a b => f a = g b) as bs) : as.map f = bs.map g := by
  induction each with
  | nil => rfl
  | cons one _ ih => rw [List.map_cons, List.map_cons, one, ih]

theorem optionsAgree {f : α → γ} {g : β → γ} {a : Option α} {b : Option β}
    (both : Option.Rel (fun a b => f a = g b) a b) : a.map f = b.map g := by
  cases both with
  | none => rfl
  | some same => exact congrArg some same

theorem mirrorsPure {same : α → β → Prop} {value value'} (values : same value value') :
    Mirrors r r' same (pure value) (pure value') := fun _ _ twins => .done values twins

theorem mirrorsBind {same : α → β → Prop} {same' : γ → δ → Prop} {p : Production α}
    {q : Production β} {f : α → Production γ} {g : β → Production δ} (first : Mirrors r r' same p q)
    (next : ∀ ⦃value value'⦄, same value value' → Mirrors r r' same' (f value) (g value')) :
    Mirrors r r' same' (p >>= f) (q >>= g) := by
  intro ts us twins
  rw [Production.bindApply, Production.bindApply]
  generalize p ts = outcome, q us = outcome', first twins = matched
  cases matched with
  | done values behind => exact next values behind
  | failed behind => exact .failed behind

theorem mirrorsPeek {same : α → β → Prop} {f : Option Kind → Production α}
    {g : Option Kind → Production β} (next : ∀ kind, Mirrors r r' same (f kind) (g kind)) :
    Mirrors r r' same (peek >>= f) (peek >>= g) := by
  intro ts us twins
  change Matches r r' same (f (front ts) ts) (g (front us) us)
  rw [twinFronts twins]
  exact next _ twins

theorem mirrorsPeekSecond {same : α → β → Prop} {f : Option Kind → Production α}
    {g : Option Kind → Production β} (next : ∀ kind, Mirrors r r' same (f kind) (g kind)) :
    Mirrors r r' same (peekSecond >>= f) (peekSecond >>= g) := by
  intro ts us twins
  change Matches r r' same (f (front (ts.drop 1)) ts) (g (front (us.drop 1)) us)
  rw [twinFronts (twinBehind twins)]
  exact next _ twins

theorem mirrorsFail {same : α → β → Prop} (expected : List Kind) :
    Mirrors r r' same (fail expected) (fail expected) := fun _ _ twins => .failed twins

theorem mirrorsOneOf (kinds : List Kind) :
    Mirrors r r' (Twins r r') (oneOf kinds) (oneOf kinds) := by
  intro ts us twins
  cases twins with
  | nil => exact .failed .nil
  | cons one behind =>
    rw [oneOf, oneOf, one.kind]
    split
    · exact .done one behind
    · exact .failed (.cons one behind)

theorem mirrorsExpect (kind : Kind) : Mirrors r r' (Twins r r') (expect kind) (expect kind) :=
  mirrorsOneOf [kind]

theorem mirrorsAccept (kind : Kind) :
    Mirrors r r' (Option.Rel (Twins r r')) (accept kind) (accept kind) := by
  intro ts us twins
  cases twins with
  | nil => exact .done .none .nil
  | cons one behind =>
    rw [accept, accept, one.kind]
    split
    · exact .done (.some one) behind
    · exact .done .none (.cons one behind)

section Items
variable {same : α → β → Prop} {p : Production α} {q : Production β}

theorem mirrorsMany (stop : Option Kind) (items : Mirrors r r' same p q) (budget : Nat) :
    Mirrors r r' (List.Forall₂ same) (many stop p budget) (many stop q budget) := by
  induction budget with
  | zero => exact mirrorsFail []
  | succ budget ih =>
    refine mirrorsPeek fun next => ?_
    split
    · exact mirrorsPure .nil
    · refine mirrorsBind items fun _ _ first => ?_
      exact mirrorsBind ih fun _ _ others => mirrorsPure (.cons first others)

def SameList (r r' : Relabeling) (same : α → β → Prop) (list : Span × List α)
    (list' : Span × List β) : Prop :=
  r.span list.1 = r'.span list'.1 ∧ List.Forall₂ same list.2 list'.2

theorem twinsThrough {s s' t t' : Span} (first : r.span s = r'.span s')
    (last : r.span t = r'.span t') : r.span (s.through t) = r'.span (s'.through t') := by
  simp only [Relabeling.span, Span.mk.injEq] at first last
  simp only [Relabeling.span, Span.through, first.1, last.2]

theorem mirrorsEnclosed {left right : Punct} {budget : Nat} (items : Mirrors r r' same p q) :
    Mirrors r r' (SameList r r' same) (enclosed left right p budget)
      (enclosed left right q budget) := by
  refine mirrorsBind (mirrorsExpect _) fun _ _ opening => ?_
  refine mirrorsBind (mirrorsMany _ items budget) fun _ _ values => ?_
  refine mirrorsBind (mirrorsExpect _) fun _ _ closing => ?_
  exact mirrorsPure ⟨twinsThrough opening.span closing.span, values⟩

theorem mirrorsSeparated (items : Mirrors r r' same p q) :
    Mirrors r r' same (separated p) (separated q) := by
  refine mirrorsBind items fun _ _ values => mirrorsPeek fun next => ?_
  split
  · exact mirrorsPure values
  · exact mirrorsBind (mirrorsExpect _) fun _ _ _ => mirrorsPure values

theorem mirrorsListed (items : Mirrors r r' same p q) :
    Mirrors r r' same (listed p) (listed q) :=
  mirrorsBind items fun _ _ values => mirrorsBind (mirrorsAccept _) fun _ _ _ => mirrorsPure values

end Items

theorem identifierTwins {t u} (twins : Twins r r' t u) :
    r.identifier (.ofToken t) = r'.identifier (.ofToken u) := by
  simp only [Relabeling.identifier, Identifier.ofToken, twins.span, twins.text]

theorem literalTwins {t u} (twins : Twins r r' t u) :
    r.literal (.ofToken t) = r'.literal (.ofToken u) := by
  simp only [Relabeling.literal, Literal.ofToken, twins.span, twins.text, twins.lexeme]

abbrev SameName (r r' : Relabeling) (id id' : Identifier) : Prop :=
  r.identifier id = r'.identifier id'

abbrev SameLiteral (r r' : Relabeling) (lit lit' : Literal) : Prop :=
  r.literal lit = r'.literal lit'

theorem nameSpans {id id'} (same : SameName r r' id id') : r.span id.span = r'.span id'.span :=
  congrArg Identifier.span same

theorem literalSpans {lit lit'} (same : SameLiteral r r' lit lit') :
    r.span lit.span = r'.span lit'.span := congrArg Literal.span same

theorem identifierMirrors : Mirrors r r' (SameName r r') identifier identifier :=
  mirrorsBind (mirrorsExpect _) fun _ _ twins => mirrorsPure (identifierTwins twins)

theorem literalMirrors : Mirrors r r' (SameLiteral r r') literal literal :=
  mirrorsBind (mirrorsOneOf _) fun _ _ twins => mirrorsPure (literalTwins twins)

theorem moduleSourceMirrors : Mirrors r r' (SameLiteral r r') moduleSource moduleSource :=
  mirrorsBind (mirrorsExpect _) fun _ _ twins => mirrorsPure (literalTwins twins)

theorem otherNameMirrors : Mirrors r r' (Option.Rel (SameName r r')) otherName otherName := by
  refine mirrorsBind (mirrorsAccept _) fun _ _ word => ?_
  cases word with
  | none => exact mirrorsPure .none
  | some => exact mirrorsBind identifierMirrors fun _ _ name => mirrorsPure (.some name)

theorem renamedMirrors :
    Mirrors r r' (fun names names' => SameName r r' names.1 names'.1 ∧
      SameName r r' names.2 names'.2) renamed renamed := by
  refine mirrorsBind identifierMirrors fun _ _ name => ?_
  refine mirrorsBind otherNameMirrors fun _ _ other => mirrorsPure ⟨name, ?_⟩
  cases other with
  | none => exact name
  | some same => exact same

theorem namedImportMirrors : Mirrors r r' (fun s s' => r.importSpecifier s = r'.importSpecifier s')
    namedImport namedImport := by
  refine mirrorsBind renamedMirrors fun names names' same => mirrorsPure ?_
  simp only [Relabeling.importSpecifier, same.1, same.2,
    twinsThrough (nameSpans same.1) (nameSpans same.2)]

theorem exportSpecifierMirrors :
    Mirrors r r' (fun s s' => r.exportSpecifier s = r'.exportSpecifier s') exportSpecifier
      exportSpecifier := by
  refine mirrorsBind renamedMirrors fun names names' same => mirrorsPure ?_
  simp only [Relabeling.exportSpecifier, same.1, same.2,
    twinsThrough (nameSpans same.1) (nameSpans same.2)]

abbrev SameImports (r r' : Relabeling) : List ImportSpecifier → List ImportSpecifier → Prop :=
  List.Forall₂ fun s s' => r.importSpecifier s = r'.importSpecifier s'

theorem defaultImportMirrors : Mirrors r r' (SameImports r r') defaultImport defaultImport := by
  refine mirrorsBind (mirrorsAccept _) fun _ _ name => ?_
  cases name with
  | none => exact mirrorsPure .nil
  | some twins =>
    refine mirrorsBind (mirrorsAccept _) fun _ _ _ => mirrorsPure (.cons ?_ .nil)
    simp only [Relabeling.importSpecifier, twins.span, identifierTwins twins]

theorem otherImportsMirrors (budget : Nat) :
    Mirrors r r' (SameImports r r') (otherImports budget) (otherImports budget) := by
  refine mirrorsPeek fun next => ?_
  split
  · exact mirrorsBind (mirrorsEnclosed (mirrorsListed namedImportMirrors)) fun _ _ list =>
      mirrorsPure list.2
  · refine mirrorsBind (mirrorsExpect _) fun _ _ star => ?_
    refine mirrorsBind (mirrorsExpect _) fun _ _ _ => ?_
    refine mirrorsBind identifierMirrors fun _ _ name => mirrorsPure (.cons ?_ .nil)
    simp only [Relabeling.importSpecifier, twinsThrough star.span (nameSpans name), name]
  · exact mirrorsPure .nil

theorem importsMirrors (budget : Nat) : Mirrors r r' (fun d d' => r.imports d = r'.imports d')
    (imports budget) (imports budget) := by
  refine mirrorsBind (mirrorsExpect _) fun _ _ word => ?_
  refine mirrorsBind defaultImportMirrors fun _ _ first => ?_
  refine mirrorsBind (otherImportsMirrors budget) fun _ _ others => ?_
  refine mirrorsBind (mirrorsAccept _) fun _ _ _ => ?_
  refine mirrorsBind moduleSourceMirrors fun _ _ source => mirrorsPure ?_
  simp only [Relabeling.imports, List.map_append, listsAgree first, listsAgree others, source,
    twinsThrough word.span (literalSpans source)]

theorem otherSourceMirrors :
    Mirrors r r' (Option.Rel (SameLiteral r r')) otherSource otherSource := by
  refine mirrorsBind (mirrorsAccept _) fun _ _ word => ?_
  cases word with
  | none => exact mirrorsPure .none
  | some => exact mirrorsBind moduleSourceMirrors fun _ _ source => mirrorsPure (.some source)

abbrev SameExpression (r r' : Relabeling) (e e' : Expression) : Prop :=
  r.expression e = r'.expression e'

abbrev SameFunction (r r' : Relabeling) (f f' : FunctionDef) : Prop :=
  r.function f = r'.function f'

abbrev SameStatement (r r' : Relabeling) (s s' : Statement) : Prop :=
  r.statement s = r'.statement s'

abbrev SameOffset (r r' : Relabeling) (pos pos' : Nat) : Prop := r.offset pos = r'.offset pos'

theorem expressionSpans {e e'} (same : SameExpression r r' e e') :
    r.span e.span = r'.span e'.span := by
  rw [← r.expressionSpan, ← r'.expressionSpan, same]

theorem functionSpans {f f'} (same : SameFunction r r' f f') :
    r.span f.span = r'.span f'.span := by
  rw [← r.functionSpan, ← r'.functionSpan, same]

theorem sameSpan {start start' stop stop'} (first : SameOffset r r' start start')
    (last : SameOffset r r' stop stop') : r.span ⟨start, stop⟩ = r'.span ⟨start', stop'⟩ := by
  simp only [Relabeling.span, first, last]

theorem spanStarts {s s' : Span} (same : r.span s = r'.span s') :
    SameOffset r r' s.start s'.start := congrArg Span.start same

theorem spanStops {s s' : Span} (same : r.span s = r'.span s') :
    SameOffset r r' s.stop s'.stop := congrArg Span.stop same

theorem elimStops {o o' : Option Token} {stop stop'} (last : Option.Rel (Twins r r') o o')
    (before : SameOffset r r' stop stop') :
    SameOffset r r' (o.elim stop (·.span.stop)) (o'.elim stop' (·.span.stop)) := by
  cases last with
  | none => exact before
  | some twins => exact spanStops twins.span

theorem expressionsAgree {es es'} (each : List.Forall₂ (SameExpression r r') es es') :
    r.expressions es = r'.expressions es' := by
  induction each with
  | nil => rfl
  | cons one _ ih => rw [Relabeling.expressions, Relabeling.expressions, one, ih]

theorem statementsAgree {body body'} (each : List.Forall₂ (SameStatement r r') body body') :
    r.statements body = r'.statements body' := by
  induction each with
  | nil => rfl
  | cons one _ ih => rw [Relabeling.statements, Relabeling.statements, one, ih]

inductive SameOperand (r r' : Relabeling) : Operand → Operand → Prop where
  | head {id id'} (same : SameName r r' id id') : SameOperand r r' (.head id) (.head id')
  | tail {e e'} (same : SameExpression r r' e e') : SameOperand r r' (.tail e) (.tail e')

structure SamePending (r r' : Relabeling) (p p' : Pending) : Prop where
  left : SameExpression r r' p.left p'.left
  operator : p.operator = p'.operator

theorem joinAgrees {left left' right right'} (op : Operator)
    (first : SameExpression r r' left left') (second : SameExpression r r' right right') :
    SameExpression r r' (join left op right) (join left' op right') := by
  simp only [SameExpression, join, Relabeling.expression, first, second,
    twinsThrough (expressionSpans first) (expressionSpans second)]

theorem resolveAgrees {pending pending' e e'}
    (waiting : List.Forall₂ (SamePending r r') pending pending') (last : SameExpression r r' e e') :
    SameExpression r r' (resolve pending e) (resolve pending' e') := by
  induction waiting generalizing e e' with
  | nil => exact last
  | @cons p p' _ _ one _ ih =>
    have joined : SameExpression r r' (join p.left p.operator e)
        (join p'.left p'.operator e') := by
      rw [one.operator]
      exact joinAgrees p'.operator one.left last
    exact ih joined

section Levels
variable {argument : Production Expression} {inner : Production Statement} {budget : Nat}

theorem blockMirrors (statements : Mirrors r r' (SameStatement r r') inner inner) :
    Mirrors r r' (fun b b' => r.block b = r'.block b') (block inner budget)
      (block inner budget) := by
  refine mirrorsBind (mirrorsEnclosed statements) fun list list' same => mirrorsPure ?_
  simp only [Relabeling.block, same.1, statementsAgree same.2]

theorem functionMirrors (statements : Mirrors r r' (SameStatement r r') inner inner) :
    Mirrors r r' (SameFunction r r') (functionDef inner budget) (functionDef inner budget) := by
  refine mirrorsBind (mirrorsExpect _) fun _ _ word => ?_
  refine mirrorsBind (mirrorsAccept _) fun name name' both => ?_
  refine mirrorsBind (mirrorsEnclosed (mirrorsSeparated identifierMirrors)) fun _ _ params => ?_
  refine mirrorsBind (blockMirrors statements) fun b b' body => mirrorsPure ?_
  have names : (name.map Identifier.ofToken).map r.identifier =
      (name'.map Identifier.ofToken).map r'.identifier := by
    cases both with
    | none => rfl
    | some twins => exact congrArg some (identifierTwins twins)
  have spans : r.span b.span = r'.span b'.span := by
    rw [← r.blockSpan, ← r'.blockSpan, body]
  simp only [SameFunction, Relabeling.function, names, listsAgree params.2, body,
    twinsThrough word.span spans]

theorem operandMirrors (statements : Mirrors r r' (SameStatement r r') inner inner) :
    Mirrors r r' (SameOperand r r') (operand inner budget) (operand inner budget) := by
  have lit : Mirrors r r' (SameOperand r r')
      (literal >>= fun lit => pure (.tail (.literal lit)))
      (literal >>= fun lit => pure (.tail (.literal lit))) := by
    refine mirrorsBind literalMirrors fun _ _ same => mirrorsPure (.tail ?_)
    simp only [SameExpression, Relabeling.expression, same]
  refine mirrorsPeek fun next => ?_
  split
  · refine mirrorsBind (functionMirrors statements) fun _ _ same => mirrorsPure (.tail ?_)
    simp only [SameExpression, Relabeling.expression, same]
  · exact lit
  · exact lit
  · exact mirrorsBind identifierMirrors fun _ _ same => mirrorsPure (.head same)

variable (arguments : Mirrors r r' (SameExpression r r') argument argument)
include arguments

theorem callMirrors {callee callee'} (same : SameExpression r r' callee callee') :
    Mirrors r r' (SameExpression r r') (call argument budget callee)
      (call argument budget callee') := by
  refine mirrorsBind (mirrorsEnclosed (mirrorsSeparated arguments)) fun list list' given => ?_
  refine mirrorsBind (mirrorsAccept _) fun _ _ semicolon => mirrorsPure ?_
  have stops := elimStops semicolon (spanStops given.1)
  simp only [SameExpression, Relabeling.expression, same, expressionsAgree given.2,
    sameSpan (spanStarts (expressionSpans same)) stops]

omit arguments in
theorem memberMirrors {object object'} (same : SameExpression r r' object object') :
    Mirrors r r' (SameExpression r r') (member object) (member object') := by
  refine mirrorsBind (mirrorsExpect _) fun _ _ _ => ?_
  refine mirrorsBind identifierMirrors fun _ _ name => mirrorsPure ?_
  simp only [SameExpression, Relabeling.expression, same, name,
    twinsThrough (expressionSpans same) (nameSpans name)]

theorem continuedMirrors {operand : Production Operand}
    (operands : Mirrors r r' (SameOperand r r') operand operand) {pending pending' e e'}
    (waiting : List.Forall₂ (SamePending r r') pending pending') (same : SameExpression r r' e e') :
    Mirrors r r' (SameExpression r r') (continued argument operand budget pending e)
      (continued argument operand budget pending' e') := by
  induction budget generalizing pending pending' e e' with
  | zero => exact mirrorsFail []
  | succ budget ih =>
    refine mirrorsPeek fun next => ?_
    split
    · exact mirrorsBind (callMirrors arguments same) fun _ _ called => ih waiting called
    · exact mirrorsBind (memberMirrors same) fun _ _ accessed => ih waiting accessed
    · rename_i op
      refine mirrorsBind (mirrorsExpect _) fun _ _ _ => ?_
      refine mirrorsBind operands fun _ _ right => ?_
      cases right with
      | head id => exact ih (.cons ⟨same, rfl⟩ waiting) (congrArg Expression.identifier id)
      | tail right => exact ih waiting (joinAgrees op same right)
    · exact mirrorsPure (resolveAgrees waiting same)

theorem expressionMirrors (statements : Mirrors r r' (SameStatement r r') inner inner) :
    Mirrors r r' (SameExpression r r') (Grammar.expression argument inner budget)
      (Grammar.expression argument inner budget) := by
  refine mirrorsBind (operandMirrors statements) fun _ _ first => ?_
  cases first with
  | head id =>
    exact continuedMirrors arguments (operandMirrors statements) .nil
      (congrArg Expression.identifier id)
  | tail same => exact mirrorsPure same

end Levels

section Statements
variable {expression : Production Expression} {inner : Production Statement} {budget : Nat}
variable (expressions : Mirrors r r' (SameExpression r r') expression expression)
include expressions

theorem declaratorMirrors :
    Mirrors r r' (fun d d' => r.declarator d = r'.declarator d' ∧ r.span d.span = r'.span d'.span)
      (declarator expression) (declarator expression) := by
  refine mirrorsBind identifierMirrors fun _ _ id => ?_
  refine mirrorsBind (mirrorsAccept _) fun _ _ assign => ?_
  cases assign with
  | none =>
    refine mirrorsPure ⟨?_, nameSpans id⟩
    simp only [Relabeling.declarator, id, nameSpans id]
  | some =>
    refine mirrorsBind expressions fun _ _ init => mirrorsPure ?_
    have spans := twinsThrough (nameSpans id) (expressionSpans init)
    refine ⟨?_, spans⟩
    simp only [Relabeling.declarator, id, init, spans]

theorem declaratorsMirrors {stop stop'} (same : SameOffset r r' stop stop') :
    Mirrors r r' (fun read read' => SameOffset r r' read.1 read'.1 ∧
      r.declarators read.2 = r'.declarators read'.2) (declarators expression budget stop)
      (declarators expression budget stop') := by
  induction budget generalizing stop stop' with
  | zero => exact mirrorsFail []
  | succ budget ih =>
    refine mirrorsBind (mirrorsAccept _) fun _ _ semicolon => ?_
    cases semicolon with
    | some twins => exact mirrorsPure ⟨spanStops twins.span, rfl⟩
    | none =>
      refine mirrorsPeekSecond fun next => ?_
      split
      · refine mirrorsBind (declaratorMirrors expressions) fun _ _ first => ?_
        refine mirrorsBind (mirrorsAccept _) fun _ _ comma => ?_
        refine mirrorsBind (ih (elimStops comma (spanStops first.2))) fun _ _ others => ?_
        refine mirrorsPure ⟨others.1, ?_⟩
        simp only [Relabeling.declarators, first.1, others.2]
      · exact mirrorsPure ⟨same, rfl⟩

theorem variablesMirrors (sort : VariableKind) :
    Mirrors r r' (fun d d' => r.vars d = r'.vars d') (variableDeclaration expression budget sort)
      (variableDeclaration expression budget sort) := by
  refine mirrorsBind (mirrorsExpect _) fun _ _ word => ?_
  refine mirrorsBind (declaratorsMirrors expressions (spanStops word.span)) fun _ _ read => ?_
  refine mirrorsPure ?_
  simp only [Relabeling.vars, read.2, sameSpan (spanStarts word.span) read.1]

theorem declaredMirrors (sort : VariableKind) {start start'} (same : SameOffset r r' start start') :
    Mirrors r r' (SameStatement r r')
      (variableDeclaration expression budget sort >>= fun d => pure (exportDeclared start (.vars d)))
      (variableDeclaration expression budget sort >>= fun d =>
        pure (exportDeclared start' (.vars d))) := by
  refine mirrorsBind (variablesMirrors expressions sort) fun d d' both => mirrorsPure ?_
  have spans : r.span d.span = r'.span d'.span := by
    cases d
    cases d'
    exact congrArg VariableDeclaration.span both
  simp only [SameStatement, exportDeclared, Relabeling.statement, Relabeling.declaration, both,
    Declaration.span, sameSpan same (spanStops spans), List.map_nil, Option.map_none]

theorem defaultMirrors {function : Production FunctionDef}
    (functions : Mirrors r r' (SameFunction r r') function function) :
    Mirrors r r' (fun d d' => r.defaultDeclaration d = r'.defaultDeclaration d' ∧
      r.span d.span = r'.span d'.span) (defaultDeclaration expression function)
      (defaultDeclaration expression function) := by
  refine mirrorsBind (mirrorsExpect _) fun _ _ _ => mirrorsPeek fun next => ?_
  split
  · refine mirrorsBind expressions fun _ _ same => mirrorsPure ⟨?_, expressionSpans same⟩
    simp only [Relabeling.defaultDeclaration, same]
  · refine mirrorsBind functions fun _ _ same => mirrorsPure ⟨?_, functionSpans same⟩
    simp only [Relabeling.defaultDeclaration, same]
  · exact mirrorsFail _

omit expressions in
theorem exportListMirrors {start start'} (same : SameOffset r r' start start') :
    Mirrors r r' (SameStatement r r') (exportList start budget) (exportList start' budget) := by
  refine mirrorsBind (mirrorsEnclosed (mirrorsListed exportSpecifierMirrors)) fun a b list => ?_
  refine mirrorsBind otherSourceMirrors fun source source' from' => mirrorsPure ?_
  have stops : SameOffset r r' (source.elim a.1.stop (·.span.stop))
      (source'.elim b.1.stop (·.span.stop)) := by
    cases from' with
    | none => exact spanStops list.1
    | some literal => exact spanStops (literalSpans literal)
  simp only [SameStatement, Relabeling.statement, listsAgree list.2, optionsAgree from',
    sameSpan same stops]

omit expressions in
theorem exportAllMirrors {start start'} (same : SameOffset r r' start start') :
    Mirrors r r' (fun d d' => r.exportAll d = r'.exportAll d') (exportAll start)
      (exportAll start') := by
  refine mirrorsBind (mirrorsExpect _) fun _ _ _ => ?_
  refine mirrorsBind otherNameMirrors fun _ _ name => ?_
  refine mirrorsBind (mirrorsExpect _) fun _ _ _ => ?_
  refine mirrorsBind moduleSourceMirrors fun _ _ source => mirrorsPure ?_
  simp only [Relabeling.exportAll, optionsAgree name, source,
    sameSpan same (spanStops (literalSpans source))]

theorem exportsMirrors {function : Production FunctionDef}
    (functions : Mirrors r r' (SameFunction r r') function function) :
    Mirrors r r' (SameStatement r r') (exports expression function budget)
      (exports expression function budget) := by
  refine mirrorsBind (mirrorsExpect _) fun _ _ word => mirrorsPeek fun next => ?_
  have start := spanStarts word.span
  split
  · refine mirrorsBind (defaultMirrors expressions functions) fun _ _ same => mirrorsPure ?_
    simp only [SameStatement, Relabeling.statement, same.1, sameSpan start (spanStops same.2)]
  · exact exportListMirrors start
  · exact declaredMirrors expressions _ start
  · exact declaredMirrors expressions _ start
  · exact declaredMirrors expressions _ start
  · refine mirrorsBind functions fun _ _ same => mirrorsPure ?_
    simp only [SameStatement, exportDeclared, Relabeling.statement, Relabeling.declaration, same,
      Declaration.span, sameSpan start (spanStops (functionSpans same)), List.map_nil,
      Option.map_none]
  · refine mirrorsBind (exportAllMirrors start) fun _ _ same => mirrorsPure ?_
    simp only [SameStatement, Relabeling.statement, same]

theorem returnsMirrors :
    Mirrors r r' (SameStatement r r') (returns expression) (returns expression) := by
  refine mirrorsBind (mirrorsExpect _) fun _ _ word => ?_
  refine mirrorsBind expressions fun _ _ same => mirrorsPure ?_
  simp only [SameStatement, Relabeling.statement, same,
    twinsThrough word.span (expressionSpans same)]

theorem unterminatedMirrors (statements : Mirrors r r' (SameStatement r r') inner inner) :
    Mirrors r r' (SameStatement r r') (unterminated expression inner budget)
      (unterminated expression inner budget) := by
  have declared (sort : VariableKind) : Mirrors r r' (SameStatement r r')
      (variableDeclaration expression budget sort >>= fun d => pure (.vars d))
      (variableDeclaration expression budget sort >>= fun d => pure (.vars d)) := by
    refine mirrorsBind (variablesMirrors expressions sort) fun _ _ same => mirrorsPure ?_
    simp only [SameStatement, Relabeling.statement, same]
  refine mirrorsPeek fun next => ?_
  split
  · refine mirrorsBind (functionMirrors statements) fun _ _ same => mirrorsPure ?_
    simp only [SameStatement, Relabeling.statement, same]
  · refine mirrorsBind expressions fun _ _ same => mirrorsPure ?_
    simp only [SameStatement, Relabeling.statement, same, expressionSpans same]
  · refine mirrorsBind (blockMirrors statements) fun _ _ same => mirrorsPure ?_
    simp only [SameStatement, Relabeling.statement, same]
  · exact returnsMirrors expressions
  · refine mirrorsBind (importsMirrors budget) fun _ _ same => mirrorsPure ?_
    simp only [SameStatement, Relabeling.statement, same]
  · exact exportsMirrors expressions (functionMirrors statements)
  · exact declared .letKind
  · exact declared .constKind
  · exact declared .varKind
  · exact mirrorsFail leads

theorem statementMirrors (statements : Mirrors r r' (SameStatement r r') inner inner) :
    Mirrors r r' (SameStatement r r') (statement expression inner budget)
      (statement expression inner budget) :=
  mirrorsBind (unterminatedMirrors expressions statements) fun _ _ same =>
    mirrorsBind (mirrorsAccept _) fun _ _ _ => mirrorsPure same

end Statements

theorem levelsMirror (level : Nat) :
    Mirrors r r' (SameExpression r r') (Productions.upTo level).expression
      (Productions.upTo level).expression ∧
    Mirrors r r' (SameStatement r r') (Productions.upTo level).statement
      (Productions.upTo level).statement := by
  induction level with
  | zero => exact ⟨mirrorsFail [], mirrorsFail []⟩
  | succ level ih =>
    have expressions : Mirrors r r' (SameExpression r r') (Productions.upTo (level + 1)).expression
        (Productions.upTo (level + 1)).expression := expressionMirrors ih.1 ih.2
    exact ⟨expressions, statementMirrors expressions ih.2⟩

theorem programAgrees {body body'} (same : List.Forall₂ (SameStatement r r') body body') :
    r.program (.ofStatements body) = r'.program (.ofStatements body') := by
  have last (r : Relabeling) (body : List Statement) :
      (body.getLast?.map (·.span.stop)).map r.offset =
        (body.map r.statement).getLast?.map (·.span.stop) := by
    rw [List.getLast?_map, Option.map_map, Option.map_map]
    congr 1
    funext s
    exact (congrArg Span.stop (r.statementSpan s)).symm
  simp only [Relabeling.program, Program.ofStatements, last, listsAgree same, statementsAgree same]

theorem programMirrors :
    Mirrors r r' (fun p p' => r.program p = r'.program p') program program := by
  intro ts us twins
  have all : Mirrors r r' _ (statements (ts.length + 1)) (statements (ts.length + 1)) :=
    mirrorsMany none (levelsMirror (ts.length + 1)).2 (ts.length + 1)
  have whole : Mirrors r r' (fun p p' => r.program p = r'.program p')
      (statements (ts.length + 1) >>= fun body => pure (Program.ofStatements body))
      (statements (ts.length + 1) >>= fun body => pure (Program.ofStatements body)) :=
    mirrorsBind all fun _ _ same => mirrorsPure (programAgrees same)
  have both := whole twins
  have count : ts.length = us.length := twins.length_eq
  unfold program
  rw [← count]
  exact both

end Grammar

end ScriptTree
