import ScriptTree.Proofs.Following
import ScriptTree.Proofs.Stack
/-! Every parser follows its production, and so what a parser answers depends on the tokens from
the cursor on. The place of an error at the end is the one thing that is taken from all of them. -/
namespace ScriptTree

open Grammar (Production Productions front accept expect bindAssociates bindSame peekThen frontSome)

def Grammar.Operand.opening : Grammar.Operand → Expression × Bool
  | .head id => (.identifier id, true)
  | .tail e => (e, false)

namespace Session

section Expressions
variable {s : Session} {budget : Nat} {inner : Parser Statement} {inner' : Production Statement}
variable {argument : Parser Expression} {argument' : Production Expression}

theorem followsBlock (statements : ∀ s : Session, s.Follows Same inner inner') :
    s.Follows (Ending (·.span.stop)) (Parser.block inner budget) (Grammar.block inner' budget) :=
  followsEnclosed statements budget fun stop => followsPure ⟨rfl, stop⟩

theorem followsName :
    s.Follows (fun name t after => name = .ofToken t ∧ after.lastStop = t.span.stop)
      Parser.identifier (expect .identifier) := by
  rw [← bindPure (expect .identifier)]
  refine followsBind (followsOneOf [.identifier]) ?_
  rintro t u after ⟨rfl, _, stop⟩
  exact followsPure ⟨rfl, stop⟩

theorem followsAccepted {same : α → β → Session → Prop} (kind : Kind) {found none : Parser α}
    {further : Option Token → Production β}
    (accepted : s.Follows same found (expect kind >>= fun t => further (some t)))
    (other : s.Follows same none (further .none)) :
    s.Follows same (Parser.currentIs kind >>= fun is => if is = true then found else none)
      (accept kind >>= further) := by
  refine followsLook (runIs s kind) ?_
  cases ahead : s.ahead with
  | nil => exact followsSame (by rw [ahead]; rfl) other
  | cons t rest =>
    by_cases fits : t.kind = kind
    · rw [if_pos (by simp [fits])]
      refine followsSame ?_ accepted
      simp [ahead, accept, expect, Grammar.oneOf, fits]
    · rw [if_neg (by simp [fits])]
      refine followsSame ?_ other
      simp [ahead, accept, fits]

theorem followsOptionalName :
    s.Follows (fun name o _ => name = o.map .ofToken) Parser.optionalName (accept .identifier) := by
  rw [← bindPure (accept .identifier)]
  refine followsAccepted .identifier ?_ (followsPure rfl)
  refine followsBind followsName ?_
  rintro _ t after ⟨rfl, _⟩
  exact followsPure rfl

theorem followsFunction (statements : ∀ s : Session, s.Follows Same inner inner') :
    s.Follows (Ending (·.span.stop)) (Parser.functionDef inner budget)
      (Grammar.functionDef inner' budget) := by
  refine followsBind (followsExpect _) ?_
  rintro _ word after ⟨rfl, _⟩
  refine followsBind followsOptionalName ?_
  rintro _ name after rfl
  refine followsBind (followsParameters (fun _ => followsIdentifier.weaken And.left) budget) ?_
  rintro _ ⟨span, params⟩ after ⟨rfl, _⟩
  refine followsBind (followsBlock statements) ?_
  rintro body _ after ⟨rfl, stop⟩
  exact followsPure ⟨rfl, stop⟩

abbrev SameOperand (first : Expression × Bool) (o : Grammar.Operand) (after : Session) : Prop :=
  first = o.opening ∧ after.lastStop = first.1.span.stop

theorem followsTail : s.Follows SameOperand
    (Parser.literal >>= fun lit => pure (Expression.literal lit, false))
    (Grammar.literal >>= fun lit => pure (Grammar.Operand.tail (.literal lit))) := by
  refine followsBind followsLiteral ?_
  rintro lit _ after ⟨rfl, stop⟩
  exact followsPure ⟨rfl, stop⟩

theorem followsOperand (statements : ∀ s : Session, s.Follows Same inner inner') :
    s.Follows SameOperand (Parser.operand inner budget) (Grammar.operand inner' budget) := by
  refine followsLook (runIs s _) (followsPeek ?_)
  have literals := runIn s Parser.literals
  generalize front s.ahead = next at literals
  by_cases word : next = some (.keyword .functionWord)
  · subst word
    refine followsBind (followsFunction statements) ?_
    rintro f _ after ⟨rfl, stop⟩
    exact followsPure ⟨rfl, stop⟩
  rw [if_neg (by simpa using word)]
  refine followsLook literals ?_
  by_cases number : next = some .number
  · subst number
    exact followsTail
  by_cases string : next = some .string
  · subst string
    exact followsTail
  have other : next.any (· ∈ Parser.literals) = false := by
    cases next <;> simp_all [Parser.literals]
  rw [other, if_neg Bool.false_ne_true]
  split <;> first
    | contradiction
    | refine followsBind followsIdentifier ?_
      rintro id _ after ⟨rfl, stop⟩
      exact followsPure ⟨rfl, stop⟩

theorem followsCall {callee : Expression}
    (arguments : ∀ s : Session, s.Follows Same argument argument') :
    s.Follows (Ending (·.span.stop)) (Parser.call argument budget callee)
      (Grammar.call argument' budget callee) := by
  refine followsBind (followsParameters arguments budget) ?_
  rintro _ ⟨span, values⟩ after ⟨rfl, stop⟩
  refine followsAccepted _ ?_ (followsPure ⟨rfl, stop⟩)
  refine followsBind (followsExpect _) ?_
  rintro _ semicolon after ⟨rfl, stop⟩
  exact followsPure ⟨rfl, stop⟩

theorem followsMember {object : Expression} :
    s.Follows (Ending (·.span.stop)) (Parser.member object) (Grammar.member object) := by
  refine followsBind (followsExpect _) ?_
  rintro _ dot after _
  refine followsBind followsIdentifier ?_
  rintro property _ after ⟨rfl, stop⟩
  exact followsPure ⟨rfl, stop⟩

theorem followsChain {operand : Parser (Expression × Bool)} {operand' : Production Grammar.Operand}
    (arguments : ∀ s : Session, s.Follows Same argument argument')
    (operands : ∀ s : Session, s.Follows SameOperand operand operand')
    {pending : List Grammar.Pending} {chained : Bool} {left : Expression}
    (stop : s.lastStop = left.span.stop) :
    s.Follows (Ending (·.span.stop)) (Parser.chain argument operand budget pending chained left)
      (Grammar.stacked argument' operand' budget pending chained left) := by
  induction budget generalizing s pending chained left with
  | zero => exact followsFailed rfl
  | succ budget ih =>
    have completes : s.Follows (Ending (·.span.stop))
        (Parser.chain argument operand (budget + 1) pending false left)
        (Grammar.stacked argument' operand' (budget + 1) pending false left) := by
      refine followsLook (runPure s none) ?_
      cases pending with
      | nil => exact followsPure ⟨rfl, stop⟩
      | cons p pending => exact ih stop
    cases chained with
    | false => exact completes
    | true =>
      refine followsLook (runKind s) (followsPeek ?_)
      generalize front s.ahead = next
      dsimp only
      split
      · refine followsBind (followsCall arguments) ?_
        rintro wider _ after ⟨rfl, stop⟩
        exact ih stop
      · refine followsBind followsMember ?_
        rintro wider _ after ⟨rfl, stop⟩
        exact ih stop
      · refine followsBind (followsExpect _) ?_
        rintro _ sign after _
        refine followsBind (operands after) ?_
        rintro _ o after ⟨rfl, stop⟩
        cases o <;> exact ih stop
      · rename_i sign
        -- Where nothing goes on, the loop does as it does where nothing may.
        refine followsSame ?_ completes
        split <;> first | contradiction | exact (sign _ rfl).elim | rfl

theorem followsExpression (statements : ∀ s : Session, s.Follows Same inner inner')
    (arguments : ∀ s : Session, s.Follows Same argument argument') :
    s.Follows (Ending (·.span.stop)) (Parser.expression argument inner budget)
      (Grammar.stackedExpression argument' inner' budget) := by
  refine followsBind (followsOperand statements) ?_
  rintro _ o after ⟨rfl, stop⟩
  cases o <;> exact followsChain arguments (fun _ => followsOperand statements) stop

def Literally (p : Production Expression) : Prop :=
  ∀ {tokens}, (front tokens).any (· ∈ Parser.literals) →
    p tokens = (Grammar.literal >>= fun lit => pure (.literal lit)) tokens

theorem expressionLiterally : Literally (Grammar.stackedExpression argument' inner' budget) := by
  intro tokens literal
  have kinds : front tokens = some .number ∨ front tokens = some .string := by
    generalize front tokens = next at literal
    cases next <;> simp_all [Parser.literals]
  rw [Grammar.stackedExpression, Grammar.operand, bindAssociates, peekThen]
  obtain found | found := kinds <;>
    · rw [found, bindAssociates]
      exact bindSame rfl fun _ _ _ => rfl

end Expressions

section Declarations
variable {s : Session} {budget : Nat} {e : Parser Expression} {e' : Production Expression}

theorem followsDeclarator (values : ∀ s : Session, s.Follows (Ending (·.span.stop)) e e')
    (literally : Literally e') :
    s.Follows (Ending (·.span.stop)) (Parser.declarator e) (Grammar.declarator e') := by
  refine followsBind followsIdentifier ?_
  rintro id _ after ⟨rfl, named⟩
  refine followsBind (followsSkipped _) ?_
  rintro _ assign after ⟨rfl, stop⟩
  cases assign with
  | none => exact followsPure ⟨rfl, stop.trans named⟩
  | some assign =>
    refine followsLook (runIn after _) ?_
    by_cases literal : (front after.ahead).any (· ∈ Parser.literals)
    · rw [if_pos literal]
      refine followsSame (bindSame (literally literal) fun _ _ _ => rfl) ?_
      rw [bindAssociates]
      refine followsBind followsLiteral ?_
      rintro lit _ after ⟨rfl, stop⟩
      exact followsPure ⟨rfl, stop⟩
    · rw [if_neg literal]
      refine followsBind (values after) ?_
      rintro init _ after ⟨rfl, stop⟩
      exact followsPure ⟨rfl, stop⟩

theorem followsDeclarators (values : ∀ s : Session, s.Follows (Ending (·.span.stop)) e e')
    (literally : Literally e') :
    s.Follows (fun ds found after => ds = found.2 ∧ after.lastStop = found.1)
      (Parser.declarators e budget) (Grammar.declarators e' budget s.lastStop) := by
  induction budget generalizing s with
  | zero => exact followsFailed rfl
  | succ budget ih =>
    rw [Parser.declarators, Parser.declarationEnded, bind_assoc]
    refine followsBind (followsSkipped _) ?_
    rintro _ semicolon after ⟨rfl, stop⟩
    cases semicolon with
    | some t => exact followsPure ⟨rfl, stop⟩
    | none =>
      simp only [Option.isSome_none, Bool.false_eq_true, if_false, bind_assoc, pure_bind]
      rw [← show after.lastStop = s.lastStop from stop]
      refine followsLook (runNext after) (followsPeekSecond ?_)
      rw [headIs]
      by_cases assigned : front (after.ahead.drop 1) = some (.punct .assign)
      · rw [if_pos assigned, if_neg (by simpa using assigned)]
        refine followsBind (followsDeclarator values literally) ?_
        rintro first _ after ⟨rfl, ends⟩
        refine followsBind (followsSkipped _) ?_
        rintro _ comma after ⟨rfl, stop⟩
        rw [ends] at stop
        rw [← stop]
        refine followsBind ih ?_
        rintro _ ⟨last, others⟩ after ⟨rfl, stop⟩
        exact followsPure ⟨rfl, stop⟩
      · rw [if_neg assigned, if_pos (by simpa using assigned)]
        exact followsPure ⟨rfl, rfl⟩

theorem variableKindWord {kind : Kind} {sort : VariableKind} :
    Parser.variableKind kind = some sort ↔ kind = .keyword (Grammar.variableWord sort) := by
  cases kind with
  | keyword word => cases word <;> cases sort <;> decide
  | _ => cases sort <;> simp [Parser.variableKind]

theorem followsVariables (values : ∀ s : Session, s.Follows (Ending (·.span.stop)) e e')
    (literally : Literally e') {kind : VariableKind}
    (led : front s.ahead = some (.keyword (Grammar.variableWord kind))) :
    s.Follows (Ending (·.span.stop)) (Parser.variableDeclaration e budget)
      (Grammar.variableDeclaration e' budget kind) := by
  obtain ⟨t, rest, found, word⟩ := frontSome led
  have kinds : Parser.variableKind t.kind = some kind := variableKindWord.mpr word
  refine followsLook (runCurrent s) ?_
  rw [found]
  simp only [List.head?_cons, Option.bind_some, kinds]
  refine followsTake found (List.mem_singleton.mpr word) ?_
  have stop := lastStopPassed found
  rw [← stop]
  refine followsBind (followsDeclarators values literally) ?_
  rintro _ ⟨last, ds⟩ after ⟨rfl, stop⟩
  refine followsLook (runPrevious after) (followsPure ?_)
  rw [stop]
  exact ⟨rfl, stop⟩

theorem followsDeclared (values : ∀ s : Session, s.Follows (Ending (·.span.stop)) e e')
    (literally : Literally e') (made : VariableDeclaration → Statement) {kind : VariableKind}
    (led : front s.ahead = some (.keyword (Grammar.variableWord kind))) :
    s.Follows Same (Parser.variableDeclaration e budget >>= fun d => pure (made d))
      (Grammar.variableDeclaration e' budget kind >>= fun d => pure (made d)) := by
  refine followsBind (followsVariables values literally led) ?_
  rintro declaration _ after ⟨rfl, _⟩
  exact followsPure rfl

end Declarations

section Modules
variable {s : Session} {budget : Nat}

theorem followsOtherName :
    s.Follows Same Parser.otherName Grammar.otherName := by
  refine followsBind (followsSkipped _) ?_
  rintro _ word after ⟨rfl, _⟩
  cases word with
  | none => exact followsPure rfl
  | some t =>
    refine followsBind followsIdentifier ?_
    rintro name _ after ⟨rfl, _⟩
    exact followsPure rfl

theorem followsRenamed : s.Follows Same Parser.renamed Grammar.renamed := by
  refine followsBind followsIdentifier ?_
  rintro name _ after ⟨rfl, _⟩
  rw [Grammar.otherName, bindAssociates]
  refine followsBind (followsSkipped _) ?_
  rintro _ word after ⟨rfl, _⟩
  cases word with
  | none => exact followsPure rfl
  | some t =>
    simp only [bindAssociates]
    refine followsBind followsIdentifier ?_
    rintro other _ after ⟨rfl, _⟩
    exact followsPure rfl

theorem followsNamedImport : s.Follows Same Parser.namedImport Grammar.namedImport := by
  refine followsBind followsRenamed ?_
  rintro names _ after rfl
  exact followsPure rfl

theorem followsNamedExport : s.Follows Same Parser.exportSpecifier Grammar.exportSpecifier := by
  refine followsBind followsRenamed ?_
  rintro names _ after rfl
  exact followsPure rfl

theorem followsDefaultImport : s.Follows Same Parser.defaultImport Grammar.defaultImport := by
  refine followsAccepted _ ?_ (followsPure rfl)
  refine followsBind followsName ?_
  rintro _ t after ⟨rfl, _⟩
  refine followsBind (followsSkipped _) ?_
  rintro skips comma after _
  exact followsPure rfl

theorem followsSkip {same : α → β → Session → Prop} {kind : Kind} {next : Bool → Parser α}
    {further : Token → Production β} (led : front s.ahead = some kind)
    (behind : ∀ {t} {after : Session}, after.Follows same (next true) (further t)) :
    s.Follows same (Parser.skipped kind >>= next) (expect kind >>= further) := by
  obtain ⟨t, rest, found, fits⟩ := frontSome led
  rw [Parser.skipped, bind_assoc]
  refine followsLook (runIs s kind) ?_
  rw [led, decide_eq_true rfl, if_pos rfl, bind_assoc]
  exact followsTake found (List.mem_singleton.mpr fits) behind

theorem runSkipsNot {kind : Kind} (other : front s.ahead ≠ some kind) :
    s.run (Parser.skipped kind) = (.ok false, s) := by
  rw [Parser.skipped, runBind, runIs, decide_eq_false other]
  rfl

theorem followsOtherImports :
    s.Follows Same (Parser.otherImports budget) (Grammar.otherImports budget) := by
  refine followsPeek ?_
  generalize led : front s.ahead = next
  split
  · rw [Grammar.braced, Grammar.enclosed]
    simp only [bindAssociates]
    refine followsSkip led ?_
    intro opening after
    refine followsBind (followsMany (some .braceRight)
      (fun _ => followsListed fun _ => followsNamedImport) budget) ?_
    rintro specifiers _ after rfl
    refine followsBind (followsExpect _) ?_
    rintro _ closing after _
    exact followsPure rfl
  · refine followsLook (runSkipsNot (by simp [led])) ?_
    refine followsLook (runIs s _) ?_
    rw [led, decide_eq_true rfl, if_pos rfl]
    refine followsBind (followsExpect _) ?_
    rintro _ star after ⟨rfl, _⟩
    refine followsBind (followsExpect _) ?_
    rintro _ renames after _
    refine followsBind followsIdentifier ?_
    rintro binding _ after ⟨rfl, _⟩
    exact followsPure rfl
  · rename_i brace star
    refine followsLook (runSkipsNot (led ▸ brace)) ?_
    refine followsLook (runIs s _) ?_
    rw [led, decide_eq_false star]
    exact followsPure rfl

theorem followsImports : s.Follows Same (Parser.imports budget) (Grammar.imports budget) := by
  refine followsBind (followsExpect _) ?_
  rintro _ word after ⟨rfl, _⟩
  refine followsBind followsDefaultImport ?_
  rintro first _ after rfl
  refine followsBind followsOtherImports ?_
  rintro others _ after rfl
  refine followsBind (followsSkipped _) ?_
  rintro skips origin after _
  refine followsBind followsSource ?_
  rintro source _ after ⟨rfl, _⟩
  exact followsPure rfl

theorem followsOtherSource : s.Follows Same Parser.otherSource Grammar.otherSource := by
  refine followsBind (followsSkipped _) ?_
  rintro _ word after ⟨rfl, _⟩
  cases word with
  | none => exact followsPure rfl
  | some t =>
    refine followsBind followsSource ?_
    rintro source _ after ⟨rfl, _⟩
    exact followsPure rfl

theorem followsExportSpecifiers : s.Follows SameList (Parser.exportSpecifiers budget)
    (Grammar.braced (Grammar.listed Grammar.exportSpecifier) budget) := by
  rw [← bindPure (Grammar.braced _ budget)]
  refine followsEnclosed (fun _ => followsListed fun _ => followsNamedExport) budget ?_
  intro opening list closing after stop
  exact followsPure ⟨rfl, stop⟩

theorem followsExportList (start : Nat) :
    s.Follows Same (Parser.exportList start budget) (Grammar.exportList start budget) := by
  refine followsBind followsExportSpecifiers ?_
  rintro _ ⟨span, specifiers⟩ after ⟨rfl, _⟩
  refine followsBind followsOtherSource ?_
  rintro source _ after rfl
  exact followsPure rfl

theorem followsExportAll (start : Nat) :
    s.Follows Same (Parser.exportAll start) (Grammar.exportAll start) := by
  refine followsBind (followsExpect _) ?_
  rintro _ star after _
  refine followsBind followsOtherName ?_
  rintro exported _ after rfl
  refine followsBind (followsExpect _) ?_
  rintro _ origin after _
  refine followsBind followsSource ?_
  rintro source _ after ⟨rfl, _⟩
  exact followsPure rfl

end Modules

section Statements
variable {s : Session} {budget : Nat} {e : Parser Expression} {e' : Production Expression}
variable {function : Parser FunctionDef} {function' : Production FunctionDef}
variable {inner : Parser Statement} {inner' : Production Statement}

theorem followsDefault (values : ∀ s : Session, s.Follows (Ending (·.span.stop)) e e')
    (functions : ∀ s : Session, s.Follows (Ending (·.span.stop)) function function') :
    s.Follows Same (Parser.defaultDeclaration e function)
      (Grammar.defaultDeclaration e' function') := by
  refine followsBind (followsExpect _) ?_
  rintro _ word after _
  refine followsLook (runKind after) (followsPeek ?_)
  generalize front after.ahead = next
  cases next with
  | none => exact followsFailed rfl
  | some kind =>
    cases kind with
    | identifier =>
      refine followsBind (values after) ?_
      rintro value _ after ⟨rfl, _⟩
      exact followsPure rfl
    | keyword word =>
      cases word with
      | functionWord =>
        refine followsBind (functions after) ?_
        rintro f _ after ⟨rfl, _⟩
        exact followsPure rfl
      | _ => exact followsFailed rfl
    | _ => exact followsFailed rfl

theorem followsExports (values : ∀ s : Session, s.Follows (Ending (·.span.stop)) e e')
    (literally : Literally e')
    (functions : ∀ s : Session, s.Follows (Ending (·.span.stop)) function function') :
    s.Follows Same (Parser.exports e function budget) (Grammar.exports e' function' budget) := by
  refine followsBind (followsExpect _) ?_
  rintro _ word after ⟨rfl, _⟩
  refine followsLook (runKind after) (followsPeek ?_)
  generalize led : front after.ahead = next
  split
  · refine followsBind (followsDefault values functions) ?_
    rintro declaration _ after rfl
    exact followsPure rfl
  · exact followsExportList _
  · exact followsDeclared values literally _ led
  · exact followsDeclared values literally _ led
  · exact followsDeclared values literally _ led
  · refine followsBind (functions after) ?_
    rintro f _ after ⟨rfl, _⟩
    exact followsPure rfl
  · split <;> first
      | contradiction
      | refine followsBind (followsExportAll _) ?_
        rintro everything _ after rfl
        exact followsPure rfl

theorem followsReturns (values : ∀ s : Session, s.Follows (Ending (·.span.stop)) e e') :
    s.Follows Same (Parser.returns e) (Grammar.returns e') := by
  refine followsBind (followsExpect _) ?_
  rintro _ word after ⟨rfl, _⟩
  refine followsBind (values after) ?_
  rintro argument _ after ⟨rfl, _⟩
  exact followsPure rfl

theorem followsUnterminated (values : ∀ s : Session, s.Follows (Ending (·.span.stop)) e e')
    (literally : Literally e') (statements : ∀ s : Session, s.Follows Same inner inner') :
    s.Follows Same (Parser.unterminated e inner budget) (Grammar.unterminated e' inner' budget) := by
  refine followsLook (runKind s) (followsPeek ?_)
  generalize led : front s.ahead = next
  split
  · refine followsBind (followsFunction statements) ?_
    rintro f _ after ⟨rfl, _⟩
    exact followsPure rfl
  · refine followsBind (values s) ?_
    rintro value _ after ⟨rfl, _⟩
    exact followsPure rfl
  · refine followsBind (followsBlock statements) ?_
    rintro b _ after ⟨rfl, _⟩
    exact followsPure rfl
  · exact followsReturns values
  · refine followsBind followsImports ?_
    rintro declaration _ after rfl
    exact followsPure rfl
  · exact followsExports values literally fun _ => followsFunction statements
  · exact followsDeclared values literally _ led
  · exact followsDeclared values literally _ led
  · exact followsDeclared values literally _ led
  · split <;> first | contradiction | exact followsFailed rfl

theorem followsStatement (values : ∀ s : Session, s.Follows (Ending (·.span.stop)) e e')
    (literally : Literally e') (statements : ∀ s : Session, s.Follows Same inner inner') :
    s.Follows Same (Parser.statement e inner budget) (Grammar.statement e' inner' budget) := by
  refine followsBind (followsUnterminated values literally statements) ?_
  rintro st _ after rfl
  refine followsBind (followsSkipped _) ?_
  rintro skips semicolon after _
  exact followsPure rfl

end Statements

theorem followsLevels (level : Nat) :
    (∀ s : Session, s.Follows (Ending (·.span.stop)) (Parser.Nesting.upTo level).expression
      (Productions.reading Grammar.stackedExpression level).expression) ∧
    ∀ s : Session, s.Follows Same (Parser.Nesting.upTo level).statement
      (Productions.reading Grammar.stackedExpression level).statement := by
  induction level with
  | zero => exact ⟨fun _ => followsFailed rfl, fun _ => followsFailed rfl⟩
  | succ level ih =>
    obtain ⟨arguments, statements⟩ := ih
    have values (s : Session) : s.Follows (Ending (·.span.stop))
        (Parser.Nesting.upTo (level + 1)).expression
        (Productions.reading Grammar.stackedExpression (level + 1)).expression :=
      followsExpression statements fun s => (arguments s).weaken And.left
    exact ⟨values, fun _ => followsStatement values expressionLiterally statements⟩

theorem Follows.read {s : Session} {parser : Parser α} {p : Production α}
    (follows : s.Follows Same parser p) : s.run parser = s.read p := by
  unfold Session.read
  unfold Follows at follows
  generalize s.run parser = answer, p s.ahead = outcome at follows
  cases follows with
  | done split values => rw [values]
  | failed split => rfl

section Levels
variable {s : Session} {level : Nat}

theorem stackedFamilies (level : Nat) : Grammar.AlikeFamilies level
    (Productions.reading Grammar.stackedExpression level) (Productions.upTo level) :=
  Grammar.readingAlike Grammar.stackedAlike (Nat.le_refl level) (Nat.le_refl level)

theorem readsAlike {p q : Production α} (alike : p s.ahead = q s.ahead) : s.read p = s.read q := by
  simp only [Session.read, alike]

theorem runsExpression (enough : s.ahead.length < level) :
    s.run (Parser.Nesting.upTo level).expression = s.read (Productions.upTo level).expression :=
  (((followsLevels level).1 s).weaken And.left).read.trans
    (readsAlike ((stackedFamilies level).expressions enough).same)

theorem runsStatement (enough : s.ahead.length < level) :
    s.run (Parser.Nesting.upTo level).statement = s.read (Productions.upTo level).statement :=
  ((followsLevels level).2 s).read.trans
    (readsAlike ((stackedFamilies level).statements enough).same)

theorem runsUnterminated (enough : s.ahead.length < level) :
    s.run (Parser.unterminated (Parser.Nesting.upTo (level + 1)).expression
        (Parser.Nesting.upTo level).statement level) =
      s.read (Grammar.unterminated (Productions.upTo (level + 1)).expression
        (Productions.upTo level).statement level) := by
  have follows : s.Follows Same
      (Parser.unterminated (Parser.Nesting.upTo (level + 1)).expression
        (Parser.Nesting.upTo level).statement level) _ :=
    followsUnterminated (followsLevels (level + 1)).1 expressionLiterally (followsLevels level).2
  have alike := Grammar.unterminatedAlike (stackedFamilies (level + 1)).expressions
    (stackedFamilies level).statements (Nat.le_of_lt enough) (Nat.le_of_lt enough)
    (Nat.le_of_lt enough)
  exact follows.read.trans (readsAlike alike.same)

end Levels

theorem followsProgram (s : Session) : s.Follows Same Parser.program Grammar.program := by
  have size : s.tokens.toArray.size = s.tokens.length := List.size_toArray
  have shorter : s.ahead.length ≤ s.tokens.length := by
    rw [ahead, List.length_drop]
    exact Nat.sub_le _ _
  have buffer : s.run MonadReader.read = (.ok s.tokens.toArray, s) := rfl
  have families : Grammar.AlikeFamilies (s.ahead.length + 1)
      (Productions.reading Grammar.stackedExpression (s.tokens.length + 1))
      (Productions.upTo (s.ahead.length + 1)) :=
    Grammar.readingAlike Grammar.stackedAlike (by omega) (Nat.le_refl _)
  have alike : Grammar.Alike 0
      (Grammar.many none
        (Productions.reading Grammar.stackedExpression (s.tokens.length + 1)).statement
        (s.tokens.length + 1))
      (Grammar.statements (s.ahead.length + 1)) s.ahead :=
    Grammar.manyAlike families.statements (Nat.lt_succ_self _) (by omega) (Nat.lt_succ_self _)
  refine followsLook buffer ?_
  rw [size]
  refine followsSame (bindSame alike.same.symm fun _ _ _ => rfl) ?_
  refine followsBind (followsMany none (followsLevels _).2 _) ?_
  rintro body _ after rfl
  exact followsPure rfl

theorem readsProgram (s : Session) : s.readProgram = s.read Grammar.program :=
  (followsProgram s).read

theorem aheadAll (tokens : List Token) : (ofTokens tokens).ahead = tokens := List.drop_zero

theorem leavingTokens (tokens rest : List Token) :
    (ofTokens tokens).leaving rest = ⟨tokens, tokens.length - rest.length⟩ := by
  rw [leaving, aheadAll]
  exact congrArg _ (Nat.zero_add _)

theorem readsTokens (tokens : List Token) : (ofTokens tokens).readProgram =
    match Grammar.program tokens with
    | .done p rest => (.ok p, (ofTokens tokens).leaving rest)
    | .failed expected rest =>
      (.error ((ofTokens tokens).refusal expected rest), (ofTokens tokens).leaving rest) := by
  rw [readsProgram, Session.read, aheadAll]
  cases Grammar.program tokens <;> rfl

end Session

end ScriptTree
