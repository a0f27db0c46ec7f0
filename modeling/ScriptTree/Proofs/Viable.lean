import ScriptTree.Proofs.SteadyList
import ScriptTree.Proofs.Resumption
/-! Whatever a failing reading expected can stand where it failed. Each production is steady, and a
program that goes on with a token of an expected kind is refused nowhere but at its end. -/
namespace ScriptTree.Grammar

variable {limit b : Nat} {left : Token → Prop}

theorem oneOfRefuses {kinds : List Kind} {tokens : List Token}
    (other : ∀ kind ∈ kinds, front tokens ≠ some kind) :
    oneOf kinds tokens = .failed kinds tokens := by
  cases tokens with
  | nil => rfl
  | cons t rest => exact if_neg fun listed => other t.kind listed rfl

theorem bindRefuses {p : Production α} {f : α → Production β} {tokens expected rest}
    (failed : p tokens = .failed expected rest) : (p >>= f) tokens = .failed expected rest := by
  rw [Production.bindApply, failed]

theorem identifierLeads : Leads limit [.identifier] takesAll identifier :=
  leadsMade (leadsExpect (by decide))

theorem identifierRefuses {tokens : List Token} (other : front tokens ≠ some .identifier) :
    identifier tokens = .failed [.identifier] tokens :=
  bindRefuses (oneOfRefuses (by simpa using other))

theorem literalLeads : Leads limit [.number, .string] takesAll literal :=
  leadsMade (leadsOneOf (by decide))

theorem moduleSourceLeads : Leads limit [.string] takesAll moduleSource :=
  leadsMade (leadsExpect (by decide))

theorem otherNameSteady : Steady limit 0 takesAll otherName := by
  refine steadyThen steadyAccept fun word => ?_
  cases word with
  | none => exact steadyPure _
  | some t => exact steadyMade identifierLeads.any

theorem renamedLeads : Leads limit [.identifier] takesAll renamed :=
  leadsAfter identifierLeads fun _ => steadyMade otherNameSteady

theorem namedImportLeads : Leads limit [.identifier] takesAll namedImport :=
  leadsMade renamedLeads

theorem exportSpecifierLeads : Leads limit [.identifier] takesAll exportSpecifier :=
  leadsMade renamedLeads

theorem listedLeads {p : Production α} {starts : List Kind}
    (leads : Leads limit starts takesAll p) : Leads limit starts takesAll (listed p) :=
  leadsAfter leads fun _ => steadyMade steadyAccept

theorem bracedLeads {p : Production α} (leads : Leads b [.identifier] takesAll p)
    (within : limit ≤ b + 1) :
    Leads limit [.punct .braceLeft] takesAll (braced (listed p) b) := by
  have item : Item b (some (.punct .braceRight)) (listed p) :=
    (listedLeads leads).item (by decide) fun _ impossible => impossible.elim
  exact (leadsEnclosed item (Nat.le_refl b) (by decide) (by decide)).shorter within

theorem parametersLead (within : limit ≤ b + 1) :
    Leads limit [.punct .parenLeft] takesAll (parenthesized identifier b) := by
  have item : Item b (some (.punct .parenRight)) (separated identifier) :=
    separatedItem identifierLeads (by decide)
  exact (leadsEnclosed item (Nat.le_refl b) (by decide) (by decide)).shorter within

theorem defaultImportSteady : Steady limit 0 takesAll defaultImport := by
  refine steadyThen steadyAccept fun name => ?_
  cases name with
  | none => exact steadyPure _
  | some t => exact steadyMade steadyAccept

theorem otherImportsSteady (within : limit ≤ b + 1) :
    Steady limit 0 takesAll (otherImports b) := by
  refine steadyMaybe [] fun next => ?_
  split
  · exact .inl (chosenBy (leadsMade (bracedLeads namedImportLeads within)))
  · refine .inl (chosenBy (leadsAfter (leadsExpect (by decide)) fun _ => ?_))
    exact steadyThen (leadsExpect (by decide)).any fun _ => steadyMade identifierLeads.any
  · exact .inr rfl

theorem importsLead (within : limit ≤ b + 1) :
    Leads limit [.keyword .importWord] takesAll (imports b) := by
  refine leadsAfter (leadsExpect (by decide)) fun word => ?_
  refine steadyThen defaultImportSteady fun first => ?_
  refine steadyThen (otherImportsSteady (by omega)) fun others => ?_
  exact steadyThen steadyAccept fun origin => steadyMade moduleSourceLeads.any

theorem otherSourceSteady : Steady limit 0 takesAll otherSource := by
  refine steadyThen steadyAccept fun word => ?_
  cases word with
  | none => exact steadyPure _
  | some t => exact steadyMade moduleSourceLeads.any

theorem exportListLeads {start : Nat} (within : limit ≤ b + 1) :
    Leads limit [.punct .braceLeft] takesAll (exportList start b) :=
  leadsAfter (bracedLeads exportSpecifierLeads within) fun _ => steadyMade otherSourceSteady

theorem exportAllLeads {start : Nat} :
    Leads limit [.punct .asterisk] takesAll (exportAll start) := by
  refine leadsAfter (leadsExpect (by decide)) fun star => ?_
  refine steadyThen otherNameSteady fun exported => ?_
  exact steadyThen (leadsExpect (by decide)).any fun word => steadyMade moduleSourceLeads.any

theorem exportAllRefuses {start : Nat} {tokens : List Token}
    (other : front tokens ≠ some (.punct .asterisk)) :
    exportAll start tokens = .failed [.punct .asterisk] tokens :=
  bindRefuses (oneOfRefuses (by simpa using other))

section Levels
variable {argument : Production Expression} {inner : Production Statement}

theorem statementItem {stop : Option Kind} (statements : Leads limit leads leavesName inner)
    (other : stop ∉ leads.map some) : Item limit stop inner := by
  refine statements.item other fun t name => ?_
  rw [leavesName] at name
  simp [name, leads]

theorem blockLeads (statements : Leads limit leads leavesName inner) (within : limit ≤ b) :
    Leads (limit + 1) [.punct .braceLeft] takesAll (block inner b) := by
  have item := statementItem statements (by decide : some (Kind.punct .braceRight) ∉ leads.map some)
  exact leadsMade (leadsEnclosed item within (by decide) (by decide))

theorem functionLeads (statements : Leads limit leads leavesName inner) (within : limit ≤ b) :
    Leads (limit + 1) [.keyword .functionWord] takesAll (functionDef inner b) := by
  refine leadsAfter (leadsExpect (by decide)) fun word => ?_
  refine steadyThen steadyAccept fun name => ?_
  refine steadyThen (parametersLead (by omega)).any fun list => ?_
  exact steadyMade ((blockLeads statements within).shorter (Nat.le_succ _)).any

theorem operandsLead (statements : Leads limit leads leavesName inner) (within : limit ≤ b) :
    Leads (limit + 1) [.identifier] takesAll (operand inner b) := by
  refine leadsChoice (by decide) fun next => ?_
  split
  · exact .inl (chosenBy (leadsMade (functionLeads statements within)))
  · exact .inl ⟨_, _, rfl, by decide, leadsMade literalLeads⟩
  · exact .inl ⟨_, _, rfl, by decide, leadsMade literalLeads⟩
  · by_cases name : next = some .identifier
    · exact .inl ⟨_, _, name, List.mem_cons_self, leadsMade identifierLeads⟩
    · refine .inr ⟨by simpa using name, ?_⟩
      rintro tokens rfl
      exact bindRefuses (identifierRefuses name)

theorem callLeads {callee : Expression} (arguments : Leads limit [.identifier] takesAll argument)
    (within : limit ≤ b) :
    Leads (limit + 1) [.punct .parenLeft] takesAll (call argument b callee) := by
  have item := separatedItem arguments (by decide)
  exact leadsAfter (leadsEnclosed item within (by decide) (by decide)) fun _ =>
    steadyMade steadyAccept

theorem memberLeads {object : Expression} :
    Leads limit [.punct .dot] takesAll (member object) :=
  leadsAfter (leadsExpect (by decide)) fun _ => steadyMade identifierLeads.any

theorem steadyNone {p : Production α} (fails : ∀ tokens, p tokens = .failed [] tokens) :
    Steady 0 0 left p := by
  refine ⟨?_, ?_, ?_⟩
  · intro tokens value rest found
    rw [fails] at found
    contradiction
  · intro tokens expected rest short
    exact absurd short (Nat.not_lt_zero _)
  · rw [fails]
    rfl

theorem continuedSteady {operand : Production Operand} {pending : List Pending}
    {current : Expression} (arguments : Leads limit [.identifier] takesAll argument)
    (operands : Leads limit [.identifier] takesAll operand) (within : limit ≤ b) :
    Steady limit 0 takesAll (continued argument operand b pending current) := by
  induction b generalizing limit pending current with
  | zero =>
    obtain rfl : limit = 0 := Nat.le_zero.mp within
    exact steadyNone fun _ => rfl
  | succ b ih =>
    have fewer : limit - 1 ≤ limit := Nat.sub_le _ _
    have again {pending current} := @ih (limit - 1) pending current (arguments.shorter fewer)
      (operands.shorter fewer) (by omega)
    refine steadyMaybe (resolve pending current) fun next => ?_
    split
    · have called : Leads (limit - 1 + 1) _ takesAll (call argument b current) :=
        callLeads (arguments.shorter fewer) (by omega)
      exact .inl (chosenBy (leadsAfter (called.shorter (by omega)) fun _ => again))
    · exact .inl (chosenBy (leadsAfter memberLeads fun _ => again))
    · rename_i op
      refine .inl ⟨.operator op, [.operator op], rfl, List.mem_cons_self, ?_⟩
      refine leadsAfter (leadsExpect (by simp)) fun _ => ?_
      refine steadyThen (operands.shorter fewer).any fun right => ?_
      cases right with
      | head id => exact again
      | tail right => exact again
    · exact .inr rfl

theorem expressionLeads (arguments : Leads limit [.identifier] takesAll argument)
    (statements : Leads limit leads leavesName inner) (within : limit ≤ b) :
    Leads (limit + 1) [.identifier] takesAll (Grammar.expression argument inner b) := by
  have operands := operandsLead statements within
  refine leadsAfter operands fun first => ?_
  cases first with
  | tail e => exact steadyPure e
  | head id => exact continuedSteady arguments (operands.shorter (Nat.le_succ _)) within

end Levels

section Declarations
variable {expression : Production Expression}

def valued (expression : Production Expression) (id : Identifier)
    (next : Declarator → Production α) : Production α := do
  let init ← expression
  next ⟨id.span.through init.span, id, some init⟩

theorem declaratorTaken {name assign : Token} {next : Declarator → Production α}
    (kind : name.kind = .identifier) (assigned : assign.kind = .punct .assign)
    (rest : List Token) :
    (declarator expression >>= next) (name :: assign :: rest) =
      valued expression (.ofToken name) next rest := by
  have read : identifier (name :: assign :: rest) = .done (.ofToken name) (assign :: rest) :=
    expectFound kind rfl
  have taken : accept (.punct .assign) (assign :: rest) = .done (some assign) rest :=
    if_pos assigned
  rw [declarator, bindAssociates, Production.bindApply, read]
  simp only
  rw [bindAssociates, Production.bindApply, taken]
  simp only
  rw [bindAssociates]
  rfl

theorem declaratorRefused {next : Declarator → Production α} {tokens : List Token}
    (other : front tokens ≠ some .identifier) :
    (declarator expression >>= next) tokens = .failed [.identifier] tokens :=
  bindRefuses (bindRefuses (identifierRefuses other))

def assignedOr (expression : Production Expression) (value : α)
    (next : Declarator → Production α) : Production α := do
  if (← peekSecond) = some (.punct .assign) then
    let first ← declarator expression
    next first
  else pure value

theorem secondAgain {between behind : List Token} {t : Token}
    (other : front ((between ++ behind).drop 1) ≠ some (.punct .assign))
    (different : t.kind ≠ .punct .assign) :
    front ((between ++ [t]).drop 1) ≠ some (.punct .assign) := by
  cases between with
  | nil => simp
  | cons u more =>
    cases more with
    | nil => simpa using different
    | cons v more => exact other

theorem secondAssigned {tokens : List Token}
    (second : front (tokens.drop 1) = some (.punct .assign)) :
    ∃ name assign rest, tokens = name :: assign :: rest ∧ assign.kind = .punct .assign := by
  obtain ⟨assign, rest, split, kind⟩ := frontSome second
  cases tokens with
  | nil => contradiction
  | cons name more => exact ⟨name, assign, rest, congrArg (List.cons name) split, kind⟩

theorem assignedAt {value : α} {next : Declarator → Production α} {name assign : Token}
    {rest : List Token} (assigned : assign.kind = .punct .assign) :
    assignedOr expression value next (name :: assign :: rest) =
      (declarator expression >>= next) (name :: assign :: rest) := by
  change (if some assign.kind = some (Kind.punct .assign) then
    declarator expression >>= next else pure value : Production α) _ = _
  rw [if_pos (congrArg some assigned)]

theorem unassignedAt {value : α} {next : Declarator → Production α} {tokens : List Token}
    (second : front (tokens.drop 1) ≠ some (.punct .assign)) :
    assignedOr expression value next tokens = .done value tokens := by
  change (if front (tokens.drop 1) = some (Kind.punct .assign) then
    declarator expression >>= next else pure value : Production α) tokens = _
  rw [if_neg second]
  rfl

/- A name that is put where a declarator without one was refused ends the declarators instead, as
no `=` is behind it. -/
theorem assignedSteady {value : α} {next : Declarator → Production α}
    (given : ∀ id, Steady limit 0 leavesName (valued expression id next)) :
    Steady limit 0 leavesName (assignedOr expression value next) := by
  have goesOn {name assign : Token} (kind : name.kind = .identifier)
      (assigned : assign.kind = .punct .assign) (rest : List Token) :
      assignedOr expression value next (name :: assign :: rest) =
        valued expression (.ofToken name) next rest := by
    rw [assignedAt assigned, declaratorTaken kind assigned]
  refine ⟨?_, ?_, rfl⟩
  · intro tokens value' rest found
    by_cases second : front (tokens.drop 1) = some (.punct .assign)
    · obtain ⟨name, assign, more, rfl, assigned⟩ := secondAssigned second
      by_cases kind : name.kind = .identifier
      · rw [goesOn kind assigned] at found
        obtain ⟨taken, rfl, _, again⟩ := (given _).kept found
        refine ⟨name :: assign :: taken, rfl, Nat.zero_le _, ?_⟩
        intro between behind t parts other short
        simp only [List.cons_append, List.length_cons] at short ⊢
        rw [goesOn kind assigned]
        exact again parts other (by omega)
      · rw [assignedAt assigned, declaratorRefused (by simpa using kind)] at found
        contradiction
    · rw [unassignedAt second] at found
      cases found
      refine ⟨[], rfl, Nat.zero_le _, ?_⟩
      rintro between behind t rfl other short
      exact .inl (unassignedAt (secondAgain second other))
  · intro tokens expected rest short failed
    by_cases second : front (tokens.drop 1) = some (.punct .assign)
    · obtain ⟨name, assign, more, rfl, assigned⟩ := secondAssigned second
      by_cases kind : name.kind = .identifier
      · rw [goesOn kind assigned] at failed
        simp only [List.length_cons] at short
        obtain ⟨taken, rfl, assign', again⟩ := (given _).viable (by omega) failed
        refine ⟨name :: assign :: taken, rfl, assign', ?_⟩
        intro t listed short
        simp only [List.cons_append, List.length_cons] at short ⊢
        rw [goesOn kind assigned]
        exact again listed (by omega)
      · rw [assignedAt assigned, declaratorRefused (by simpa using kind)] at failed
        cases failed
        refine ⟨[], rfl, by decide, ?_⟩
        intro t listed _
        exact .inr ⟨List.mem_singleton.mp listed, value, unassignedAt (by simp)⟩
    · rw [unassignedAt second] at failed
      contradiction

theorem declaratorsSteady {stop : Nat} (values : Leads limit [.identifier] takesAll expression)
    (within : limit ≤ b) : Steady limit 0 leavesName (declarators expression b stop) := by
  induction b generalizing limit stop with
  | zero =>
    obtain rfl : limit = 0 := Nat.le_zero.mp within
    exact steadyNone fun _ => rfl
  | succ b ih =>
    refine steadyThen steadyAccept fun semicolon => ?_
    cases semicolon with
    | some t => exact steadyPure _
    | none =>
      refine assignedSteady fun id => ?_
      have fewer : limit - 1 ≤ limit := Nat.sub_le _ _
      refine (leadsAfter values fun init => steadyThen steadyAccept fun comma => ?_).before
      exact steadyMade (ih (values.shorter fewer) (by omega))

theorem variablesLead (sort : VariableKind)
    (values : Leads limit [.identifier] takesAll expression) (within : limit ≤ b + 1) :
    Leads limit [.keyword (variableWord sort)] leavesName
      (variableDeclaration expression b sort) := by
  refine leadsAfter (leadsExpect (by simp)) fun word => ?_
  exact steadyMade (declaratorsSteady (values.shorter (Nat.sub_le _ _)) (by omega))

theorem defaultLeads {function : Production FunctionDef}
    (values : Leads limit [.identifier] takesAll expression)
    (functions : Leads limit [.keyword .functionWord] takesAll function) :
    Leads limit [.keyword .defaultWord] takesAll (defaultDeclaration expression function) := by
  have fewer : limit - 1 ≤ limit := Nat.sub_le _ _
  refine leadsAfter (leadsExpect (by decide)) fun word => ?_
  refine steadyChoice [.identifier, .keyword .functionWord] (by decide) fun next => ?_
  split
  · exact .inl (chosenBy (leadsMade (values.shorter fewer)))
  · exact .inl (chosenBy (leadsMade (functions.shorter fewer)))
  · exact .inr ⟨by simp_all, fun tokens _ => rfl⟩

theorem exportsLead {function : Production FunctionDef}
    (values : Leads limit [.identifier] takesAll expression)
    (functions : Leads limit [.keyword .functionWord] takesAll function) (within : limit ≤ b + 1) :
    Leads limit [.keyword .exportWord] leavesName (exports expression function b) := by
  have fewer : limit - 1 ≤ limit := Nat.sub_le _ _
  have values' := values.shorter fewer
  have functions' := functions.shorter fewer
  have within' : limit - 1 ≤ b + 1 := by omega
  refine leadsAfter (leadsExpect (by decide)) fun word => ?_
  refine steadyChoice [.punct .asterisk] (by decide) fun next => ?_
  split
  · exact .inl (chosenBy (leadsMade (defaultLeads values' functions')).loose)
  · exact .inl (chosenBy (exportListLeads within').loose)
  · exact .inl (chosenBy (leadsMade (variablesLead .letKind values' within')))
  · exact .inl (chosenBy (leadsMade (variablesLead .constKind values' within')))
  · exact .inl (chosenBy (leadsMade (variablesLead .varKind values' within')))
  · exact .inl (chosenBy (leadsMade functions').loose)
  · by_cases star : next = some (.punct .asterisk)
    · exact .inl ⟨_, _, star, List.mem_cons_self, (leadsMade exportAllLeads).loose⟩
    · refine .inr ⟨by simpa using star, ?_⟩
      rintro tokens rfl
      exact bindRefuses (exportAllRefuses star)

theorem returnsLead (values : Leads limit [.identifier] takesAll expression) :
    Leads limit [.keyword .returnWord] takesAll (returns expression) :=
  leadsAfter (leadsExpect (by decide)) fun _ =>
    steadyMade (values.shorter (Nat.sub_le _ _)).any

variable {inner : Production Statement}

theorem unterminatedLeads (values : Leads (limit + 1) [.identifier] takesAll expression)
    (statements : Leads limit leads leavesName inner) (within : limit ≤ b) :
    Leads (limit + 1) leads leavesName (unterminated expression inner b) := by
  have functions := functionLeads statements within
  have within' : limit + 1 ≤ b + 1 := Nat.succ_le_succ within
  refine leadsChoice (by decide) fun next => ?_
  split
  · exact .inl (chosenBy (leadsMade functions).loose)
  · exact .inl (chosenBy (leadsMade values).loose)
  · exact .inl (chosenBy (leadsMade (blockLeads statements within)).loose)
  · exact .inl (chosenBy (returnsLead values).loose)
  · exact .inl (chosenBy (leadsMade (importsLead within')).loose)
  · exact .inl (chosenBy (exportsLead values functions within'))
  · exact .inl (chosenBy (leadsMade (variablesLead .letKind values within')))
  · exact .inl (chosenBy (leadsMade (variablesLead .constKind values within')))
  · exact .inl (chosenBy (leadsMade (variablesLead .varKind values within')))
  · exact .inr ⟨by simp_all [leads], fun tokens _ => rfl⟩

theorem statementLeads (values : Leads (limit + 1) [.identifier] takesAll expression)
    (statements : Leads limit leads leavesName inner) (within : limit ≤ b) :
    Leads (limit + 1) leads leavesName (statement expression inner b) := by
  refine leadsBind (unterminatedLeads values statements within) ?_ ?_
  · exact fun read => steadyMade steadyAccept
  · intro read t name
    have none : accept (.punct .semicolon) [t] = .done none [t] := by
      rw [leavesName] at name
      exact if_neg (by simp [name])
    refine .inr ⟨name, read, ?_⟩
    rw [Production.bindApply, none]
    rfl

end Declarations

structure LeadsFamily (limit : Nat) (p : Productions) : Prop where
  expressions : Leads limit [.identifier] takesAll p.expression
  statements : Leads limit leads leavesName p.statement

theorem leadsNone {starts : List Kind} : Leads 0 starts left (exhausted : Production α) := by
  refine ⟨⟨?_, ?_, rfl⟩, ?_⟩
  · intro tokens value rest found
    contradiction
  · intro tokens expected rest short
    exact absurd short (Nat.not_lt_zero _)
  · intro tokens expected short
    exact absurd short (Nat.not_lt_zero _)

theorem levelsLead {level : Nat} : LeadsFamily level (Productions.upTo level) := by
  induction level with
  | zero => exact ⟨leadsNone, leadsNone⟩
  | succ level ih =>
    have values : Leads (level + 1) _ takesAll (Productions.upTo (level + 1)).expression :=
      expressionLeads ih.expressions ih.statements (Nat.le_refl _)
    exact ⟨values, statementLeads values ih.statements (Nat.le_refl _)⟩

theorem programBudget {tokens : List Token} {n : Nat} (enough : tokens.length < n) :
    program tokens = (statements n >>= fun body => pure (Program.ofStatements body)) tokens := by
  have each : AlikeBelow (tokens.length + 1) 1 (Productions.upTo (tokens.length + 1)).statement
      (Productions.upTo n).statement := (levelsAlike (Nat.le_refl _) enough).statements
  have all : statements (tokens.length + 1) tokens = statements n tokens :=
    (manyAlike each (Nat.lt_succ_self _) (Nat.lt_succ_self _) enough).same
  exact bindSame all fun _ _ _ => rfl

theorem programViable {tokens expected rest} (failed : program tokens = .failed expected rest) :
    ∃ taken, tokens = taken ++ rest ∧
      ∀ ⦃t⦄, t.kind ∈ expected → (program (taken ++ [t])).rest = [] := by
  -- One budget for both readings.
  have item : Item (tokens.length + 2) none (Productions.upTo (tokens.length + 2)).statement :=
    statementItem levelsLead.statements (by decide)
  have short : tokens.length < tokens.length + 2 := by omega
  have refused : statements (tokens.length + 2) tokens = .failed expected rest := by
    rw [programBudget short, Production.bindApply] at failed
    cases all : statements (tokens.length + 2) tokens with
    | done body more =>
      rw [all] at failed
      contradiction
    | failed expected' rest' =>
      rw [all] at failed
      cases failed
      rfl
  obtain ⟨taken, split, _, again⟩ := manyViable item short refused
  refine ⟨taken, split, ?_⟩
  intro t listed
  have fewer : (taken ++ [t]).length < tokens.length + 2 := by
    rw [split, List.length_append, List.length_append, List.length_singleton]
    omega
  rw [programBudget fewer]
  exact bindEnded (again listed fewer fewer) fun _ => rfl

end ScriptTree.Grammar

namespace ScriptTree
open Grammar

theorem refusalExpects {s : Session} {expected rest position expected' actual}
    (same : s.refusal expected rest = .unexpectedToken position expected' actual) :
    expected' = expected := by
  cases rest <;> cases same <;> rfl

theorem expectedViable {tokens : List Token} {position expected actual s}
    (refused : (Session.ofTokens tokens).readProgram =
      (.error (.unexpectedToken position expected actual), s))
    {t : Token} (listed : t.kind ∈ expected) :
    (∃ p, parseTokens (tokens.take s.cursor ++ [t]) = .ok p) ∨
      ∃ position expected, parseTokens (tokens.take s.cursor ++ [t]) =
        .error (.unexpectedToken position expected none) := by
  have start : (Session.ofTokens tokens).Within := Nat.zero_le _
  obtain ⟨p, _, read⟩ | ⟨expected', passed, rest, split, failed, read⟩ := Session.readingEnds start
  · rw [read] at refused
    cases refused
  · rw [read] at refused
    obtain ⟨error, session⟩ := Prod.mk.inj refused
    obtain rfl := refusalExpects (Except.error.inj error)
    rw [Session.aheadAll] at split failed
    obtain ⟨taken, split', again⟩ := programViable failed
    obtain rfl : taken = passed := List.append_cancel_right (split'.symm.trans split)
    have cut : tokens.take s.cursor = taken := by
      rw [← session, split]
      simp [Session.ofTokens]
    rw [cut]
    have ends := again listed
    rw [parseTokens, Session.readsTokens]
    cases found : program (taken ++ [t]) with
    | done p more => exact .inl ⟨p, rfl⟩
    | failed expected more =>
      rw [found] at ends
      have none : more = [] := ends
      subst none
      exact .inr ⟨_, _, rfl⟩

def namelessDeclarator : List Token :=
  [.plain (.keyword .letWord) "let" 0, .plain (.punct .braceLeft) "\x7b" 4,
    .plain (.punct .assign) "=" 6, .literal .number "1" "1" 8]

/- With a name in place of what was refused the declaration ends before it. -/
theorem namelessDeclaratorViable :
    (Session.ofTokens namelessDeclarator).readProgram =
      (.error (.unexpectedToken 4 [.identifier] (some (.plain (.punct .braceLeft) "\x7b" 4))),
        ⟨namelessDeclarator, 1⟩) ∧
    (Token.plain .identifier "x" 4).kind ∈ [Kind.identifier] ∧
    ((∃ p, parseTokens (namelessDeclarator.take 1 ++ [.plain .identifier "x" 4]) = .ok p) ∨
      ∃ position expected,
        parseTokens (namelessDeclarator.take 1 ++ [.plain .identifier "x" 4]) =
          .error (.unexpectedToken position expected none)) := by
  have refused : (Session.ofTokens namelessDeclarator).readProgram =
      (.error (.unexpectedToken 4 [.identifier] (some (.plain (.punct .braceLeft) "\x7b" 4))),
        ⟨namelessDeclarator, 1⟩) := rfl
  have listed : (Token.plain .identifier "x" 4).kind ∈ [Kind.identifier] := List.mem_cons_self
  exact ⟨refused, listed, expectedViable refused listed⟩

end ScriptTree
