import ScriptTree.Proofs.DerivationRun
import ScriptTree.Proofs.Simulation
/-! What can be derived is answered. A derivation holds no budget, so that it is answered at any
level which is large enough is said of each phrase in the way that its production is run. -/
namespace ScriptTree.Grammar
open Productions (upTo)

def operandAt (level : Nat) : Production Operand := operand (upTo level).statement level

def OperandAnswered (level : Nat) (e : Expression) (tokens rest : List Token) : Prop :=
  operandAt level tokens = .done (.tail e) rest ∨
  ¬ Continues rest ∧ ∃ id behind, operandAt level tokens = .done (.head id) behind ∧
    behind.length < tokens.length ∧ ∀ budget pending, behind.length < budget →
      continued (upTo level).expression (operandAt level) budget pending (.identifier id) behind =
        .done (resolve pending e) rest

def Phrase.Answered (tokens rest : List Token) : Phrase → Prop
  | .expression e => ∀ level, tokens.length ≤ level → OperandAnswered level e tokens rest
  | .chain first whole => ∀ level budget pending, tokens.length ≤ level →
      tokens.length < budget →
      continued (upTo level).expression (operandAt level) budget pending first tokens =
        .done (resolve pending whole) rest
  | .arguments es => ∀ level budget, tokens.length < level → tokens.length < budget →
      many (some (.punct .parenRight)) (separated (upTo level).expression) budget tokens =
        .done es rest
  | .function f => ∀ level, tokens.length ≤ level →
      functionDef (upTo level).statement level tokens = .done f rest
  | .block b => ∀ level, tokens.length ≤ level →
      Grammar.block (upTo level).statement level tokens = .done b rest
  | .statements body => ∀ level budget stop, tokens.length < level → tokens.length < budget →
      (stop = none ∧ rest = [] ∨ stop = some (.punct .braceRight)) →
      many stop (upTo level).statement budget tokens = .done body rest
  | .declarators before stop ds => ∀ level budget, tokens.length ≤ level →
      tokens.length < budget →
      Grammar.declarators (upTo (level + 1)).expression budget before tokens =
        .done (stop, ds) rest
  | .vars d => ∀ level, tokens.length ≤ level →
      variableDeclaration (upTo (level + 1)).expression level d.kind tokens = .done d rest
  | .unterminated s => ∀ level, tokens.length ≤ level →
      Grammar.unterminated (upTo (level + 1)).expression (upTo level).statement level tokens =
        .done s rest
  | .statement s => ∀ level, tokens.length < level →
      (upTo level).statement tokens = .done s rest

theorem expressionAnswered {level e tokens rest}
    (answered : Phrase.Answered tokens rest (.expression e)) (short : tokens.length ≤ level) :
    (upTo (level + 1)).expression tokens = .done e rest := by
  rcases answered level short with tail | ⟨_, id, behind, head, shorter, chain⟩
  · exact bindFound tail rfl
  · exact bindFound head (chain level [] (by omega))

theorem expressionBelow {level e tokens rest}
    (answered : Phrase.Answered tokens rest (.expression e)) (short : tokens.length < level) :
    (upTo level).expression tokens = .done e rest := by
  obtain ⟨level, rfl⟩ := budgetLeft short
  exact expressionAnswered answered (Nat.le_of_lt_succ short)

theorem operandTail {level tokens rest f} (begins : front tokens = some (.keyword .functionWord))
    (value : functionDef (upTo level).statement level tokens = .done f rest) :
    operandAt level tokens = .done (.tail (.function f)) rest := by
  refine peekFound begins ?_
  exact bindFound value rfl

theorem operandLiteral {level t rest} (kind : t.kind = .number ∨ t.kind = .string) :
    operandAt level (t :: rest) = .done (.tail (.literal (.ofToken t))) rest := by
  have value : literal (t :: rest) = .done (.ofToken t) rest :=
    literalDone.mpr ⟨t, rfl, kind, rfl⟩
  rcases kind with kind | kind
  · exact peekFound (congrArg some kind) (bindFound value rfl)
  · exact peekFound (congrArg some kind) (bindFound value rfl)

theorem operandHead {level t rest} (kind : t.kind = .identifier) :
    operandAt level (t :: rest) = .done (.head (.ofToken t)) rest := by
  have name : identifier (t :: rest) = .done (.ofToken t) rest :=
    expectFound kind rfl
  refine peekFound (congrArg some kind) ?_
  exact bindFound name rfl

theorem headAnswered {t e tokens rest} (kind : t.kind = .identifier) (ends : ¬ Continues rest)
    (chain : Phrase.Answered tokens rest (.chain (.identifier (.ofToken t)) e)) :
    Phrase.Answered (t :: tokens) rest (.expression e) := by
  intro level short
  refine .inr ⟨ends, _, tokens, operandHead kind, Nat.lt_succ_self _, ?_⟩
  intro budget pending enough
  exact chain level budget pending (Nat.le_of_succ_le short) enough

section Chain
variable {current whole : Expression} {rest : List Token}

theorem stopAnswered (ends : ¬ Continues rest) : Phrase.Answered rest rest (.chain current current) := by
  intro level budget pending _ enough
  obtain ⟨budget, rfl⟩ := budgetLeft enough
  refine peekFound rfl ?_
  unfold Continues at ends
  generalize front rest = next at ends
  split <;> first | exact absurd trivial ends | rfl

theorem callAnswered {es opening tokens closing semicolon behind}
    (opens : opening.kind = .punct .parenLeft)
    (arguments : Phrase.Answered tokens (closing :: (semicolon.toList ++ behind)) (.arguments es))
    (closes : closing.kind = .punct .parenRight)
    (ending : Accepted (.punct .semicolon) behind semicolon)
    (shorter : behind.length ≤ tokens.length)
    (chain : Phrase.Answered behind rest (.chain (.call ⟨current.span.start,
      stopOf closing.span.stop semicolon.toList⟩ current es) whole)) :
    Phrase.Answered (opening :: tokens) rest (.chain current whole) := by
  intro level budget pending short enough
  obtain ⟨budget, rfl⟩ := budgetLeft enough
  simp only [List.length_cons] at short enough
  have stops : semicolon.elim closing.span.stop (·.span.stop) =
      stopOf closing.span.stop semicolon.toList := by cases semicolon <;> rfl
  have inner : parenthesized (upTo level).expression budget (opening :: tokens) =
      .done (opening.span.through closing.span, es) (semicolon.toList ++ behind) := by
    refine expectFound opens ?_
    refine bindFound (arguments level budget (by omega) (by omega)) ?_
    exact expectFound closes rfl
  have called : call (upTo level).expression budget current (opening :: tokens) =
      .done (.call ⟨current.span.start, stopOf closing.span.stop semicolon.toList⟩ current es)
        behind := by
    refine bindFound inner ?_
    refine acceptFound ending ?_
    rw [← stops]
    rfl
  refine peekFound (congrArg some opens) ?_
  exact bindFound called (chain level budget pending (by omega) (by omega))

theorem memberAnswered {dot name behind} (dotted : dot.kind = .punct .dot)
    (kind : name.kind = .identifier)
    (chain : Phrase.Answered behind rest (.chain (.member (current.span.through name.span) current
      (.ofToken name) false) whole)) :
    Phrase.Answered (dot :: name :: behind) rest (.chain current whole) := by
  intro level budget pending short enough
  obtain ⟨budget, rfl⟩ := budgetLeft enough
  simp only [List.length_cons] at short enough
  have id : identifier (name :: behind) = .done (.ofToken name) behind :=
    expectFound kind rfl
  have accessed : member current (dot :: name :: behind) =
      .done (.member (current.span.through name.span) current (.ofToken name) false) behind :=
    expectFound dotted (bindFound id rfl)
  refine peekFound (congrArg some dotted) ?_
  exact bindFound accessed (chain level budget pending (by omega) (by omega))

/- Behind a head operand nothing is left to go on with, so the chain that waited for it ends
where the operand does. -/
theorem operatorAnswered {op right t tokens behind} (kind : t.kind = .operator op)
    (operand : Phrase.Answered tokens behind (.expression right))
    (shorter : behind.length ≤ tokens.length)
    (chain : Phrase.Answered behind rest (.chain (join current op right) whole))
    (stopped : ¬ Continues behind → whole = join current op right ∧ behind = rest) :
    Phrase.Answered (t :: tokens) rest (.chain current whole) := by
  intro level budget pending short enough
  obtain ⟨budget, rfl⟩ := budgetLeft enough
  simp only [List.length_cons] at short enough
  refine peekFound (congrArg some kind) ?_
  refine expectFound kind ?_
  rcases operand level (by omega) with tail | ⟨ends, id, between, head, less, read⟩
  · exact bindFound tail (chain level budget pending (by omega) (by omega))
  · obtain ⟨rfl, rfl⟩ := stopped ends
    exact bindFound head (read budget (⟨current, op⟩ :: pending) (by omega))

end Chain

section Lists
variable {rest : List Token}

theorem noArgumentsAnswered
    (ends : front rest = none ∨ front rest = some (.punct .parenRight)) :
    Phrase.Answered rest rest (.arguments []) := by
  intro level budget _ enough
  obtain ⟨budget, rfl⟩ := budgetLeft enough
  refine peekFound rfl ?_
  rw [if_pos ends]
  rfl

theorem argumentAnswered {e es tokens behind}
    (begins : ∃ kind ∈ operandLeads, front tokens = some kind)
    (first : ∀ level, tokens.length < level →
      separated (upTo level).expression tokens = .done e behind)
    (shorter : behind.length < tokens.length)
    (next : Phrase.Answered behind rest (.arguments es)) :
    Phrase.Answered tokens rest (.arguments (e :: es)) := by
  intro level budget short enough
  obtain ⟨budget, rfl⟩ := budgetLeft enough
  obtain ⟨kind, lead, found⟩ := begins
  have goes : ¬ (front tokens = none ∨ front tokens = some (.punct .parenRight)) := by
    rw [found]
    rintro (none | closes)
    · contradiction
    · rw [Option.some.inj closes] at lead
      exact absurd lead (by decide)
  refine peekFound rfl ?_
  rw [if_neg goes]
  refine bindFound (first level short) ?_
  exact bindFound (next level budget (by omega) (by omega)) rfl

theorem noStatementsAnswered
    (ends : front rest = none ∨ front rest = some (.punct .braceRight)) :
    Phrase.Answered rest rest (.statements []) := by
  intro level budget stop _ enough place
  obtain ⟨budget, rfl⟩ := budgetLeft enough
  refine peekFound rfl ?_
  have stops : front rest = none ∨ front rest = stop := by
    rcases place with ⟨rfl, rfl⟩ | rfl
    · exact .inl rfl
    · exact ends
  rw [if_pos stops]
  rfl

theorem statementsAnswered {s body tokens behind}
    (begins : ∃ kind ∈ leads, front tokens = some kind)
    (first : Phrase.Answered tokens behind (.statement s)) (shorter : behind.length < tokens.length)
    (next : Phrase.Answered behind rest (.statements body)) :
    Phrase.Answered tokens rest (.statements (s :: body)) := by
  intro level budget stop short enough place
  obtain ⟨budget, rfl⟩ := budgetLeft enough
  obtain ⟨kind, lead, found⟩ := begins
  have goes : ¬ (front tokens = none ∨ front tokens = stop) := by
    rw [found]
    rintro (none | ends)
    · contradiction
    · rcases place with ⟨rfl, _⟩ | rfl
      · contradiction
      · rw [Option.some.inj ends] at lead
        exact absurd lead (by decide)
  refine peekFound rfl ?_
  rw [if_neg goes]
  refine bindFound (first level short) ?_
  exact bindFound (next level budget stop (by omega) (by omega) place) rfl

theorem blockAnswered {opening body tokens closing} (opens : opening.kind = .punct .braceLeft)
    (statements : Phrase.Answered tokens (closing :: rest) (.statements body))
    (closes : closing.kind = .punct .braceRight) :
    Phrase.Answered (opening :: tokens) rest
      (.block ⟨opening.span.through closing.span, body⟩) := by
  intro level short
  rw [List.length_cons] at short
  have inner : braced (upTo level).statement level (opening :: tokens) =
      .done (opening.span.through closing.span, body) rest := by
    refine expectFound opens ?_
    refine bindFound (statements level level _ (by omega) (by omega) (.inr rfl)) ?_
    exact expectFound closes rfl
  exact bindFound inner rfl

theorem functionAnswered {word name span params b list body}
    (kind : word.kind = .keyword .functionWord)
    (named : Accepted .identifier (list ++ body) name)
    (parameters : Parameters (span, params) list body)
    (block : Phrase.Answered body rest (.block b)) :
    Phrase.Answered (word :: (name.toList ++ (list ++ body))) rest
      (.function ⟨word.span.through b.span, name.map .ofToken, params, b⟩) := by
  intro level short
  simp only [List.length_cons, List.length_append] at short
  have listed : parenthesized identifier level (list ++ body) = .done (span, params) body :=
    parametersAnswer parameters (by simp only [List.length_append]; omega)
  refine expectFound kind ?_
  refine acceptFound named ?_
  refine bindFound listed ?_
  exact bindFound (block level (by omega)) rfl

end Lists

section Declarations
variable {rest : List Token}

theorem semicolonAnswered {t before} (kind : t.kind = .punct .semicolon) :
    Phrase.Answered (t :: rest) rest (.declarators before t.span.stop []) := by
  intro level budget _ enough
  obtain ⟨budget, rfl⟩ := budgetLeft enough
  exact acceptTaken kind rfl

theorem undeclaredAnswered {before} (terminated : front rest ≠ some (.punct .semicolon))
    (second : front (rest.drop 1) ≠ some (.punct .assign)) :
    Phrase.Answered rest rest (.declarators before before []) := by
  intro level budget _ enough
  obtain ⟨budget, rfl⟩ := budgetLeft enough
  refine acceptNone terminated ?_
  refine bindFound (peekSecondDone.mpr ⟨rfl, rfl⟩) ?_
  rw [if_neg second]
  rfl

theorem declaratorAnswered {name assign init comma stop ds before tokens behind}
    (kind : name.kind = .identifier) (assigned : assign.kind = .punct .assign)
    (initial : Phrase.Answered tokens (comma.toList ++ behind) (.expression init))
    (ending : Accepted (.punct .comma) behind comma) (shorter : behind.length ≤ tokens.length)
    (next : Phrase.Answered behind rest
      (.declarators (stopOf init.span.stop comma.toList) stop ds)) :
    Phrase.Answered (name :: assign :: tokens) rest (.declarators before stop
      (⟨name.span.through init.span, .ofToken name, some init⟩ :: ds)) := by
  intro level budget short enough
  obtain ⟨budget, rfl⟩ := budgetLeft enough
  simp only [List.length_cons] at short enough
  have stops : stopOf init.span.stop comma.toList =
      comma.elim init.span.stop (·.span.stop) := by cases comma <;> rfl
  have id : identifier (name :: assign :: tokens) = .done (.ofToken name) (assign :: tokens) :=
    expectFound kind rfl
  have first : declarator (upTo (level + 1)).expression (name :: assign :: tokens) =
      .done ⟨name.span.through init.span, .ofToken name, some init⟩ (comma.toList ++ behind) := by
    refine bindFound id ?_
    refine acceptTaken assigned ?_
    exact bindFound (expressionAnswered initial (by omega)) rfl
  have others := next level budget (by omega) (by omega)
  rw [stops] at others
  refine acceptNone (by simp [kind]) ?_
  refine bindFound (peekSecondDone.mpr ⟨rfl, rfl⟩) ?_
  rw [if_pos (by simp [assigned])]
  refine bindFound first ?_
  refine acceptFound ending ?_
  exact bindFound others rfl

theorem variablesAnswered {word sort stop ds tokens}
    (kind : word.kind = .keyword (variableWord sort))
    (declared : Phrase.Answered tokens rest (.declarators word.span.stop stop ds)) :
    Phrase.Answered (word :: tokens) rest
      (.vars ⟨⟨word.span.start, stop⟩, sort, ds⟩) := by
  intro level short
  rw [List.length_cons] at short
  refine expectFound kind ?_
  exact bindFound (declared level level (by omega) (by omega)) rfl

theorem exportedAnswered {word s tokens} (kind : word.kind = .keyword .exportWord)
    (answered : ∀ level, tokens.length < level →
      exports (upTo (level + 1)).expression (functionDef (upTo level).statement level) level
        (word :: tokens) = .done s rest) :
    Phrase.Answered (word :: tokens) rest (.unterminated s) := by
  intro level short
  refine peekFound (congrArg some kind) ?_
  exact answered level short

theorem exportedValueAnswered {word default e tokens} (kind : word.kind = .keyword .exportWord)
    (only : default.kind = .keyword .defaultWord) (begins : front tokens = some .identifier)
    (value : Phrase.Answered tokens rest (.expression e)) :
    Phrase.Answered (word :: default :: tokens) rest
      (.unterminated (.exportDefault ⟨word.span.start, e.span.stop⟩ (.expression e))) := by
  refine exportedAnswered kind fun level short => ?_
  rw [List.length_cons] at short
  have declared : defaultDeclaration (upTo (level + 1)).expression
      (functionDef (upTo level).statement level) (default :: tokens) =
      .done (.expression e) rest := by
    refine expectFound only ?_
    refine peekFound begins ?_
    exact bindFound (expressionAnswered value (by omega)) rfl
  refine expectFound kind ?_
  refine peekFound (congrArg some only) ?_
  exact bindFound declared rfl

theorem exportedDefaultAnswered {word default f tokens} (kind : word.kind = .keyword .exportWord)
    (only : default.kind = .keyword .defaultWord)
    (begins : front tokens = some (.keyword .functionWord))
    (value : Phrase.Answered tokens rest (.function f)) :
    Phrase.Answered (word :: default :: tokens) rest
      (.unterminated (.exportDefault ⟨word.span.start, f.span.stop⟩ (.function f))) := by
  refine exportedAnswered kind fun level short => ?_
  rw [List.length_cons] at short
  have declared : defaultDeclaration (upTo (level + 1)).expression
      (functionDef (upTo level).statement level) (default :: tokens) =
      .done (.function f) rest := by
    refine expectFound only ?_
    refine peekFound begins ?_
    exact bindFound (value level (by omega)) rfl
  refine expectFound kind ?_
  refine peekFound (congrArg some only) ?_
  exact bindFound declared rfl

theorem exportedVariablesAnswered {word d tokens} (kind : word.kind = .keyword .exportWord)
    (begins : front tokens = some (.keyword (variableWord d.kind)))
    (value : Phrase.Answered tokens rest (.vars d)) :
    Phrase.Answered (word :: tokens) rest
      (.unterminated (exportDeclared word.span.start (.vars d))) := by
  refine exportedAnswered kind fun level short => ?_
  have declared := value level (by omega)
  refine expectFound kind ?_
  refine peekFound begins ?_
  cases sort : d.kind <;> rw [sort] at declared <;> exact bindFound declared rfl

theorem exportedFunctionAnswered {word f tokens} (kind : word.kind = .keyword .exportWord)
    (begins : front tokens = some (.keyword .functionWord))
    (value : Phrase.Answered tokens rest (.function f)) :
    Phrase.Answered (word :: tokens) rest
      (.unterminated (exportDeclared word.span.start (.function f))) := by
  refine exportedAnswered kind fun level short => ?_
  refine expectFound kind ?_
  refine peekFound begins ?_
  exact bindFound (value level (by omega)) rfl

theorem exportedNamesAnswered {word s taken} (kind : word.kind = .keyword .exportWord)
    (clause : ExportList word.span.start s taken rest) :
    Phrase.Answered (word :: (taken ++ rest)) rest (.unterminated s) := by
  refine exportedAnswered kind fun level short => ?_
  have begins : front (taken ++ rest) = some (.punct .braceLeft) := by
    cases clause with
    | clause list _ =>
      obtain ⟨opening, _, _, rfl, opens, _⟩ := list
      simp [opens]
  refine expectFound kind ?_
  refine peekFound begins ?_
  exact exportListAnswers clause (by omega)

theorem exportedModuleAnswered {word d taken} (kind : word.kind = .keyword .exportWord)
    (clause : ExportsAll word.span.start d taken rest) :
    Phrase.Answered (word :: (taken ++ rest)) rest (.unterminated (.exportAll d)) := by
  refine exportedAnswered kind fun level short => ?_
  have begins : front (taken ++ rest) = some (.punct .asterisk) := by
    cases clause with
    | clause everything => simp [everything]
  refine expectFound kind ?_
  refine peekFound begins ?_
  exact bindFound (exportAllAnswers clause (Nat.lt_succ_self _)) rfl

theorem functionStatementAnswered {f tokens} (begins : front tokens = some (.keyword .functionWord))
    (value : Phrase.Answered tokens rest (.function f)) :
    Phrase.Answered tokens rest (.unterminated (.function f)) := by
  intro level short
  refine peekFound begins ?_
  exact bindFound (value level short) rfl

theorem expressionStatementAnswered {e tokens} (begins : front tokens = some .identifier)
    (value : Phrase.Answered tokens rest (.expression e)) :
    Phrase.Answered tokens rest (.unterminated (.expression e.span e)) := by
  intro level short
  refine peekFound begins ?_
  exact bindFound (expressionAnswered value short) rfl

theorem blockStatementAnswered {b tokens} (begins : front tokens = some (.punct .braceLeft))
    (value : Phrase.Answered tokens rest (.block b)) :
    Phrase.Answered tokens rest (.unterminated (.block b)) := by
  intro level short
  refine peekFound begins ?_
  exact bindFound (value level short) rfl

theorem returnsAnswered {word e tokens} (kind : word.kind = .keyword .returnWord)
    (value : Phrase.Answered tokens rest (.expression e)) :
    Phrase.Answered (word :: tokens) rest
      (.unterminated (.returns (word.span.through e.span) e)) := by
  intro level short
  refine peekFound (congrArg some kind) ?_
  refine expectFound kind ?_
  exact bindFound (expressionAnswered value (Nat.le_of_succ_le short)) rfl

theorem variableStatementAnswered {d tokens}
    (begins : front tokens = some (.keyword (variableWord d.kind)))
    (value : Phrase.Answered tokens rest (.vars d)) :
    Phrase.Answered tokens rest (.unterminated (.vars d)) := by
  intro level short
  have declared := value level short
  refine peekFound begins ?_
  cases sort : d.kind <;> rw [sort] at declared <;> exact bindFound declared rfl

theorem importsAnswered {d taken} (clause : Imports d taken rest) :
    Phrase.Answered (taken ++ rest) rest (.unterminated (.imports d)) := by
  intro level short
  have begins : front (taken ++ rest) = some (.keyword .importWord) := by
    cases clause with
    | clause kind => simp [kind]
  refine peekFound begins ?_
  exact bindFound (importsAnswer clause (Nat.lt_succ_of_le short)) rfl

theorem statementAnswered {s tokens semicolon}
    (body : Phrase.Answered tokens (semicolon.toList ++ rest) (.unterminated s))
    (ending : Accepted (.punct .semicolon) rest semicolon) :
    Phrase.Answered tokens rest (.statement s) := by
  intro level short
  obtain ⟨level, rfl⟩ := budgetLeft short
  refine bindFound (body level (Nat.le_of_lt_succ short)) ?_
  exact acceptFound ending rfl

end Declarations

theorem frontBegins {kinds : List Kind} {taken : List Token}
    (begins : ∃ kind ∈ kinds, front taken = some kind) (rest : List Token) :
    taken ≠ [] ∧ ∃ kind ∈ kinds, front (taken ++ rest) = some kind := by
  obtain ⟨kind, lead, found⟩ := begins
  obtain ⟨t, more, rfl, rfl⟩ := frontSome found
  exact ⟨List.cons_ne_nil t more, t.kind, lead, rfl⟩

theorem frontFound {kind : Kind} {taken : List Token} (found : front taken = some kind)
    (rest : List Token) : front (taken ++ rest) = some kind := by
  obtain ⟨t, more, rfl, rfl⟩ := frontSome found
  rfl

theorem shorterBehind {taken : List Token} (filled : taken ≠ []) (rest : List Token) :
    rest.length < (taken ++ rest).length := by
  have positive : 0 < taken.length := List.length_pos_iff.mpr filled
  rw [List.length_append]
  omega

theorem lastArgumentAnswered {e taken rest} (begins : ∃ kind ∈ operandLeads, front taken = some kind)
    (value : Phrase.Answered (taken ++ rest) rest (.expression e))
    (ends : front rest = some (.punct .parenRight)) :
    Phrase.Answered (taken ++ rest) rest (.arguments [e]) := by
  obtain ⟨filled, lead⟩ := frontBegins begins rest
  refine argumentAnswered lead ?_ (shorterBehind filled rest) (noArgumentsAnswered (.inr ends))
  intro level short
  refine bindFound (expressionBelow value short) ?_
  refine peekFound rfl ?_
  rw [if_pos ends]
  rfl

theorem commaArgumentAnswered {e es taken comma behind rest}
    (begins : ∃ kind ∈ operandLeads, front taken = some kind)
    (value : Phrase.Answered (taken ++ comma :: behind) (comma :: behind) (.expression e))
    (kind : comma.kind = .punct .comma) (next : Phrase.Answered behind rest (.arguments es)) :
    Phrase.Answered (taken ++ comma :: behind) rest (.arguments (e :: es)) := by
  obtain ⟨filled, lead⟩ := frontBegins begins (comma :: behind)
  have shorter := shorterBehind filled (comma :: behind)
  refine argumentAnswered lead ?_ (Nat.lt_of_succ_lt shorter) next
  intro level short
  refine bindFound (expressionBelow value short) ?_
  refine peekFound rfl ?_
  rw [if_neg (by simp [kind])]
  exact expectFound kind rfl

theorem Derives.answered {phrase taken rest} (derived : Derives phrase taken rest) :
    phrase.Answered (taken ++ rest) rest := by
  induction derived with
  | literal kind =>
    intro level _
    exact .inl (operandLiteral kind)
  | functionValue value ih =>
    intro level short
    exact .inl (operandTail (frontFound value.begins _) (ih level short))
  | head kind chain ih => exact headAnswered kind chain.chainStops ih
  | stop ends => exact stopAnswered ends
  | @call callee es e opening inner closing semicolon behind rest opens arguments closes ending
      chain inside ih =>
    have whole := callAnswered opens inside closes ending
      (by simp only [List.length_append, List.length_cons]; omega) ih
    simpa only [List.cons_append, List.append_assoc] using whole
  | member dotted kind chain ih => exact memberAnswered dotted kind ih
  | @operator left op right e t operand behind rest kind value chain inside ih =>
    have stopped : ¬ Continues (behind ++ rest) →
        e = join left op right ∧ behind ++ rest = rest := by
      intro ends
      obtain ⟨same, rfl⟩ := chain.chainStopped ends
      exact ⟨same, rfl⟩
    have whole := operatorAnswered kind inside (by simp only [List.length_append]; omega) ih stopped
    simpa only [List.cons_append, List.append_assoc] using whole
  | noArguments ends => exact noArgumentsAnswered ends
  | lastArgument value ends ih => exact lastArgumentAnswered value.begins ih ends
  | argument value kind next inside ih =>
    have whole := commaArgumentAnswered value.begins inside kind ih
    simpa only [List.cons_append, List.append_assoc] using whole
  | function kind named parameters block ih =>
    have whole := functionAnswered kind named parameters ih
    simpa only [List.cons_append, List.append_assoc] using whole
  | block opens statements closes ih =>
    have whole := blockAnswered opens ih closes
    simpa only [List.cons_append, List.append_assoc, List.nil_append] using whole
  | noStatements ends => exact noStatementsAnswered ends
  | @statements s body taken others rest first next inside ih =>
    obtain ⟨filled, lead⟩ := frontBegins first.begins (others ++ rest)
    rw [List.append_assoc]
    exact statementsAnswered lead inside (shorterBehind filled _) ih
  | semicolon kind => exact semicolonAnswered kind
  | undeclared terminated second => exact undeclaredAnswered terminated second
  | declarator kind assigned initial ending next inside ih =>
    simp only [List.cons_append, List.append_assoc]
    exact declaratorAnswered kind assigned inside ending
      (by simp only [List.length_append]; omega) ih
  | vars kind declared ih => exact variablesAnswered kind ih
  | functionStatement value ih => exact functionStatementAnswered (frontFound value.begins _) ih
  | expressionStatement begins value ih =>
    exact expressionStatementAnswered (frontFound begins _) ih
  | blockStatement value ih => exact blockStatementAnswered (frontFound value.begins _) ih
  | returns kind value ih => exact returnsAnswered kind ih
  | variableStatement value ih => exact variableStatementAnswered (frontFound value.begins _) ih
  | imports clause => exact importsAnswered clause
  | exportedValue kind only begins value ih =>
    exact exportedValueAnswered kind only (frontFound begins _) ih
  | exportedDefault kind only value ih =>
    exact exportedDefaultAnswered kind only (frontFound value.begins _) ih
  | exportedVariables kind value ih =>
    exact exportedVariablesAnswered kind (frontFound value.begins _) ih
  | exportedFunction kind value ih =>
    exact exportedFunctionAnswered kind (frontFound value.begins _) ih
  | exportedNames kind clause => exact exportedNamesAnswered kind clause
  | exportedModule kind clause => exact exportedModuleAnswered kind clause
  | statement body ending ih =>
    rw [List.append_assoc]
    exact statementAnswered ih ending

theorem programDone {tokens p rest} : program tokens = .done p rest ↔
    rest = [] ∧ p = Program.ofStatements p.body ∧ Derives (.statements p.body) tokens [] := by
  constructor
  · exact programReads
  · intro read
    obtain ⟨rfl, whole, derived⟩ := read
    have answered := derived.answered (tokens.length + 1) (tokens.length + 1) none
    rw [List.append_nil] at answered
    have body := answered (Nat.lt_succ_self _) (Nat.lt_succ_self _) (.inl ⟨rfl, rfl⟩)
    rw [whole]
    exact bindFound body rfl

end ScriptTree.Grammar

namespace ScriptTree

theorem parsedExactly {tokens p} : parseTokens tokens = .ok p ↔
    p = Program.ofStatements p.body ∧ Grammar.Derives (.statements p.body) tokens [] := by
  have answer : parseTokens tokens = .ok p ↔ ∃ rest, Grammar.program tokens = .done p rest := by
    rw [parseTokens, Session.readsTokens]
    cases Grammar.program tokens <;> simp
  rw [answer]
  constructor
  · intro found
    obtain ⟨rest, found⟩ := found
    exact (Grammar.programDone.mp found).2
  · intro derived
    exact ⟨[], Grammar.programDone.mpr ⟨rfl, derived⟩⟩

end ScriptTree
