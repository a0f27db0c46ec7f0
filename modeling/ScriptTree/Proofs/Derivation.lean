import ScriptTree.Proofs.Clause
/-! How a module is read, without budgets and without operands that wait: a relation between a
phrase, the tokens it is read from, and the tokens behind these. Each rule is one way on through
the productions, so what holds of every reading is proved rule by rule. -/
namespace ScriptTree.Grammar

def Continues (tokens : List Token) : Prop :=
  match front tokens with
  | some (.punct .parenLeft) => True
  | some (.punct .dot) => True
  | some (.operator _) => True
  | _ => False

theorem notContinues {rest} (call : front rest ≠ some (.punct .parenLeft))
    (member : front rest ≠ some (.punct .dot)) (operator : ∀ op, front rest ≠ some (.operator op)) :
    ¬ Continues rest := by
  unfold Continues
  generalize front rest = next at *
  split
  · exact absurd rfl call
  · exact absurd rfl member
  · exact absurd rfl (operator _)
  · exact id

def Quiet (next : Option Kind) : Prop :=
  next = none ∨ ∃ kind ∈ Kind.punct .braceRight :: leads, next = some kind

theorem quietOther {next kind} (quiet : Quiet next)
    (other : kind ∉ Kind.punct .braceRight :: leads) : next ≠ some kind := by
  rcases quiet with none | ⟨lead, among, found⟩
  · rw [none]
    exact Option.some_ne_none kind |>.symm
  · rw [found]
    intro same
    cases same
    exact other among

theorem quietEnds {rest : List Token} (quiet : Quiet (front rest)) : ¬ Continues rest := by
  refine notContinues (quietOther quiet (by decide)) (quietOther quiet (by decide)) ?_
  intro op
  exact quietOther quiet (by cases op <;> decide)

def stopOf (before : Nat) : List Token → Nat
  | [] => before
  | t :: more => stopOf t.span.stop more

inductive Phrase where
  | expression (e : Expression)
  | chain (operand whole : Expression)
  | arguments (es : List Expression)
  | function (f : FunctionDef)
  | block (b : Block)
  | statements (body : List Statement)
  /-- Declarators behind a token that stops at `before`. The last of theirs stops at `stop`. -/
  | declarators (before stop : Nat) (ds : List Declarator)
  | vars (d : VariableDeclaration)
  | unterminated (s : Statement)
  | statement (s : Statement)

inductive Derives : Phrase → List Token → List Token → Prop where
  | literal {t rest} (kind : t.kind = .number ∨ t.kind = .string) :
      Derives (.expression (.literal (.ofToken t))) [t] rest
  | functionValue {f taken rest} (value : Derives (.function f) taken rest) :
      Derives (.expression (.function f)) taken rest
  | head {t e taken rest} (kind : t.kind = .identifier)
      (chain : Derives (.chain (.identifier (.ofToken t)) e) taken rest) :
      Derives (.expression e) (t :: taken) rest
  | stop {e rest} (ends : ¬ Continues rest) : Derives (.chain e e) [] rest
  | call {callee es e opening inner closing semicolon behind rest}
      (opens : opening.kind = .punct .parenLeft)
      (arguments : Derives (.arguments es) inner
        (closing :: (semicolon.toList ++ (behind ++ rest))))
      (closes : closing.kind = .punct .parenRight)
      (ending : Accepted (.punct .semicolon) (behind ++ rest) semicolon)
      (chain : Derives (.chain (.call ⟨callee.span.start,
        stopOf closing.span.stop semicolon.toList⟩ callee es) e) behind rest) :
      Derives (.chain callee e)
        (opening :: (inner ++ closing :: (semicolon.toList ++ behind))) rest
  | member {object e dot name behind rest} (dotted : dot.kind = .punct .dot)
      (kind : name.kind = .identifier)
      (chain : Derives (.chain (.member (object.span.through name.span) object (.ofToken name)
        false) e) behind rest) :
      Derives (.chain object e) (dot :: name :: behind) rest
  | operator {left op right e t operand behind rest} (kind : t.kind = .operator op)
      (value : Derives (.expression right) operand (behind ++ rest))
      (chain : Derives (.chain (join left op right) e) behind rest) :
      Derives (.chain left e) (t :: (operand ++ behind)) rest
  | noArguments {rest} (ends : front rest = none ∨ front rest = some (.punct .parenRight)) :
      Derives (.arguments []) [] rest
  | lastArgument {e taken rest} (value : Derives (.expression e) taken rest)
      (ends : front rest = some (.punct .parenRight)) : Derives (.arguments [e]) taken rest
  | argument {e es taken comma others rest}
      (value : Derives (.expression e) taken (comma :: (others ++ rest)))
      (kind : comma.kind = .punct .comma) (next : Derives (.arguments es) others rest) :
      Derives (.arguments (e :: es)) (taken ++ comma :: others) rest
  | function {word name span params b list body rest}
      (kind : word.kind = .keyword .functionWord)
      (named : Accepted .identifier (list ++ (body ++ rest)) name)
      (parameters : Parameters (span, params) list (body ++ rest))
      (block : Derives (.block b) body rest) :
      Derives (.function ⟨word.span.through b.span, name.map .ofToken, params, b⟩)
        (word :: (name.toList ++ (list ++ body))) rest
  | block {opening body inner closing rest} (opens : opening.kind = .punct .braceLeft)
      (statements : Derives (.statements body) inner (closing :: rest))
      (closes : closing.kind = .punct .braceRight) :
      Derives (.block ⟨opening.span.through closing.span, body⟩)
        (opening :: (inner ++ [closing])) rest
  | noStatements {rest} (ends : front rest = none ∨ front rest = some (.punct .braceRight)) :
      Derives (.statements []) [] rest
  | statements {s body taken others rest} (first : Derives (.statement s) taken (others ++ rest))
      (next : Derives (.statements body) others rest) :
      Derives (.statements (s :: body)) (taken ++ others) rest
  | semicolon {t before rest} (kind : t.kind = .punct .semicolon) :
      Derives (.declarators before t.span.stop []) [t] rest
  | undeclared {before rest} (terminated : front rest ≠ some (.punct .semicolon))
      (second : front (rest.drop 1) ≠ some (.punct .assign)) :
      Derives (.declarators before before []) [] rest
  | declarator {name assign init comma stop ds before value others rest}
      (kind : name.kind = .identifier) (assigned : assign.kind = .punct .assign)
      (initial : Derives (.expression init) value (comma.toList ++ (others ++ rest)))
      (ending : Accepted (.punct .comma) (others ++ rest) comma)
      (next : Derives (.declarators (stopOf init.span.stop comma.toList) stop ds) others rest) :
      Derives (.declarators before stop (⟨name.span.through init.span, .ofToken name,
        some init⟩ :: ds)) (name :: assign :: (value ++ (comma.toList ++ others))) rest
  | vars {word sort stop ds taken rest} (kind : word.kind = .keyword (variableWord sort))
      (declared : Derives (.declarators word.span.stop stop ds) taken rest) :
      Derives (.vars ⟨⟨word.span.start, stop⟩, sort, ds⟩) (word :: taken) rest
  | functionStatement {f taken rest} (value : Derives (.function f) taken rest) :
      Derives (.unterminated (.function f)) taken rest
  | expressionStatement {e taken rest} (begins : front taken = some .identifier)
      (value : Derives (.expression e) taken rest) :
      Derives (.unterminated (.expression e.span e)) taken rest
  | blockStatement {b taken rest} (value : Derives (.block b) taken rest) :
      Derives (.unterminated (.block b)) taken rest
  | returns {word e taken rest} (kind : word.kind = .keyword .returnWord)
      (value : Derives (.expression e) taken rest) :
      Derives (.unterminated (.returns (word.span.through e.span) e)) (word :: taken) rest
  | variableStatement {d taken rest} (value : Derives (.vars d) taken rest) :
      Derives (.unterminated (.vars d)) taken rest
  | imports {d taken rest} (clause : Imports d taken rest) :
      Derives (.unterminated (.imports d)) taken rest
  | exportedValue {word default e taken rest} (kind : word.kind = .keyword .exportWord)
      (only : default.kind = .keyword .defaultWord) (begins : front taken = some .identifier)
      (value : Derives (.expression e) taken rest) :
      Derives (.unterminated (.exportDefault ⟨word.span.start, e.span.stop⟩ (.expression e)))
        (word :: default :: taken) rest
  | exportedDefault {word default f taken rest} (kind : word.kind = .keyword .exportWord)
      (only : default.kind = .keyword .defaultWord) (value : Derives (.function f) taken rest) :
      Derives (.unterminated (.exportDefault ⟨word.span.start, f.span.stop⟩ (.function f)))
        (word :: default :: taken) rest
  | exportedVariables {word d taken rest} (kind : word.kind = .keyword .exportWord)
      (value : Derives (.vars d) taken rest) :
      Derives (.unterminated (exportDeclared word.span.start (.vars d))) (word :: taken) rest
  | exportedFunction {word f taken rest} (kind : word.kind = .keyword .exportWord)
      (value : Derives (.function f) taken rest) :
      Derives (.unterminated (exportDeclared word.span.start (.function f))) (word :: taken) rest
  | exportedNames {word s taken rest} (kind : word.kind = .keyword .exportWord)
      (clause : ExportList word.span.start s taken rest) :
      Derives (.unterminated s) (word :: taken) rest
  | exportedModule {word d taken rest} (kind : word.kind = .keyword .exportWord)
      (clause : ExportsAll word.span.start d taken rest) :
      Derives (.unterminated (.exportAll d)) (word :: taken) rest
  | statement {s taken semicolon rest}
      (body : Derives (.unterminated s) taken (semicolon.toList ++ rest))
      (ending : Accepted (.punct .semicolon) rest semicolon) :
      Derives (.statement s) (taken ++ semicolon.toList) rest

def operandLeads : List Kind := [.keyword .functionWord, .identifier, .number, .string]

def Phrase.Begins (taken : List Token) : Phrase → Prop
  | .expression _ => ∃ kind ∈ operandLeads, front taken = some kind
  | .function _ => front taken = some (.keyword .functionWord)
  | .block _ => front taken = some (.punct .braceLeft)
  | .vars d => front taken = some (.keyword (variableWord d.kind))
  | .unterminated _ | .statement _ => ∃ kind ∈ leads, front taken = some kind
  | .chain _ _ | .arguments _ | .statements _ | .declarators _ _ _ => True

theorem Derives.begins {phrase taken rest} (derived : Derives phrase taken rest) :
    phrase.Begins taken := by
  induction derived with
  | literal kind => rcases kind with kind | kind <;> simp [Phrase.Begins, operandLeads, kind]
  | functionValue value ih => exact ⟨_, List.mem_cons_self, ih⟩
  | head kind => simp [Phrase.Begins, operandLeads, kind]
  | function kind => simp [Phrase.Begins, kind]
  | block opens => simp [Phrase.Begins, opens]
  | vars kind => simp [Phrase.Begins, kind]
  | functionStatement value ih => exact ⟨_, by decide, ih⟩
  | expressionStatement begins => exact ⟨_, by decide, begins⟩
  | blockStatement value ih => exact ⟨_, by decide, ih⟩
  | returns kind => simp [Phrase.Begins, leads, kind]
  | @variableStatement d _ _ value ih => exact ⟨_, by cases d.kind <;> decide, ih⟩
  | imports clause => cases clause with
    | clause kind => simp [Phrase.Begins, leads, kind]
  | exportedValue kind => simp [Phrase.Begins, leads, kind]
  | exportedDefault kind => simp [Phrase.Begins, leads, kind]
  | exportedVariables kind => simp [Phrase.Begins, leads, kind]
  | exportedFunction kind => simp [Phrase.Begins, leads, kind]
  | exportedNames kind => simp [Phrase.Begins, leads, kind]
  | exportedModule kind => simp [Phrase.Begins, leads, kind]
  | statement body ending ih =>
    obtain ⟨kind, lead, found⟩ := ih
    obtain ⟨t, more, rfl, rfl⟩ := frontSome found
    exact ⟨t.kind, lead, rfl⟩
  | _ => trivial

theorem Derives.chainStops {operand whole taken rest}
    (derived : Derives (.chain operand whole) taken rest) : ¬ Continues rest := by
  generalize same : Phrase.chain operand whole = phrase at derived
  induction derived generalizing operand with
  | stop ends => exact ends
  | call _ _ _ _ _ _ ih => cases same; exact ih rfl
  | member _ _ _ ih => cases same; exact ih rfl
  | operator _ _ _ _ ih => cases same; exact ih rfl
  | _ => cases same

theorem Derives.chainStopped {operand whole taken rest}
    (derived : Derives (.chain operand whole) taken rest) (ends : ¬ Continues (taken ++ rest)) :
    whole = operand ∧ taken = [] := by
  cases derived with
  | stop => exact ⟨rfl, rfl⟩
  | call opens => simp [Continues, opens] at ends
  | member dotted => simp [Continues, dotted] at ends
  | operator kind => simp [Continues, kind] at ends

end ScriptTree.Grammar
