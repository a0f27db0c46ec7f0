import ScriptTree.Proofs.Derivation
/-! What is answered can be derived. Each production is opened once, branch by branch, and the
derivation of its answer is put together from those of the productions that it runs. -/
namespace ScriptTree.Grammar

theorem seriesStatements {stop body taken rest} (block : stop = none ∨ stop = some (.punct .braceRight))
    (series : Series stop (fun s => Derives (.statement s)) body taken rest) :
    Derives (.statements body) taken rest := by
  induction series with
  | done ends =>
    refine .noStatements ?_
    rcases ends with ends | ends
    · exact .inl ends
    · rcases block with rfl | rfl
      · exact .inl ends
      · exact .inr ends
  | more first next ih => exact .statements first ih

theorem seriesArguments {es taken rest} (closes : front rest = some (.punct .parenRight))
    (series : Series (some (.punct .parenRight)) (Separated fun e => Derives (.expression e))
      es taken rest) : Derives (.arguments es) taken rest := by
  induction series with
  | done ends => exact .noArguments ends
  | @more e es taken others rest first next ih =>
    rcases first with ⟨value, ends⟩ | ⟨before, comma, rfl, value, kind⟩
    · cases next with
      | done _ =>
        rw [List.append_nil]
        exact .lastArgument value ends
      | @more e' _ taken' _ _ second _ =>
        -- a further argument would have to begin with the closing mark
        have begun : ∃ kind ∈ operandLeads, front taken' = some kind := by
          rcases second with ⟨value', _⟩ | ⟨before', comma', rfl, value', _⟩
          · exact value'.begins
          · obtain ⟨kind, lead, found⟩ := value'.begins
            obtain ⟨t, more, rfl, rfl⟩ := frontSome found
            exact ⟨t.kind, lead, rfl⟩
        obtain ⟨kind, lead, found⟩ := begun
        obtain ⟨t, more, rfl, rfl⟩ := frontSome found
        simp only [List.cons_append, frontCons, Option.some.injEq] at ends
        rw [ends] at lead
        exact absurd lead (by decide)
    · rw [List.append_assoc]
      exact .argument value kind (ih closes)

section Reads
variable {expression : Production Expression} {inner : Production Statement} {budget : Nat}

theorem blockReads (readsInner : Reads inner fun s => Derives (.statement s)) :
    Reads (block inner budget) fun b => Derives (.block b) := by
  intro tokens b rest ok
  simp only [block, bindDone] at ok
  obtain ⟨⟨span, body⟩, _, found, finished⟩ := ok
  cases finished
  obtain ⟨_, rfl, opening, middle, closing, rfl, opens, closes, all, rfl⟩ :=
    enclosedReads readsInner found
  exact ⟨_, rfl, .block opens (seriesStatements (.inr rfl) all) closes⟩

theorem functionReads (readsInner : Reads inner fun s => Derives (.statement s)) :
    Reads (functionDef inner budget) fun f => Derives (.function f) := by
  intro tokens f rest ok
  simp only [functionDef, bindDone, expectDone, acceptDone] at ok
  obtain ⟨word, _, ⟨rfl, kind⟩, name, _, ⟨rfl, named⟩, ⟨span, params⟩, _, listed, b, _, found,
    finished⟩ := ok
  cases finished
  obtain ⟨list, rfl, parameters⟩ := parametersReads listed
  obtain ⟨body, rfl, block⟩ := blockReads readsInner found
  exact ⟨word :: (name.toList ++ (list ++ body)), by simp, .function kind named parameters block⟩

theorem literalDone {lit tokens rest} :
    literal tokens = .done lit rest ↔ ∃ t, tokens = t :: rest ∧
      (t.kind = .number ∨ t.kind = .string) ∧ lit = .ofToken t := by
  simp only [literal, bindDone, oneOfDone, List.mem_cons, List.not_mem_nil, or_false]
  constructor
  · rintro ⟨t, _, ⟨rfl, kind⟩, finished⟩
    cases finished
    exact ⟨t, rfl, kind, rfl⟩
  · rintro ⟨t, rfl, kind, rfl⟩
    exact ⟨t, rest, ⟨rfl, kind⟩, rfl⟩

def OperandReading : Reading Operand
  | .head id, taken, rest => Named id taken rest
  | .tail e, taken, rest => Derives (.expression e) taken rest

theorem operandReads (readsInner : Reads inner fun s => Derives (.statement s)) :
    Reads (operand inner budget) OperandReading := by
  intro tokens o rest ok
  simp only [operand, bindDone, peekDone] at ok
  obtain ⟨next, _, ⟨seen, rfl⟩, ok⟩ := ok
  split at ok
  · obtain ⟨f, taken, rfl, value, rfl⟩ := madeReads (functionReads readsInner) ok
    exact ⟨taken, rfl, .functionValue value⟩
  · simp only [bindDone, literalDone] at ok
    obtain ⟨_, _, ⟨t, rfl, kind, rfl⟩, finished⟩ := ok
    cases finished
    exact ⟨[t], rfl, .literal kind⟩
  · simp only [bindDone, literalDone] at ok
    obtain ⟨_, _, ⟨t, rfl, kind, rfl⟩, finished⟩ := ok
    cases finished
    exact ⟨[t], rfl, .literal kind⟩
  · obtain ⟨id, taken, rfl, named, rfl⟩ := madeReads identifierReads ok
    exact ⟨taken, rfl, named⟩

theorem callReads {callee whole tokens rest}
    (readsExpression : Reads expression fun e => Derives (.expression e))
    (ok : call expression budget callee tokens = .done whole rest) :
    ∃ taken, tokens = taken ++ rest ∧ ∀ {e behind after}, rest = behind ++ after →
      Derives (.chain whole e) behind after → Derives (.chain callee e) (taken ++ behind) after := by
  simp only [call, bindDone, acceptDone] at ok
  obtain ⟨⟨span, es⟩, _, listed, semicolon, _, ⟨rfl, ending⟩, finished⟩ := ok
  cases finished
  obtain ⟨_, rfl, opening, inner, closing, rfl, opens, closes, all, rfl⟩ :=
    enclosedReads (separatedReads readsExpression) listed
  refine ⟨opening :: (inner ++ closing :: semicolon.toList), by simp, ?_⟩
  rintro e behind after rfl chain
  have stops : semicolon.elim closing.span.stop (·.span.stop) =
      stopOf closing.span.stop semicolon.toList := by cases semicolon <;> rfl
  have derived := Derives.call opens (seriesArguments (by simp [closes]) all) closes ending
    (stops ▸ chain)
  simpa using derived

theorem memberReads {object whole tokens rest} (ok : member object tokens = .done whole rest) :
    ∃ taken, tokens = taken ++ rest ∧ ∀ {e behind after}, rest = behind ++ after →
      Derives (.chain whole e) behind after → Derives (.chain object e) (taken ++ behind) after := by
  simp only [member, bindDone, expectDone] at ok
  obtain ⟨dot, _, ⟨rfl, dotted⟩, id, _, found, finished⟩ := ok
  cases finished
  obtain ⟨_, rfl, name, rfl, kind, rfl⟩ := identifierReads found
  refine ⟨[dot, name], rfl, ?_⟩
  rintro e behind after rfl chain
  exact .member dotted kind chain

/- The operands that wait change nothing in what is read, they are only joined to it. -/
theorem continuedReads (readsExpression : Reads expression fun e => Derives (.expression e))
    (readsInner : Reads inner fun s => Derives (.statement s)) {level pending current tokens value
    rest} (ok : continued expression (operand inner level) budget pending current tokens =
      .done value rest) :
    ∃ e taken, tokens = taken ++ rest ∧ Derives (.chain current e) taken rest ∧
      value = resolve pending e := by
  induction budget generalizing pending current tokens with
  | zero => cases ok
  | succ budget ih =>
    simp only [continued, bindDone, peekDone] at ok
    obtain ⟨next, _, ⟨seen, rfl⟩, ok⟩ := ok
    split at ok
    · simp only [bindDone] at ok
      obtain ⟨whole, _, called, ok⟩ := ok
      obtain ⟨e, behind, rfl, chain, rfl⟩ := ih ok
      obtain ⟨taken, rfl, extend⟩ := callReads readsExpression called
      exact ⟨e, taken ++ behind, by simp, extend rfl chain, rfl⟩
    · simp only [bindDone] at ok
      obtain ⟨whole, _, accessed, ok⟩ := ok
      obtain ⟨e, behind, rfl, chain, rfl⟩ := ih ok
      obtain ⟨taken, rfl, extend⟩ := memberReads accessed
      exact ⟨e, taken ++ behind, by simp, extend rfl chain, rfl⟩
    · rename_i op
      simp only [bindDone, expectDone] at ok
      obtain ⟨t, _, ⟨rfl, kind⟩, o, _, found, ok⟩ := ok
      obtain ⟨taken, rfl, read⟩ := operandReads readsInner found
      cases o with
      | tail right =>
        obtain ⟨e, behind, rfl, chain, rfl⟩ := ih ok
        exact ⟨e, t :: (taken ++ behind), by simp, .operator kind read chain, rfl⟩
      | head id =>
        obtain ⟨e, behind, rfl, chain, rfl⟩ := ih ok
        obtain ⟨name, rfl, named, rfl⟩ := read
        -- the right operand takes all that follows, so nothing is left for the chain behind it
        have operand : Derives (.expression e) (name :: behind) ([] ++ rest) := .head named chain
        refine ⟨join current op e, t :: (name :: behind ++ []), by simp, ?_, rfl⟩
        exact .operator kind operand (.stop chain.chainStops)
    · cases ok
      refine ⟨current, [], rfl, .stop ?_, rfl⟩
      simp only [Continues, ← seen, not_false_eq_true]

theorem expressionReads (readsExpression : Reads expression fun e => Derives (.expression e))
    (readsInner : Reads inner fun s => Derives (.statement s)) :
    Reads (Grammar.expression expression inner budget) fun e => Derives (.expression e) := by
  intro tokens value rest ok
  simp only [Grammar.expression, bindDone] at ok
  obtain ⟨o, _, found, ok⟩ := ok
  obtain ⟨taken, rfl, read⟩ := operandReads readsInner found
  cases o with
  | tail e =>
    cases ok
    exact ⟨taken, rfl, read⟩
  | head id =>
    obtain ⟨t, rfl, kind, rfl⟩ := read
    obtain ⟨e, behind, rfl, chain, rfl⟩ := continuedReads readsExpression readsInner ok
    exact ⟨t :: behind, rfl, .head kind chain⟩

theorem declaratorsRead (readsExpression : Reads expression fun e => Derives (.expression e))
    {before tokens stop ds rest}
    (ok : declarators expression budget before tokens = .done (stop, ds) rest) :
    ∃ taken, tokens = taken ++ rest ∧ Derives (.declarators before stop ds) taken rest := by
  induction budget generalizing before tokens stop ds with
  | zero => cases ok
  | succ budget ih =>
    simp only [declarators, bindDone, acceptDone] at ok
    obtain ⟨semicolon, after, ⟨rfl, accepted⟩, ok⟩ := ok
    cases semicolon with
    | some t =>
      cases ok
      exact ⟨[t], rfl, .semicolon accepted⟩
    | none =>
      simp only [bindDone, peekSecondDone] at ok
      obtain ⟨next, _, ⟨rfl, rfl⟩, ok⟩ := ok
      split at ok
      · rename_i second
        simp only [bindDone, declarator, acceptDone] at ok
        obtain ⟨first, _, ⟨id, _, found, assign, last, ⟨rfl, assigned⟩, ok⟩, comma, _,
          ⟨rfl, ending⟩, ⟨stop', others⟩, _, more, finished⟩ := ok
        cases finished
        obtain ⟨_, rfl, name, rfl, kind, rfl⟩ := identifierReads found
        cases assign with
        | none =>
          -- the token behind the name was seen to be the mark that is not accepted here
          exact absurd second assigned
        | some assign =>
          simp only [bindDone] at ok
          obtain ⟨init, _, initial, finished⟩ := ok
          cases finished
          obtain ⟨value, rfl, read⟩ := readsExpression initial
          have stops : comma.elim init.span.stop (·.span.stop) =
              stopOf init.span.stop comma.toList := by cases comma <;> rfl
          obtain ⟨behind, rfl, next⟩ := ih more
          have derived : Derives (.declarators before stop' _) _ rest :=
            .declarator kind assigned read ending (stops ▸ next)
          exact ⟨_, by simp, derived⟩
      · rename_i second
        cases ok
        exact ⟨[], rfl, .undeclared accepted second⟩

theorem variablesRead (readsExpression : Reads expression fun e => Derives (.expression e))
    (sort : VariableKind) :
    Reads (variableDeclaration expression budget sort) fun d => Derives (.vars d) := by
  intro tokens d rest ok
  simp only [variableDeclaration, bindDone, expectDone] at ok
  obtain ⟨word, _, ⟨rfl, kind⟩, ⟨stop, ds⟩, _, found, finished⟩ := ok
  cases finished
  obtain ⟨taken, rfl, declared⟩ := declaratorsRead readsExpression found
  exact ⟨word :: taken, rfl, .vars kind declared⟩

theorem exportsRead (readsExpression : Reads expression fun e => Derives (.expression e))
    (readsInner : Reads inner fun s => Derives (.statement s)) {level : Nat} :
    Reads (exports expression (functionDef inner level) budget)
      fun s => Derives (.unterminated s) := by
  intro tokens s rest ok
  simp only [exports, bindDone, expectDone, peekDone] at ok
  obtain ⟨word, _, ⟨rfl, kind⟩, next, _, ⟨seen, rfl⟩, ok⟩ := ok
  split at ok
  · simp only [bindDone, defaultDeclaration, expectDone, peekDone] at ok
    obtain ⟨d, _, ⟨default, _, ⟨rfl, only⟩, following, _, ⟨begun, rfl⟩, ok⟩, finished⟩ := ok
    cases finished
    split at ok
    · obtain ⟨e, taken, rfl, value, rfl⟩ := madeReads readsExpression ok
      obtain ⟨_, lead, first⟩ := value.begins
      obtain ⟨t, more, rfl, rfl⟩ := frontSome first
      exact ⟨word :: default :: t :: more, rfl, .exportedValue kind only begun.symm value⟩
    · obtain ⟨f, taken, rfl, value, rfl⟩ := madeReads (functionReads readsInner) ok
      exact ⟨word :: default :: taken, rfl, .exportedDefault kind only value⟩
    · cases ok
  · obtain ⟨taken, rfl, clause⟩ := exportListReads ok
    exact ⟨word :: taken, rfl, .exportedNames kind clause⟩
  iterate 3
    obtain ⟨d, taken, rfl, value, rfl⟩ := madeReads (variablesRead readsExpression _) ok
    exact ⟨word :: taken, rfl, .exportedVariables kind value⟩
  · obtain ⟨f, taken, rfl, value, rfl⟩ := madeReads (functionReads readsInner) ok
    exact ⟨word :: taken, rfl, .exportedFunction kind value⟩
  · obtain ⟨d, taken, rfl, clause, rfl⟩ := madeReads exportAllReads ok
    exact ⟨word :: taken, rfl, .exportedModule kind clause⟩

theorem returnsRead (readsExpression : Reads expression fun e => Derives (.expression e)) :
    Reads (returns expression) fun s => Derives (.unterminated s) := by
  intro tokens s rest ok
  simp only [returns, bindDone, expectDone] at ok
  obtain ⟨word, _, ⟨rfl, kind⟩, e, _, found, finished⟩ := ok
  cases finished
  obtain ⟨taken, rfl, value⟩ := readsExpression found
  exact ⟨word :: taken, rfl, .returns kind value⟩

theorem unterminatedReads (readsExpression : Reads expression fun e => Derives (.expression e))
    (readsInner : Reads inner fun s => Derives (.statement s)) :
    Reads (unterminated expression inner budget) fun s => Derives (.unterminated s) := by
  intro tokens s rest ok
  simp only [unterminated, bindDone, peekDone] at ok
  obtain ⟨next, _, ⟨seen, rfl⟩, ok⟩ := ok
  split at ok
  · obtain ⟨f, taken, rfl, value, rfl⟩ := madeReads (functionReads readsInner) ok
    exact ⟨taken, rfl, .functionStatement value⟩
  · obtain ⟨e, taken, rfl, value, rfl⟩ := madeReads readsExpression ok
    obtain ⟨_, lead, first⟩ := value.begins
    obtain ⟨t, more, rfl, rfl⟩ := frontSome first
    exact ⟨t :: more, rfl, .expressionStatement seen.symm value⟩
  · obtain ⟨b, taken, rfl, value, rfl⟩ := madeReads (blockReads readsInner) ok
    exact ⟨taken, rfl, .blockStatement value⟩
  · exact returnsRead readsExpression ok
  · obtain ⟨d, taken, rfl, clause, rfl⟩ := madeReads importsRead ok
    exact ⟨taken, rfl, .imports clause⟩
  · exact exportsRead readsExpression readsInner ok
  iterate 3
    obtain ⟨d, taken, rfl, value, rfl⟩ := madeReads (variablesRead readsExpression _) ok
    exact ⟨taken, rfl, .variableStatement value⟩
  · cases ok

theorem statementReads (readsExpression : Reads expression fun e => Derives (.expression e))
    (readsInner : Reads inner fun s => Derives (.statement s)) :
    Reads (statement expression inner budget) fun s => Derives (.statement s) := by
  intro tokens s rest ok
  simp only [statement, bindDone, acceptDone] at ok
  obtain ⟨read, _, found, semicolon, _, ⟨rfl, ending⟩, finished⟩ := ok
  cases finished
  obtain ⟨taken, rfl, body⟩ := unterminatedReads readsExpression readsInner found
  exact ⟨taken ++ semicolon.toList, by simp, .statement body ending⟩

end Reads

theorem upToReads (level : Nat) :
    (Reads (Productions.upTo level).expression fun e => Derives (.expression e)) ∧
    (Reads (Productions.upTo level).statement fun s => Derives (.statement s)) := by
  induction level with
  | zero => constructor <;> intro tokens value rest ok <;> cases ok
  | succ level ih =>
    have expressions : Reads (Productions.upTo (level + 1)).expression
        fun e => Derives (.expression e) := expressionReads ih.1 ih.2
    exact ⟨expressions, statementReads expressions ih.2⟩

theorem seriesEnds {stop : Option Kind} {item : Reading α} {values taken rest}
    (series : Series stop item values taken rest) : front rest = none ∨ front rest = stop := by
  induction series with
  | done ends => exact ends
  | more first next ih => exact ih

theorem programReads {tokens p rest} (ok : program tokens = .done p rest) :
    rest = [] ∧ p = Program.ofStatements p.body ∧ Derives (.statements p.body) tokens [] := by
  obtain ⟨body, after, found, finished⟩ := bindDone.mp ok
  cases finished
  obtain ⟨taken, rfl, series⟩ := manyReads (upToReads _).2 _ _ found
  have done : rest = [] := by
    rcases seriesEnds series with ends | ends <;> simpa [front] using ends
  subst done
  rw [List.append_nil]
  exact ⟨rfl, rfl, seriesStatements (.inl rfl) series⟩

end ScriptTree.Grammar
