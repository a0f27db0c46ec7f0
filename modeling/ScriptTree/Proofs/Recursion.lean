import ScriptTree.Proofs.Simulation
/-! Expressions read by plain recursion, where the right operand of an operator is a whole
expression, and by a loop that takes one waiting operand from its stack at a time. Both come
to the same as the reading that gives all of them their right operands where it ends. -/
namespace ScriptTree

namespace Grammar

def followed (whole : Production Expression) : Nat → Expression → Production Expression
  | 0, _ => exhausted
  | budget + 1, current => do
    match ← peek with
    | some (.punct .parenLeft) =>
      let current ← call whole budget current
      followed whole budget current
    | some (.punct .dot) =>
      let current ← member current
      followed whole budget current
    | some (.operator op) =>
      let _ ← expect (.operator op)
      let right ← whole
      followed whole budget (join current op right)
    | _ => pure current

def recursiveExpression (whole : Production Expression) (statement : Production Statement)
    (budget : Nat) : Production Expression := do
  match ← operand statement budget with
  | .tail e => pure e
  | .head id => followed whole budget (.identifier id)

variable {whole arg : Production Expression}
variable {s : Production Statement} {b b' level limit : Nat} {tokens rest : List Token}
variable {pending : List Pending} {current e : Expression}

theorem followedStops (ok : followed whole b current tokens = .done e rest) : ¬ Continues rest := by
  induction b generalizing current tokens with
  | zero => cases ok
  | succ b ih =>
    simp only [followed, bindDone, peekDone] at ok
    obtain ⟨next, _, ⟨seen, rfl⟩, ok⟩ := ok
    split at ok
    · obtain ⟨_, _, _, ok⟩ := bindDone.mp ok
      exact ih ok
    · obtain ⟨_, _, _, ok⟩ := bindDone.mp ok
      exact ih ok
    · obtain ⟨_, _, _, ok⟩ := bindDone.mp ok
      obtain ⟨_, _, _, ok⟩ := bindDone.mp ok
      exact ih ok
    · cases ok
      simp only [Continues, ← seen, not_false_eq_true]

theorem followedEnds (ends : ¬ Continues tokens) (enough : 0 < b) :
    followed whole b current tokens = .done current tokens := by
  obtain ⟨b, rfl⟩ := budgetLeft enough
  exact endsOther ends

theorem followedJoined {left : Expression} {operator : Operator} (enough : 0 < b') :
    ((followed whole b current >>= fun e => pure (resolve [] e)) >>= fun right =>
      followed whole b' (join left operator right) >>= fun e => pure (resolve pending e)) tokens =
    (followed whole b current >>= fun e => pure (resolve (⟨left, operator⟩ :: pending) e))
      tokens := by
  rw [bindAssociates]
  refine bindSame rfl fun right rest ended => ?_
  -- The right operand took all that could follow, so nothing is left to go on with.
  have joined : followed whole b' (join left operator right) rest =
    .done (join left operator right) rest := followedEnds (followedStops ended) enough
  simp only [Production.bindApply, Production.pureApply, resolve, List.foldl_nil,
    List.foldl_cons, joined]

/- What waits changes nothing in what is read behind it. So a head behind an operator takes all
that follows, and the operands before it are joined to that where the plain reading returns. -/
theorem continuedUnstacked (args : AlikeBelow limit 1 whole arg)
    (operands : AlikeBelow limit 1 (operand s level) (operand s level))
    (reads : ∀ tokens, tokens.length < limit → whole tokens = Grammar.expression arg s level tokens)
    (deep : limit ≤ level) (short : tokens.length < limit) (enough : tokens.length < b)
    (enough' : tokens.length < b') :
    (followed whole b' current >>= fun e => pure (resolve pending e)) tokens =
      continued arg (operand s level) b pending current tokens := by
  induction b' generalizing b pending current tokens with
  | zero => contradiction
  | succ b' ih =>
    by_cases more : Continues tokens
    · obtain ⟨b, rfl⟩ := budgetLeft enough
      rw [continued, followed, bindAssociates, peekThen, peekThen]
      obtain seen | seen | ⟨op, seen⟩ := continuesCases more <;> rw [seen]
      · have called : Alike 1 (call whole b' current) (call arg b current) tokens :=
          callAlike args (by omega) (by omega) (by omega)
        rw [bindAssociates]
        refine bindSame called.same fun value rest found => ?_
        have shorter := called.shorter found
        exact ih (by omega) (by omega) (by omega)
      · rw [bindAssociates]
        refine bindSame rfl fun value rest found => ?_
        have shorter := memberAlike.shorter found
        exact ih (by omega) (by omega) (by omega)
      · rw [bindAssociates]
        refine bindSame rfl fun t rest found => ?_
        have shorter := alikeExpect.shorter found
        rw [bindAssociates]
        refine (bindSame (reads rest (by omega)) fun _ _ _ => rfl).trans ?_
        rw [Grammar.expression, bindAssociates]
        refine bindSame rfl fun o behind taken => ?_
        have less := (operands (by omega)).shorter taken
        cases o with
        | tail right => exact ih (by omega) (by omega) (by omega)
        | head id =>
          have waiting := @ih b behind (⟨current, op⟩ :: pending) (.identifier id) (by omega)
            (by omega) (by omega)
          have alone := @ih level behind [] (.identifier id) (by omega) (by omega) (by omega)
          refine (bindSame alone.symm fun _ _ _ => rfl).trans ?_
          exact (followedJoined (by omega)).trans waiting
    · rw [Production.bindApply, followedEnds more (Nat.succ_pos _),
        continuedEnds more (Nat.zero_lt_of_lt enough)]
      rfl

theorem recursiveAlike {inner : Productions} (alike : AlikeFamilies limit inner (.upTo level))
    (deep : limit ≤ level) (enough : limit ≤ b) :
    AlikeBelow (limit + 1) 1 (recursiveExpression inner.expression inner.statement b)
      (Productions.upTo (level + 1)).expression := by
  intro tokens short
  have plain : AlikeFamilies limit (.upTo level) (.upTo level) := levelsAlike deep deep
  have above : AlikeFamilies limit (.upTo level) (.upTo (level + 1)) :=
    levelsAlike deep (Nat.le_succ_of_le deep)
  refine alikeAfter (operandAlike alike.statements (by omega) (by omega) (by omega)) ?_
  intro o rest shorter
  cases o with
  | tail e => exact alikePure e
  | head id =>
    have reads : ∀ tokens, tokens.length < limit → inner.expression tokens =
        (Productions.upTo (level + 1)).expression tokens := fun tokens less =>
      (alike.expressions less).same.trans ((plain.expressions less).same.symm.trans
        (above.expressions less).same)
    have operands := plain.operands deep deep
    refine (continuedAlike plain.expressions operands (by omega) (by omega) (by omega)).replaced ?_
    show followed inner.expression b (.identifier id) rest = _
    rw [← continuedUnstacked alike.expressions operands reads deep (by omega) (by omega)
      (show rest.length < b by omega), Production.bindApply]
    cases followed inner.expression b (.identifier id) rest <;> rfl

end Grammar

open Grammar (Production Productions Settles)

/-- Reading an expression comes to the same tree or the same error, and leaves the session in
the same place, as reading it by recursion and as reading it with one operand taken from the
stack at a time. It takes a token at least, or stops where what is expected is not next. -/
theorem expressionUnstacked (s : Session) {level depth steps : Nat}
    (enough : s.ahead.length < level) (deep : s.ahead.length < depth)
    (long : s.ahead.length < steps) :
    s.run (Parser.Nesting.upTo steps).expression =
        s.read (Productions.reading Grammar.recursiveExpression depth).expression ∧
      s.read (Productions.upTo level).expression =
        s.read (Productions.reading Grammar.recursiveExpression depth).expression ∧
      s.read (Productions.upTo level).expression =
        s.read (Productions.reading Grammar.stackedExpression steps).expression ∧
      Settles 1 s.ahead ((Productions.upTo level).expression s.ahead) := by
  have recursive := (Grammar.readingAlike Grammar.recursiveAlike deep enough).expressions
    (Nat.lt_succ_self _)
  have popping := (Grammar.readingAlike Grammar.stackedAlike long enough).expressions
    (Nat.lt_succ_self _)
  have pops := Session.readsAlike popping.same
  have recurs := Session.readsAlike recursive.same
  have follows := (Session.followsLevels steps).1 s
  have runs := (follows.weaken And.left).read
  exact ⟨runs.trans (pops.trans recurs.symm), recurs.symm, pops.symm,
    recursive.same ▸ recursive.settles⟩

def brokenChain : Session :=
  ⟨[.plain (.keyword .returnWord) "return" 0, .plain .identifier "a" 7,
    .plain (.operator .add) "+" 9, .literal .number "1" "1" 11, .plain (.punct .dot) "." 12,
    .plain .identifier "b" 13, .plain (.operator .mul) "*" 15, .plain .identifier "c" 17,
    .plain (.operator .sub) "-" 19], 1⟩

theorem brokenChainUnstacked : brokenChain.ahead.length < 9 ∧
    brokenChain.run (Parser.Nesting.upTo 9).expression =
      brokenChain.read (Productions.reading Grammar.recursiveExpression 9).expression ∧
    brokenChain.read (Productions.upTo 9).expression =
      brokenChain.read (Productions.reading Grammar.recursiveExpression 9).expression ∧
    brokenChain.read (Productions.reading Grammar.stackedExpression 9).expression =
      (.error (.unexpectedToken 20 [.identifier] none), { brokenChain with cursor := 9 }) := by
  have short : brokenChain.ahead.length < 9 := by decide
  obtain ⟨runs, recursive, popping, _⟩ := expressionUnstacked brokenChain short short short
  exact ⟨short, runs, recursive, popping.symm.trans rfl⟩

end ScriptTree
