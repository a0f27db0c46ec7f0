import ScriptTree.Proofs.Progress
import ScriptTree.Proofs.Derivation
/-! Expressions read by a loop that takes one waiting operand from its stack at a time. It comes to
the same as the reading that gives all of them their right operands where it ends. -/
namespace ScriptTree.Grammar

/-- The loop with its stack. Only a chained expression may be continued. The others, and those
that nothing continues, complete the operand on top, which is chained again. -/
def stacked (argument : Production Expression) (operand : Production Operand) :
    Nat → List Pending → Bool → Expression → Production Expression
  | 0, _, _, _ => exhausted
  | budget + 1, pending, chained, current => do
    match ← if chained then peek else pure none with
    | some (.punct .parenLeft) =>
      let current ← call argument budget current
      stacked argument operand budget pending true current
    | some (.punct .dot) =>
      let current ← member current
      stacked argument operand budget pending true current
    | some (.operator op) =>
      let _ ← expect (.operator op)
      match ← operand with
      | .tail right => stacked argument operand budget (⟨current, op⟩ :: pending) false right
      | .head id => stacked argument operand budget (⟨current, op⟩ :: pending) true (.identifier id)
    | _ =>
      match pending with
      | [] => pure current
      | p :: pending =>
        stacked argument operand budget pending true (join p.left p.operator current)

def stackedExpression (argument : Production Expression) (statement : Production Statement)
    (budget : Nat) : Production Expression := do
  match ← operand statement budget with
  | .tail e => stacked argument (operand statement budget) (2 * budget + 1) [] false e
  | .head id =>
    stacked argument (operand statement budget) (2 * budget + 1) [] true (.identifier id)

def Productions.reading
    (expression : Production Expression → Production Statement → Nat → Production Expression) :
    Nat → Productions
  | 0 => ⟨exhausted, exhausted⟩
  | level + 1 =>
    let inner := reading expression level
    let read := expression inner.expression inner.statement level
    ⟨read, Grammar.statement read inner.statement level⟩

variable {arg arg' : Production Expression} {op op' : Production Operand}
variable {b b' level limit : Nat} {tokens : List Token} {pending : List Pending}
variable {current : Expression}

theorem continuesCases (more : Continues tokens) : front tokens = some (.punct .parenLeft) ∨
    front tokens = some (.punct .dot) ∨ ∃ op, front tokens = some (.operator op) := by
  unfold Continues at more
  split at more <;> simp_all

theorem endsOther {opened dotted other : Production α} {joined : Operator → Production α}
    (ends : ¬ Continues tokens) :
    (peek >>= fun next => match next with
      | some (.punct .parenLeft) => opened
      | some (.punct .dot) => dotted
      | some (.operator op) => joined op
      | _ => other) tokens = other tokens := by
  rw [peekThen]
  unfold Continues at ends
  generalize front tokens = next at ends
  split <;> first | exact absurd trivial ends | rfl

theorem continuedEnds (ends : ¬ Continues tokens) (enough : 0 < b) :
    continued arg op b pending current tokens = .done (resolve pending current) tokens := by
  obtain ⟨b, rfl⟩ := budgetLeft enough
  exact endsOther ends

theorem stackedUnwinds (ends : ¬ Continues tokens) (enough : pending.length < b) :
    stacked arg op b pending true current tokens = .done (resolve pending current) tokens := by
  induction pending generalizing b current with
  | nil =>
    obtain ⟨b, rfl⟩ := budgetLeft enough
    exact endsOther ends
  | cons p pending ih =>
    obtain ⟨b, rfl⟩ := budgetLeft enough
    exact (endsOther ends).trans (ih (Nat.lt_of_succ_lt_succ enough))

theorem stackedContinued (args : AlikeBelow limit 1 arg arg') (operands : AlikeBelow limit 1 op op')
    (short : tokens.length < limit) (enough : 2 * tokens.length + pending.length < b)
    (enough' : tokens.length < b') :
    stacked arg op b pending true current tokens =
      continued arg' op' b' pending current tokens := by
  induction b' generalizing b pending current tokens with
  | zero => contradiction
  | succ b' ih =>
    by_cases more : Continues tokens
    · obtain ⟨b, rfl⟩ := budgetLeft enough
      refine peekThen.trans (Eq.trans ?_ peekThen.symm)
      obtain seen | seen | ⟨_, seen⟩ := continuesCases more <;> rw [seen]
      · have called : Alike 1 (call arg b current) (call arg' b' current) tokens :=
          callAlike args (by omega) (by omega) (by omega)
        refine bindSame called.same fun value rest found => ?_
        have shorter := called.shorter found
        exact ih (by omega) (by omega) (by omega)
      · refine bindSame rfl fun value rest found => ?_
        have shorter := memberAlike.shorter found
        exact ih (by omega) (by omega) (by omega)
      · refine bindSame rfl fun t behind found => ?_
        have shorter := alikeExpect.shorter found
        have read : Alike 1 op op' behind := operands (by omega)
        refine bindSame read.same fun o rest found => ?_
        have less := read.shorter found
        cases o with
        | head id => exact ih (by omega) (by simp only [List.length_cons]; omega) (by omega)
        | tail right =>
          -- Only the operand just put on the stack is completed by the next step.
          obtain ⟨b, rfl⟩ : ∃ n, b = n + 1 := ⟨b - 1, by omega⟩
          exact ih (by omega) (by omega) (by omega)
    · rw [stackedUnwinds more (by omega), continuedEnds more (Nat.succ_pos _)]

theorem readingAlike
    {read : Production Expression → Production Statement → Nat → Production Expression}
    (one : ∀ {inner : Productions} {limit level b : Nat},
      AlikeFamilies limit inner (.upTo level) → limit ≤ level → limit ≤ b →
      AlikeBelow (limit + 1) 1 (read inner.expression inner.statement b)
        (Productions.upTo (level + 1)).expression)
    {n m : Nat} (enough : limit ≤ n) (enough' : limit ≤ m) :
    AlikeFamilies limit (.reading read n) (.upTo m) := by
  induction limit generalizing n m with
  | zero => exact alikeNone
  | succ limit ih =>
    obtain ⟨n, rfl⟩ := budgetLeft enough
    obtain ⟨m, rfl⟩ := budgetLeft enough'
    have inner : AlikeFamilies limit (.reading read n) (.upTo m) := ih (by omega) (by omega)
    have values := one inner (by omega) (Nat.le_of_lt_succ enough)
    refine ⟨values, ?_⟩
    intro tokens short
    exact statementAlike values inner.statements (by omega) (by omega) (by omega)

theorem stackedAlike {inner : Productions} (alike : AlikeFamilies limit inner (.upTo level))
    (deep : limit ≤ level) (enough : limit ≤ b) :
    AlikeBelow (limit + 1) 1 (stackedExpression inner.expression inner.statement b)
      (Productions.upTo (level + 1)).expression := by
  intro tokens short
  have plain : AlikeFamilies limit (.upTo level) (.upTo level) := levelsAlike deep deep
  refine alikeAfter (operandAlike alike.statements (by omega) (by omega) (by omega)) ?_
  intro o rest shorter
  cases o with
  | tail e => exact alikePure e
  | head id =>
    have later := plain.operands deep deep
    refine (continuedAlike plain.expressions later (by omega) (by omega) (by omega)).replaced ?_
    exact stackedContinued alike.expressions (alike.operands enough deep) (by omega)
      (by simp only [List.length_nil]; omega) (by omega)

end ScriptTree.Grammar
