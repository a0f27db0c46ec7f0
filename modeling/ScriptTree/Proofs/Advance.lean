import ScriptTree.Proofs.Recursion
import ScriptTree.Proofs.Resumption
/-! How far readings go, and how often their loops turn. A loop goes round only when its body has
taken a token or completed an operand that waited, so the tokens left and the operands that wait
bound its turns, whatever the tokens are. -/
namespace ScriptTree

namespace Grammar

inductive Turn (σ α : Type) where
  | ended (outcome : Outcome α)
  | left (outcome : Outcome α)
  | again (state : σ) (rest : List Token)

abbrev Loop (σ α : Type) := σ → List Token → Turn σ α

/-- The loop comes to the outcome when its body was entered `count` times. -/
inductive Turns (loop : Loop σ α) : Nat → σ → List Token → Outcome α → Prop where
  | ended {state tokens outcome} (turn : loop state tokens = .ended outcome) :
      Turns loop 0 state tokens outcome
  | left {state tokens outcome} (turn : loop state tokens = .left outcome) :
      Turns loop 1 state tokens outcome
  | again {count state tokens next rest outcome} (turn : loop state tokens = .again next rest)
      (further : Turns loop count next rest outcome) :
      Turns loop (count + 1) state tokens outcome

def Bounded (loop : Loop σ α) (bound : Nat) (state : σ) (tokens : List Token)
    (outcome : Outcome α) : Prop :=
  ∃ count ≤ bound, Turns loop count state tokens outcome

def Outcome.map (f : α → β) : Outcome α → Outcome β
  | done value rest => .done (f value) rest
  | failed expected rest => .failed expected rest

theorem Outcome.mapSame {f : α → α} (same : ∀ value, f value = value) (outcome : Outcome α) :
    outcome.map f = outcome := by
  cases outcome with
  | done value rest => exact congrArg (Outcome.done · rest) (same value)
  | failed => rfl

namespace Turn

def after (next : β → σ) : Outcome β → Turn σ α
  | .done value rest => again (next value) rest
  | .failed expected rest => left (.failed expected rest)

def resume (further : σ → List Token → Outcome α) : Turn σ α → Outcome α
  | ended outcome => outcome
  | left outcome => outcome
  | again next rest => further next rest

def Falls (measure : σ → List Token → Nat) (bound : Nat) (tokens : List Token) : Turn σ α → Prop
  | ended _ => True
  | left _ => 0 < bound
  | again next rest => rest.length ≤ tokens.length ∧ measure next rest < bound

end Turn

def itemLoop (stop : Option Kind) (item : Production α) : Loop (List α) (List α) :=
  fun items tokens =>
    if front tokens = none ∨ front tokens = stop then .ended (.done items tokens)
    else .after (fun value => items ++ [value]) (item tokens)

def declared (expression : Production Expression) : Production (Nat × Declarator) := do
  let first ← declarator expression
  let comma ← accept (.punct .comma)
  pure (comma.elim first.span.stop (·.span.stop), first)

def declaratorLoop (expression : Production Expression) :
    Loop (Nat × List Declarator) (Nat × List Declarator) :=
  fun state tokens =>
    match tokens with
    | [] => .ended (.done state [])
    | t :: rest =>
      if t.kind = .punct .semicolon then .ended (.done (t.span.stop, state.2) rest)
      else if front rest = some (.punct .assign) then
        .after (fun d => (d.1, state.2 ++ [d.2])) (declared expression (t :: rest))
      else .ended (.done state (t :: rest))

structure Suspended where
  pending : List Pending
  chained : Bool
  current : Expression

def Operand.suspended (pending : List Pending) : Operand → Suspended
  | .head id => ⟨pending, true, .identifier id⟩
  | .tail e => ⟨pending, false, e⟩

def Suspended.completed (s : Suspended) (tokens : List Token) : Turn Suspended Expression :=
  match s.pending with
  | [] => .left (.done s.current tokens)
  | p :: pending => .again ⟨pending, true, join p.left p.operator s.current⟩ tokens

def expressionLoop (argument : Production Expression) (operand : Production Operand)
    (budget : Nat) : Loop Suspended Expression :=
  fun s tokens =>
    match if s.chained then front tokens else none with
    | some (.punct .parenLeft) =>
      .after (fun e => ⟨s.pending, true, e⟩) (call argument budget s.current tokens)
    | some (.punct .dot) => .after (fun e => ⟨s.pending, true, e⟩) (member s.current tokens)
    | some (.operator op) =>
      .after (Operand.suspended (⟨s.current, op⟩ :: s.pending))
        ((expect (.operator op) >>= fun _ => operand) tokens)
    | _ => s.completed tokens

variable {tokens : List Token} {limit b level : Nat}

theorem loopBounded (run : Nat → σ → List Token → Outcome α) {loop : Loop σ α}
    {measure : σ → List Token → Nat} (state : σ)
    (falls : ∀ state tokens, tokens.length < limit →
      (loop state tokens).Falls measure (measure state tokens) tokens)
    (turns : ∀ b state tokens, tokens.length < limit → measure state tokens ≤ b →
      run (b + 1) state tokens = (loop state tokens).resume (run b))
    (short : tokens.length < limit) (enough : measure state tokens < b) :
    Bounded loop (measure state tokens) state tokens (run b state tokens) := by
  induction b generalizing state tokens with
  | zero => contradiction
  | succ b ih =>
    have turn := falls state tokens short
    rw [turns b state tokens short (Nat.le_of_lt_succ enough)]
    cases found : loop state tokens with
    | ended outcome => exact ⟨0, Nat.zero_le _, .ended found⟩
    | left outcome =>
      rw [found] at turn
      exact ⟨1, turn, .left found⟩
    | again next rest =>
      rw [found] at turn
      obtain ⟨shorter, less⟩ := turn
      obtain ⟨count, few, further⟩ := @ih rest next (by omega) (by omega)
      exact ⟨count + 1, by omega, .again found further⟩

theorem afterFalls {next : β → σ} {outcome : Outcome β} {measure : σ → List Token → Nat} {bound}
    (settles : Settles 1 tokens outcome) (entered : 0 < bound)
    (less : ∀ value rest, rest.length < tokens.length → measure (next value) rest < bound) :
    (Turn.after next outcome : Turn σ α).Falls measure bound tokens := by
  cases settles with
  | @done value taken rest split enough =>
    have count := congrArg List.length split
    rw [List.length_append] at count
    exact ⟨by omega, less value rest (by omega)⟩
  | failed => exact entered

theorem filledFront {kind} (next : front tokens = some kind) : 0 < tokens.length := by
  obtain ⟨t, rest, rfl, _⟩ := frontSome next
  exact Nat.succ_pos _

section Items
variable {stop : Option Kind} {item item' : Production α}

theorem itemFalls (items : AlikeBelow limit 1 item item') (state : List α) (tokens : List Token)
    (short : tokens.length < limit) :
    (itemLoop stop item state tokens).Falls (fun _ rest => rest.length) tokens.length tokens := by
  unfold itemLoop
  split
  · trivial
  · rename_i goes
    obtain ⟨kind, next⟩ := Option.ne_none_iff_exists'.mp fun none => goes (.inl none)
    exact afterFalls (items short).settles (filledFront next) fun _ _ less => less

theorem itemTurns (stop : Option Kind) (item : Production α) (b : Nat) (state : List α)
    (tokens : List Token) : (many stop item (b + 1) tokens).map (state ++ ·) =
      (itemLoop stop item state tokens).resume
        fun state rest => (many stop item b rest).map (state ++ ·) := by
  rw [many, peekThen]
  unfold itemLoop
  split
  · simp [Turn.resume, Outcome.map]
  · rw [Production.bindApply]
    cases item tokens with
    | done value rest =>
      simp only [Turn.after, Turn.resume, Production.bindApply]
      cases many stop item b rest <;> simp [Outcome.map]
    | failed expected rest => rfl

theorem manyBounded (items : AlikeBelow limit 1 item item') (short : tokens.length < limit)
    (enough : tokens.length < b) :
    Bounded (itemLoop stop item) tokens.length [] tokens (many stop item b tokens) := by
  have bounded := loopBounded (fun b state rest => (many stop item b rest).map (state ++ ·)) []
    (itemFalls items) (fun b state rest _ _ => itemTurns stop item b state rest) short enough
  rwa [Outcome.mapSame List.nil_append] at bounded

end Items

section Declarators
variable {e e' : Production Expression}

theorem declaredAlike (values : AlikeBelow limit 1 e e') (short : tokens.length < limit) :
    Alike 1 (declared e) (declared e') tokens :=
  alikeAfter (declaratorAlike values short) fun _ _ _ =>
    alikeThen alikeAccept fun _ _ _ => alikePure _

theorem declaratorFalls (values : AlikeBelow limit 1 e e') (state : Nat × List Declarator)
    (tokens : List Token) (short : tokens.length < limit) :
    (declaratorLoop e state tokens).Falls (fun _ rest => rest.length) tokens.length tokens := by
  cases tokens with
  | nil => trivial
  | cons t rest =>
    simp only [declaratorLoop]
    split
    · trivial
    · split
      · exact afterFalls (declaredAlike values short).settles (Nat.succ_pos _) fun _ _ less => less
      · trivial

theorem declaratorTurns (e : Production Expression) (b : Nat) (state : Nat × List Declarator)
    (tokens : List Token) :
    (declarators e (b + 1) state.1 tokens).map (fun d => (d.1, state.2 ++ d.2)) =
      (declaratorLoop e state tokens).resume
        fun state rest => (declarators e b state.1 rest).map fun d => (d.1, state.2 ++ d.2) := by
  cases tokens with
  | nil => simp [declarators, declaratorLoop, accept, peekSecond, Turn.resume, Outcome.map]
  | cons t rest =>
    by_cases closes : t.kind = .punct .semicolon
    · simp [declarators, declaratorLoop, accept, closes, Turn.resume, Outcome.map]
    · have unclosed : accept (.punct .semicolon) (t :: rest) = .done none (t :: rest) :=
        if_neg closes
      by_cases second : front rest = some (.punct .assign)
      · have body : declarators e (b + 1) state.1 (t :: rest) =
            (declared e >>= fun d => declarators e b d.1 >>= fun more =>
              pure (more.1, d.2 :: more.2)) (t :: rest) := by
          rw [declarators, Production.bindApply, unclosed, declared, bindAssociates]
          show (if front rest = some (.punct .assign) then _ else _ : Production _) _ = _
          rw [if_pos second]
          refine bindSame rfl fun first rest _ => ?_
          rw [bindAssociates]
          rfl
        simp only [declaratorLoop, if_neg closes, if_pos second]
        rw [body, Production.bindApply]
        cases declared e (t :: rest) with
        | done d rest =>
          simp only [Turn.after, Turn.resume, Production.bindApply]
          cases declarators e b d.1 rest <;> simp [Outcome.map]
        | failed => rfl
      · have ended : declarators e (b + 1) state.1 (t :: rest) =
            .done (state.1, []) (t :: rest) := by
          rw [declarators, Production.bindApply, unclosed]
          show (if front rest = some (.punct .assign) then _ else _ : Production _) _ = _
          rw [if_neg second]
          rfl
        rw [ended]
        simp [declaratorLoop, closes, second, Turn.resume, Outcome.map]

theorem declaratorsBounded (values : AlikeBelow limit 1 e e') (short : tokens.length < limit)
    (enough : tokens.length < b) (stop : Nat) :
    Bounded (declaratorLoop e) tokens.length (stop, []) tokens (declarators e b stop tokens) := by
  have bounded := loopBounded
    (fun b state rest => (declarators e b state.1 rest).map fun d => (d.1, state.2 ++ d.2))
    (stop, []) (declaratorFalls values) (fun b state rest _ _ => declaratorTurns e b state rest)
    short enough
  exact (Outcome.mapSame (fun _ => rfl) (declarators e b stop tokens)) ▸ bounded

end Declarators

section Expressions
variable {arg arg' : Production Expression} {op op' : Production Operand}

/- A turn may take a token and put an operand on the stack, or take one from there. -/
def Suspended.turnsLeft (s : Suspended) (tokens : List Token) : Nat :=
  2 * tokens.length + s.pending.length + 1

theorem expressionFalls (args : AlikeBelow limit 1 arg arg') (operands : AlikeBelow limit 1 op op')
    (enough : limit ≤ b) (state : Suspended) (tokens : List Token)
    (short : tokens.length < limit) :
    (expressionLoop arg op b state tokens).Falls Suspended.turnsLeft (state.turnsLeft tokens)
      tokens := by
  unfold expressionLoop
  split
  · have called : Alike 1 (call arg b state.current) (call arg' b state.current) tokens :=
      callAlike args (by omega) (by omega) (by omega)
    refine afterFalls called.settles (Nat.succ_pos _) fun e rest less => ?_
    simp only [Suspended.turnsLeft]
    omega
  · refine afterFalls memberAlike.settles (Nat.succ_pos _) fun e rest less => ?_
    simp only [Suspended.turnsLeft]
    omega
  · rename_i sign _
    have read : Alike 1 (expect (.operator sign) >>= fun _ => op)
        (expect (.operator sign) >>= fun _ => op') tokens :=
      alikeAfter alikeExpect fun _ _ less => (operands (by omega)).any
    refine afterFalls read.settles (Nat.succ_pos _) fun o rest less => ?_
    cases o <;> simp only [Suspended.turnsLeft, Operand.suspended, List.length_cons] <;> omega
  · obtain ⟨pending, chained, current⟩ := state
    cases pending with
    | nil => exact Nat.succ_pos _
    | cons p pending =>
      refine ⟨Nat.le_refl _, ?_⟩
      simp only [Suspended.turnsLeft, List.length_cons]
      omega

theorem loopCompletes {state : Suspended} (ends : state.chained = false ∨ ¬ Continues tokens) :
    expressionLoop arg op b state tokens = state.completed tokens := by
  obtain ⟨pending, chained, current⟩ := state
  unfold expressionLoop
  cases chained with
  | false => rfl
  | true =>
    have ends := ends.resolve_left Bool.noConfusion
    unfold Continues at ends
    simp only [if_true]
    generalize front tokens = next at ends
    split <;> first | exact absurd trivial ends | rfl

theorem stackedTurns (args : AlikeBelow limit 1 arg arg') (deep : limit ≤ level)
    (state : Suspended) (tokens : List Token) (short : tokens.length < limit)
    (enough : state.turnsLeft tokens ≤ b) :
    stacked arg op (b + 1) state.pending state.chained state.current tokens =
      (expressionLoop arg op level state tokens).resume fun state rest =>
        stacked arg op b state.pending state.chained state.current rest := by
  obtain ⟨pending, chained, current⟩ := state
  simp only [Suspended.turnsLeft] at enough
  -- The budget of a call is one that is left, and any above the number of tokens will do.
  have called : call arg b current tokens = call arg level current tokens := by
    have first : Alike 1 (call arg b current) (call arg' level current) tokens :=
      callAlike args (by omega) (by omega) (by omega)
    have second : Alike 1 (call arg level current) (call arg' level current) tokens :=
      callAlike args (by omega) (by omega) (by omega)
    exact first.same.trans second.same.symm
  cases chained with
  | false =>
    rw [loopCompletes (.inl rfl)]
    cases pending <;> rfl
  | true =>
    by_cases more : Continues tokens
    · refine peekThen.trans ?_
      obtain seen | seen | ⟨sign, seen⟩ := continuesCases more <;>
        simp only [expressionLoop, if_true, seen]
      · rw [Production.bindApply, called]
        cases call arg level current tokens <;> rfl
      · rw [Production.bindApply]
        cases member current tokens <;> rfl
      · rw [← bindAssociates, Production.bindApply]
        cases (expect (.operator sign) >>= fun _ => op) tokens with
        | failed => rfl
        | done o rest => cases o <;> rfl
    · refine (endsOther more).trans ?_
      rw [loopCompletes (.inr more)]
      cases pending <;> rfl

theorem stackedBounded (args : AlikeBelow limit 1 arg arg') (operands : AlikeBelow limit 1 op op')
    (deep : limit ≤ level) (state : Suspended) (short : tokens.length < limit)
    (enough : state.turnsLeft tokens < b) :
    Bounded (expressionLoop arg op level) (state.turnsLeft tokens) state tokens
      (stacked arg op b state.pending state.chained state.current tokens) :=
  loopBounded (fun b state => stacked arg op b state.pending state.chained state.current) state
    (expressionFalls args operands deep) (fun _ => stackedTurns args deep) short enough

theorem expressionBounded {o : Operand} {rest : List Token} (short : tokens.length < level)
    (first : operand (Productions.upTo level).statement level tokens = .done o rest) :
    Bounded (expressionLoop (Productions.upTo level).expression
        (operand (Productions.upTo level).statement level) level)
      (2 * rest.length + 1) (o.suspended []) rest
      ((Productions.upTo (level + 1)).expression tokens) := by
  have families : AlikeFamilies level (.upTo level) (.upTo level) :=
    levelsAlike (Nat.le_refl level) (Nat.le_refl level)
  have operands := families.operands (Nat.le_refl level) (Nat.le_refl level)
  have less := (operands short).shorter first
  have same := (stackedAlike families (Nat.le_refl level) (Nat.le_refl level)
    (Nat.lt_succ_of_lt short)).same
  have bounded := stackedBounded families.expressions operands (Nat.le_refl level)
    (o.suspended []) (show rest.length < level by omega)
    (show (o.suspended []).turnsLeft rest < 2 * level + 1 by
      cases o <;> simp only [Suspended.turnsLeft, Operand.suspended, List.length_nil] <;> omega)
  rw [← same, stackedExpression, Production.bindApply, first]
  cases o <;> exact bounded

end Expressions

structure LoopsBounded (tokens : List Token) (level : Nat) : Prop where
  program : Bounded (itemLoop none (Productions.upTo level).statement) tokens.length [] tokens
    (statements level tokens)
  block : Bounded (itemLoop (some (.punct .braceRight)) (Productions.upTo level).statement)
    tokens.length [] tokens
    (many (some (.punct .braceRight)) (Productions.upTo level).statement level tokens)
  parameters : Bounded (itemLoop (some (.punct .parenRight)) (separated identifier))
    tokens.length [] tokens
    (many (some (.punct .parenRight)) (separated identifier) level tokens)
  arguments : Bounded
    (itemLoop (some (.punct .parenRight)) (separated (Productions.upTo level).expression))
    tokens.length [] tokens
    (many (some (.punct .parenRight)) (separated (Productions.upTo level).expression) level tokens)
  declarators : ∀ stop, Bounded (declaratorLoop (Productions.upTo level).expression)
    tokens.length (stop, []) tokens
    (declarators (Productions.upTo level).expression level stop tokens)
  imports : Bounded (itemLoop (some (.punct .braceRight)) (listed namedImport))
    tokens.length [] tokens
    (many (some (.punct .braceRight)) (listed namedImport) level tokens)
  exports : Bounded (itemLoop (some (.punct .braceRight)) (listed exportSpecifier))
    tokens.length [] tokens
    (many (some (.punct .braceRight)) (listed exportSpecifier) level tokens)
  expression : ∀ first rest,
    operand (Productions.upTo level).statement level tokens = .done first rest →
    Bounded (expressionLoop (Productions.upTo level).expression
        (operand (Productions.upTo level).statement level) level)
      (2 * rest.length + 1) (first.suspended []) rest
      ((Productions.upTo (level + 1)).expression tokens)

theorem loopsBounded (short : tokens.length < level) : LoopsBounded tokens level := by
  obtain ⟨values, statements⟩ : AlikeFamilies level (.upTo level) (.upTo level) :=
    levelsAlike (Nat.le_refl level) (Nat.le_refl level)
  exact {
    program := manyBounded statements short short
    block := manyBounded statements short short
    parameters := manyBounded (separatedAlike fun _ _ => identifierAlike) short short
    arguments := manyBounded (separatedAlike values) short short
    declarators := declaratorsBounded values short short
    imports := manyBounded (listedAlike fun _ _ => namedImportAlike) short short
    exports := manyBounded (listedAlike fun _ _ => namedExportAlike) short short
    expression := fun _ _ first => expressionBounded short first }

end Grammar

open Grammar

namespace Session

/-- A success has gone on. Where it is an error, something was expected at the cursor, which has not
gone back. -/
inductive Advances (s : Session) (answer : Except Error α × Session) : Prop where
  | read {value cursor} (same : answer = (.ok value, ⟨s.tokens, cursor⟩))
      (forward : s.cursor < cursor) (within : cursor ≤ s.tokens.length)
  | refused {position expected cursor}
      (same : answer =
        (.error (.unexpectedToken position expected s.tokens[cursor]?), ⟨s.tokens, cursor⟩))
      (something : expected ≠ []) (onward : s.cursor ≤ cursor) (within : cursor ≤ s.tokens.length)

section Answers
variable {s : Session} {same : α → β → Session → Prop}

theorem refusedAdvances {taken rest expected} (within : s.Within) (split : s.ahead = taken ++ rest)
    (something : expected ≠ []) :
    s.Advances (Prod.mk (.error (s.refusal expected rest) : Except Error α) (s.leaving rest)) := by
  have count := aheadCount within split
  obtain ⟨position, actual⟩ := refusalActual split expected
  rw [leavingPassed split, actual]
  exact .refused rfl something (by omega) (by omega)

theorem answersAdvance {answer : Except Error α × Session} {outcome : Outcome β}
    (within : s.Within) (answers : s.Answers same answer outcome)
    (settles : Settles 1 s.ahead outcome) : s.Advances answer := by
  cases answers with
  | @done value found taken rest split values =>
    cases settles with
    | @done _ first _ parts enough =>
      have count := aheadCount within parts
      rw [leavingPassed parts]
      exact .read rfl (by omega) (by omega)
  | failed split =>
    cases settles with
    | failed _ refused => exact refusedAdvances within split refused.1

theorem runAdvances {parser : Parser α} {p : Production β} (within : s.Within)
    (follows : s.Follows same parser p) (settles : Settles 1 s.ahead (p s.ahead)) :
    s.Advances (s.run parser) := answersAdvance within follows settles

theorem readAnswers {p : Production α} {least} (settles : Settles least s.ahead (p s.ahead)) :
    s.Answers Same (s.read p) (p s.ahead) := by
  unfold Session.read
  generalize p s.ahead = outcome at settles
  cases settles with
  | done split enough => exact .done split rfl
  | failed split refused => exact .failed split

theorem readAdvances {p : Production α} (within : s.Within)
    (settles : Settles 1 s.ahead (p s.ahead)) : s.Advances (s.read p) :=
  answersAdvance within (readAnswers settles) settles

end Answers

structure ParsersAdvance (s : Session) (level : Nat) : Prop where
  statement : s.Advances (s.run (Parser.Nesting.upTo level).statement)
  expression : s.Advances (s.run (Parser.Nesting.upTo level).expression)
  declaration : s.Advances
    (s.run (Parser.variableDeclaration (Parser.Nesting.upTo level).expression level))
  block : s.Advances (s.run (Parser.block (Parser.Nesting.upTo level).statement level))
  function : s.Advances (s.run (Parser.functionDef (Parser.Nesting.upTo level).statement level))
  parameters : s.Advances (s.run (Parser.parameters Parser.identifier level))
  arguments : s.Advances (s.run (Parser.parameters (Parser.Nesting.upTo level).expression level))
  imports : s.Advances (s.run (Parser.imports level))
  exports : s.Advances (s.run (Parser.exports (Parser.Nesting.upTo level).expression
    (Parser.functionDef (Parser.Nesting.upTo level).statement level) level))
  exportSpecifiers : s.Advances (s.run (Parser.exportSpecifiers level))

structure AllAdvance (s : Session) (level : Nat) : Prop where
  statement : s.Advances (s.read (Productions.upTo level).statement)
  expression : s.Advances (s.read (Productions.upTo level).expression)
  declaration : ∀ kind, s.Advances
    (s.read (variableDeclaration (Productions.upTo level).expression level kind))
  block : s.Advances (s.read (block (Productions.upTo level).statement level))
  function : s.Advances (s.read (functionDef (Productions.upTo level).statement level))
  parameters : s.Advances (s.read (parenthesized identifier level))
  arguments : s.Advances (s.read (parenthesized (Productions.upTo level).expression level))
  imports : s.Advances (s.read (imports level))
  exports : s.Advances (s.read (exports (Productions.upTo level).expression
    (functionDef (Productions.upTo level).statement level) level))
  exportSpecifiers : s.Advances (s.read (braced (listed exportSpecifier) level))

section All
variable {s : Session} {level : Nat}

theorem declarationAdvances (within : s.Within) (short : s.ahead.length < level + 1) :
    s.Advances (s.run
      (Parser.variableDeclaration (Parser.Nesting.upTo (level + 1)).expression (level + 1))) := by
  by_cases led : ∃ kind, front s.ahead = some (.keyword (variableWord kind))
  · obtain ⟨kind, led⟩ := led
    have fits := Nat.le_of_lt short
    have declared : Settles 1 s.ahead (variableDeclaration
        (Productions.reading stackedExpression (level + 1)).expression (level + 1) kind s.ahead) :=
      (variablesAlike (stackedFamilies (level + 1)).expressions fits fits fits).settles
    exact runAdvances within
      (followsVariables (followsLevels (level + 1)).1 expressionLiterally led) declared
  · have refused : s.run (Parser.variableDeclaration (Parser.Nesting.upTo (level + 1)).expression
        (level + 1)) = (.error (s.refusal Parser.variableWords s.ahead), s) := by
      rw [← runUnexpected, Parser.variableDeclaration, runBind, runCurrent]
      cases found : s.ahead with
      | nil => rfl
      | cons t rest =>
        have other : Parser.variableKind t.kind = none := by
          refine Option.eq_none_iff_forall_not_mem.mpr fun kind sort => led ⟨kind, ?_⟩
          rw [found, frontCons, variableKindWord.mp sort]
        simp only [List.head?_cons, Option.bind_some, other]
    have advances := @refusedAdvances VariableDeclaration s [] s.ahead Parser.variableWords within rfl
      (List.cons_ne_nil _ _)
    rwa [leavingAll, ← refused] at advances

theorem parsersAdvance (within : s.Within) (short : s.ahead.length < level) :
    s.ParsersAdvance level := by
  obtain ⟨level, rfl⟩ := budgetLeft short
  obtain ⟨values, statements⟩ := stackedFamilies (level + 1)
  obtain ⟨expressions, each⟩ := followsLevels (level + 1)
  have fits := Nat.le_of_lt short
  have functions : AlikeBelow (level + 1) 1
      (functionDef (Productions.reading stackedExpression (level + 1)).statement (level + 1))
      (functionDef (Productions.upTo (level + 1)).statement (level + 1)) := fun _ less =>
    functionAlike statements (Nat.le_of_lt less) (Nat.le_of_lt less) (Nat.le_of_lt less)
  exact {
    statement := runAdvances within (each s) (statements short).settles
    expression := runAdvances within (expressions s) (values short).settles
    declaration := declarationAdvances within short
    block := runAdvances within (followsBlock each) (blockAlike statements fits fits fits).settles
    function := runAdvances within (followsFunction each) (functions short).settles
    parameters := runAdvances within
      (followsParameters (fun _ => followsIdentifier.weaken And.left) _)
      (enclosedAlike (separatedAlike fun _ _ => identifierAlike) fits fits fits).settles
    arguments := runAdvances within
      (followsParameters (fun s => (expressions s).weaken And.left) _)
      (enclosedAlike (separatedAlike values) fits fits fits).settles
    imports := runAdvances within followsImports (importsAlike fits fits).settles
    exports := runAdvances within
      (followsExports expressions expressionLiterally fun _ => followsFunction each)
      (exportsAlike values functions fits fits fits).settles
    exportSpecifiers := runAdvances within followsExportSpecifiers
      (enclosedAlike (listedAlike fun _ _ => namedExportAlike) fits fits fits).settles }

theorem allAdvance (within : s.Within) (short : s.ahead.length < level) : s.AllAdvance level := by
  obtain ⟨values, statements⟩ : AlikeFamilies level (.upTo level) (.upTo level) :=
    levelsAlike (Nat.le_refl level) (Nat.le_refl level)
  have fits := Nat.le_of_lt short
  have functions : AlikeBelow level 1 (functionDef (Productions.upTo level).statement level)
      (functionDef (Productions.upTo level).statement level) := fun _ less =>
    functionAlike statements (Nat.le_of_lt less) (Nat.le_of_lt less) (Nat.le_of_lt less)
  exact {
    statement := readAdvances within (statements short).settles
    expression := readAdvances within (values short).settles
    declaration := fun _ => readAdvances within (variablesAlike values fits fits fits).settles
    block := readAdvances within (blockAlike statements fits fits fits).settles
    function := readAdvances within (functions short).settles
    parameters := readAdvances within
      (enclosedAlike (separatedAlike fun _ _ => identifierAlike) fits fits fits).settles
    arguments := readAdvances within
      (enclosedAlike (separatedAlike values) fits fits fits).settles
    imports := readAdvances within (importsAlike fits fits).settles
    exports := readAdvances within (exportsAlike values functions fits fits fits).settles
    exportSpecifiers := readAdvances within
      (enclosedAlike (listedAlike fun _ _ => namedExportAlike) fits fits fits).settles }

end All

end Session

/-- From every place of any tokens, each part is read or refused with the cursor between there and
the end, and each loop turns at most as often as tokens are left, that of an expression twice as
often and once more. -/
theorem cursorAdvances {s : Session} {level : Nat} (within : s.cursor ≤ s.tokens.length)
    (enough : s.tokens.length - s.cursor < level) :
    s.ParsersAdvance level ∧ s.AllAdvance level ∧ LoopsBounded s.ahead level := by
  have short : s.ahead.length < level := by
    rw [Session.ahead, List.length_drop]
    exact enough
  exact ⟨Session.parsersAdvance within short, Session.allAdvance within short, loopsBounded short⟩

def unclosedCall : Session :=
  ⟨[.plain (.keyword .letWord) "let" 0, .plain .identifier "a" 4, .plain (.punct .assign) "=" 6,
    .plain .identifier "f" 8, .plain (.punct .parenLeft) "(" 9, .plain .identifier "b" 10,
    .plain (.operator .add) "+" 12, .literal .number "1" "1" 14, .plain (.operator .mul) "*" 16,
    .plain .identifier "c" 18], 3⟩

theorem unclosedCallAdvances : unclosedCall.cursor ≤ unclosedCall.tokens.length ∧
    unclosedCall.tokens.length - unclosedCall.cursor < 8 ∧ unclosedCall.ParsersAdvance 8 ∧
    unclosedCall.AllAdvance 8 ∧ LoopsBounded unclosedCall.ahead 8 ∧
    unclosedCall.run (Parser.Nesting.upTo 8).expression =
      (.error (.unexpectedToken 19 [.punct .comma] none), { unclosedCall with cursor := 10 }) := by
  have within : unclosedCall.cursor ≤ unclosedCall.tokens.length := by decide
  have enough : unclosedCall.tokens.length - unclosedCall.cursor < 8 := by decide
  obtain ⟨parsers, parts, loops⟩ := cursorAdvances within enough
  exact ⟨within, enough, parsers, parts, loops, rfl⟩

end ScriptTree
