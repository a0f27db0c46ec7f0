import Mathlib
import ScriptTree.Proofs.Context
import ScriptTree.Proofs.DerivationAnswer
/-! How operators group. A chain of operands is cut before each head operand. What a head is joined
to within its segment nests to the left, and the segments nest to the right. -/
namespace ScriptTree

open Grammar

inductive Links : Expression → Expression → List Token → Prop where
  | none {e} : Links e e []
  | member {object whole dot name more} (dotted : dot.kind = .punct .dot)
      (kind : name.kind = .identifier)
      (next : Links (.member (object.span.through name.span) object (.ofToken name) false) whole
        more) : Links object whole (dot :: name :: more)
  | call {callee es whole opening inner closing more} (opens : opening.kind = .punct .parenLeft)
      (arguments : Derives (.arguments es) inner [closing])
      (closes : closing.kind = .punct .parenRight)
      (next : Links (.call (callee.span.through closing.span) callee es) whole more) :
      Links callee whole (opening :: (inner ++ closing :: more))

namespace Chain

structure Operand where
  head : Bool
  tree : Expression
  tokens : List Token

inductive Operand.Alone : Operand → Prop where
  | head {t tree more} (kind : t.kind = .identifier)
      (links : Links (.identifier (.ofToken t)) tree more) : Alone ⟨true, tree, t :: more⟩
  | literal {t} (kind : t.kind = .number ∨ t.kind = .string) :
      Alone ⟨false, .literal (.ofToken t), [t]⟩
  | function {f taken} (value : Derives (.function f) taken []) :
      Alone ⟨false, .function f, taken⟩

structure Step where
  sign : Token
  op : Operator
  operand : Operand

structure Step.Alone (s : Step) : Prop where
  sign : s.sign.kind = .operator s.op
  operand : s.operand.Alone

def stepTokens (steps : List Step) : List Token :=
  steps.flatMap fun s => s.sign :: s.operand.tokens

structure Segment where
  head : Expression
  tails : List (Operator × Expression)

namespace Segment

def tree (s : Segment) : Expression := s.tails.foldl (fun left t => join left t.1 t.2) s.head

end Segment

def segments (head : Expression) : List Step → Segment × List (Operator × Segment)
  | [] => (⟨head, []⟩, [])
  | s :: more =>
    if s.operand.head then
      let (next, others) := segments s.operand.tree more
      (⟨head, []⟩, (s.op, next) :: others)
    else
      let (segment, others) := segments head more
      ({ segment with tails := (s.op, s.operand.tree) :: segment.tails }, others)

/-- The right operand of the operator between two segments is all the rest. -/
def nest (first : Segment) : List (Operator × Segment) → Expression
  | [] => first.tree
  | (op, next) :: others => join first.tree op (nest next others)

end Chain

structure Chain where
  first : Chain.Operand
  steps : List Chain.Step

namespace Chain

def tokens (c : Chain) : List Token := c.first.tokens ++ stepTokens c.steps

def last (c : Chain) : Operand := (c.steps.getLast?.map Step.operand).getD c.first

def tree (c : Chain) : Expression :=
  nest (segments c.first.tree c.steps).1 (segments c.first.tree c.steps).2

structure Alone (c : Chain) : Prop where
  first : c.first.Alone
  leads : c.first.head = true
  steps : ∀ s ∈ c.steps, s.Alone

theorem segmentsHead (head : Expression) (steps : List Step) :
    (segments head steps).1.head = head := by
  induction steps with
  | nil => rfl
  | cons s more ih =>
    unfold segments
    split
    · rfl
    · exact ih

theorem segmentsTails (head other : Expression) (steps : List Step) :
    (segments head steps).1.tails = (segments other steps).1.tails ∧
      (segments head steps).2 = (segments other steps).2 := by
  induction steps with
  | nil => exact ⟨rfl, rfl⟩
  | cons s more ih =>
    unfold segments
    split
    · exact ⟨rfl, rfl⟩
    · exact ⟨congrArg (List.cons _) ih.1, ih.2⟩

def onward (left : Expression) (steps : List Step) : Expression :=
  nest (segments left steps).1 (segments left steps).2

theorem onwardHead {s : Step} (leads : s.operand.head = true) (left : Expression)
    (more : List Step) :
    onward left (s :: more) = join left s.op (onward s.operand.tree more) := by
  simp [onward, segments, leads, nest, Segment.tree]

theorem onwardTail {s : Step} (ends : s.operand.head = false) (left : Expression)
    (more : List Step) :
    onward left (s :: more) = onward (join left s.op s.operand.tree) more := by
  obtain ⟨tails, others⟩ := segmentsTails left (join left s.op s.operand.tree) more
  have cut : segments left (s :: more) =
      (⟨left, (s.op, s.operand.tree) :: (segments left more).1.tails⟩, (segments left more).2) := by
    simp [segments, ends, segmentsHead]
  have joined : Segment.tree ⟨left, (s.op, s.operand.tree) :: (segments left more).1.tails⟩ =
      (segments (join left s.op s.operand.tree) more).1.tree := by
    unfold Segment.tree
    rw [List.foldl_cons, tails, segmentsHead]
  unfold onward
  rw [cut, ← others]
  cases (segments left more).2 with
  | nil => exact joined
  | cons next others =>
    unfold nest
    rw [joined]

def Operand.Settled (o : Operand) (rest : List Token) : Prop :=
  front rest = some (.punct .assign) → ∀ f, o.tree = .function f → ¬ f.Undecided o.tokens

theorem linksUnclosed {operand linked tokens more} (links : Links operand linked tokens)
    (unclosed : front more ≠ some (.punct .semicolon)) :
    front (tokens ++ more) ≠ some (.punct .semicolon) := by
  cases links with
  | none => exact unclosed
  | member dotted => simp [dotted]
  | call opens => simp [opens]

theorem linksChain {operand linked tokens} (links : Links operand linked tokens) {whole more rest}
    (next : Derives (.chain linked whole) more rest)
    (unclosed : front (more ++ rest) ≠ some (.punct .semicolon)) :
    Derives (.chain operand whole) (tokens ++ more) rest := by
  induction links with
  | none => exact next
  | member dotted kind _ ih => exact .member dotted kind (ih next)
  | @call callee es _ opening inner closing behind opens arguments closes links ih =>
    have ending : Accepted (.punct .semicolon) ((behind ++ more) ++ rest) none := by
      rw [List.append_assoc]
      exact linksUnclosed links unclosed
    have inside := argumentsAgain arguments ((behind ++ more) ++ rest)
    have read := @Derives.call _ _ _ _ _ _ none _ _ opens inside closes ending (ih next)
    simpa using read

theorem leadingRead {o : Operand} (alone : o.Alone) (leads : o.head = true) {whole more rest}
    (next : Derives (.chain o.tree whole) more rest)
    (unclosed : front (more ++ rest) ≠ some (.punct .semicolon)) :
    Derives (.expression whole) (o.tokens ++ more) rest := by
  cases alone with
  | head kind links => exact .head kind (linksChain links next unclosed)
  | literal => cases leads
  | function => cases leads

theorem endingRead {o : Operand} (alone : o.Alone) (ends : o.head = false) {rest}
    (settled : o.Settled rest) : Derives (.expression o.tree) o.tokens rest := by
  cases alone with
  | head => cases ends
  | literal kind => exact .literal kind
  | function value =>
    exact .functionValue (functionAgain value fun assigned => settled assigned _ rfl)

theorem stepsUnclosed {steps : List Step} (alone : ∀ s ∈ steps, s.Alone) {rest}
    (unclosed : front rest ≠ some (.punct .semicolon)) :
    front (stepTokens steps ++ rest) ≠ some (.punct .semicolon) := by
  cases steps with
  | nil => exact unclosed
  | cons s more => simp [stepTokens, (alone s List.mem_cons_self).sign]

theorem stepSettled {s : Step} {more : List Step} (alone : ∀ t ∈ s :: more, t.Alone) {rest}
    (settled : ∀ t, (s :: more).getLast? = some t → t.operand.Settled rest) :
    s.operand.Settled (stepTokens more ++ rest) := by
  cases more with
  | nil => exact settled s rfl
  | cons t more =>
    intro assigned
    simp [stepTokens, (alone t (by simp)).sign] at assigned

theorem stepsRead {steps : List Step} (alone : ∀ s ∈ steps, s.Alone) {rest}
    (ends : ¬ Continues rest) (unclosed : front rest ≠ some (.punct .semicolon))
    (settled : ∀ s, steps.getLast? = some s → s.operand.Settled rest) (left : Expression) :
    Derives (.chain left (onward left steps)) (stepTokens steps) rest := by
  induction steps generalizing left with
  | nil => exact .stop ends
  | cons s more ih =>
    have one := alone s List.mem_cons_self
    have others : ∀ t ∈ more, t.Alone := fun t among => alone t (List.mem_cons_of_mem s among)
    have next := ih others fun t last => settled t (by simp [List.getLast?_cons, last])
    cases leads : s.operand.head with
    | true =>
      -- The operand takes all the rest, and nothing is left behind what it is joined to.
      let joined := join left s.op (onward s.operand.tree more)
      have value := leadingRead one.operand leads (next s.operand.tree)
        (stepsUnclosed others unclosed)
      have stopped : Derives (.chain joined joined) [] rest := .stop ends
      have read := Derives.operator one.sign value stopped
      rw [onwardHead leads]
      simpa [stepTokens] using read
    | false =>
      have value := endingRead one.operand leads (stepSettled alone settled)
      rw [onwardTail leads]
      have read := Derives.operator one.sign value (next (join left s.op s.operand.tree))
      simpa [stepTokens] using read

theorem alonesRead {c : Chain} (alone : c.Alone) {rest} (ends : ¬ Continues rest)
    (unclosed : front rest ≠ some (.punct .semicolon)) (settled : c.last.Settled rest) :
    Derives (.expression c.tree) c.tokens rest := by
  have steps : ∀ s, c.steps.getLast? = some s → s.operand.Settled rest := by
    intro s found
    simpa [last, found] using settled
  have next := stepsRead alone.steps ends unclosed steps c.first.tree
  exact leadingRead alone.first alone.leads next (stepsUnclosed alone.steps unclosed)

end Chain

theorem chainGrouped {c : Chain} (alone : c.Alone) {rest} (ends : ¬ Continues rest)
    (unclosed : front rest ≠ some (.punct .semicolon)) (settled : c.last.Settled rest) {level}
    (enough : (c.tokens ++ rest).length < level) :
    (Productions.upTo level).expression (c.tokens ++ rest) = .done c.tree rest ∧
      ∀ {s : Session}, s.ahead = c.tokens ++ rest →
        s.run (Parser.Nesting.upTo level).expression =
          (.ok c.tree, ⟨s.tokens, s.cursor + c.tokens.length⟩) := by
  have read := expressionBelow (Chain.alonesRead alone ends unclosed settled).answered enough
  refine ⟨read, ?_⟩
  intro s ahead
  rw [Session.runsExpression (ahead ▸ enough), Session.read, ahead, read,
    ← Session.leavingPassed ahead]

namespace Chain

theorem functionAlone (level : Nat) {tokens f}
    (run : functionDef (Productions.upTo level).statement level tokens = .done f []) :
    (⟨false, .function f, tokens⟩ : Operand).Alone := by
  obtain ⟨taken, rfl, derived⟩ := functionReads (upToReads level).2 run
  rw [List.append_nil]
  exact .function derived

def named : Operand :=
  ⟨true, .identifier (.ofToken (.plain .identifier "a" 0)), [.plain .identifier "a" 0]⟩

def one : Operand :=
  ⟨false, .literal (.ofToken (.literal .number "1" "1" 4)), [.literal .number "1" "1" 4]⟩

def called : Operand :=
  ⟨true, .call ⟨8, 14⟩ (.member ⟨8, 11⟩ (.identifier ⟨⟨8, 9⟩, "b"⟩) ⟨⟨10, 11⟩, "c"⟩ false)
      [.identifier ⟨⟨12, 13⟩, "d"⟩],
    [.plain .identifier "b" 8, .plain (.punct .dot) "." 9, .plain .identifier "c" 10,
      .plain (.punct .parenLeft) "(" 11, .plain .identifier "d" 12,
      .plain (.punct .parenRight) ")" 13]⟩

def declaringTokens (start : Nat) (ending : List Token) : List Token :=
  .plain (.keyword .functionWord) "function" start :: .plain (.punct .parenLeft) "(" (start + 9) ::
    .plain (.punct .parenRight) ")" (start + 10) ::
    .plain (.punct .braceLeft) "\x7b" (start + 12) ::
    .plain (.keyword .letWord) "let" (start + 14) :: .plain .identifier "e" (start + 18) ::
    .plain (.punct .assign) "=" (start + 20) :: .literal .number "1" "1" (start + 22) ::
    (ending ++ [.plain (.punct .braceRight) "\x7d" (stopOf (start + 23) ending + 1)])

def declaring (start : Nat) (ending : List Token) : Operand :=
  let stop := stopOf (start + 23) ending
  let value : Expression := .literal ⟨⟨start + 22, start + 23⟩, "1", "1"⟩
  let declarator : Declarator :=
    ⟨⟨start + 18, start + 23⟩, ⟨⟨start + 18, start + 19⟩, "e"⟩, some value⟩
  let body : Block :=
    ⟨⟨start + 12, stop + 2⟩, [.vars ⟨⟨start + 14, stop⟩, .letKind, [declarator]⟩]⟩
  ⟨false, .function ⟨⟨start, stop + 2⟩, none, [], body⟩, declaringTokens start ending⟩

def mixed : Chain where
  first := named
  steps := [⟨.plain (.operator .add) "+" 2, .add, one⟩,
    ⟨.plain (.operator .sub) "-" 6, .sub, called⟩,
    ⟨.plain (.operator .shl) "<<" 15, .shl, declaring 18 [.plain (.punct .semicolon) ";" 41]⟩]

def undecided : Chain where
  first := named
  steps := [⟨.plain (.operator .add) "+" 2, .add, declaring 4 []⟩]

def assigned (start : Nat) : List Token :=
  [.plain (.punct .assign) "=" start, .plain .identifier "f" (start + 2)]

theorem mixedSettled : mixed.last.Settled (assigned 45) := by
  rintro _ f same ⟨_, called⟩
  cases same
  exact absurd (called (mixed.last.tokens.take 7) _ _ _ rfl rfl) (by decide)

theorem mixedAlone : mixed.Alone := by
  refine ⟨.head rfl .none, rfl, List.forall_mem_cons.mpr ⟨?_, List.forall_mem_cons.mpr
    ⟨?_, List.forall_mem_singleton.mpr ?_⟩⟩⟩
  · exact ⟨rfl, .literal (.inl rfl)⟩
  · have argument : Derives (.arguments [.identifier ⟨⟨12, 13⟩, "d"⟩])
        [.plain .identifier "d" 12] [.plain (.punct .parenRight) ")" 13] :=
      .lastArgument (.head rfl (.stop id)) rfl
    exact ⟨rfl, .head rfl (.member rfl rfl (.call rfl argument rfl .none))⟩
  · exact ⟨rfl, functionAlone 20 rfl⟩

end Chain

theorem mixedGrouped : Chain.mixed.Alone ∧ ¬ Continues (Chain.assigned 45) ∧
    front (Chain.assigned 45) ≠ some (.punct .semicolon) ∧
    Chain.mixed.last.Settled (Chain.assigned 45) ∧
    (Productions.upTo 24).expression (Chain.mixed.tokens ++ Chain.assigned 45) =
      .done (join (join Chain.named.tree .add Chain.one.tree) .sub
        (join Chain.called.tree .shl
          (Chain.declaring 18 [.plain (.punct .semicolon) ";" 41]).tree)) (Chain.assigned 45) ∧
    (Session.ofTokens (Chain.mixed.tokens ++ Chain.assigned 45)).run
        (Parser.Nesting.upTo 24).expression =
      (.ok Chain.mixed.tree, ⟨Chain.mixed.tokens ++ Chain.assigned 45, 21⟩) := by
  obtain ⟨read, runs⟩ :=
    @chainGrouped _ Chain.mixedAlone _ id (by decide) Chain.mixedSettled 24 (by decide)
  exact ⟨Chain.mixedAlone, id, by decide, Chain.mixedSettled, read, runs (Session.aheadAll _)⟩

theorem undecidedRefused :
    Text.tokenize "a + function () \x7b let e = 1 \x7d = f" =
      .ok (Chain.undecided.tokens ++ Chain.assigned 30) ∧
    Chain.undecided.Alone ∧ ¬ Continues (Chain.assigned 30) ∧
    front (Chain.assigned 30) ≠ some (.punct .semicolon) ∧
    (Session.ofTokens (Chain.undecided.tokens ++ Chain.assigned 30)).run
        (Parser.Nesting.upTo 20).expression =
      (.error (.unexpectedToken 28 [.identifier] (some (.plain (.punct .braceRight) "\x7d" 28))),
        ⟨Chain.undecided.tokens ++ Chain.assigned 30, 10⟩) ∧
    ∀ level, (Productions.upTo level).expression (Chain.undecided.tokens ++ Chain.assigned 30) ≠
      .done Chain.undecided.tree (Chain.assigned 30) := by
  refine ⟨by cbv, ?_, id, by decide, rfl, ?_⟩
  · refine ⟨.head rfl .none, rfl, List.forall_mem_singleton.mpr ?_⟩
    exact ⟨rfl, Chain.functionAlone 20 rfl⟩
  · intro level found
    obtain ⟨taken, split, derived⟩ := (upToReads level).1 found
    have again : (Productions.upTo 20).expression (taken ++ Chain.assigned 30) =
        .done Chain.undecided.tree (Chain.assigned 30) := by
      refine expressionBelow derived.answered ?_
      rw [← split]
      decide
    rw [← split] at again
    cases again

end ScriptTree
