import ScriptTree.Proofs.Recursion
import ScriptTree.Proofs.Resumption
import ScriptTree.Proofs.Run
/-! What a reading takes is what its tree covers. The cursor before it is at the first token of the
node that is read, and the cursor behind it is behind the last one, wherever the tokens lie. -/
namespace ScriptTree
open Grammar

namespace Session

variable {s : Session} {p : Production α}

theorem readDone {value after} : s.read p = (.ok value, after) ↔
    ∃ rest, p s.ahead = .done value rest ∧ s.leaving rest = after := by
  unfold read
  cases p s.ahead with
  | done found rest =>
    constructor
    · intro ok
      cases ok
      exact ⟨rest, rfl, rfl⟩
    · rintro ⟨_, same, rfl⟩
      cases same
      rfl
  | failed expected rest => simp

end Session

/-- The node is on the tokens from one position to before another, whatever bytes they are at. It
starts where the first of them does and stops where the last does. -/
structure Occupies (tokens : List Token) (first behind : Nat) (span : Span) (o : Outline) :
    Prop where
  filled : first < behind
  within : behind ≤ tokens.length
  start : tokens[first]?.map (·.span.start) = some span.start
  stop : tokens[behind - 1]?.map (·.span.stop) = some span.stop
  lies : o.Over (tokens.extract first behind)

theorem stopLast (t : Token) (more : List Token) :
    (t :: more).getLast?.map (·.span.stop) = some (stopOf t.span.stop more) := by
  induction more generalizing t with
  | nil => rfl
  | cons u more ih => exact ih u

theorem occupied {tokens taken rest first span o} (split : tokens.drop first = taken ++ rest)
    (covers : Covers span taken) (lies : o.Over taken) :
    Occupies tokens first (first + taken.length) span o := by
  obtain ⟨t, more, rfl, rfl⟩ := covers
  have count := congrArg List.length split
  rw [List.length_drop, List.length_append, List.length_cons] at count
  have ahead (k : Nat) : tokens[first + k]? = (t :: more ++ rest)[k]? := by
    rw [← split, List.getElem?_drop]
  refine ⟨?_, ?_, ?_, ?_, ?_⟩
  · rw [List.length_cons]
    omega
  · rw [List.length_cons]
    omega
  · rw [show first = first + 0 from rfl, ahead]
    rfl
  · have last : (t :: more ++ rest)[more.length]? = (t :: more).getLast? := by
      rw [List.getElem?_append_left (by simp), List.getLast?_eq_getElem?]
      rfl
    rw [List.length_cons, ← Nat.add_assoc, Nat.add_sub_cancel, ahead, last, stopLast]
  · rw [List.extract_eq_take_drop, split, Nat.add_sub_cancel_left, List.take_left]
    exact lies

theorem readOccupies {s : Session} {taken rest span o} (split : s.ahead = taken ++ rest)
    (covers : Covers span taken) (lies : o.Over taken) :
    Occupies s.tokens s.cursor (s.leaving rest).cursor span o := by
  rw [Session.leavingPassed split]
  exact occupied split covers lies

theorem expressionOccupies {s : Session} {level e after}
    (read : s.read (Productions.upTo level).expression = (.ok e, after)) :
    Occupies s.tokens s.cursor after.cursor e.span e.outline := by
  obtain ⟨rest, found, rfl⟩ := Session.readDone.mp read
  obtain ⟨taken, split, derived⟩ := (upToReads level).1 found
  exact readOccupies split derived.covered derived.lies

theorem statementOccupies {s : Session} {level st after}
    (read : s.read (Productions.upTo (level + 1)).statement = (.ok st, after)) :
    ∃ (body : Session) (closing : Option Token),
      s.read (unterminated (Productions.upTo (level + 1)).expression
        (Productions.upTo level).statement level) = (.ok st, body) ∧
      body.read (accept (.punct .semicolon)) = (.ok closing, after) ∧
      body.cursor = (if closing.isSome then after.cursor - 1 else after.cursor) ∧
      Occupies s.tokens s.cursor body.cursor st.span st.outline := by
  obtain ⟨rest, found, rfl⟩ := Session.readDone.mp read
  obtain ⟨_, between, own, closing, _, closed, finished⟩ := by
    simpa only [Productions.upTo, Productions.next, statement, bindDone] using found
  cases finished
  obtain ⟨taken, split, derived⟩ :=
    unterminatedReads (upToReads (level + 1)).1 (upToReads level).2 own
  obtain ⟨rfl, _⟩ := acceptDone.mp closed
  refine ⟨s.leaving (closing.toList ++ rest), closing, Session.readDone.mpr ⟨_, own, rfl⟩,
    Session.readDone.mpr ⟨rest, ?_, Session.leavingTwice split⟩, ?_,
    readOccupies split derived.covered derived.lies⟩
  · rw [Session.leavingAhead split]
    exact closed
  · have whole := split.trans (List.append_assoc ..).symm
    rw [Session.leavingPassed split, Session.leavingPassed whole, List.length_append]
    cases closing <;> rfl

theorem statementRuns {s : Session} {level st after} (enough : s.ahead.length < level)
    (run : s.run (Parser.Nesting.upTo (level + 1)).statement = (.ok st, after)) :
    ∃ (body : Session) (closed : Bool),
      s.run (Parser.unterminated (Parser.Nesting.upTo (level + 1)).expression
        (Parser.Nesting.upTo level).statement level) = (.ok st, body) ∧
      body.run (Parser.skipped (.punct .semicolon)) = (.ok closed, after) ∧
      body.cursor = (if closed then after.cursor - 1 else after.cursor) ∧
      Occupies s.tokens s.cursor body.cursor st.span st.outline := by
  rw [Session.runsStatement (Nat.lt_succ_of_lt enough)] at run
  obtain ⟨body, closing, own, closes, cursor, occupies⟩ := statementOccupies run
  obtain ⟨closed, skips, same, _⟩ := (Session.followsSkipped _).ran closes
  rw [← same] at cursor
  exact ⟨body, closed, (Session.runsUnterminated enough).trans own, skips, cursor, occupies⟩

/-- An expression or a statement that is read from any place is on the tokens that the cursor goes
over, except for the `;` that only ends a statement. The statements of a program are on its tokens
one behind another. -/
theorem spansConsumed (s : Session) (level : Nat) :
    (s.ahead.length < level →
      (∀ {e after}, s.run (Parser.Nesting.upTo level).expression = (.ok e, after) →
        Occupies s.tokens s.cursor after.cursor e.span e.outline) ∧
      ∀ {st after}, s.run (Parser.Nesting.upTo (level + 1)).statement = (.ok st, after) →
        ∃ (body : Session) (closed : Bool),
          s.run (Parser.unterminated (Parser.Nesting.upTo (level + 1)).expression
            (Parser.Nesting.upTo level).statement level) = (.ok st, body) ∧
          body.run (Parser.skipped (.punct .semicolon)) = (.ok closed, after) ∧
          body.cursor = (if closed then after.cursor - 1 else after.cursor) ∧
          Occupies s.tokens s.cursor body.cursor st.span st.outline) ∧
    (∀ {e after}, s.read (Productions.upTo level).expression = (.ok e, after) →
      Occupies s.tokens s.cursor after.cursor e.span e.outline) ∧
    (∀ {st after}, s.read (Productions.upTo (level + 1)).statement = (.ok st, after) →
      ∃ (body : Session) (closing : Option Token),
        s.read (unterminated (Productions.upTo (level + 1)).expression
          (Productions.upTo level).statement level) = (.ok st, body) ∧
        body.read (accept (.punct .semicolon)) = (.ok closing, after) ∧
        body.cursor = (if closing.isSome then after.cursor - 1 else after.cursor) ∧
        Occupies s.tokens s.cursor body.cursor st.span st.outline) ∧
    ∀ {p}, parseTokens s.tokens = .ok p →
      Outline.PartsOver (Statement.outlines p.body) s.tokens := by
  refine ⟨fun enough => ⟨?_, statementRuns enough⟩, expressionOccupies, statementOccupies, ?_⟩
  · intro e after run
    exact expressionOccupies ((Session.runsExpression enough).symm.trans run)
  · intro p parsed
    exact (parsedExactly.mp parsed).2.lies

def backwards (kinds : List Kind) : List Token :=
  kinds.zipIdx.map fun (kind, position) => ⟨kind, "a", ⟨40 - position, position⟩, none⟩

def backwardsProduct : Session where
  tokens := backwards [.keyword .returnWord, .identifier, .punct .parenLeft, .number,
    .punct .parenRight, .punct .dot, .identifier, .operator .mul, .identifier]
  cursor := 1

def backwardsDeclaration : Session where
  tokens := backwards [.keyword .importWord, .identifier, .punct .comma, .punct .braceLeft,
    .identifier, .punct .comma, .identifier, .keyword .asWord, .identifier, .punct .braceRight,
    .keyword .fromWord, .string, .punct .semicolon, .keyword .letWord, .identifier,
    .punct .assign, .number, .punct .comma, .identifier, .punct .assign, .identifier,
    .punct .parenLeft, .punct .parenRight, .punct .semicolon, .punct .semicolon,
    .punct .semicolon]
  cursor := 13

theorem backwardsConsumed :
    (∃ e after, backwardsProduct.run (Parser.Nesting.upTo 10).expression = (.ok e, after) ∧
      e.span = ⟨39, 8⟩ ∧ Occupies backwardsProduct.tokens 1 9 e.span e.outline) ∧
    (∃ st after, backwardsDeclaration.run (Parser.Nesting.upTo 30).statement = (.ok st, after) ∧
      after.cursor = 26 ∧ ∃ body : Session, body.cursor = 25 ∧
        Occupies backwardsDeclaration.tokens 13 body.cursor st.span st.outline) ∧
    (∃ e after, backwardsProduct.read (Productions.upTo 10).expression = (.ok e, after) ∧
      e.span = ⟨39, 8⟩ ∧ Occupies backwardsProduct.tokens 1 9 e.span e.outline) ∧
    (∃ st after, backwardsDeclaration.read (Productions.upTo 30).statement = (.ok st, after) ∧
      after.cursor = 26 ∧ ∃ body : Session, body.cursor = 25 ∧
        Occupies backwardsDeclaration.tokens 13 body.cursor st.span st.outline) ∧
    ∃ p, parseTokens backwardsDeclaration.tokens = .ok p ∧
      Outline.PartsOver (Statement.outlines p.body) backwardsDeclaration.tokens := by
  obtain ⟨runs, reads, _, _⟩ := spansConsumed backwardsProduct 10
  obtain ⟨declares, _, clauses, parts⟩ := spansConsumed backwardsDeclaration 29
  refine ⟨⟨_, _, rfl, rfl, (runs (by decide)).1 rfl⟩, ?_, ⟨_, _, rfl, rfl, reads rfl⟩, ?_,
    _, rfl, parts rfl⟩
  · obtain ⟨body, closed, own, _, _, occupies⟩ := (declares (by decide)).2 rfl
    have cursor : 25 = body.cursor := congrArg (fun answer => answer.2.cursor) own
    exact ⟨_, _, rfl, rfl, body, cursor.symm, occupies⟩
  · obtain ⟨body, closing, own, _, _, occupies⟩ := clauses rfl
    have cursor : 25 = body.cursor := congrArg (fun answer => answer.2.cursor) own
    exact ⟨_, _, rfl, rfl, body, cursor.symm, occupies⟩

end ScriptTree
