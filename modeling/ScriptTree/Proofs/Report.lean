import ScriptTree.Proofs.Resumption
/-! What an error says of the session that it leaves. Its token is the one at the cursor, and a
token of a kind that it expects would not have been refused there. -/
namespace ScriptTree
open Grammar (program programSettles)

namespace Session

structure Reported (s : Session) (position : Nat) (expected : List Kind) (actual : Option Token) :
    Prop where
  found : actual = s.tokens[s.cursor]?
  ended : actual = none ↔ s.cursor = s.tokens.length
  start : ∀ t ∈ actual, position = t.span.start
  behind : actual = none → ∃ last ∈ s.tokens.getLast?, position = last.span.stop
  filled : expected ≠ []
  other : ∀ t ∈ actual, ∀ kind ∈ expected, t.is kind = false

variable {s : Session} {passed rest : List Token} {expected : List Kind}

theorem programRefused (failed : program s.ahead = .failed expected rest) :
    Grammar.Refused expected rest := by
  have settles := @programSettles s.ahead
  rw [failed] at settles
  cases settles with
  | failed _ refused => exact refused

theorem tokenReported {t : Token} (within : s.Within) (split : s.ahead = passed ++ t :: rest)
    (refused : Grammar.Refused expected (t :: rest)) :
    Reported ⟨s.tokens, s.cursor + passed.length⟩ t.span.start expected (some t) := by
  have count := aheadCount within split
  rw [List.length_cons] at count
  constructor
  · exact (aheadAt split).symm
  · refine ⟨fun none => by contradiction, fun ended => ?_⟩
    simp only at ended
    omega
  · intro u same
    rw [Option.some.inj same]
  · intro none
    contradiction
  · exact refused.1
  · intro u same kind listed
    cases Option.some.inj same
    have differs : t.kind ≠ kind := fun same => refused.2 kind listed (congrArg some same)
    exact beq_eq_false_iff_ne.mpr differs

theorem endReported (within : s.Within) (split : s.ahead = passed)
    (failed : program s.ahead = .failed expected []) :
    Reported ⟨s.tokens, s.cursor + passed.length⟩
      ((s.tokens.getLast?.map (·.span.stop)).getD 0) expected none := by
  have parts : s.ahead = passed ++ [] := split.trans (List.append_nil _).symm
  have count := aheadCount within parts
  have filled : s.tokens ≠ [] := List.ne_nil_of_length_pos (Nat.zero_lt_of_lt (aheadFilled failed))
  constructor
  · exact (aheadAt parts).symm
  · exact ⟨fun _ => count, fun _ => rfl⟩
  · intro t impossible
    contradiction
  · intro _
    refine ⟨s.tokens.getLast filled, List.getLast?_eq_some_getLast filled, ?_⟩
    rw [List.getLast?_eq_some_getLast filled]
    rfl
  · exact (programRefused failed).1
  · intro t impossible
    contradiction

theorem readingReported {position actual s'} (within : s.Within)
    (refused : s.readProgram = (.error (.unexpectedToken position expected actual), s')) :
    s'.Reported position expected actual := by
  obtain ⟨p, _, read⟩ | ⟨expected', passed, rest, split, failed, read⟩ := readingEnds within
  · rw [read] at refused
    cases (Prod.mk.inj refused).1
  · rw [read] at refused
    obtain ⟨error, rfl⟩ := Prod.mk.inj refused
    cases rest with
    | nil =>
      cases error
      exact endReported within (split.trans (List.append_nil _)) failed
    | cons t more =>
      cases error
      exact tokenReported within split (programRefused failed)

end Session

theorem refusalReported {tokens : List Token} {count : Nat} {position expected actual s'}
    (refused : ((Session.ofTokens tokens).later count).readProgram =
      (.error (.unexpectedToken position expected actual), s')) :
    s'.tokens = tokens ∧ s'.Reported position expected actual := by
  have start : (Session.ofTokens tokens).Within := Nat.zero_le _
  obtain ⟨kept, within⟩ := Session.laterKept start count
  refine ⟨?_, Session.readingReported within refused⟩
  have same := (Session.readingKept within).1
  rw [refused] at same
  exact same.trans kept

def brokenTwice : List Token :=
  [.plain .identifier "f" 0, .plain (.punct .parenLeft) "(" 1, .plain .identifier "a" 2,
    .plain .identifier "b" 4, .plain (.punct .dot) "." 5]

theorem brokenTwiceReported :
    ((Session.ofTokens brokenTwice).later 1).readProgram =
      (.error (.unexpectedToken 6 [.identifier] none), ⟨brokenTwice, 5⟩) ∧
    Session.Reported ⟨brokenTwice, 5⟩ 6 [.identifier] none := by
  have refused : ((Session.ofTokens brokenTwice).later 1).readProgram =
      (.error (.unexpectedToken 6 [.identifier] none), ⟨brokenTwice, 5⟩) := rfl
  exact ⟨refused, (refusalReported refused).2⟩

end ScriptTree
