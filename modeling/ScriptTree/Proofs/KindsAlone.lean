import ScriptTree.Proofs.Resumption
import ScriptTree.Proofs.Separation
import ScriptTree.Proofs.Twin
/-! What the kinds of tokens settle, and what is only copied. Two token lists of the same kinds are
read as trees of the same nodes or refused at the same place, and a change of the offsets and texts
of tokens is found again in the tree or the error. -/
namespace ScriptTree
open Grammar (Twins program)

namespace Relabeling

def bare : Relabeling := ⟨fun _ => 0, fun _ => ""⟩

theorem bareTwins {tokens others : List Token}
    (same : tokens.map Token.kind = others.map Token.kind) :
    List.Forall₂ (Twins bare bare) tokens others := by
  have kinds : List.Forall₂ (fun t u => t.kind = u.kind) tokens others :=
    List.forall₂_map_left_iff.mp (List.forall₂_map_right_iff.mp (List.forall₂_eq_eq_eq ▸ same))
  exact kinds.imp fun t u kind => ⟨kind, rfl, rfl, rfl⟩

variable (r : Relabeling)

theorem lexemeRelabeled (t : Token) : (r.token t).lexeme = r.text t.lexeme := by
  obtain ⟨kind, text, span, raw⟩ := t
  cases raw <;> rfl

theorem ownTwins (tokens : List Token) :
    List.Forall₂ (Twins r unchanged) tokens (r.tokens tokens) := by
  induction tokens with
  | nil => exact .nil
  | cons t tokens ih => exact .cons ⟨rfl, rfl, (r.lexemeRelabeled t).symm, rfl⟩ ih

theorem programUnchanged (p : Program) : unchanged.program p = p := by
  obtain ⟨start, stop, body⟩ := p
  rw [program, statementsUnchanged]
  cases stop <;> rfl

end Relabeling

open Relabeling (bare onward unchanged)

variable {r r' : Relabeling}

theorem twinsRead {tokens others : List Token}
    (twins : List.Forall₂ (Twins r r') tokens others) :
    (∃ p q, program tokens = .done p [] ∧ program others = .done q [] ∧
      r.program p = r'.program q) ∨
    ∃ expected rest rest', program tokens = .failed expected rest ∧
      program others = .failed expected rest' ∧ List.Forall₂ (Twins r r') rest rest' := by
  have matched := Grammar.programMirrors twins
  generalize first : program tokens = outcome, second : program others = outcome' at matched
  cases matched with
  | @done p q _ _ values _ =>
    obtain ⟨rfl, _⟩ := Grammar.programDone.mp first
    obtain ⟨rfl, _⟩ := Grammar.programDone.mp second
    exact .inl ⟨p, q, rfl, rfl, values⟩
  | @failed expected rest rest' behind => exact .inr ⟨expected, rest, rest', rfl, rfl, behind⟩

theorem programRest {tokens expected rest} (failed : program tokens = .failed expected rest) :
    ∃ passed, tokens = passed ++ rest := by
  have settles := @Grammar.programSettles tokens
  rw [failed] at settles
  cases settles with
  | failed split _ => exact ⟨_, split⟩

theorem programRelabeled (r : Relabeling) (tokens : List Token) :
    program (r.tokens tokens) = match program tokens with
      | .done p _ => .done (r.program p) []
      | .failed expected rest => .failed expected (r.tokens rest) := by
  obtain ⟨p, q, first, second, same⟩ | ⟨expected, rest, rest', first, second, twins⟩ :=
    twinsRead (r.ownTwins tokens)
  · rw [Relabeling.programUnchanged] at same
    rw [first, second, ← same]
  · rw [first, second]
    -- Both rests are as long, and each is the end of its list.
    obtain ⟨passed, split⟩ := programRest first
    obtain ⟨passed', split'⟩ := programRest second
    rw [split, Grammar.tokensAppend] at split'
    have size : (r.tokens rest).length = rest'.length := by
      rw [Relabeling.tokens, List.length_map, twins.length_eq]
    exact congrArg _ (List.append_inj_right' split' size).symm

theorem refusalRelabeled (r : Relabeling) {tokens : List Token} (filled : tokens ≠ [])
    (expected : List Kind) (rest : List Token) :
    (Session.ofTokens (r.tokens tokens)).refusal expected (r.tokens rest) =
      r.error ((Session.ofTokens tokens).refusal expected rest) := by
  cases rest with
  | cons t rest => rfl
  | nil =>
    have last := List.getLast?_eq_some_getLast filled
    simp only [Session.refusal, Session.ofTokens, Relabeling.tokens, List.map_nil,
      List.getLast?_map, last]
    rfl

theorem parsedRelabeled (r : Relabeling) (tokens : List Token) :
    parseTokens (r.tokens tokens) = ((parseTokens tokens).map r.program).mapError r.error := by
  rw [parseTokens, parseTokens, Session.readsTokens, Session.readsTokens, programRelabeled]
  cases found : program tokens with
  | done p rest => rfl
  | failed expected rest =>
    have filled : tokens ≠ [] := by
      rintro rfl
      rw [Session.nothingAhead] at found
      contradiction
    simp only [refusalRelabeled r filled]
    rfl

theorem readingFailed {tokens expected rest} (failed : program tokens = .failed expected rest) :
    ∃ position actual, (Session.ofTokens tokens).readProgram =
      (.error (.unexpectedToken position expected actual), ⟨tokens, tokens.length - rest.length⟩) := by
  rw [Session.readsTokens, failed]
  simp only [Session.leavingTokens]
  cases rest with
  | nil => exact ⟨_, _, rfl⟩
  | cons t rest => exact ⟨_, _, rfl⟩

def RefusedAlike (tokens others : List Token) : Prop :=
  ∃ expected position actual s position' actual' s',
    (Session.ofTokens tokens).readProgram =
      (.error (.unexpectedToken position expected actual), s) ∧
    (Session.ofTokens others).readProgram =
      (.error (.unexpectedToken position' expected actual'), s') ∧ s.cursor = s'.cursor

theorem kindsDecide {tokens others : List Token}
    (same : tokens.map Token.kind = others.map Token.kind) :
    ((∃ p q, parseTokens tokens = .ok p ∧ parseTokens others = .ok q ∧
        bare.program p = bare.program q) ∨ RefusedAlike tokens others) ∧
      ∀ k, parseTokens ((onward k).tokens tokens) =
        ((parseTokens tokens).map (onward k).program).mapError (onward k).error := by
  refine ⟨?_, fun k => parsedRelabeled (onward k) tokens⟩
  obtain ⟨p, q, first, second, alike⟩ | ⟨expected, rest, rest', first, second, twins⟩ :=
    twinsRead (Relabeling.bareTwins same)
  · have read := Grammar.programDone.mp first
    have read' := Grammar.programDone.mp second
    exact .inl ⟨p, q, parsedExactly.mpr read.2, parsedExactly.mpr read'.2, alike⟩
  · obtain ⟨position, actual, refused⟩ := readingFailed first
    obtain ⟨position', actual', refused'⟩ := readingFailed second
    have count : tokens.length = others.length := by
      simpa using congrArg List.length same
    refine .inr ⟨expected, position, actual, _, position', actual', _, refused, refused', ?_⟩
    rw [count, twins.length_eq]

def plainSum : List Token :=
  [.plain .identifier "a" 0, .plain (.operator .add) "+" 2, .literal .number "1" "1" 4]

def scrambledSum : List Token :=
  [⟨.identifier, "let", ⟨9, 3⟩, some ""⟩, ⟨.operator .add, "-", ⟨0, 0⟩, none⟩,
    ⟨.number, "x", ⟨5, 1⟩, none⟩]

def sumOf (start stop : Nat) (left : Identifier) (right : Literal) : Program :=
  ⟨0, some stop, [.expression ⟨start, stop⟩
    (.binary ⟨start, stop⟩ .add (.identifier left) (.literal right))]⟩

theorem plainSumScrambled :
    plainSum.map Token.kind = scrambledSum.map Token.kind ∧
    parseTokens plainSum = .ok (sumOf 0 5 ⟨⟨0, 1⟩, "a"⟩ ⟨⟨4, 5⟩, "1", "1"⟩) ∧
    parseTokens scrambledSum = .ok (sumOf 9 1 ⟨⟨9, 3⟩, "let"⟩ ⟨⟨5, 1⟩, "x", "x"⟩) ∧
    bare.program (sumOf 0 5 ⟨⟨0, 1⟩, "a"⟩ ⟨⟨4, 5⟩, "1", "1"⟩) =
      bare.program (sumOf 9 1 ⟨⟨9, 3⟩, "let"⟩ ⟨⟨5, 1⟩, "x", "x"⟩) ∧
    parseTokens ((onward 7).tokens plainSum) =
      .ok (sumOf 7 12 ⟨⟨7, 8⟩, "a"⟩ ⟨⟨11, 12⟩, "1", "1"⟩) ∧
    RefusedAlike (plainSum.take 2) (scrambledSum.take 2) := by
  have same : plainSum.map Token.kind = scrambledSum.map Token.kind := rfl
  have fewer : (plainSum.take 2).map Token.kind = (scrambledSum.take 2).map Token.kind := rfl
  have plain : parseTokens plainSum = .ok (sumOf 0 5 ⟨⟨0, 1⟩, "a"⟩ ⟨⟨4, 5⟩, "1", "1"⟩) := rfl
  have scrambled : parseTokens scrambledSum =
    .ok (sumOf 9 1 ⟨⟨9, 3⟩, "let"⟩ ⟨⟨5, 1⟩, "x", "x"⟩) := rfl
  have refused : ∃ e, parseTokens (plainSum.take 2) = .error e := ⟨_, rfl⟩
  obtain ⟨e, refused⟩ := refused
  obtain ⟨alike, moved⟩ := kindsDecide same
  refine ⟨same, plain, scrambled, ?_, ?_, ?_⟩
  · obtain ⟨p, q, first, second, both⟩ | ⟨_, _, _, _, _, _, _, first, _⟩ := alike
    · rw [plain] at first
      rw [scrambled] at second
      cases first
      cases second
      exact both
    · rw [parseTokens, first] at plain
      contradiction
  · rw [moved 7, plain]
    rfl
  · obtain ⟨_, _, first, _⟩ | stopped := (kindsDecide fewer).1
    · rw [refused] at first
      contradiction
    · exact stopped

end ScriptTree
