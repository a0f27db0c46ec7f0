import ScriptTree.Proofs.DerivationAnswer
import ScriptTree.Proofs.Progress
/-! Readings of one session, one after another. What a reading answers depends on the tokens ahead
alone, although the place of an error at the end is taken from all of them. -/
namespace ScriptTree
open Grammar (program programDone programSettles)

namespace Session

def later (s : Session) : Nat → Session
  | 0 => s
  | count + 1 => s.readProgram.2.later count

theorem readingEnds {s : Session} (within : s.Within) :
    (∃ p, program s.ahead = .done p [] ∧ s.readProgram = (.ok p, ⟨s.tokens, s.tokens.length⟩)) ∨
      ∃ expected passed rest, s.ahead = passed ++ rest ∧
        program s.ahead = .failed expected rest ∧
          s.readProgram = (.error (s.refusal expected rest), ⟨s.tokens, s.cursor + passed.length⟩) := by
  rw [readsProgram, Session.read]
  have settles := @programSettles s.ahead
  cases found : program s.ahead with
  | done p rest =>
    obtain ⟨rfl, _⟩ := programDone.mp found
    exact .inl ⟨p, rfl, congrArg _ (leavingNone within)⟩
  | failed expected rest =>
    rw [found] at settles
    cases settles with
    | @failed _ passed _ split =>
      exact .inr ⟨expected, passed, rest, split, rfl,
        congrArg (Prod.mk _) (leavingPassed split)⟩

theorem nothingAhead : program [] = .done ⟨0, none, []⟩ [] := rfl

theorem aheadFilled {s : Session} {expected rest}
    (failed : program s.ahead = .failed expected rest) : s.cursor < s.tokens.length := by
  refine Nat.lt_of_not_le fun none => ?_
  have empty : s.ahead = [] := List.drop_eq_nil_of_le none
  rw [empty, nothingAhead] at failed
  contradiction

/- Only the last of all tokens is looked at from behind, and it is still ahead. -/
theorem refusalAhead {s : Session} (filled : s.cursor < s.tokens.length) (expected rest) :
    s.refusal expected rest = (ofTokens s.ahead).refusal expected rest := by
  cases rest with
  | cons t rest => rfl
  | nil =>
    have last : s.ahead.getLast? = s.tokens.getLast? := by
      rw [ahead, List.getLast?_drop, if_neg (by omega)]
    unfold refusal ofTokens
    rw [last]

theorem readingFresh {s : Session} (within : s.Within) :
    s.readProgram.1 = parseTokens s.ahead := by
  obtain ⟨p, found, read⟩ | ⟨expected, passed, rest, _, failed, read⟩ := readingEnds within
  · rw [read, parseTokens, readsTokens, found]
  · rw [read, parseTokens, readsTokens, failed, refusalAhead (aheadFilled failed)]

theorem readingKept {s : Session} (within : s.Within) :
    s.readProgram.2.tokens = s.tokens ∧ s.readProgram.2.Within := by
  obtain ⟨p, _, read⟩ | ⟨expected, passed, rest, split, _, read⟩ := readingEnds within
  · rw [read]
    exact ⟨rfl, Nat.le_refl _⟩
  · rw [read]
    have count := aheadCount within split
    refine ⟨rfl, ?_⟩
    unfold Within
    simp only
    omega

theorem laterKept {s : Session} (within : s.Within) (count : Nat) :
    (s.later count).tokens = s.tokens ∧ (s.later count).Within := by
  induction count generalizing s with
  | zero => exact ⟨rfl, within⟩
  | succ count ih =>
    obtain ⟨kept, next⟩ := readingKept within
    obtain ⟨all, last⟩ := ih next
    exact ⟨all.trans kept, last⟩

theorem laterStuck {s : Session} (stuck : s.readProgram.2 = s) (count : Nat) :
    s.later count = s := by
  induction count with
  | zero => rfl
  | succ count ih => rw [later, stuck, ih]

theorem endRead {s : Session} (done : s.ahead = []) :
    s.readProgram = (.ok ⟨0, none, []⟩, s) := by
  have here := leavingAll s
  rw [done] at here
  rw [readsProgram, Session.read, done, nothingAhead]
  exact congrArg _ here

structure Resumes (s : Session) : Prop where
  within : s.cursor ≤ s.tokens.length
  fresh : s.readProgram.1 = parseTokens (s.tokens.drop s.cursor)
  success : ∀ p, s.readProgram.1 = .ok p → s.readProgram.2.cursor = s.tokens.length ∧
    ∀ count, (s.readProgram.2.later count).readProgram.1 = .ok ⟨0, none, []⟩
  failure : ∀ e, s.readProgram.1 = .error e → s.cursor ≤ s.readProgram.2.cursor ∧
    s.readProgram.2.cursor ≤ s.tokens.length ∧
    (∃ position expected,
      e = .unexpectedToken position expected s.tokens[s.readProgram.2.cursor]?) ∧
    (s.readProgram.2.cursor = s.cursor →
      ∀ count, (s.readProgram.2.later count).readProgram.1 = .error e)

theorem successEnds {s : Session} (within : s.Within) {p} (answered : s.readProgram.1 = .ok p) :
    s.readProgram.2.cursor = s.tokens.length ∧
      ∀ count, (s.readProgram.2.later count).readProgram.1 = .ok ⟨0, none, []⟩ := by
  obtain ⟨q, _, read⟩ | ⟨expected, passed, rest, _, _, read⟩ := readingEnds within
  · rw [read]
    refine ⟨rfl, fun count => ?_⟩
    have done : ahead ⟨s.tokens, s.tokens.length⟩ = [] := List.drop_length
    have again := @endRead ⟨s.tokens, s.tokens.length⟩ done
    rw [@laterStuck ⟨s.tokens, s.tokens.length⟩ (congrArg Prod.snd again), again]
  · rw [read] at answered
    contradiction

theorem aheadAt {s : Session} {passed rest} (split : s.ahead = passed ++ rest) :
    s.tokens[s.cursor + passed.length]? = rest.head? := by
  rw [← List.head?_drop, aheadBehind split]

theorem refusalActual {s : Session} {passed rest} (split : s.ahead = passed ++ rest)
    (expected : List Kind) : ∃ position, s.refusal expected rest =
      .unexpectedToken position expected s.tokens[s.cursor + passed.length]? := by
  rw [aheadAt split]
  cases rest <;> exact ⟨_, rfl⟩

theorem failureStays {s : Session} (within : s.Within) {e} (answered : s.readProgram.1 = .error e) :
    s.cursor ≤ s.readProgram.2.cursor ∧ s.readProgram.2.cursor ≤ s.tokens.length ∧
      (∃ position expected,
        e = .unexpectedToken position expected s.tokens[s.readProgram.2.cursor]?) ∧
      (s.readProgram.2.cursor = s.cursor →
        ∀ count, (s.readProgram.2.later count).readProgram.1 = .error e) := by
  obtain ⟨kept, bound⟩ := readingKept within
  unfold Within at bound
  rw [kept] at bound
  obtain ⟨q, _, read⟩ | ⟨expected, passed, rest, split, _, read⟩ := readingEnds within
  · rw [read] at answered
    contradiction
  · obtain ⟨position, actual⟩ := refusalActual split expected
    have refused : s.refusal expected rest = e := by
      rw [read] at answered
      exact Except.error.inj answered
    refine ⟨?_, bound, ⟨position, expected, ?_⟩, ?_⟩
    · rw [read]
      exact Nat.le_add_right _ _
    · rw [← refused, actual, read]
    · intro stays count
      have stuck : s.readProgram.2 = s := by
        rw [read] at stays ⊢
        exact congrArg (Session.mk s.tokens) stays
      rw [stuck, laterStuck stuck, answered]

theorem resumes {s : Session} (within : s.Within) : s.Resumes :=
  ⟨within, readingFresh within, fun _ => successEnds within, fun _ => failureStays within⟩

theorem readingsListed (s : Session) (count : Nat) :
    s.readPrograms count = (List.range count).map fun n => (s.later n).readProgram.1 := by
  induction count generalizing s with
  | zero => rfl
  | succ count ih =>
    rw [readPrograms, ih, List.range_succ_eq_map, List.map_cons, List.map_map]
    rfl

end Session

/-- Each reading of a session answers what a new one answers on the tokens that are left. -/
theorem sessionResumes (tokens : List Token) (count : Nat) :
    ((Session.ofTokens tokens).readPrograms count = (List.range count).map fun n =>
      parseTokens (tokens.drop ((Session.ofTokens tokens).later n).cursor)) ∧
    ((Session.ofTokens tokens).later count).tokens = tokens ∧
      ((Session.ofTokens tokens).later count).Resumes := by
  have start : (Session.ofTokens tokens).Within := Nat.zero_le _
  refine ⟨?_, (Session.laterKept start count).1, Session.resumes (Session.laterKept start count).2⟩
  rw [Session.readingsListed]
  refine List.map_congr_left fun n _ => ?_
  obtain ⟨kept, within⟩ := Session.laterKept start n
  rw [Session.readingFresh within, Session.ahead, kept]
  rfl

end ScriptTree
