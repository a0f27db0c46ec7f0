import ScriptTree.Session
import ScriptTree.Proofs.Progress
/-! A parser and a production side by side. The parser has all tokens and a cursor, the production
only those from the cursor on. Each look, at the token under the cursor, at the one behind it, at
the one before it and at the last of all, is settled here, so that parsers put together from these
follow the productions put together in the same way. -/
namespace ScriptTree

open Grammar (Production Outcome front accept bindAssociates)

namespace Session

def ahead (s : Session) : List Token := s.tokens.drop s.cursor

def leaving (s : Session) (rest : List Token) : Session :=
  { s with cursor := s.cursor + (s.ahead.length - rest.length) }

def refusal (s : Session) (expected : List Kind) : List Token → Error
  | [] => .unexpectedToken ((s.tokens.getLast?.map (·.span.stop)).getD 0) expected none
  | t :: _ => .unexpectedToken t.span.start expected (some t)

def read (s : Session) (production : Production α) : Except Error α × Session :=
  match production s.ahead with
  | .done value rest => (.ok value, s.leaving rest)
  | .failed expected rest => (.error (s.refusal expected rest), s.leaving rest)

def Within (s : Session) : Prop := s.cursor ≤ s.tokens.length

theorem aheadCount {s : Session} (within : s.Within) {passed rest : List Token}
    (split : s.ahead = passed ++ rest) :
    s.cursor + passed.length + rest.length = s.tokens.length := by
  have count := congrArg List.length split
  rw [ahead, List.length_drop, List.length_append] at count
  unfold Within at within
  omega

theorem leavingPassed {s : Session} {passed rest : List Token} (split : s.ahead = passed ++ rest) :
    s.leaving rest = ⟨s.tokens, s.cursor + passed.length⟩ := by
  have count : s.ahead.length - rest.length = passed.length := by
    rw [split, List.length_append, Nat.add_sub_cancel]
  rw [leaving, count]

theorem leavingNone {s : Session} (within : s.Within) :
    s.leaving [] = ⟨s.tokens, s.tokens.length⟩ := by
  have split : s.ahead = s.ahead ++ [] := (List.append_nil _).symm
  have count := aheadCount within split
  have cursor : s.cursor + s.ahead.length = s.tokens.length := count
  rw [leavingPassed split, cursor]

theorem leavingAll (s : Session) : s.leaving s.ahead = s :=
  leavingPassed (List.nil_append s.ahead).symm

theorem aheadBehind {s : Session} {passed rest : List Token} (split : s.ahead = passed ++ rest) :
    s.tokens.drop (s.cursor + passed.length) = rest := by
  rw [← List.drop_drop]
  change List.drop passed.length s.ahead = rest
  rw [split, List.drop_left]

theorem leavingAhead {s : Session} {passed rest : List Token} (split : s.ahead = passed ++ rest) :
    (s.leaving rest).ahead = rest := by
  rw [leavingPassed split]
  exact aheadBehind split

theorem runPure (s : Session) (value : α) : s.run (pure value) = (.ok value, s) := rfl

theorem runBind (s : Session) (first : Parser α) (next : α → Parser β) :
    s.run (first >>= next) = match s.run first with
      | (.ok value, after) => after.run (next value)
      | (.error e, after) => (.error e, after) := by
  change s.run (fun buffer => first buffer >>= fun value => next value buffer) = _
  unfold run
  rcases found : first s.tokens.toArray s.cursor with ⟨value | e, cursor⟩ <;>
    · simp only [bind, ExceptT.bind, ExceptT.mk, StateT.bind, found]
      rfl

theorem leavingTwice {s : Session} {passed taken rest : List Token}
    (split : s.ahead = passed ++ (taken ++ rest)) :
    (s.leaving (taken ++ rest)).leaving rest = s.leaving rest := by
  rw [leavingPassed (leavingAhead split), leavingPassed split, Nat.add_assoc,
    ← List.length_append, ← leavingPassed (split.trans (List.append_assoc ..).symm)]

def lastStop (s : Session) : Nat :=
  match s.cursor with
  | 0 => 0
  | before + 1 => s.tokens[before]?.elim 0 (·.span.stop)

theorem lookAt (s : Session) (count : Nat) :
    s.tokens.toArray[s.cursor + count]? = (s.ahead.drop count).head? := by
  rw [List.getElem?_toArray, ahead, List.drop_drop, List.head?_drop]

theorem runCurrent (s : Session) : s.run Parser.current = (.ok s.ahead.head?, s) := by
  change (Except.ok s.tokens.toArray[s.cursor + 0]?, s) = _
  rw [lookAt]
  rfl

theorem runNext (s : Session) : s.run Parser.peekNext = (.ok (s.ahead.drop 1).head?, s) := by
  change (Except.ok s.tokens.toArray[s.cursor + 1]?, s) = _
  rw [lookAt]

theorem runKind (s : Session) : s.run Parser.currentKind = (.ok (front s.ahead), s) := by
  rw [Parser.currentKind, runBind, runCurrent]
  rfl

theorem headIs (tokens : List Token) (kind : Kind) :
    tokens.head?.any (·.is kind) = decide (front tokens = some kind) := by
  cases tokens with
  | nil => rfl
  | cons t rest =>
    simp only [Grammar.frontCons, Option.some.injEq]
    rfl

theorem runIs (s : Session) (kind : Kind) :
    s.run (Parser.currentIs kind) = (.ok (decide (front s.ahead = some kind)), s) := by
  rw [Parser.currentIs, runBind, runCurrent, ← headIs]
  rfl

theorem runIn (s : Session) (kinds : List Kind) :
    s.run (Parser.currentIn kinds) = (.ok ((front s.ahead).any (· ∈ kinds)), s) := by
  rw [Parser.currentIn, runBind, runCurrent]
  cases s.ahead <;> rfl

theorem runEnd (s : Session) : s.run Parser.isEnd = (.ok (decide (front s.ahead = none)), s) := by
  change (Except.ok (decide (s.tokens.toArray.size ≤ s.cursor)), s) = _
  simp [front, ahead]

theorem runPrevious (s : Session) : s.run Parser.previousEnd = (.ok s.lastStop, s) := by
  obtain ⟨tokens, _ | before⟩ := s
  · rfl
  · change (Except.ok (tokens.toArray[before]?.elim 0 (·.span.stop)), _) = _
    rw [List.getElem?_toArray]
    rfl

theorem runUnexpected (s : Session) (expected : List Kind) :
    s.run (Parser.unexpected expected : Parser α) = (.error (s.refusal expected s.ahead), s) := by
  have buffer : s.run MonadReader.read = (.ok s.tokens.toArray, s) := rfl
  rw [Parser.unexpected, runBind, buffer]
  simp only [runBind, runCurrent, List.back?_toArray]
  cases s.ahead with
  | nil =>
    unfold refusal
    cases s.tokens.getLast? <;> rfl
  | cons t rest => rfl

theorem lastStopPassed {s : Session} {t rest} (found : s.ahead = t :: rest) :
    (s.leaving rest).lastStop = t.span.stop := by
  have here := lookAt s 0
  rw [List.getElem?_toArray, found] at here
  rw [leavingPassed (List.singleton_append ▸ found)]
  change (s.tokens[s.cursor]?).elim 0 (·.span.stop) = _
  rw [← Nat.add_zero s.cursor, here]
  rfl

inductive Answers (s : Session) (same : α → β → Session → Prop) :
    Except Error α × Session → Outcome β → Prop where
  | done {value found taken rest} (split : s.ahead = taken ++ rest)
      (values : same value found (s.leaving rest)) :
      Answers s same (.ok value, s.leaving rest) (.done found rest)
  | failed {expected taken rest} (split : s.ahead = taken ++ rest) :
      Answers s same (.error (s.refusal expected rest), s.leaving rest) (.failed expected rest)

/-- Both come to the same from here: they stop at the same place, with values that are the same
there, or are refused at the same place with the same error. -/
def Follows (s : Session) (same : α → β → Session → Prop) (parser : Parser α)
    (production : Production β) : Prop :=
  Answers s same (s.run parser) (production s.ahead)

theorem Answers.onward {s : Session} {same : α → β → Session → Prop} {passed rest answer outcome}
    (split : s.ahead = passed ++ rest) (answers : Answers (s.leaving rest) same answer outcome) :
    Answers s same answer outcome := by
  have ahead := leavingAhead split
  cases answers with
  | @done value found taken behind more values =>
    obtain rfl : rest = taken ++ behind := ahead.symm.trans more
    rw [leavingTwice split] at values ⊢
    exact .done (split.trans (List.append_assoc ..).symm) values
  | @failed expected taken behind more =>
    obtain rfl : rest = taken ++ behind := ahead.symm.trans more
    rw [leavingTwice split]
    exact .failed (split.trans (List.append_assoc ..).symm)

section Combined
variable {s : Session} {same : α → β → Session → Prop} {same' : γ → δ → Session → Prop}

theorem followsPure {value : α} {found : β} (values : same value found s) :
    s.Follows same (pure value) (pure found) := by
  unfold Follows
  rw [runPure, Production.pureApply]
  have done := @Answers.done _ _ s same value found [] s.ahead rfl
  rw [leavingAll] at done
  exact done values

theorem followsBind {parser : Parser α} {p : Production β} {next : α → Parser γ}
    {further : β → Production δ} (first : s.Follows same parser p)
    (behind : ∀ {value found after}, same value found after →
      after.Follows same' (next value) (further found)) :
    s.Follows same' (parser >>= next) (p >>= further) := by
  unfold Follows at first ⊢
  rw [runBind, Production.bindApply]
  generalize s.run parser = answer, p s.ahead = outcome at first
  cases first with
  | done split values =>
    have more := behind values
    unfold Follows at more
    rw [leavingAhead split] at more
    exact more.onward split
  | failed split => exact .failed split

theorem followsLook {parser : Parser α} {value : α} {next : α → Parser γ} {p : Production δ}
    (looks : s.run parser = (.ok value, s)) (behind : s.Follows same' (next value) p) :
    s.Follows same' (parser >>= next) p := by
  unfold Follows
  rw [runBind, looks]
  exact behind

theorem followsPeek {parser : Parser γ} {further : Option Kind → Production δ}
    (behind : s.Follows same' parser (further (front s.ahead))) :
    s.Follows same' parser (Grammar.peek >>= further) := behind

theorem followsPeekSecond {parser : Parser γ} {further : Option Kind → Production δ}
    (behind : s.Follows same' parser (further (front (s.ahead.drop 1)))) :
    s.Follows same' parser (Grammar.peekSecond >>= further) := behind

theorem followsFailed {p : Production β} {expected : List Kind}
    (failed : p s.ahead = .failed expected s.ahead) :
    s.Follows same (Parser.unexpected expected) p := by
  unfold Follows
  rw [runUnexpected, failed]
  have refused := @Answers.failed _ _ s same expected [] s.ahead rfl
  rwa [leavingAll] at refused

theorem followsSame {parser : Parser α} {p q : Production β} (alike : p s.ahead = q s.ahead)
    (follows : s.Follows same parser q) : s.Follows same parser p := by
  unfold Follows
  rw [alike]
  exact follows

theorem Follows.weaken {parser : Parser α} {p : Production β} {less : α → β → Session → Prop}
    (follows : s.Follows same parser p)
    (weaker : ∀ {value found after}, same value found after → less value found after) :
    s.Follows less parser p := by
  unfold Follows at follows ⊢
  generalize s.run parser = answer, p s.ahead = outcome at follows
  cases follows with
  | done split values => exact .done split (weaker values)
  | failed split => exact .failed split

theorem Follows.ran {parser : Parser α} {p : Production β} (follows : s.Follows same parser p)
    {found after} (read : s.read p = (.ok found, after)) :
    ∃ value, s.run parser = (.ok value, after) ∧ same value found after := by
  unfold Follows at follows
  unfold Session.read at read
  generalize s.run parser = answer, p s.ahead = outcome at follows read
  cases follows with
  | done split values =>
    cases read
    exact ⟨_, rfl, values⟩
  | failed split => cases read

end Combined

abbrev Same (value found : α) (_ : Session) : Prop := value = found

abbrev Ending (stop : α → Nat) (value found : α) (after : Session) : Prop :=
  value = found ∧ after.lastStop = stop found

section Tokens
variable {s : Session} {same : α → β → Session → Prop}

theorem bindPure (p : Production β) : p >>= pure = p := by
  funext tokens
  rw [Production.bindApply]
  cases p tokens <;> rfl

theorem followsTake {t rest kinds} (found : s.ahead = t :: rest) (fits : t.kind ∈ kinds)
    {next : Parser α} {further : Token → Production β}
    (behind : (s.leaving rest).Follows same next (further t)) :
    s.Follows same (Parser.advance >>= fun _ => next) (Grammar.oneOf kinds >>= further) := by
  have split : s.ahead = [t] ++ rest := found
  have taken : Grammar.oneOf kinds s.ahead = .done t rest := found ▸ if_pos fits
  have moves : s.run Parser.advance = (.ok (), s.leaving rest) := by
    rw [leavingPassed split]
    rfl
  unfold Follows at behind ⊢
  rw [leavingAhead split] at behind
  rw [runBind, moves, Production.bindApply, taken]
  exact behind.onward split

theorem followsOneOf (kinds : List Kind) :
    s.Follows (fun t u after => t = u ∧ t.kind ∈ kinds ∧ after.lastStop = u.span.stop)
      (Parser.oneOf kinds) (Grammar.oneOf kinds) := by
  refine followsLook (runCurrent s) ?_
  cases found : s.ahead with
  | nil => exact followsFailed (by rw [found]; rfl)
  | cons t rest =>
    simp only [List.head?_cons]
    split
    · rename_i fits
      rw [← bindPure (Grammar.oneOf kinds)]
      exact followsTake found fits (followsPure ⟨rfl, fits, lastStopPassed found⟩)
    · rename_i other
      exact followsFailed (found ▸ if_neg other)

theorem followsExpect (kind : Kind) :
    s.Follows (fun span t after => span = t.span ∧ after.lastStop = t.span.stop)
      (Parser.expect kind) (Grammar.expect kind) := by
  rw [← bindPure (Grammar.expect kind)]
  refine followsBind (followsOneOf [kind]) ?_
  rintro t u after ⟨rfl, _, stop⟩
  exact followsPure ⟨rfl, stop⟩

theorem followsSkipped (kind : Kind) :
    s.Follows (fun skips o after => skips = o.isSome ∧
        after.lastStop = o.elim s.lastStop (·.span.stop))
      (Parser.skipped kind) (accept kind) := by
  refine followsLook (runIs s kind) ?_
  cases found : s.ahead with
  | nil => exact followsSame (q := pure none) (by rw [found]; rfl) (followsPure ⟨rfl, rfl⟩)
  | cons t rest =>
    by_cases fits : t.kind = kind
    · have alike : accept kind s.ahead =
          (Grammar.oneOf [kind] >>= fun u => pure (some u)) s.ahead := by
        rw [Production.bindApply, found, accept, Grammar.oneOf, if_pos fits,
          if_pos (List.mem_singleton.mpr fits)]
        rfl
      simp only [Grammar.frontCons, fits]
      refine followsSame alike ?_
      refine followsTake found (List.mem_singleton.mpr fits) (followsPure ⟨rfl, ?_⟩)
      exact lastStopPassed found
    · have alike : accept kind s.ahead = (pure none : Production (Option Token)) s.ahead := by
        rw [found, accept, if_neg fits]
        rfl
      simp only [Grammar.frontCons, Option.some.injEq, fits]
      exact followsSame alike (followsPure ⟨rfl, rfl⟩)

theorem followsToken (kinds : List Kind) {value : Token → α} {stop : α → Nat}
    (stops : ∀ t, stop (value t) = t.span.stop) :
    s.Follows (Ending stop) (Parser.oneOf kinds >>= fun t => pure (value t))
      (Grammar.oneOf kinds >>= fun t => pure (value t)) := by
  refine followsBind (followsOneOf kinds) ?_
  rintro t u after ⟨rfl, _, last⟩
  exact followsPure ⟨rfl, last.trans (stops t).symm⟩

theorem followsIdentifier :
    s.Follows (Ending (·.span.stop)) Parser.identifier Grammar.identifier :=
  followsToken [.identifier] fun _ => rfl

theorem followsLiteral : s.Follows (Ending (·.span.stop)) Parser.literal Grammar.literal :=
  followsToken Parser.literals fun _ => rfl

theorem followsSource :
    s.Follows (Ending (·.span.stop)) Parser.stringLiteral Grammar.moduleSource :=
  followsToken [.string] fun _ => rfl

variable {item : Parser α} {item' : Production α}

theorem runEnded (s : Session) (stop : Option Punct) : s.run (Parser.ended stop) =
    (.ok (decide (front s.ahead = none ∨ front s.ahead = stop.map .punct)), s) := by
  cases stop with
  | none =>
    simp only [Parser.ended, runEnd, Option.map_none, or_self]
  | some mark =>
    simp only [Parser.ended, runBind, runEnd]
    by_cases none : front s.ahead = none
    · simp [none, runPure]
    · simp [none, runIs]

theorem followsMany (stop : Option Punct) (items : ∀ s : Session, s.Follows Same item item')
    (budget : Nat) : s.Follows Same (Parser.many stop item budget)
      (Grammar.many (stop.map .punct) item' budget) := by
  induction budget generalizing s with
  | zero => exact followsFailed rfl
  | succ budget ih =>
    refine followsLook (runEnded s stop) (followsPeek ?_)
    by_cases ends : front s.ahead = none ∨ front s.ahead = stop.map .punct
    · rw [if_pos ends, if_pos (decide_eq_true ends)]
      exact followsPure rfl
    · rw [if_neg ends, if_neg (by simpa using ends)]
      refine followsBind (items s) ?_
      rintro first _ after rfl
      refine followsBind ih ?_
      rintro others _ after rfl
      exact followsPure rfl

theorem followsSeparated (items : ∀ s : Session, s.Follows Same item item') :
    s.Follows Same (Parser.separated item) (Grammar.separated item') := by
  refine followsBind (items s) ?_
  rintro value _ after rfl
  refine followsLook (runIs after _) (followsPeek ?_)
  by_cases closes : front after.ahead = some (.punct .parenRight)
  · rw [if_pos closes, if_pos (decide_eq_true closes)]
    exact followsPure rfl
  · rw [if_neg closes, if_neg (by simpa using closes)]
    refine followsBind (followsExpect _) ?_
    rintro span t after _
    exact followsPure rfl

theorem followsListed (items : ∀ s : Session, s.Follows Same item item') :
    s.Follows Same (Parser.listed item) (Grammar.listed item') := by
  refine followsBind (items s) ?_
  rintro value _ after rfl
  refine followsBind (followsSkipped _) ?_
  rintro skips o after _
  exact followsPure rfl

theorem followsEnclosed {left right : Punct} (items : ∀ s : Session, s.Follows Same item item')
    (budget : Nat) {same : γ → δ → Session → Prop} {next : Span → List α → Span → Parser γ}
    {further : Span × List α → Production δ}
    (behind : ∀ {opening list closing after}, lastStop after = closing.stop →
      after.Follows same (next opening list closing) (further (opening.through closing, list))) :
    s.Follows same (Parser.expect (.punct left) >>= fun opening =>
        Parser.many (some right) item budget >>= fun list =>
          Parser.expect (.punct right) >>= fun closing => next opening list closing)
      (Grammar.enclosed left right item' budget >>= further) := by
  simp only [Grammar.enclosed, bindAssociates]
  refine followsBind (followsExpect _) ?_
  rintro _ opening after ⟨rfl, _⟩
  refine followsBind (followsMany (some right) items budget) ?_
  rintro list _ after rfl
  refine followsBind (followsExpect _) ?_
  rintro _ closing after ⟨rfl, stop⟩
  exact behind stop

def SameList (list : List α × Nat) (list' : Span × List α) (after : Session) : Prop :=
  list = (list'.2, list'.1.stop) ∧ after.lastStop = list'.1.stop

theorem followsParameters (items : ∀ s : Session, s.Follows Same item item') (budget : Nat) :
    s.Follows SameList (Parser.parameters item budget) (Grammar.parenthesized item' budget) := by
  rw [← bindPure (Grammar.parenthesized item' budget)]
  refine followsEnclosed (fun _ => followsSeparated items) budget ?_
  intro opening list closing after stop
  exact followsPure ⟨rfl, stop⟩

end Tokens

end Session

end ScriptTree
