import ScriptTree.Proofs.Viable
/-! How far a reading looks. Every production is put together from looks at the next two tokens,
and none goes back. What it comes to is settled by the tokens up to where it stops or fails and by
the two from there on. -/
namespace ScriptTree.Grammar

inductive Built : {α : Type} → Production α → Prop where
  | pure {α : Type} (value : α) : Built (pure value : Production α)
  | fail {α : Type} (expected : List Kind) : Built (fail expected : Production α)
  | peek : Built peek
  | peekSecond : Built peekSecond
  | oneOf (kinds : List Kind) : Built (oneOf kinds)
  | accept (kind : Kind) : Built (accept kind)
  | bind {α β : Type} {p : Production α} {f : α → Production β} (first : Built p)
      (next : ∀ value, Built (f value)) : Built (p >>= f)

namespace Built

variable {p : Production α} {b : Nat}

theorem expect (kind : Kind) : Built (expect kind) := oneOf [kind]

theorem made {f : α → β} (first : Built p) : Built (p >>= fun value => Pure.pure (f value)) :=
  first.bind fun _ => pure _

theorem many (stop : Option Kind) (item : Built p) : Built (many stop p b) := by
  induction b with
  | zero => exact fail []
  | succ b ih =>
    refine bind peek fun next => ?_
    split
    · exact pure []
    · exact item.bind fun first => ih.made

theorem enclosed {left right : Punct} (item : Built p) : Built (enclosed left right p b) :=
  bind (expect _) fun _ => (item.many _).bind fun _ => (expect _).made

theorem separated (item : Built p) : Built (separated p) := by
  refine item.bind fun value => bind peek fun next => ?_
  split
  · exact pure value
  · exact (expect _).made

theorem listed (item : Built p) : Built (listed p) := item.bind fun _ => (accept _).made

theorem identifier : Built identifier := (expect _).made

theorem literal : Built literal := (oneOf _).made

theorem moduleSource : Built moduleSource := (expect _).made

theorem otherName : Built otherName := by
  refine bind (accept _) fun word => ?_
  cases word with
  | none => exact pure none
  | some t => exact identifier.made

theorem renamed : Built renamed := identifier.bind fun _ => otherName.made

theorem namedImport : Built namedImport := renamed.made

theorem exportSpecifier : Built exportSpecifier := renamed.made

theorem defaultImport : Built defaultImport := by
  refine bind (accept _) fun name => ?_
  cases name with
  | none => exact pure []
  | some t => exact (accept _).made

theorem otherImports : Built (otherImports b) := by
  refine bind peek fun next => ?_
  split
  · exact namedImport.listed.enclosed.made
  · exact bind (expect _) fun star => bind (expect _) fun word => identifier.made
  · exact pure []

theorem imports : Built (imports b) :=
  bind (expect _) fun _ => defaultImport.bind fun _ => otherImports.bind fun _ =>
    bind (accept _) fun _ => moduleSource.made

theorem otherSource : Built otherSource := by
  refine bind (accept _) fun word => ?_
  cases word with
  | none => exact pure none
  | some t => exact moduleSource.made

theorem exportList (start : Nat) : Built (exportList start b) :=
  exportSpecifier.listed.enclosed.bind fun _ => otherSource.made

theorem exportAll (start : Nat) : Built (exportAll start) :=
  bind (expect _) fun _ => otherName.bind fun _ => bind (expect _) fun _ => moduleSource.made

section Levels
variable {argument : Production Expression} {inner : Production Statement}

theorem block (statements : Built inner) : Built (block inner b) := statements.enclosed.made

theorem functionDef (statements : Built inner) : Built (functionDef inner b) :=
  bind (expect _) fun _ => bind (accept _) fun _ => identifier.separated.enclosed.bind fun _ =>
    statements.block.made

theorem operand (statements : Built inner) : Built (operand inner b) := by
  refine bind peek fun next => ?_
  split
  · exact statements.functionDef.made
  · exact literal.made
  · exact literal.made
  · exact identifier.made

theorem call (arguments : Built argument) (callee : Expression) : Built (call argument b callee) :=
  arguments.separated.enclosed.bind fun _ => (accept _).made

theorem member (object : Expression) : Built (member object) :=
  bind (expect _) fun _ => identifier.made

theorem continued {operand : Production Operand} (arguments : Built argument)
    (operands : Built operand) {pending : List Pending} {current : Expression} :
    Built (continued argument operand b pending current) := by
  induction b generalizing pending current with
  | zero => exact fail []
  | succ b ih =>
    refine bind peek fun next => ?_
    split
    · exact (arguments.call current).bind fun called => ih
    · exact (member current).bind fun accessed => ih
    · refine bind (expect _) fun t => operands.bind fun right => ?_
      cases right with
      | head id => exact ih
      | tail right => exact ih
    · exact pure _

theorem expression (arguments : Built argument) (statements : Built inner) :
    Built (expression argument inner b) := by
  refine statements.operand.bind fun first => ?_
  cases first with
  | head id => exact arguments.continued statements.operand
  | tail e => exact pure e

end Levels

section Statements
variable {values : Production Expression} {functions : Production FunctionDef}
variable {inner : Production Statement}

theorem declarator (value : Built values) : Built (declarator values) := by
  refine identifier.bind fun id => bind (accept _) fun assign => ?_
  cases assign with
  | none => exact pure _
  | some t => exact value.made

theorem declarators (value : Built values) {stop : Nat} : Built (declarators values b stop) := by
  induction b generalizing stop with
  | zero => exact fail []
  | succ b ih =>
    refine bind (accept _) fun semicolon => ?_
    cases semicolon with
    | some t => exact pure _
    | none =>
      refine bind peekSecond fun next => ?_
      split
      · exact value.declarator.bind fun first => bind (accept _) fun comma => ih.made
      · exact pure _

theorem variableDeclaration (value : Built values) (sort : VariableKind) :
    Built (variableDeclaration values b sort) :=
  bind (expect _) fun _ => value.declarators.made

theorem defaultDeclaration (value : Built values) (function : Built functions) :
    Built (defaultDeclaration values functions) := by
  refine bind (expect _) fun word => bind peek fun next => ?_
  split
  · exact value.made
  · exact function.made
  · exact fail _

theorem exports (value : Built values) (function : Built functions) :
    Built (exports values functions b) := by
  refine bind (expect _) fun word => bind peek fun next => ?_
  split
  · exact (value.defaultDeclaration function).made
  · exact exportList _
  · exact (value.variableDeclaration _).made
  · exact (value.variableDeclaration _).made
  · exact (value.variableDeclaration _).made
  · exact function.made
  · exact (exportAll _).made

theorem returns (value : Built values) : Built (returns values) :=
  bind (expect _) fun _ => value.made

theorem unterminated (value : Built values) (statements : Built inner) :
    Built (unterminated values inner b) := by
  refine bind peek fun next => ?_
  split
  · exact statements.functionDef.made
  · exact value.made
  · exact statements.block.made
  · exact value.returns
  · exact imports.made
  · exact value.exports statements.functionDef
  · exact (value.variableDeclaration _).made
  · exact (value.variableDeclaration _).made
  · exact (value.variableDeclaration _).made
  · exact fail leads

theorem statement (value : Built values) (statements : Built inner) :
    Built (statement values inner b) :=
  (value.unterminated statements).bind fun _ => (accept _).made

end Statements

theorem levels (level : Nat) : Built (Productions.upTo level).expression ∧
    Built (Productions.upTo level).statement := by
  induction level with
  | zero => exact ⟨fail [], fail []⟩
  | succ level ih =>
    have value : Built (Productions.upTo (level + 1)).expression := ih.1.expression ih.2
    exact ⟨value, value.statement ih.2⟩

theorem statements (budget : Nat) : Built (statements budget) := (levels budget).2.many none

end Built

structure SameAhead (ts us : List Token) : Prop where
  next : ts.head? = us.head?
  second : (ts.drop 1).head? = (us.drop 1).head?

def Outcome.before (rest : List Token) : Outcome α → Outcome α
  | .done value _ => .done value rest
  | .failed expected _ => .failed expected rest

theorem restBefore (outcome : Outcome α) (rest : List Token) :
    (outcome.before rest).rest = rest := by
  cases outcome <;> rfl

theorem beforeBefore (outcome : Outcome α) (rest others : List Token) :
    (outcome.before others).before rest = outcome.before rest := by
  cases outcome <;> rfl

theorem beforeOwn {outcome : Outcome α} {rest : List Token} (own : outcome.rest = rest) :
    outcome.before rest = outcome := by
  subst own
  cases outcome <;> rfl

/-- The tokens taken and the two behind them settle what it comes to. -/
def Nearsighted (p : Production α) : Prop :=
  ∀ tokens, ∃ taken, tokens = taken ++ (p tokens).rest ∧
    ∀ rest, SameAhead rest (p tokens).rest → p (taken ++ rest) = (p tokens).before rest

theorem sameNone {ts : List Token} (same : SameAhead ts []) : ts = [] :=
  List.head?_eq_none_iff.mp same.next

theorem sameSome {t : Token} {ts us : List Token} (same : SameAhead ts (t :: us)) :
    ∃ more, ts = t :: more := List.head?_eq_some_iff.mp same.next

theorem sameBehind {ts us : List Token} (same : SameAhead ts us) (taken : List Token) :
    SameAhead (taken ++ ts) (taken ++ us) := by
  cases taken with
  | nil => exact same
  | cons t taken =>
    cases taken with
    | nil => exact ⟨rfl, same.next⟩
    | cons u more => exact ⟨rfl, rfl⟩

theorem nearStays {p : Production α}
    (stays : ∀ tokens rest, SameAhead rest tokens →
      (p tokens).rest = tokens ∧ p rest = (p tokens).before rest) : Nearsighted p := by
  intro tokens
  have here := (stays tokens tokens ⟨rfl, rfl⟩).1
  refine ⟨[], here.symm, fun rest same => ?_⟩
  rw [here] at same
  exact (stays tokens rest same).2

theorem nearFirst {p : Production α} (ended : (p []).rest = [])
    (each : ∀ t, (∃ value, ∀ rest, p (t :: rest) = .done value rest) ∨
      ∃ outcome : Outcome α, ∀ rest, p (t :: rest) = outcome.before (t :: rest)) :
    Nearsighted p := by
  intro tokens
  cases tokens with
  | nil =>
    refine ⟨[], ended.symm, fun rest same => ?_⟩
    rw [ended] at same
    rw [sameNone same, List.nil_append, beforeOwn ended]
  | cons t more =>
    rcases each t with ⟨value, taken⟩ | ⟨outcome, stays⟩
    · rw [taken]
      exact ⟨[t], rfl, fun rest _ => taken rest⟩
    · rw [stays]
      refine ⟨[], (restBefore outcome _).symm, fun rest same => ?_⟩
      rw [restBefore] at same
      obtain ⟨others, rfl⟩ := sameSome same
      rw [List.nil_append, stays, beforeBefore]

theorem nearOneOf (kinds : List Kind) : Nearsighted (oneOf kinds) := by
  refine nearFirst rfl fun t => ?_
  by_cases listed : t.kind ∈ kinds
  · exact .inl ⟨t, fun rest => if_pos listed⟩
  · exact .inr ⟨.failed kinds [], fun rest => if_neg listed⟩

theorem nearAccept (kind : Kind) : Nearsighted (accept kind) := by
  refine nearFirst rfl fun t => ?_
  by_cases same : t.kind = kind
  · exact .inl ⟨some t, fun rest => if_pos same⟩
  · exact .inr ⟨.done none [], fun rest => if_neg same⟩

theorem nearBind {p : Production α} {f : α → Production β} (first : Nearsighted p)
    (next : ∀ value, Nearsighted (f value)) : Nearsighted (p >>= f) := by
  intro tokens
  obtain ⟨taken, split, again⟩ := first tokens
  cases found : p tokens with
  | failed expected rest =>
    have failed : (p >>= f) tokens = .failed expected rest := bindRefuses found
    rw [failed]
    rw [found] at split again
    exact ⟨taken, split, fun others same => bindRefuses (again others same)⟩
  | done value between =>
    have found' : (p >>= f) tokens = f value between := by rw [Production.bindApply, found]
    rw [found']
    rw [found] at split again
    obtain ⟨others, split', again'⟩ := next value between
    refine ⟨taken ++ others, ?_, fun rest same => ?_⟩
    · rw [List.append_assoc, ← split']
      exact split
    · have seen : SameAhead (others ++ rest) between := by
        rw [split']
        exact sameBehind same others
      rw [List.append_assoc, Production.bindApply, again _ seen]
      exact again' rest same

theorem Built.near {p : Production α} (built : Built p) : Nearsighted p := by
  induction built with
  | pure value => exact nearStays fun _ _ _ => ⟨rfl, rfl⟩
  | fail expected => exact nearStays fun _ _ _ => ⟨rfl, rfl⟩
  | peek =>
    refine nearStays fun tokens rest same => ⟨rfl, ?_⟩
    exact congrArg (fun next => Outcome.done (next.map Token.kind) rest) same.next
  | peekSecond =>
    refine nearStays fun tokens rest same => ⟨rfl, ?_⟩
    exact congrArg (fun next => Outcome.done (next.map Token.kind) rest) same.second
  | oneOf kinds => exact nearOneOf kinds
  | accept kind => exact nearAccept kind
  | bind first next near nearNext => exact nearBind near nearNext

/- The budget of a program comes from the number of tokens. One is taken that is above both. -/
theorem programNear : Nearsighted program := by
  have near (n : Nat) : Nearsighted (statements n >>= fun body => pure (Program.ofStatements body)) :=
    (Built.statements n).made.near
  intro tokens
  obtain ⟨taken, split, _⟩ := near (tokens.length + 1) tokens
  rw [← programBudget (Nat.lt_succ_self _)] at split
  refine ⟨taken, split, fun rest same => ?_⟩
  have enough : tokens.length < tokens.length + (taken ++ rest).length + 1 := by omega
  have enough' : (taken ++ rest).length < tokens.length + (taken ++ rest).length + 1 := by omega
  obtain ⟨taken', split', again⟩ := near (tokens.length + (taken ++ rest).length + 1) tokens
  rw [← programBudget enough] at split' again
  obtain rfl : taken' = taken := List.append_cancel_right (split'.symm.trans split)
  rw [programBudget enough']
  exact again rest same

end ScriptTree.Grammar

namespace ScriptTree
open Grammar

theorem agreeingSplit {tokens' passed rest : List Token}
    (agree : ∀ n ≤ passed.length + 1, tokens'[n]? = (passed ++ rest)[n]?) :
    ∃ rest', tokens' = passed ++ rest' ∧ SameAhead rest' rest := by
  have front : tokens'.take passed.length = passed := by
    refine List.ext_getElem? fun n => ?_
    rw [List.getElem?_take]
    split
    · rename_i inside
      rw [agree n (by omega), List.getElem?_append_left inside]
    · rename_i outside
      exact (List.getElem?_eq_none (Nat.le_of_not_lt outside)).symm
  have ahead (n : Nat) (near : n ≤ 1) : (tokens'.drop passed.length)[n]? = rest[n]? := by
    rw [List.getElem?_drop, agree _ (by omega), List.getElem?_append_right (by omega)]
    congr 1
    omega
  have parts := List.take_append_drop passed.length tokens'
  rw [front] at parts
  refine ⟨tokens'.drop passed.length, parts.symm, ?_, ?_⟩
  · simpa [List.head?_eq_getElem?] using ahead 0 (by omega)
  · simpa [List.head?_eq_getElem?] using ahead 1 (by omega)

theorem readingRefused {passed rest : List Token} {expected}
    (failed : program (passed ++ rest) = .failed expected rest) :
    (Session.ofTokens (passed ++ rest)).readProgram =
      (.error ((Session.ofTokens (passed ++ rest)).refusal expected rest),
        ⟨passed ++ rest, passed.length⟩) := by
  rw [Session.readsTokens, failed]
  simp only [Session.leavingTokens, List.length_append, Nat.add_sub_cancel]

theorem refusalNear {tokens tokens' : List Token} {e : Error} {s : Session}
    (refused : (Session.ofTokens tokens).readProgram = (.error e, s))
    (within : s.cursor < tokens.length)
    (agree : ∀ n ≤ s.cursor + 1, tokens'[n]? = tokens[n]?) :
    (Session.ofTokens tokens').readProgram = (.error e, ⟨tokens', s.cursor⟩) := by
  obtain ⟨p, _, read⟩ | ⟨expected, passed, rest, split, failed, _⟩ :=
    @Session.readingEnds (Session.ofTokens tokens) (Nat.zero_le _)
  · rw [read] at refused
    cases (Prod.mk.inj refused).1
  · rw [Session.aheadAll] at split failed
    subst split
    rw [readingRefused failed] at refused
    obtain ⟨error, rfl⟩ := Prod.mk.inj refused
    cases rest with
    | nil =>
      rw [List.append_nil] at within
      exact absurd within (Nat.lt_irrefl _)
    | cons t more =>
      obtain ⟨rest', rfl, same⟩ := agreeingSplit agree
      obtain ⟨others, rfl⟩ := sameSome same
      obtain ⟨taken, split, again⟩ := programNear (passed ++ t :: more)
      rw [failed] at split again
      obtain rfl : passed = taken := List.append_cancel_right split
      rw [readingRefused (again _ same), ← error]
      rfl

def missingComma : List Token :=
  [.plain .identifier "f" 0, .plain (.punct .parenLeft) "(" 1, .plain .identifier "a" 2,
    .plain .identifier "b" 4, .plain (.punct .parenRight) ")" 5]

theorem missingCommaNear :
    (Session.ofTokens missingComma).readProgram =
      (.error (.unexpectedToken 4 [.punct .comma] (some (.plain .identifier "b" 4))),
        ⟨missingComma, 3⟩) ∧
    3 < missingComma.length ∧
    (∀ n ≤ 4, (missingComma ++ [.plain (.punct .braceLeft) "\x7b" 6])[n]? = missingComma[n]?) ∧
    (Session.ofTokens (missingComma ++ [.plain (.punct .braceLeft) "\x7b" 6])).readProgram =
      (.error (.unexpectedToken 4 [.punct .comma] (some (.plain .identifier "b" 4))),
        ⟨missingComma ++ [.plain (.punct .braceLeft) "\x7b" 6], 3⟩) := by
  have refused : (Session.ofTokens missingComma).readProgram =
      (.error (.unexpectedToken 4 [.punct .comma] (some (.plain .identifier "b" 4))),
        ⟨missingComma, 3⟩) := rfl
  have within : 3 < missingComma.length := by decide
  have agree : ∀ n ≤ 4,
      (missingComma ++ [.plain (.punct .braceLeft) "\x7b" 6])[n]? = missingComma[n]? :=
    fun n near => List.getElem?_append_left (Nat.lt_succ_of_le near)
  exact ⟨refused, within, agree, refusalNear refused within agree⟩

end ScriptTree
