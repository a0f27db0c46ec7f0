import ScriptTree.Proofs.DerivationAnswer
/-! The shape of the trees that are read. Calls, accesses and operators follow only what can be
extended: a literal or a function ends the operands it stands among, and so does an operator
whose right operand could itself have been extended. -/
namespace ScriptTree

namespace Expression

def IsTail : Expression → Prop
  | literal _ => True
  | function _ => True
  | _ => False

def Extendable : Expression → Prop
  | identifier _ => True
  | member _ _ _ _ => True
  | call _ _ _ => True
  | binary _ _ _ right => right.IsTail
  | literal _ => False
  | function _ => False

theorem extendableHead {e : Expression} (extendable : e.Extendable) : ¬ e.IsTail := by
  cases e <;> simp [Extendable, IsTail] at *

end Expression

namespace ImportSpecifier

def IsDefault : ImportSpecifier → Prop
  | byDefault _ _ => True
  | _ => False

def IsNamed : ImportSpecifier → Prop
  | named _ _ _ => True
  | _ => False

def IsWholeModule : ImportSpecifier → Prop
  | wholeModule _ _ => True
  | _ => False

end ImportSpecifier

def ImportDeclaration.Shaped (d : ImportDeclaration) : Prop :=
  ∃ first others, d.specifiers = first ++ others ∧ first.length ≤ 1 ∧
    (∀ s ∈ first, s.IsDefault) ∧
    ((∀ s ∈ others, s.IsNamed) ∨ ∃ s : ImportSpecifier, others = [s] ∧ s.IsWholeModule)

mutual

def Expression.Shaped : Expression → Prop
  | .identifier _ => True
  | .literal _ => True
  | .function f => f.Shaped
  | .member _ object _ computed => object.Extendable ∧ object.Shaped ∧ computed = false
  | .call _ callee arguments =>
    callee.Extendable ∧ callee.Shaped ∧ Expression.AllShaped arguments
  | .binary _ _ left right => left.Extendable ∧ left.Shaped ∧ right.Shaped

def Expression.AllShaped : List Expression → Prop
  | [] => True
  | e :: others => e.Shaped ∧ Expression.AllShaped others

def FunctionDef.Shaped : FunctionDef → Prop
  | ⟨_, _, _, body⟩ => body.Shaped

def Block.Shaped : Block → Prop
  | ⟨_, body⟩ => Statement.AllShaped body

def Declarator.Shaped : Declarator → Prop
  | ⟨_, _, none⟩ => False
  | ⟨_, _, some init⟩ => init.Shaped

def Declarator.AllShaped : List Declarator → Prop
  | [] => True
  | d :: others => d.Shaped ∧ Declarator.AllShaped others

def VariableDeclaration.Shaped : VariableDeclaration → Prop
  | ⟨_, _, declarators⟩ => Declarator.AllShaped declarators

def Declaration.Shaped : Declaration → Prop
  | .vars declaration => declaration.Shaped
  | .function f => f.Shaped

def DefaultDeclaration.Shaped : DefaultDeclaration → Prop
  | .expression e => ¬ e.IsTail ∧ e.Shaped
  | .function f => f.Shaped

def Statement.Shaped : Statement → Prop
  | .vars declaration => declaration.Shaped
  | .function f => f.Shaped
  | .block b => b.Shaped
  | .returns _ argument => argument.Shaped
  | .expression _ e => ¬ e.IsTail ∧ e.Shaped
  | .imports declaration => declaration.Shaped
  | .exportNamed _ none _ _ => True
  | .exportNamed _ (some declaration) specifiers source =>
    declaration.Shaped ∧ specifiers = [] ∧ source = none
  | .exportDefault _ declaration => declaration.Shaped
  | .exportAll _ => True

def Statement.AllShaped : List Statement → Prop
  | [] => True
  | s :: others => s.Shaped ∧ Statement.AllShaped others

end

def Program.Shaped (p : Program) : Prop := Statement.AllShaped p.body

namespace Grammar

theorem Derives.chainHead {operand whole taken rest}
    (derived : Derives (.chain operand whole) taken rest) (head : ¬ operand.IsTail) :
    ¬ whole.IsTail := by
  generalize same : Phrase.chain operand whole = phrase at derived
  induction derived generalizing operand with
  | stop ends =>
    cases same
    exact head
  | call _ _ _ _ _ _ ih =>
    cases same
    refine ih ?_ rfl
    exact id
  | member _ _ _ ih =>
    cases same
    refine ih ?_ rfl
    exact id
  | operator _ _ _ _ ih =>
    cases same
    refine ih ?_ rfl
    exact id
  | _ => cases same

theorem Derives.ledByName {e taken rest} (derived : Derives (.expression e) taken rest)
    (begins : front taken = some .identifier) : ¬ e.IsTail := by
  cases derived with
  | literal kind =>
    have same : _ = Kind.identifier := Option.some.inj begins
    rw [same] at kind
    rcases kind with kind | kind <;> contradiction
  | functionValue value =>
    have word : front taken = some (.keyword .functionWord) := value.begins
    rw [begins] at word
    contradiction
  | head kind chain => exact chain.chainHead id

/- An expression that is no tail takes all that could go on with it. -/
theorem Derives.headStops {e taken rest} (derived : Derives (.expression e) taken rest)
    (head : ¬ e.IsTail) : ¬ Continues rest := by
  cases derived with
  | literal => exact absurd trivial head
  | functionValue => exact absurd trivial head
  | head kind chain => exact chain.chainStops

theorem importsShaped {d taken rest} (clause : Imports d taken rest) : d.Shaped := by
  cases clause with
  | @clause word first a others b origin source _ kind default other ending string =>
    refine ⟨first, others, rfl, ?_⟩
    have one : first.length ≤ 1 ∧ ∀ s ∈ first, s.IsDefault := by
      cases default <;> simp [ImportSpecifier.IsDefault]
    have behind : (∀ s ∈ others, s.IsNamed) ∨
        ∃ s : ImportSpecifier, others = [s] ∧ s.IsWholeModule := by
      cases other with
      | absent => exact .inl (by simp)
      | braces list =>
        obtain ⟨_, _, _, _, _, _, series, _⟩ := list
        refine .inl (seriesAll series ?_)
        intro s _ _ item
        obtain ⟨_, _, _, ⟨names, _, rfl⟩, _⟩ := item
        trivial
      | star => exact .inr ⟨_, rfl, trivial⟩
    exact ⟨one.1, one.2, behind⟩

def Phrase.Shaped : Phrase → Prop
  | .expression e => e.Shaped
  | .chain operand whole => operand.Extendable → operand.Shaped → whole.Shaped
  | .arguments es => Expression.AllShaped es
  | .function f => f.Shaped
  | .block b => b.Shaped
  | .statements body => Statement.AllShaped body
  | .declarators _ _ ds => Declarator.AllShaped ds
  | .vars d => d.Shaped
  | .unterminated s => s.Shaped
  | .statement s => s.Shaped

theorem Derives.shaped {phrase taken rest} (derived : Derives phrase taken rest) :
    phrase.Shaped := by
  induction derived with
  | literal => trivial
  | functionValue value ih => exact ih
  | head kind chain ih => exact ih trivial trivial
  | stop ends =>
    intro extendable shaped
    exact shaped
  | call opens arguments closes ending chain inside ih =>
    intro extendable shaped
    exact ih trivial ⟨extendable, shaped, inside⟩
  | member dotted kind chain ih =>
    intro extendable shaped
    exact ih trivial ⟨extendable, shaped, rfl⟩
  | @operator left op right e t operand behind rest kind value chain inside ih =>
    intro extendable shaped
    have joined : (join left op right).Shaped := ⟨extendable, shaped, inside⟩
    by_cases tail : right.IsTail
    · exact ih tail joined
    · obtain ⟨same, _⟩ := chain.chainStopped (value.headStops tail)
      rw [same]
      exact joined
  | noArguments => trivial
  | lastArgument value ends ih => exact ⟨ih, trivial⟩
  | argument value kind next inside ih => exact ⟨inside, ih⟩
  | function kind named parameters block ih => exact ih
  | block opens statements closes ih => exact ih
  | noStatements => trivial
  | statements first next inside ih => exact ⟨inside, ih⟩
  | semicolon => trivial
  | undeclared => trivial
  | declarator kind assigned initial ending next inside ih => exact ⟨inside, ih⟩
  | vars kind declared ih => exact ih
  | functionStatement value ih => exact ih
  | expressionStatement begins value ih => exact ⟨value.ledByName begins, ih⟩
  | blockStatement value ih => exact ih
  | returns kind value ih => exact ih
  | variableStatement value ih => exact ih
  | imports clause => exact importsShaped clause
  | exportedValue kind only begins value ih => exact ⟨value.ledByName begins, ih⟩
  | exportedDefault kind only value ih => exact ih
  | exportedVariables kind value ih => exact ⟨ih, rfl, rfl⟩
  | exportedFunction kind value ih => exact ⟨ih, rfl, rfl⟩
  | exportedNames kind clause =>
    cases clause
    trivial
  | exportedModule => trivial
  | statement body ending ih => exact ih

end Grammar

theorem parsedShape {tokens p} (parsed : parseTokens tokens = .ok p) : p.Shaped :=
  (parsedExactly.mp parsed).2.shaped

def calledSum : List Token :=
  [.plain .identifier "f" 0, .plain (.punct .dot) "." 1, .plain .identifier "g" 2,
    .plain (.punct .parenLeft) "(" 3, .literal .number "1" "1" 4,
    .plain (.punct .parenRight) ")" 5, .plain (.operator .add) "+" 7,
    .literal .number "2" "2" 9]

def calledSumProgram : Program :=
  ⟨0, some 10, [.expression ⟨0, 10⟩ (.binary ⟨0, 10⟩ .add
    (.call ⟨0, 6⟩ (.member ⟨0, 3⟩ (.identifier ⟨⟨0, 1⟩, "f"⟩) ⟨⟨2, 3⟩, "g"⟩ false)
      [.literal ⟨⟨4, 5⟩, "1", "1"⟩])
    (.literal ⟨⟨9, 10⟩, "2", "2"⟩))]⟩

theorem calledSumShape :
    parseTokens calledSum = .ok calledSumProgram ∧ calledSumProgram.Shaped := by
  have parsed : parseTokens calledSum = .ok calledSumProgram := rfl
  exact ⟨parsed, parsedShape parsed⟩

end ScriptTree
