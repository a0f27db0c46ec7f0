import ScriptTree.Proofs.DerivationAnswer
/-! Where the parts of a tree are. A part covers the tokens that it was read from, from the first
to the last, and every statement, however deep inside, was read on its own. -/
namespace ScriptTree

mutual

def Expression.nested : Expression → List Statement
  | .identifier _ => []
  | .literal _ => []
  | .function f => f.nested
  | .member _ object _ _ => object.nested
  | .call _ callee arguments => callee.nested ++ Expression.allNested arguments
  | .binary _ _ left right => left.nested ++ right.nested

def Expression.allNested : List Expression → List Statement
  | [] => []
  | e :: others => e.nested ++ Expression.allNested others

def FunctionDef.nested : FunctionDef → List Statement
  | ⟨_, _, _, body⟩ => body.nested

def Block.nested : Block → List Statement
  | ⟨_, body⟩ => Statement.allNested body

def Declarator.nested : Declarator → List Statement
  | ⟨_, _, none⟩ => []
  | ⟨_, _, some init⟩ => init.nested

def Declarator.allNested : List Declarator → List Statement
  | [] => []
  | d :: others => d.nested ++ Declarator.allNested others

def VariableDeclaration.nested : VariableDeclaration → List Statement
  | ⟨_, _, declarators⟩ => Declarator.allNested declarators

def Declaration.nested : Declaration → List Statement
  | .vars declaration => declaration.nested
  | .function f => f.nested

def DefaultDeclaration.nested : DefaultDeclaration → List Statement
  | .expression e => e.nested
  | .function f => f.nested

def Statement.nested : Statement → List Statement
  | .vars declaration => declaration.nested
  | .function f => f.nested
  | .block b => b.nested
  | .returns _ argument => argument.nested
  | .expression _ e => e.nested
  | .imports _ => []
  | .exportNamed _ none _ _ => []
  | .exportNamed _ (some declaration) _ _ => declaration.nested
  | .exportDefault _ declaration => declaration.nested
  | .exportAll _ => []

def Statement.allNested : List Statement → List Statement
  | [] => []
  | s :: others => s :: (s.nested ++ Statement.allNested others)

end

def Program.statements (p : Program) : List Statement := Statement.allNested p.body

namespace Grammar

def Covers (s : Span) (ts : List Token) : Prop :=
  ∃ t more, ts = t :: more ∧ s = ⟨t.span.start, stopOf t.span.stop more⟩

theorem stopAppend (before : Nat) (ts us : List Token) :
    stopOf before (ts ++ us) = stopOf (stopOf before ts) us := by
  induction ts generalizing before with
  | nil => rfl
  | cons t more ih => exact ih t.span.stop

theorem stopBehind (before : Nat) (ts : List Token) (t : Token) (us : List Token) :
    stopOf before (ts ++ t :: us) = stopOf t.span.stop us := by
  rw [stopAppend]
  rfl

theorem coversStop {s ts} (covers : Covers s ts) (before : Nat) : stopOf before ts = s.stop := by
  obtain ⟨t, more, rfl, rfl⟩ := covers
  rfl

theorem coversOne (t : Token) : Covers t.span [t] := ⟨t, [], rfl, rfl⟩

theorem coversBehind {s ts} (covers : Covers s ts) (t : Token) (us : List Token) :
    Covers ⟨t.span.start, s.stop⟩ (t :: (us ++ ts)) := by
  refine ⟨t, us ++ ts, rfl, ?_⟩
  rw [stopAppend, coversStop covers]

theorem importsCover {d taken rest} (read : Imports d taken rest) : Covers d.span taken := by
  cases read with
  | @clause word first a others b origin source =>
    have covers := coversBehind (coversOne source) word (a ++ (b ++ origin.toList))
    rw [List.append_assoc, List.append_assoc] at covers
    exact covers

theorem exportListStop {start s taken rest} (read : ExportList start s taken rest)
    (before : Nat) : s.span = ⟨start, stopOf before taken⟩ := by
  cases read with
  | @clause span _ _ _ _ _ list origin =>
    obtain ⟨opening, inner, closing, rfl, _, _, _, same⟩ := list
    cases origin with
    | absent =>
      have whole : span = opening.span.through closing.span := same
      rw [List.append_nil, ← List.cons_append, stopBehind, whole]
      rfl
    | present =>
      rw [stopBehind]
      rfl

theorem exportAllStop {start d taken rest} (read : ExportsAll start d taken rest)
    (before : Nat) : d.span = ⟨start, stopOf before taken⟩ := by
  cases read with
  | @clause star exported a word source =>
    have stop : stopOf before (star :: (a ++ [word, source])) = source.span.stop :=
      stopBehind before (star :: a) word [source]
    rw [stop]

def Phrase.Covered (taken : List Token) : Phrase → Prop
  | .expression e => Covers e.span taken
  | .chain operand whole => whole.span = ⟨operand.span.start, stopOf operand.span.stop taken⟩
  | .arguments _ => True
  | .function f => Covers f.span taken
  | .block b => Covers b.span taken
  | .statements _ => True
  | .declarators before stop _ => stop = stopOf before taken
  | .vars d => Covers d.span taken
  | .unterminated s => Covers s.span taken
  | .statement _ => True

theorem Derives.covered {phrase taken rest} (derived : Derives phrase taken rest) :
    phrase.Covered taken := by
  induction derived with
  | literal => exact coversOne _
  | functionValue value ih => exact ih
  | @head t e taken rest kind chain ih => exact ⟨t, taken, rfl, ih⟩
  | stop => rfl
  | @call callee es e opening inner closing semicolon behind rest opens arguments closes ending
      chain inside ih =>
    have stop : stopOf callee.span.stop (opening :: (inner ++ closing :: (semicolon.toList ++
        behind))) = stopOf (stopOf closing.span.stop semicolon.toList) behind := by
      rw [← List.cons_append, stopBehind, stopAppend]
    rw [Phrase.Covered, stop]
    exact ih
  | member dotted kind chain ih => exact ih
  | @operator left op right e t operand behind rest kind value chain inside ih =>
    have stop : stopOf left.span.stop (t :: (operand ++ behind)) =
        stopOf right.span.stop behind := by
      rw [← List.cons_append, stopAppend]
      exact congrArg (stopOf · behind) (coversStop inside t.span.stop)
    rw [Phrase.Covered, stop]
    exact ih
  | noArguments => trivial
  | lastArgument => trivial
  | argument => trivial
  | @function word name span params b list body rest kind named parameters block ih =>
    have covers := coversBehind ih word (name.toList ++ list)
    rw [List.append_assoc] at covers
    exact covers
  | @block opening body inner closing => exact coversBehind (coversOne closing) opening inner
  | noStatements => trivial
  | statements => trivial
  | semicolon => rfl
  | undeclared => rfl
  | @declarator name assign init comma stop ds before value others rest kind assigned initial
      ending next inside ih =>
    have stops : stopOf assign.span.stop value = init.span.stop := coversStop inside _
    have stop : stopOf before (name :: assign :: (value ++ (comma.toList ++ others))) =
        stopOf (stopOf init.span.stop comma.toList) others := by
      rw [← stops, ← stopAppend, ← stopAppend]
      rfl
    rw [Phrase.Covered, stop]
    exact ih
  | @vars word sort stop ds taken rest kind declared ih =>
    exact ⟨word, taken, rfl, congrArg (Span.mk word.span.start) ih⟩
  | functionStatement value ih => exact ih
  | expressionStatement begins value ih => exact ih
  | blockStatement value ih => exact ih
  | @returns word e taken rest kind value ih => exact coversBehind ih word []
  | variableStatement value ih => exact ih
  | imports clause => exact importsCover clause
  | @exportedValue word default e taken rest kind only begins value ih =>
    exact coversBehind ih word [default]
  | @exportedDefault word default f taken rest kind only value ih =>
    exact coversBehind ih word [default]
  | @exportedVariables word d taken rest kind value ih => exact coversBehind ih word []
  | @exportedFunction word f taken rest kind value ih => exact coversBehind ih word []
  | @exportedNames word s taken rest kind clause =>
    exact ⟨word, taken, rfl, exportListStop clause word.span.stop⟩
  | @exportedModule word d taken rest kind clause =>
    exact ⟨word, taken, rfl, exportAllStop clause word.span.stop⟩
  | statement => trivial

def Located (st : Statement) (tokens : List Token) : Prop :=
  ∃ before taken rest, tokens = before ++ (taken ++ rest) ∧ Derives (.unterminated st) taken rest

theorem locatedBehind {st tokens ts} (before : List Token) (located : Located st ts)
    (same : tokens = before ++ ts) : Located st tokens := by
  obtain ⟨earlier, taken, rest, split, derived⟩ := located
  refine ⟨before ++ earlier, taken, rest, ?_, derived⟩
  rw [same, split, List.append_assoc]

def Phrase.Locates (tokens : List Token) : Phrase → Prop
  | .expression e => ∀ st ∈ e.nested, Located st tokens
  | .chain operand whole => ∀ st ∈ whole.nested, st ∈ operand.nested ∨ Located st tokens
  | .arguments es => ∀ st ∈ Expression.allNested es, Located st tokens
  | .function f => ∀ st ∈ f.nested, Located st tokens
  | .block b => ∀ st ∈ b.nested, Located st tokens
  | .statements body => ∀ st ∈ Statement.allNested body, Located st tokens
  | .declarators _ _ ds => ∀ st ∈ Declarator.allNested ds, Located st tokens
  | .vars d => ∀ st ∈ d.nested, Located st tokens
  | .unterminated s => ∀ st ∈ s.nested, Located st tokens
  | .statement s => ∀ st ∈ s :: s.nested, Located st tokens

theorem Derives.locates {phrase taken rest} (derived : Derives phrase taken rest) :
    phrase.Locates (taken ++ rest) := by
  induction derived with
  | literal =>
    intro st inside
    contradiction
  | functionValue value ih => exact ih
  | @head t e taken rest kind chain ih =>
    intro st inside
    rcases ih st inside with earlier | located
    · contradiction
    · exact locatedBehind [t] located rfl
  | stop =>
    intro st inside
    exact .inl inside
  | @call callee es e opening inner closing semicolon behind rest opens arguments closes ending
      chain among ih =>
    intro st inside
    rcases ih st inside with earlier | located
    · rcases List.mem_append.mp earlier with earlier | inside
      · exact .inl earlier
      · exact .inr (locatedBehind [opening] (among st inside) (by simp))
    · exact .inr (locatedBehind (opening :: (inner ++ closing :: semicolon.toList)) located
        (by simp))
  | @member object e dot name behind rest dotted kind chain ih =>
    intro st inside
    rcases ih st inside with earlier | located
    · exact .inl earlier
    · exact .inr (locatedBehind [dot, name] located rfl)
  | @operator left op right e t operand behind rest kind value chain among ih =>
    intro st inside
    rcases ih st inside with earlier | located
    · rcases List.mem_append.mp earlier with earlier | inside
      · exact .inl earlier
      · exact .inr (locatedBehind [t] (among st inside) (by simp))
    · exact .inr (locatedBehind (t :: operand) located (by simp))
  | noArguments =>
    intro st inside
    contradiction
  | lastArgument value ends ih =>
    intro st inside
    rcases List.mem_append.mp inside with inside | inside
    · exact ih st inside
    · contradiction
  | @argument e es taken comma others rest value kind next first ih =>
    intro st inside
    rcases List.mem_append.mp inside with inside | inside
    · exact locatedBehind [] (first st inside) (by simp)
    · exact locatedBehind (taken ++ [comma]) (ih st inside) (by simp)
  | @function word name span params b list body rest kind named parameters block ih =>
    intro st inside
    exact locatedBehind (word :: (name.toList ++ list)) (ih st inside) (by simp)
  | @block opening body inner closing rest opens statements closes ih =>
    intro st inside
    exact locatedBehind [opening] (ih st inside) (by simp)
  | noStatements =>
    intro st inside
    contradiction
  | @statements s body taken others rest first next here ih =>
    intro st inside
    rw [List.append_assoc]
    rcases List.mem_cons.mp inside with rfl | inside
    · exact here _ List.mem_cons_self
    · rcases List.mem_append.mp inside with inside | inside
      · exact here st (List.mem_cons_of_mem _ inside)
      · exact locatedBehind taken (ih st inside) rfl
  | semicolon =>
    intro st inside
    contradiction
  | undeclared =>
    intro st inside
    contradiction
  | @declarator name assign init comma stop ds before value others rest kind assigned initial
      ending next first ih =>
    intro st inside
    rcases List.mem_append.mp inside with inside | inside
    · exact locatedBehind [name, assign] (first st inside) (by simp)
    · exact locatedBehind (name :: assign :: (value ++ comma.toList)) (ih st inside) (by simp)
  | @vars word sort stop ds taken rest kind declared ih =>
    intro st inside
    exact locatedBehind [word] (ih st inside) rfl
  | functionStatement value ih => exact ih
  | expressionStatement begins value ih => exact ih
  | blockStatement value ih => exact ih
  | @returns word e taken rest kind value ih =>
    intro st inside
    exact locatedBehind [word] (ih st inside) rfl
  | variableStatement value ih => exact ih
  | imports =>
    intro st inside
    contradiction
  | @exportedValue word default e taken rest kind only begins value ih =>
    intro st inside
    exact locatedBehind [word, default] (ih st inside) rfl
  | @exportedDefault word default f taken rest kind only value ih =>
    intro st inside
    exact locatedBehind [word, default] (ih st inside) rfl
  | @exportedVariables word d taken rest kind value ih =>
    intro st inside
    exact locatedBehind [word] (ih st inside) rfl
  | @exportedFunction word f taken rest kind value ih =>
    intro st inside
    exact locatedBehind [word] (ih st inside) rfl
  | exportedNames kind clause =>
    intro st inside
    cases clause
    contradiction
  | exportedModule =>
    intro st inside
    contradiction
  | @statement s taken semicolon rest body ending ih =>
    intro st inside
    rw [List.append_assoc]
    rcases List.mem_cons.mp inside with rfl | inside
    · exact ⟨[], taken, semicolon.toList ++ rest, rfl, body⟩
    · exact ih st inside

end Grammar

end ScriptTree
