import ScriptTree.Proofs.RenderingExpression
/-! Every way to write a well-shaped tree is read back as that tree. A statement takes the `;`
behind it, unless what it ends with has taken that before. -/
namespace ScriptTree.Grammar
open Relabeling (placeless)

def Lends (o taken left : Option Token) : Prop := taken = none ∧ left = o ∨ taken = o ∧ left = none

theorem lendsMay {kind o taken left} (lends : Lends o taken left) (may : MayHave kind o) :
    MayHave kind left := by
  rcases lends with ⟨_, rfl⟩ | ⟨_, rfl⟩
  · exact may
  · exact mayHaveNone

theorem lendsSplit {o taken left} (lends : Lends o taken left) :
    o.toList = taken.toList ++ left.toList := by
  rcases lends with ⟨rfl, rfl⟩ | ⟨rfl, rfl⟩ <;> simp

theorem endedLends {e ts o rest} (ended : Ended e ts (o.toList ++ rest))
    (may : MayHave (.punct .semicolon) o) (boundary : Boundary rest) : ∃ e' taken left,
      Lends o taken left ∧ placeless.expression e' = placeless.expression e ∧
        Derives (.expression e') (ts ++ taken.toList) (left.toList ++ rest) := by
  obtain ⟨e', q, rest', alike, split, mayQ, _, read⟩ := ended
  cases q with
  | none =>
    rw [Option.toList_none, List.nil_append] at split
    subst split
    exact ⟨e', none, o, .inl ⟨rfl, rfl⟩, alike, read⟩
  | some t =>
    cases o with
    | none =>
      have other := boundaryUnterminated boundary
      rw [Option.toList_none, List.nil_append] at split
      rw [split] at other
      simp [mayQ t rfl] at other
    | some u =>
      cases split
      exact ⟨e', some t, none, .inr ⟨rfl, rfl⟩, alike, read⟩

theorem endedDeclarators {before semicolon o rest} (written : MayHave (.punct .semicolon) semicolon)
    (may : MayHave (.punct .semicolon) o) (boundary : Boundary rest) : ∃ stop taken left,
      Lends o taken left ∧
        Derives (.declarators before stop []) (semicolon.toList ++ taken.toList)
          (left.toList ++ rest) := by
  cases semicolon with
  | some t => exact ⟨_, none, o, .inl ⟨rfl, rfl⟩, .semicolon (written t rfl)⟩
  | none =>
    cases o with
    | some t => exact ⟨_, some t, none, .inr ⟨rfl, rfl⟩, .semicolon (may t rfl)⟩
    | none =>
      have other := boundaryUnterminated boundary
      exact ⟨_, none, none, .inl ⟨rfl, rfl⟩, .undeclared other boundary.2.2⟩

theorem declaratorsFront {ds ts o rest} (writes : Writes (.declarators ds) ts)
    (may : MayHave (.punct .semicolon) o) (boundary : Boundary rest) :
    Calm (ts ++ (o.toList ++ rest)) ∧ front (ts ++ (o.toList ++ rest)) ≠ some (.punct .assign) ∧
      front (ts ++ (o.toList ++ rest)) ≠ some (.punct .comma) := by
  have comma : front rest ≠ some (.punct .comma) := boundaryOther boundary (by decide)
  have after : Calm (o.toList ++ rest) := calmSemicolon may boundary
  cases writes with
  | @ended semicolon ending =>
    cases semicolon with
    | some t =>
      have kind := ending t rfl
      refine ⟨⟨by simp [Continues, kind], ?_⟩, by simp [kind], by simp [kind]⟩
      intro u more same _
      cases same
      exact after.1
    | none =>
      refine ⟨after, ?_⟩
      cases o with
      | none => exact ⟨boundary.2.1, comma⟩
      | some t => simp [may t rfl]
  | declarator spelled =>
    exact ⟨calmBefore (by simp [spelled.1] : _ = some Kind.identifier) (by decide),
      by simp [spelled.1], by simp [spelled.1]⟩

/- A value takes a `;` only if its declarator is the last. -/
theorem valueTook {ds others o rest t rest'} (writes : Writes (.declarators ds) others)
    (boundary : Boundary rest) (kind : t.kind = .punct .semicolon)
    (split : others ++ (o.toList ++ rest) = t :: rest') : ds = [] ∧
      (others = [t] ∧ rest' = o.toList ++ rest ∨ others = [] ∧ o = some t ∧ rest' = rest) := by
  cases writes with
  | @ended semicolon ending =>
    refine ⟨rfl, ?_⟩
    cases semicolon with
    | some s =>
      obtain ⟨rfl, rfl⟩ := List.cons.inj split
      exact .inl ⟨rfl, rfl⟩
    | none =>
      cases o with
      | none =>
        have other := boundaryUnterminated boundary
        simp only [Option.toList_none, List.nil_append] at split
        simp [split, kind] at other
      | some u =>
        obtain ⟨rfl, rfl⟩ := List.cons.inj split
        exact .inr ⟨rfl, rfl, rfl⟩
  | @declarator _ _ _ _ name _ _ _ _ spelled =>
    have same : name = t := (List.cons.inj split).1
    rw [← same, spelled.1] at kind
    contradiction

def DeclaratorsRead (ds : List Declarator) (ts : List Token) (o : Option Token)
    (rest : List Token) : Prop :=
  ∀ before, ∃ stop ds' taken left, Lends o taken left ∧
    placeless.declarators ds' = placeless.declarators ds ∧
      Derives (.declarators before stop ds') (ts ++ taken.toList) (left.toList ++ rest)

theorem restDeclarators {ds others o rest q rest'} (writes : Writes (.declarators ds) others)
    (may : MayHave (.punct .semicolon) o) (boundary : Boundary rest)
    (behind : DeclaratorsRead ds others o rest) (mayQ : MayHave (.punct .semicolon) q)
    (split : others ++ (o.toList ++ rest) = q.toList ++ rest') (before : Nat) :
    ∃ stop ds' taken left ts, Lends o taken left ∧
      placeless.declarators ds' = placeless.declarators ds ∧
        others ++ taken.toList = q.toList ++ ts ∧ rest' = ts ++ (left.toList ++ rest) ∧
          Derives (.declarators before stop ds') ts (left.toList ++ rest) := by
  cases q with
  | none =>
    obtain ⟨stop, ds', taken, left, lends, alike, read⟩ := behind before
    refine ⟨stop, ds', taken, left, others ++ taken.toList, lends, alike, rfl, ?_, read⟩
    rw [Option.toList_none, List.nil_append] at split
    rw [← split, lendsSplit lends]
    simp
  | some t =>
    obtain ⟨rfl, ⟨rfl, rfl⟩ | ⟨rfl, rfl, rfl⟩⟩ := valueTook writes boundary (mayQ t rfl) split
    · obtain ⟨stop, taken, left, lends, read⟩ :=
        @endedDeclarators before none o rest mayHaveNone may boundary
      refine ⟨stop, [], taken, left, taken.toList, lends, rfl, rfl, ?_, read⟩
      rw [lendsSplit lends, List.append_assoc]
    · have other := boundaryUnterminated boundary
      exact ⟨before, [], some t, none, [], .inr ⟨rfl, rfl⟩, rfl, rfl, rfl,
        .undeclared other boundary.2.2⟩

theorem commaOther {ds others o rest q rest'} (writes : Writes (.declarators ds) others)
    (may : MayHave (.punct .semicolon) o) (boundary : Boundary rest)
    (mayQ : MayHave (.punct .semicolon) q)
    (split : others ++ (o.toList ++ rest) = q.toList ++ rest') :
    front rest' ≠ some (.punct .comma) := by
  have comma : front rest ≠ some (.punct .comma) := boundaryOther boundary (by decide)
  cases q with
  | none =>
    have whole := (declaratorsFront writes may boundary).2.2
    rw [split] at whole
    exact whole
  | some t =>
    obtain ⟨_, ⟨_, rfl⟩ | ⟨_, _, rfl⟩⟩ := valueTook writes boundary (mayQ t rfl) split
    · cases o with
      | none => exact comma
      | some u => simp [may u rfl]
    · exact comma

theorem declaratorJoined {span id init init' ds ds' name assign comma vs ts before stop rest}
    (spelled : Spells id name) (assigned : assign.kind = .punct .assign)
    (initAlike : placeless.expression init' = placeless.expression init)
    (alike : placeless.declarators ds' = placeless.declarators ds)
    (read : Derives (.expression init') vs (comma.toList ++ (ts ++ rest)))
    (accepted : Accepted (.punct .comma) (ts ++ rest) comma)
    (declared : Derives (.declarators (stopOf init'.span.stop comma.toList) stop ds') ts rest) :
    ∃ ds', placeless.declarators ds' = placeless.declarators (⟨span, id, some init⟩ :: ds) ∧
      Derives (.declarators before stop ds') (name :: assign :: (vs ++ (comma.toList ++ ts)))
        rest := by
  refine ⟨_, ?_, .declarator spelled.1 assigned read accepted declared⟩
  simp only [Relabeling.declarators, Relabeling.declarator, initAlike, alike, spelledAlike spelled]
  rfl

theorem declaratorRead {span id init ds name assign value comma others o rest}
    (spelled : Spells id name) (assigned : assign.kind = .punct .assign)
    (initial : Ending init value)
    (ending : MayHave (.punct .comma) comma) (writes : Writes (.declarators ds) others)
    (may : MayHave (.punct .semicolon) o) (boundary : Boundary rest)
    (behind : DeclaratorsRead ds others o rest) :
    DeclaratorsRead (⟨span, id, some init⟩ :: ds)
      (name :: assign :: (value ++ (comma.toList ++ others))) o rest := by
  intro before
  cases comma with
  | some comma =>
    have kind := ending comma rfl
    have next : front (comma :: (others ++ (o.toList ++ rest))) = some (.punct .comma) := by
      simp [kind]
    obtain ⟨init', initAlike, read⟩ := separatedRead initial next (.inl rfl)
    obtain ⟨stop, ds', taken, left, lends, alike, declared⟩ := behind comma.span.stop
    rw [lendsSplit lends, List.append_assoc, ← List.append_assoc others] at read
    obtain ⟨ds', alike, derived⟩ := @declaratorJoined span _ _ _ _ _ _ _ (some comma) _ _ before
      _ _ spelled assigned initAlike alike read kind declared
    refine ⟨stop, ds', taken, left, lends, alike, ?_⟩
    simpa using derived
  | none =>
    obtain ⟨calm, noAssign, noComma⟩ := declaratorsFront writes may boundary
    obtain ⟨init', q, rest', initAlike, split, mayQ, _, read⟩ := initial _ noAssign calm
    obtain ⟨stop, ds', taken, left, ts, lends, alike, all, rfl, declared⟩ :=
      restDeclarators writes may boundary behind mayQ split init'.span.stop
    have accepted : Accepted (.punct .comma) (ts ++ (left.toList ++ rest)) none :=
      commaOther writes may boundary mayQ split
    obtain ⟨ds', alike, derived⟩ := @declaratorJoined span _ _ _ _ _ _ _ none _ _ before
      _ _ spelled assigned initAlike alike read accepted declared
    refine ⟨stop, ds', taken, left, lends, alike, ?_⟩
    rw [Option.toList_none, List.nil_append, List.append_assoc, ← all] at derived
    simpa using derived

def Closes (rest : List Token) : Prop :=
  (front rest = none ∨ front rest = some (.punct .braceRight)) ∧ Unassigned rest

theorem closesBoundary {rest} (closes : Closes rest) : Boundary rest := by
  refine ⟨?_, closes.2⟩
  rcases closes.1 with none | found
  · exact .inl none
  · exact .inr ⟨_, List.mem_cons_self, found⟩

theorem statementsBoundary {body ts rest} (writes : Writes (.statements body) ts)
    (shaped : Statement.AllShaped body) (closes : Closes rest) : Boundary (ts ++ rest) := by
  cases writes with
  | noStatements => exact closesBoundary closes
  | @statements s body ts others first behind =>
    obtain ⟨filled, unassigned, begins⟩ := first.opens
    obtain ⟨kind, lead, found⟩ := begins shaped.1
    have next : front (others ++ rest) ≠ some (.punct .assign) := by
      cases others with
      | nil => exact closes.2.1
      | cons t more => exact behind.opens
    rw [List.append_assoc]
    refine ⟨.inr ⟨kind, List.mem_cons_of_mem _ lead, ?_⟩, unassignedAppend filled unassigned next⟩
    rw [frontAppend filled]
    exact found

theorem lentOther {o rest kind} (may : MayHave (.punct .semicolon) o) (boundary : Boundary rest)
    (other : kind ∉ Kind.punct .semicolon :: .punct .braceRight :: leads) :
    front (o.toList ++ rest) ≠ some kind := by
  cases o with
  | none =>
    refine boundaryOther boundary ?_
    intro among
    exact other (List.mem_cons_of_mem _ among)
  | some t =>
    intro found
    have same : t.kind = kind := Option.some.inj found
    rw [← same, may t rfl] at other
    exact other List.mem_cons_self

theorem lentUnassigned {o rest} (may : MayHave (.punct .semicolon) o) (boundary : Boundary rest) :
    front (o.toList ++ rest) ≠ some (.punct .assign) := lentOther may boundary (by decide)

def StatementRead (s : Statement) (ts : List Token) (o : Option Token) (rest : List Token) :
    Prop :=
  ∃ s' taken left, Lends o taken left ∧ placeless.statement s' = placeless.statement s ∧
    Derives (.unterminated s') (ts ++ taken.toList) (left.toList ++ rest)

def Part.Read (ts : List Token) : Part → Prop
  | .expression e => e.Shaped →
      (e.IsTail → ∀ behind, front behind ≠ some (.punct .assign) → ∃ e',
        placeless.expression e' = placeless.expression e ∧
          Derives (.expression e') ts behind) ∧
      (e.Extendable → Extending e ts) ∧ Ending e ts
  | .arguments es => Expression.AllShaped es →
      ∀ rest, front rest = some (.punct .parenRight) → ∃ es',
        placeless.expressions es' = placeless.expressions es ∧ Derives (.arguments es') ts rest
  | .function f => f.Shaped → ∀ rest, front rest ≠ some (.punct .assign) → ∃ f',
      placeless.function f' = placeless.function f ∧ Derives (.function f') ts rest
  | .block b => b.Shaped → ∀ rest, front rest ≠ some (.punct .assign) → ∃ b',
      placeless.block b' = placeless.block b ∧ Derives (.block b') ts rest
  | .statements body => Statement.AllShaped body → ∀ rest, Closes rest → ∃ body',
      placeless.statements body' = placeless.statements body ∧
        Derives (.statements body') ts rest
  | .declarators ds => Declarator.AllShaped ds →
      ∀ o rest, MayHave (.punct .semicolon) o → Boundary rest → DeclaratorsRead ds ts o rest
  | .vars d => d.Shaped → ∀ o rest, MayHave (.punct .semicolon) o → Boundary rest →
      ∃ d' taken left, Lends o taken left ∧ placeless.vars d' = placeless.vars d ∧
        Derives (.vars d') (ts ++ taken.toList) (left.toList ++ rest)
  | .unterminated s => s.Shaped →
      ∀ o rest, MayHave (.punct .semicolon) o → Boundary rest → StatementRead s ts o rest
  | .statement s => s.Shaped → ∀ rest, Boundary rest → ∃ s',
      placeless.statement s' = placeless.statement s ∧ Derives (.statement s') ts rest

theorem tailRead {e ts} (tail : e.IsTail)
    (value : ∀ behind, front behind ≠ some (.punct .assign) → ∃ e',
      placeless.expression e' = placeless.expression e ∧ Derives (.expression e') ts behind) :
    Part.Read ts (.expression e) := by
  intro _
  refine ⟨fun _ => value, fun extendable => absurd tail (Expression.extendableHead extendable), ?_⟩
  intro behind other _
  obtain ⟨e', alike, read⟩ := value behind other
  refine ⟨e', none, behind, alike, rfl, mayHaveNone, fun _ => rfl, ?_⟩
  rw [Option.toList_none, List.append_nil]
  exact read

theorem headRead {e ts} (head : ¬ e.IsTail)
    (value : e.Shaped → Extending e ts) :
    Part.Read ts (.expression e) := by
  intro shaped
  refine ⟨fun tail => absurd tail head, fun _ => value shaped, ?_⟩
  intro behind other calm
  exact extendsEnded (value shaped behind other) calm

theorem settledRead {s ts o rest} (read : ∃ s', placeless.statement s' = placeless.statement s ∧
      Derives (.unterminated s') ts (o.toList ++ rest)) : StatementRead s ts o rest := by
  obtain ⟨s', alike, derived⟩ := read
  refine ⟨s', none, o, .inl ⟨rfl, rfl⟩, alike, ?_⟩
  rw [Option.toList_none, List.append_nil]
  exact derived

theorem valueRead {e ts s o rest} {words : List Token} {statement : Expression → Statement}
    (value : Part.Read ts (.expression e)) (shaped : e.Shaped)
    (alike : ∀ {e'}, placeless.expression e' = placeless.expression e →
      placeless.statement (statement e') = placeless.statement s)
    (derives : ∀ {e' taken rest}, Derives (.expression e') (ts ++ taken) rest →
      Derives (.unterminated (statement e')) (words ++ (ts ++ taken)) rest)
    (may : MayHave (.punct .semicolon) o) (boundary : Boundary rest) :
    StatementRead s (words ++ ts) o rest := by
  have ended := (value shaped).2.2 _ (lentUnassigned may boundary) (calmSemicolon may boundary)
  obtain ⟨e', taken, left, lends, same, read⟩ := endedLends ended may boundary
  refine ⟨statement e', taken, left, lends, alike same, ?_⟩
  rw [List.append_assoc]
  exact derives read

theorem valueNamed {e ts} (value : Writes (.expression e) ts) (shaped : e.Shaped)
    (head : ¬ e.IsTail) (taken : List Token) : front (ts ++ taken) = some .identifier := by
  obtain ⟨filled, _, begins⟩ := value.opens
  rw [frontAppend filled]
  exact begins shaped head

theorem exportedNamesRead {span specifiers source word opening inner closing ts o rest}
    (kind : word.kind = .keyword .exportWord) (opens : opening.kind = .punct .braceLeft)
    (list : WritesListed WritesExport specifiers inner)
    (closes : closing.kind = .punct .braceRight) (origin : WritesSource source ts)
    (other : front (o.toList ++ rest) ≠ some (.keyword .fromWord)) :
    StatementRead (.exportNamed span none specifiers source)
      (word :: opening :: (inner ++ closing :: ts)) o rest := by
  refine settledRead ?_
  obtain ⟨s', alike, clause⟩ :=
    @exportListRead span _ _ _ _ _ _ opens list closes origin word.span.start _ other
  exact ⟨s', alike, .exportedNames kind clause⟩

theorem exportedModuleRead {span exported source word star ts origin t o rest}
    (kind : word.kind = .keyword .exportWord) (everything : star.kind = .punct .asterisk)
    (renames : WritesOtherName exported ts) (from' : origin.kind = .keyword .fromWord)
    (string : t.kind = .string) (quoted : Quotes source t) :
    StatementRead (.exportAll ⟨span, exported, source⟩)
      (word :: star :: (ts ++ [origin, t])) o rest := by
  refine settledRead ?_
  obtain ⟨d', alike, clause⟩ := @exportAllRead span _ _ _ _ _ _ everything renames from' string
    quoted word.span.start (o.toList ++ rest)
  refine ⟨.exportAll d', ?_, .exportedModule kind clause⟩
  simp only [Relabeling.statement, alike]

/- Each part is read back, of which nothing is asked but its shape and what may stand behind. -/
theorem Writes.read {part ts} (writes : Writes part ts) : part.Read ts := by
  induction writes with
  | identifier spelled =>
    refine headRead id ?_
    intro _ behind _
    exact identifierExtends spelled behind
  | @literal lit t kind quoted =>
    refine tailRead trivial ?_
    intro behind _
    refine ⟨.literal (.ofToken t), ?_, .literal kind⟩
    simp only [Relabeling.expression, quotedAlike quoted]
  | functionValue value ih =>
    intro shaped
    refine tailRead trivial ?_ shaped
    intro behind other
    obtain ⟨f', alike, read⟩ := ih shaped behind other
    refine ⟨.function f', ?_, .functionValue read⟩
    simp only [Relabeling.expression, alike]
  | member value dotted spelled ih =>
    refine headRead id ?_
    intro shaped behind _
    obtain ⟨extendable, valueShaped, rfl⟩ := shaped
    exact memberExtends ((ih valueShaped).2.1 extendable) dotted spelled behind
  | call value opens arguments closes ending ih inside =>
    refine headRead id ?_
    intro shaped behind _
    obtain ⟨extendable, valueShaped, allShaped⟩ := shaped
    have callee := (ih valueShaped).2.1 extendable
    exact callExtends callee opens (inside allShaped) closes ending behind
  | binary first kind second ih inside =>
    intro shaped
    obtain ⟨extendable, leftShaped, rightShaped⟩ := shaped
    have left := (ih leftShaped).2.1 extendable
    obtain ⟨tail, _, ended⟩ := inside rightShaped
    refine ⟨False.elim, ?_, ?_⟩
    · intro rightTail behind other
      exact binaryExtends left kind (tail rightTail) other
    · intro behind other calm
      exact binaryEnded left kind (ended behind other calm) calm
  | noArguments =>
    intro _ rest closes
    exact ⟨[], rfl, .noArguments (.inr closes)⟩
  | lastArgument value ending ih =>
    intro shaped rest closes
    exact lastArgumentRead (ih shaped.1).2.2 ending closes
  | argument value kind behind ih next =>
    intro shaped rest closes
    exact argumentRead (ih shaped.1).2.2 kind (next shaped.2 rest closes)
  | function kind named opens parameters closes block ih =>
    intro shaped rest other
    exact functionRead kind named opens parameters closes (ih shaped rest other)
  | @block span body opening inner closing opens statements closes ih =>
    intro shaped rest other
    have ends : Closes (closing :: rest) :=
      ⟨.inr (by simp [closes]), unassignedCons closes (by simp) other⟩
    obtain ⟨body', alike, read⟩ := ih shaped _ ends
    refine ⟨_, ?_, .block opens read closes⟩
    simp only [Relabeling.block, alike]
    rfl
  | noStatements =>
    intro _ rest closes
    exact ⟨[], rfl, .noStatements closes.1⟩
  | statements first behind ih next =>
    intro shaped rest closes
    have boundary := statementsBoundary behind shaped.2 closes
    obtain ⟨s', alike, read⟩ := ih shaped.1 _ boundary
    obtain ⟨body', othersAlike, others⟩ := next shaped.2 rest closes
    refine ⟨s' :: body', ?_, .statements read others⟩
    simp only [Relabeling.statements, alike, othersAlike]
  | ended ending =>
    intro _ o rest may boundary before
    obtain ⟨stop, taken, left, lends, read⟩ := @endedDeclarators before _ _ _ ending may boundary
    exact ⟨stop, [], taken, left, lends, rfl, read⟩
  | declarator spelled assigned initial ending behind ih next =>
    intro shaped o rest may boundary
    have others := next shaped.2 o rest may boundary
    exact declaratorRead spelled assigned (ih shaped.1).2.2 ending behind may boundary others
  | @vars span sort ds word ts kind declared ih =>
    intro shaped o rest may boundary
    obtain ⟨stop, ds', taken, left, lends, alike, read⟩ :=
      ih shaped o rest may boundary word.span.stop
    refine ⟨_, taken, left, lends, ?_, .vars kind read⟩
    simp only [Relabeling.vars, alike]
    rfl
  | functionStatement value ih =>
    intro shaped o rest may boundary
    obtain ⟨f', alike, read⟩ := ih shaped _ (lentUnassigned may boundary)
    refine settledRead ⟨.function f', ?_, .functionStatement read⟩
    simp only [Relabeling.statement, alike]
  | @expressionStatement span e ts value ih =>
    intro shaped o rest may boundary
    refine @valueRead e ts _ o rest [] (fun e' => .expression e'.span e') ih shaped.2 ?_ ?_ may
      boundary
    · intro e' alike
      simp only [Relabeling.statement, alike]
      rfl
    · intro e' taken rest read
      exact .expressionStatement (valueNamed value shaped.2 shaped.1 taken) read
  | blockStatement value ih =>
    intro shaped o rest may boundary
    obtain ⟨b', alike, read⟩ := ih shaped _ (lentUnassigned may boundary)
    refine settledRead ⟨.block b', ?_, .blockStatement read⟩
    simp only [Relabeling.statement, alike]
  | @returns span e word ts kind value ih =>
    intro shaped o rest may boundary
    refine @valueRead e ts _ o rest [word] (fun e' => .returns (word.span.through e'.span) e') ih
      shaped ?_ ?_ may boundary
    · intro e' alike
      simp only [Relabeling.statement, alike]
      rfl
    · intro e' taken rest read
      exact .returns kind read
  | variableStatement value ih =>
    intro shaped o rest may boundary
    obtain ⟨d', taken, left, lends, alike, read⟩ := ih shaped o rest may boundary
    refine ⟨.vars d', taken, left, lends, ?_, .variableStatement read⟩
    simp only [Relabeling.statement, alike]
  | imports clause =>
    intro _ o rest _ _
    obtain ⟨d', alike, read⟩ := clauseRead clause (o.toList ++ rest)
    refine settledRead ⟨.imports d', ?_, .imports read⟩
    simp only [Relabeling.statement, alike]
  | @exportedValue span e word default ts kind only value ih =>
    intro shaped o rest may boundary
    refine @valueRead e ts _ o rest [word, default]
      (fun e' => .exportDefault ⟨word.span.start, e'.span.stop⟩ (.expression e')) ih shaped.2 ?_ ?_
      may boundary
    · intro e' alike
      simp only [Relabeling.statement, Relabeling.defaultDeclaration, alike]
      rfl
    · intro e' taken rest read
      exact .exportedValue kind only (valueNamed value shaped.2 shaped.1 taken) read
  | exportedDefault kind only value ih =>
    intro shaped o rest may boundary
    obtain ⟨f', alike, read⟩ := ih shaped _ (lentUnassigned may boundary)
    refine settledRead ⟨_, ?_, .exportedDefault kind only read⟩
    simp only [Relabeling.statement, Relabeling.defaultDeclaration, alike]
    rfl
  | exportedVariables kind value ih =>
    intro shaped o rest may boundary
    obtain ⟨declared, rfl, rfl⟩ := shaped
    obtain ⟨d', taken, left, lends, alike, read⟩ := ih declared o rest may boundary
    refine ⟨_, taken, left, lends, ?_, .exportedVariables kind read⟩
    simp only [exportDeclared, Relabeling.statement, Relabeling.declaration, alike]
    rfl
  | exportedFunction kind value ih =>
    intro shaped o rest may boundary
    obtain ⟨declared, rfl, rfl⟩ := shaped
    obtain ⟨f', alike, read⟩ := ih declared _ (lentUnassigned may boundary)
    refine settledRead ⟨_, ?_, .exportedFunction kind read⟩
    simp only [exportDeclared, Relabeling.statement, Relabeling.declaration, alike]
    rfl
  | exportedNames kind opens list closes origin =>
    intro _ o rest may boundary
    have other : front (o.toList ++ rest) ≠ some (.keyword .fromWord) :=
      lentOther may boundary (by decide)
    exact exportedNamesRead kind opens list closes origin other
  | exportedModule kind everything renames from' string quoted =>
    intro _ o rest _ _
    exact exportedModuleRead kind everything renames from' string quoted
  | @statement s ts semicolon body ending ih =>
    intro shaped rest boundary
    obtain ⟨s', taken, left, lends, alike, read⟩ := ih shaped semicolon rest ending boundary
    have other := boundaryUnterminated boundary
    refine ⟨s', alike, ?_⟩
    rw [lendsSplit lends, ← List.append_assoc]
    exact .statement read (acceptedMay (lendsMay lends ending) other)

end ScriptTree.Grammar

namespace ScriptTree
open Grammar

theorem renderingParsed {p : Program} {tokens} (shaped : p.Shaped)
    (rendered : p.RenderedBy tokens) :
    ∃ q, parseTokens tokens = .ok q ∧ q.erased = p.erased := by
  have closes : Closes [] := ⟨.inl rfl, by simp, by simp⟩
  obtain ⟨body, alike, read⟩ := Writes.read rendered shaped [] closes
  refine ⟨Program.ofStatements body, parsedExactly.mpr ⟨rfl, read⟩, ?_⟩
  exact congrArg (Program.mk 0 none) alike

def declaredCall : Program :=
  ⟨0, none, [
    .vars ⟨⟨0, 0⟩, .varKind, [⟨⟨0, 0⟩, ⟨⟨0, 0⟩, "x"⟩,
      some (.call ⟨0, 0⟩ (.identifier ⟨⟨0, 0⟩, "f"⟩) [.literal ⟨⟨0, 0⟩, "1", "1"⟩])⟩]⟩,
    .expression ⟨0, 0⟩ (.identifier ⟨⟨0, 0⟩, "y"⟩)]⟩

def declaredCallTokens : List Token :=
  [.plain (.keyword .varWord) "var" 0, .plain .identifier "x" 4, .plain (.punct .assign) "=" 6,
    .plain .identifier "f" 8, .plain (.punct .parenLeft) "(" 9, .literal .number "1" "1" 10,
    .plain (.punct .comma) "," 11, .plain (.punct .parenRight) ")" 12, .plain .identifier "y" 14,
    .plain (.punct .semicolon) ";" 15]

theorem declaredCallRendered : declaredCall.RenderedBy declaredCallTokens := by
  have one : Writes (.expression (.literal ⟨⟨0, 0⟩, "1", "1"⟩)) [.literal .number "1" "1" 10] :=
    .literal (.inl rfl) ⟨rfl, rfl⟩
  have arguments := @Writes.lastArgument _ _ (some (.plain (.punct .comma) "," 11)) one
    (mayHaveSome.mpr rfl)
  have callee : Writes (.expression (.identifier ⟨⟨0, 0⟩, "f"⟩)) [.plain .identifier "f" 8] :=
    .identifier ⟨rfl, rfl⟩
  have value := @Writes.call ⟨0, 0⟩ _ _ _ (.plain (.punct .parenLeft) "(" 9) _
    (.plain (.punct .parenRight) ")" 12) none callee rfl arguments rfl mayHaveNone
  have ended := @Writes.ended none mayHaveNone
  have declared := @Writes.declarator ⟨0, 0⟩ ⟨⟨0, 0⟩, "x"⟩ _ _ (.plain .identifier "x" 4)
    (.plain (.punct .assign) "=" 6) _ none _ ⟨rfl, rfl⟩ rfl value mayHaveNone ended
  have first := @Writes.vars ⟨0, 0⟩ .varKind _ (.plain (.keyword .varWord) "var" 0) _ rfl
    declared
  have named : Writes (.expression (.identifier ⟨⟨0, 0⟩, "y"⟩)) [.plain .identifier "y" 14] :=
    .identifier ⟨rfl, rfl⟩
  have second := @Writes.expressionStatement ⟨0, 0⟩ _ _ named
  have last := @Writes.statement _ _ (some (.plain (.punct .semicolon) ";" 15)) second
    (mayHaveSome.mpr rfl)
  exact .statements (@Writes.statement _ _ none (.variableStatement first) mayHaveNone)
    (.statements last .noStatements)

theorem declaredCallParsed : declaredCall.Shaped ∧ declaredCall.RenderedBy declaredCallTokens ∧
    ∃ q, parseTokens declaredCallTokens = .ok q ∧ q.erased = declaredCall.erased := by
  have shaped : declaredCall.Shaped :=
    ⟨⟨⟨trivial, trivial, trivial, trivial⟩, trivial⟩, ⟨id, trivial⟩, trivial⟩
  exact ⟨shaped, declaredCallRendered, renderingParsed shaped declaredCallRendered⟩

end ScriptTree
