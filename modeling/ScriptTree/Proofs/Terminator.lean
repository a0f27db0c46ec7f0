import ScriptTree.Proofs.Bracket
import ScriptTree.Proofs.Joining
/-! Where a `;` may stand. It ends a statement, and then it stands in no round bracket, or a call
has taken it, and what the call stands in may go on over it. -/
namespace ScriptTree

open Grammar

def Parting (waiting : List Bracket) (next : Option Kind) : Prop :=
  waiting.head? ≠ some .round ∧
    ∀ kind ∈ next, kind ∈ Kind.punct .braceRight :: .punct .semicolon :: leads

/-- What goes on over a `;`: the expression with a call, an access or an operator, declarators or
arguments with a comma, and arguments also by their end. -/
def Resuming (waiting : List Bracket) : Option Kind → Prop
  | some (.punct .parenLeft) => True
  | some (.punct .dot) => True
  | some (.operator _) => True
  | some (.punct .comma) => True
  | some (.punct .parenRight) => waiting.head? = some .round
  | _ => False

structure CallTakes (nodes : List Outline) (before : List Token) (semicolon : Token) : Prop where
  closed : ∃ earlier closing, before = earlier ++ [closing] ∧ closing.kind = .punct .parenRight
  covered : ∃ node ∈ nodes, node.heading.kind = .callExpression ∧
    node.heading.stop = some semicolon.span.stop

namespace Grammar

/-- Tokens that are read behind the brackets that wait, and before `rest`. Every `;` ends a statement
or is taken by a call. -/
inductive Stopped (nodes : List Outline) (rest : List Token) : List Bracket → List Token → Prop where
  | done {waiting} : Stopped nodes rest waiting []
  | other {t more waiting left} (kind : t.kind ≠ .punct .semicolon)
      (brackets : opened waiting (edges [t]) = some left) (next : Stopped nodes rest left more) :
      Stopped nodes rest waiting (t :: more)
  | ends {t more waiting} (kind : t.kind = .punct .semicolon)
      (parting : Parting waiting (front (more ++ rest))) (next : Stopped nodes rest waiting more) :
      Stopped nodes rest waiting (t :: more)
  | taken {closing t more waiting node} (closes : closing.kind = .punct .parenRight)
      (kind : t.kind = .punct .semicolon) (among : node ∈ nodes)
      (call : node.heading.kind = .callExpression)
      (covered : node.heading.stop = some t.span.stop)
      (resuming : Resuming waiting (front (more ++ rest)))
      (next : Stopped nodes rest waiting more) :
      Stopped nodes rest (.round :: waiting) (closing :: t :: more)

theorem openedCons (waiting : List Bracket) (t : Token) (ts : List Token) :
    opened waiting (edges (t :: ts)) =
      (opened waiting (edges [t])).bind fun left => opened left (edges ts) := by
  rw [← openedAppend, edges, edges, edges, ← List.filterMap_append, List.singleton_append]

theorem openedFlat {t : Token} {kind} (found : t.kind = kind) (flat : kind.edge? = none)
    (waiting : List Bracket) : opened waiting (edges [t]) = some waiting := by
  rw [edges, List.filterMap_cons_none (by rw [found, flat])]
  rfl

theorem openedCloses {t : Token} {bracket kind} (found : t.kind = kind)
    (closes : kind.edge? = some (.closing bracket)) (waiting : List Bracket) :
    opened (bracket :: waiting) (edges [t]) = some waiting := by
  simp [edges, found, closes, opened]

section Walked
variable {nodes : List Outline} {rest ts us : List Token} {waiting left : List Bracket}

theorem stoppedWider {wider : List Outline} (stopped : Stopped nodes rest waiting ts)
    (subset : nodes ⊆ wider) : Stopped wider rest waiting ts := by
  induction stopped with
  | done => exact .done
  | other kind brackets next ih => exact .other kind brackets ih
  | ends kind parting next ih => exact .ends kind parting ih
  | taken closes kind among call covered resuming next ih =>
    exact .taken closes kind (subset among) call covered resuming ih

theorem stoppedAppend (first : Stopped nodes (us ++ rest) waiting ts)
    (brackets : opened waiting (edges ts) = some left) (next : Stopped nodes rest left us) :
    Stopped nodes rest waiting (ts ++ us) := by
  induction first with
  | done =>
    cases Option.some.inj brackets
    exact next
  | @other t more waiting between kind own _ ih =>
    rw [openedCons, own] at brackets
    exact .other kind own (ih brackets)
  | @ends t more waiting kind parting _ ih =>
    rw [openedCons, openedFlat kind rfl] at brackets
    rw [← List.append_assoc] at parting
    exact .ends kind parting (ih brackets)
  | @taken closing t more waiting node closes kind among call covered resuming _ ih =>
    rw [openedCons, openedCloses closes rfl, Option.bind_some, openedCons,
      openedFlat kind rfl] at brackets
    rw [← List.append_assoc] at resuming
    exact .taken closes kind among call covered resuming (ih brackets)

theorem stoppedQuiet (quiet : ∀ t ∈ ts, t.kind ≠ .punct .semicolon)
    (brackets : opened waiting (edges ts) = some left) : Stopped nodes rest waiting ts := by
  induction ts generalizing waiting with
  | nil => exact .done
  | cons t more ih =>
    rw [openedCons] at brackets
    obtain ⟨between, own, onward⟩ := Option.bind_eq_some_iff.mp brackets
    exact .other (quiet t List.mem_cons_self) own
      (ih (fun u among => quiet u (List.mem_cons_of_mem _ among)) onward)

theorem stoppedFlat {t : Token} {kind} (found : t.kind = kind)
    (flat : kind.edge? = none ∧ kind ≠ .punct .semicolon) (next : Stopped nodes rest waiting ts) :
    Stopped nodes rest waiting (t :: ts) :=
  .other (found ▸ flat.2) (openedFlat found flat.1 waiting) next

theorem stoppedOptional {kind after o} (accepted : Accepted kind after o)
    (flat : kind.edge? = none ∧ kind ≠ .punct .semicolon) (next : Stopped nodes rest waiting ts) :
    Stopped nodes rest waiting (o.toList ++ ts) := by
  cases o with
  | none => exact next
  | some t => exact stoppedFlat accepted flat next

theorem stoppedClause (listed : ∀ t ∈ ts, t.kind = .punct .asterisk ∨ t.kind ∈ clauseKinds)
    (even : Even ts) : Stopped nodes rest waiting ts := by
  refine stoppedQuiet ?_ (even.opened waiting)
  intro t among semicolon
  have kinds := listed t among
  rw [semicolon] at kinds
  exact absurd kinds (by decide)

theorem stoppedClausal (clausal : Clausal ts) (even : Even ts) : Stopped nodes rest waiting ts :=
  stoppedClause (fun t among => .inr (clausal t among)) even

theorem stoppedOpening {t : Token} {bracket kind} (found : t.kind = kind)
    (opens : kind.edge? = some (.opening bracket))
    (next : Stopped nodes rest (bracket :: waiting) ts) : Stopped nodes rest waiting (t :: ts) := by
  refine .other ?_ ?_ next
  · rw [found]
    rintro rfl
    contradiction
  · simp [edges, found, opens, opened]

theorem stoppedClosing {t : Token} {bracket kind} (found : t.kind = kind)
    (closes : kind.edge? = some (.closing bracket)) (next : Stopped nodes rest waiting ts) :
    Stopped nodes rest (bracket :: waiting) (t :: ts) := by
  refine .other ?_ ?_ next
  · rw [found]
    rintro rfl
    contradiction
  · exact openedCloses found closes waiting

theorem stoppedLater {u t : Token} {before next}
    (brackets : opened waiting (edges [u]) = some left)
    (later : ∃ last, opened left (edges before) = some last ∧
      (Parting last next ∨ CallTakes nodes before t ∧ Resuming last next)) :
    ∃ last, opened waiting (edges (u :: before)) = some last ∧
      (Parting last next ∨ CallTakes nodes (u :: before) t ∧ Resuming last next) := by
  obtain ⟨last, onward, placed⟩ := later
  refine ⟨last, ?_, ?_⟩
  · rw [openedCons, brackets]
    exact onward
  · rcases placed with parting | ⟨⟨⟨earlier, closing, rfl, closes⟩, covered⟩, resuming⟩
    · exact .inl parting
    · exact .inr ⟨⟨⟨u :: earlier, closing, rfl, closes⟩, covered⟩, resuming⟩

theorem stoppedSplit {tokens : List Token} (stopped : Stopped nodes rest waiting tokens)
    {before t after} (split : tokens = before ++ t :: after)
    (semicolon : t.kind = .punct .semicolon) : ∃ last, opened waiting (edges before) = some last ∧
      (Parting last (front (after ++ rest)) ∨
        CallTakes nodes before t ∧ Resuming last (front (after ++ rest))) := by
  induction stopped generalizing before with
  | done => simp at split
  | @other u more waiting left kind brackets next ih =>
    cases before with
    | nil =>
      cases split
      exact absurd semicolon kind
    | cons v before =>
      obtain ⟨rfl, onward⟩ := List.cons.inj split
      exact stoppedLater brackets (ih onward)
  | @ends u more waiting kind parting next ih =>
    cases before with
    | nil =>
      cases split
      exact ⟨waiting, rfl, .inl parting⟩
    | cons v before =>
      obtain ⟨rfl, onward⟩ := List.cons.inj split
      exact stoppedLater (openedFlat kind rfl waiting) (ih onward)
  | @taken closing u more waiting node closes kind among call covered resuming next ih =>
    have closed := openedCloses closes rfl waiting
    match before with
    | [] =>
      cases split
      rw [closes] at semicolon
      contradiction
    | [_] =>
      cases split
      exact ⟨waiting, closed, .inr ⟨⟨⟨[], closing, rfl, closes⟩, node, among, call, covered⟩,
        resuming⟩⟩
    | _ :: _ :: before =>
      obtain ⟨rfl, further⟩ := List.cons.inj split
      obtain ⟨rfl, onward⟩ := List.cons.inj further
      exact stoppedLater closed (stoppedLater (openedFlat kind rfl waiting) (ih onward))

end Walked

def Phrase.Followed (waiting : List Bracket) (next : Option Kind) : Phrase → Prop
  | .expression _ | .chain _ _ => Parting waiting next ∨ Resuming waiting next
  | .arguments _ => next = some (.punct .parenRight) ∧ waiting.head? = some .round
  | .function _ | .block _ => True
  | .statements _ | .declarators _ _ _ | .vars _ | .unterminated _ | .statement _ =>
    Parting waiting next

theorem partingKind {waiting : List Bracket} {next kind} (parting : Parting waiting next)
    (listed : kind ∈ Kind.punct .braceRight :: .punct .semicolon :: leads) :
    Parting waiting (some kind) := by
  refine ⟨parting.1, ?_⟩
  intro _ found
  cases found
  exact listed

theorem partingLead {waiting : List Bracket} {next kind} (parting : Parting waiting next)
    (lead : kind ∈ leads) : Parting waiting (some kind) :=
  partingKind parting (List.mem_cons_of_mem _ (List.mem_cons_of_mem _ lead))

theorem partingBrace (waiting : List Bracket) :
    Parting (.brace :: waiting) (some (.punct .braceRight)) := by
  refine ⟨by simp, ?_⟩
  intro _ found
  cases found
  decide

theorem partingAccepted {waiting rest semicolon} (accepted : Accepted (.punct .semicolon) rest semicolon)
    (parting : Parting waiting (front rest)) :
    Parting waiting (front (semicolon.toList ++ rest)) := by
  cases semicolon with
  | none => exact parting
  | some t =>
    have kind : t.kind = .punct .semicolon := accepted
    simpa [kind] using partingKind parting (by decide)

theorem statementsNext {waiting body others rest}
    (derived : Derives (.statements body) others rest) (parting : Parting waiting (front rest)) :
    Parting waiting (front (others ++ rest)) := by
  cases derived with
  | noStatements => exact parting
  | statements first next =>
    obtain ⟨kind, lead, found⟩ := first.begins
    obtain ⟨t, more, rfl, rfl⟩ := frontSome found
    exact partingLead parting lead

theorem declaratorsNext {waiting before stop ds others rest}
    (derived : Derives (.declarators before stop ds) others rest)
    (parting : Parting waiting (front rest)) : Parting waiting (front (others ++ rest)) := by
  cases derived with
  | semicolon kind => simpa [kind] using partingKind parting (by decide)
  | undeclared => exact parting
  | declarator kind => simpa [kind] using partingLead parting (by decide)

theorem initialNext {waiting before stop ds others comma rest}
    (ending : Accepted (.punct .comma) (others ++ rest) comma)
    (derived : Derives (.declarators before stop ds) others rest)
    (parting : Parting waiting (front rest)) :
    Parting waiting (front (comma.toList ++ (others ++ rest))) ∨
      Resuming waiting (front (comma.toList ++ (others ++ rest))) := by
  cases comma with
  | none =>
    rw [Option.toList_none, List.nil_append]
    exact .inl (declaratorsNext derived parting)
  | some t =>
    have kind : t.kind = .punct .comma := ending
    exact .inr (by simp [kind, Resuming])

theorem chainNext {waiting callee e behind rest}
    (derived : Derives (.chain callee e) behind rest)
    (followed : Parting waiting (front rest) ∨ Resuming waiting (front rest)) :
    Parting waiting (front (behind ++ rest)) ∨ Resuming waiting (front (behind ++ rest)) := by
  cases derived with
  | stop => exact followed
  | call opens => exact .inr (by simp [opens, Resuming])
  | member dotted => exact .inr (by simp [dotted, Resuming])
  | operator kind => exact .inr (by simp [kind, Resuming])

theorem callEnded {nodes : List Outline} {rest behind waiting closing semicolon} {callee es}
    (closes : closing.kind = .punct .parenRight)
    (ending : Accepted (.punct .semicolon) (behind ++ rest) semicolon)
    (among : (Expression.call ⟨callee.span.start, stopOf closing.span.stop semicolon.toList⟩
      callee es).outline ∈ nodes)
    (followed : Parting waiting (front (behind ++ rest)) ∨
      Resuming waiting (front (behind ++ rest)))
    (next : Stopped nodes rest waiting behind) :
    Stopped nodes rest (.round :: waiting) (closing :: (semicolon.toList ++ behind)) := by
  cases semicolon with
  | none => exact stoppedClosing closes rfl next
  | some t =>
    rcases followed with parting | resuming
    · exact stoppedClosing closes rfl (.ends ending parting next)
    · exact .taken closes ending among rfl rfl resuming next

theorem Derives.stopped {phrase taken rest} (derived : Derives phrase taken rest) :
    ∀ waiting, phrase.Followed waiting (front rest) → Stopped phrase.nodes rest waiting taken := by
  induction derived with
  | literal kind =>
    intro waiting _
    rcases kind with kind | kind <;> exact stoppedFlat kind (by decide) .done
  | @functionValue f taken rest value ih =>
    intro waiting _
    exact stoppedWider (ih waiting trivial) (nodesBody _ f)
  | head kind chain ih =>
    intro waiting followed
    exact stoppedFlat kind (by decide) (ih waiting followed)
  | stop =>
    intro waiting _
    exact .done
  | @call callee es e opening inner closing semicolon behind rest opens arguments closes ending
      chain inside ih =>
    intro waiting followed
    obtain ⟨nodes, _⟩ := chain.chainHolds
    have argued := stoppedWider (inside (.round :: waiting) ⟨by simp [closes], rfl⟩)
      (List.Subset.trans (List.subset_append_right _ _)
        (List.Subset.trans (List.subset_cons_self _ _) nodes))
    have closed := callEnded closes ending (nodes (nodesSelf _)) (chainNext chain followed)
      (ih waiting followed)
    rw [← List.append_assoc, ← List.cons_append] at argued
    exact stoppedOpening opens rfl (stoppedAppend argued (arguments.even.opened _) closed)
  | member dotted kind chain ih =>
    intro waiting followed
    exact stoppedFlat dotted (by decide) (stoppedFlat kind (by decide) (ih waiting followed))
  | @operator left op right e t operand behind rest kind value chain inside ih =>
    intro waiting followed
    obtain ⟨nodes, _⟩ := chain.chainHolds
    have second := stoppedWider (inside waiting (chainNext chain followed))
      (List.Subset.trans (nodesSecond _ _) nodes)
    exact stoppedFlat kind (by simp [Kind.edge?])
      (stoppedAppend second (value.even.opened waiting) (ih waiting followed))
  | noArguments =>
    intro waiting _
    exact .done
  | lastArgument value ends ih =>
    rintro waiting ⟨next, round⟩
    have followed : Resuming waiting (some (.punct .parenRight)) := round
    rw [← next] at followed
    exact stoppedWider (ih waiting (.inr followed)) (List.subset_append_left _ _)
  | argument value kind next first ih =>
    intro waiting followed
    have comma : Resuming waiting (some (.punct .comma)) := trivial
    rw [← kind] at comma
    have one := first waiting (.inr comma)
    have others := ih waiting followed
    exact stoppedAppend (stoppedWider one (List.subset_append_left _ _)) (value.even.opened waiting)
      (stoppedFlat kind (by decide) (stoppedWider others (List.subset_append_right _ _)))
  | function kind named parameters block ih =>
    intro waiting _
    have even := parametersEvens parameters
    have list := stoppedAppend (stoppedClausal (parametersClausal parameters) even)
      (even.opened waiting) (ih waiting trivial)
    exact stoppedFlat kind (by decide) (stoppedOptional named (by decide) list)
  | block opens statements closes ih =>
    intro waiting _
    have parting := partingBrace waiting
    rw [← closes] at parting
    have body := ih (.brace :: waiting) parting
    exact stoppedOpening opens rfl (stoppedAppend (stoppedWider body (List.subset_cons_self _ _))
      (statements.even.opened _) (stoppedClosing closes rfl .done))
  | noStatements =>
    intro waiting _
    exact .done
  | statements first next here ih =>
    intro waiting parting
    have one := here waiting (statementsNext next parting)
    have others := ih waiting parting
    exact stoppedAppend (stoppedWider one (List.subset_append_left _ _)) (first.even.opened waiting)
      (stoppedWider others (List.subset_append_right _ _))
  | semicolon kind =>
    intro waiting parting
    exact .ends kind parting .done
  | undeclared =>
    intro waiting _
    exact .done
  | declarator kind assigned initial ending next first ih =>
    intro waiting parting
    have one := first waiting (initialNext ending next parting)
    have others := ih waiting parting
    rw [← List.append_assoc] at one
    refine stoppedFlat kind (by decide) (stoppedFlat assigned (by decide)
      (stoppedAppend (stoppedWider one ?_) (initial.even.opened waiting)
        (stoppedOptional ending (by decide)
          (stoppedWider others (List.subset_append_right _ _)))))
    exact List.Subset.trans (nodesSecond _ _) (List.subset_append_left _ _)
  | @vars word sort stop ds taken rest kind declared ih =>
    intro waiting parting
    exact stoppedFlat kind (by cases sort <;> decide)
      (stoppedWider (ih waiting parting) (List.subset_cons_self _ _))
  | @functionStatement f taken rest value ih =>
    intro waiting _
    exact stoppedWider (ih waiting trivial) (nodesBody _ f)
  | expressionStatement begins value ih =>
    intro waiting parting
    exact stoppedWider (ih waiting (.inl parting)) (nodesFirst _ _)
  | blockStatement value ih =>
    intro waiting _
    exact ih waiting trivial
  | returns kind value ih =>
    intro waiting parting
    exact stoppedFlat kind (by decide) (stoppedWider (ih waiting (.inl parting)) (nodesFirst _ _))
  | variableStatement value ih => exact ih
  | imports clause =>
    intro waiting _
    exact stoppedClause (importsStarred clause) (importsEvens clause)
  | exportedValue kind only begins value ih =>
    intro waiting parting
    exact stoppedFlat kind (by decide) (stoppedFlat only (by decide)
      (stoppedWider (ih waiting (.inl parting)) (nodesFirst _ _)))
  | @exportedDefault word default f taken rest kind only value ih =>
    intro waiting _
    exact stoppedFlat kind (by decide) (stoppedFlat only (by decide)
      (stoppedWider (ih waiting trivial) (List.Subset.trans (nodesBody _ f) (nodesFirst _ _))))
  | exportedVariables kind value ih =>
    intro waiting parting
    exact stoppedFlat kind (by decide) (stoppedWider (ih waiting parting) (nodesFirst _ _))
  | @exportedFunction word f taken rest kind value ih =>
    intro waiting _
    exact stoppedFlat kind (by decide)
      (stoppedWider (ih waiting trivial) (List.Subset.trans (nodesBody _ f) (nodesFirst _ _)))
  | exportedNames kind clause =>
    intro waiting _
    exact stoppedFlat kind (by decide)
      (stoppedClausal (exportListClausal clause) (exportListEvens clause))
  | exportedModule kind clause =>
    intro waiting _
    exact stoppedFlat kind (by decide)
      (stoppedClause (exportAllStarred clause) (exportAllEvens clause))
  | @statement s taken semicolon rest body ending ih =>
    intro waiting parting
    have own := ih waiting (partingAccepted ending parting)
    refine stoppedAppend own (body.even.opened waiting) ?_
    cases semicolon with
    | none => exact .done
    | some t => exact .ends ending parting .done

end Grammar

theorem semicolonsPlaced {tokens p} (parsed : parseTokens tokens = .ok p)
    {before semicolon after} (split : tokens = before ++ semicolon :: after)
    (kind : semicolon.kind = .punct .semicolon) :
    ∃ waiting, opened [] (edges before) = some waiting ∧ (Parting waiting (front after) ∨
      CallTakes p.outline.nodes before semicolon ∧ Resuming waiting (front after)) := by
  have ends : Parting [] none := by simp [Parting]
  have stopped : Stopped p.outline.nodes [] [] tokens :=
    stoppedWider ((parsedExactly.mp parsed).2.stopped [] ends) (List.subset_cons_self _ _)
  have placed := stoppedSplit stopped split kind
  rwa [List.append_nil] at placed

def Parted (tokens : List Token) : Prop :=
  ∀ before semicolon after, tokens = before ++ semicolon :: after →
    semicolon.kind = .punct .semicolon →
      ∃ waiting, opened [] (edges before) = some waiting ∧ Parting waiting (front after)

def calledOnward : List Token :=
  [.plain .identifier "a" 0, .plain (.punct .parenLeft) "(" 1,
    .plain (.punct .parenRight) ")" 2, .plain (.punct .semicolon) ";" 3,
    .plain (.punct .parenLeft) "(" 4, .plain .identifier "b" 5,
    .plain (.punct .parenRight) ")" 6]

def calledWithin : List Token :=
  [.plain .identifier "f" 0, .plain (.punct .parenLeft) "(" 1, .plain .identifier "a" 2,
    .plain (.punct .parenLeft) "(" 3, .plain (.punct .parenRight) ")" 4,
    .plain (.punct .semicolon) ";" 5, .plain (.punct .parenRight) ")" 6]

def calledOnwardProgram : Program :=
  ⟨0, some 7, [.expression ⟨0, 7⟩ (.call ⟨0, 7⟩
    (.call ⟨0, 4⟩ (.identifier ⟨⟨0, 1⟩, "a"⟩) []) [.identifier ⟨⟨5, 6⟩, "b"⟩])]⟩

theorem calledOnwardTaken : parseTokens calledOnward = .ok calledOnwardProgram ∧
    CallTakes calledOnwardProgram.outline.nodes (calledOnward.take 3)
      (.plain (.punct .semicolon) ";" 3) ∧
    Resuming [] (front (calledOnward.drop 4)) := by
  have parsed : parseTokens calledOnward = .ok calledOnwardProgram := rfl
  have split : calledOnward = calledOnward.take 3 ++
      .plain (.punct .semicolon) ";" 3 :: calledOnward.drop 4 := rfl
  obtain ⟨waiting, brackets, placed⟩ := semicolonsPlaced parsed split rfl
  cases Option.some.inj brackets
  rcases placed with ⟨_, next⟩ | taken
  · exact absurd (next _ rfl) (by decide)
  · exact ⟨parsed, taken⟩

theorem calledUnparted : Text.tokenize "a();(b)" = .ok calledOnward ∧
    (∃ p, parseTokens calledOnward = .ok p) ∧ ¬ Parted calledOnward ∧
    Text.tokenize "f(a();)" = .ok calledWithin ∧
    (∃ p, parseTokens calledWithin = .ok p) ∧ ¬ Parted calledWithin := by
  refine ⟨by cbv, ⟨_, rfl⟩, ?_, by cbv, ⟨_, rfl⟩, ?_⟩
  · intro parted
    obtain ⟨waiting, _, _, next⟩ := parted (calledOnward.take 3) _ (calledOnward.drop 4) rfl rfl
    exact absurd (next _ rfl) (by decide)
  · intro parted
    obtain ⟨waiting, brackets, inner, _⟩ :=
      parted (calledWithin.take 5) _ (calledWithin.drop 6) rfl rfl
    cases Option.some.inj brackets
    exact inner rfl

end ScriptTree
