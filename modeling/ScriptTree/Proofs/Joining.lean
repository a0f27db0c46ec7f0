import ScriptTree.Proofs.ClauseKinds
import ScriptTree.Proofs.Nesting
/-! Operators and the nodes that they make. Around a byte there are the operands of one node at
most, and every operator that is read stands between those of its own. -/
namespace ScriptTree

namespace Outline

def joinsAt (pos : Nat) : Outline → Bool
  | node heading [left, right] =>
    heading.kind == .binaryExpression && left.heading.stop.any (· ≤ pos) &&
      decide (pos < right.heading.start)
  | _ => false

theorem joinsAtExactly {pos o} : joinsAt pos o = true ↔ ∃ heading left right,
    o = node heading [left, right] ∧ heading.kind = .binaryExpression ∧
      (∃ stop ≤ pos, left.heading.stop = some stop) ∧ pos < right.heading.start := by
  constructor
  · intro joins
    unfold joinsAt at joins
    split at joins
    · rename_i heading left right
      simp only [Bool.and_eq_true, beq_iff_eq, decide_eq_true_eq, Option.any_eq_true] at joins
      obtain ⟨⟨kind, stop, found, bound⟩, behind⟩ := joins
      exact ⟨heading, left, right, rfl, kind, ⟨stop, bound, found⟩, behind⟩
    · contradiction
  · rintro ⟨heading, left, right, rfl, kind, ⟨stop, bound, found⟩, behind⟩
    simp [joinsAt, kind, found, bound, behind]

theorem joinsOther {pos heading parts} (other : heading.kind ≠ .binaryExpression) :
    ¬ joinsAt pos (node heading parts) = true := by
  intro joins
  obtain ⟨_, _, _, same, binary, _⟩ := joinsAtExactly.mp joins
  cases same
  exact other binary

def Holds (pos : Nat) (o : Outline) : Prop :=
  o.heading.start ≤ pos ∧ ∀ stop, o.heading.stop = some stop → pos < stop

theorem holdsPart {pos : Nat} {part o : Outline} (inside : part.heading.Inside o.heading)
    (holds : part.Holds pos) : o.Holds pos := by
  obtain ⟨starts, inner, outer, innerStop, outerStop, within⟩ := inside
  have bound := holds.2 inner innerStop
  refine ⟨Nat.le_trans starts holds.1, ?_⟩
  intro stop found
  have same : outer = stop := Option.some.inj (outerStop.symm.trans found)
  omega

mutual

/- A node below the node that joins around a byte holds the byte, and so does every node above. -/
theorem joinsHeld {pos : Nat} : (o : Outline) → (∀ n ∈ o.nodes, n.Nested) →
    ∀ n ∈ o.nodes, n.joinsAt pos = true → o.Holds pos
  | node heading parts, nested, n, among, joins => by
    rcases List.mem_cons.mp among with rfl | below
    · obtain ⟨_, left, right, same, _, ⟨stop, bound, found⟩, behind⟩ := joinsAtExactly.mp joins
      cases same
      have leftNested := nested left (List.mem_cons_of_mem _ (partAmong (by simp)))
      have rightNested := nested right (List.mem_cons_of_mem _ (partAmong (by simp)))
      have whole := nested _ List.mem_cons_self
      have first := (whole.inside left (by simp [Outline.parts])).1
      obtain ⟨_, inner, outer, innerStop, outerStop, within⟩ :=
        whole.inside right (by simp [Outline.parts])
      have leftFilled := leftNested.filled stop found
      have rightFilled := rightNested.filled inner innerStop
      refine ⟨by omega, ?_⟩
      intro last final
      have same : outer = last := Option.some.inj (outerStop.symm.trans final)
      omega
    · obtain ⟨part, listed, holds⟩ := joinsHeldAmong parts
        (fun n below => nested n (List.mem_cons_of_mem _ below)) n below joins
      exact holdsPart ((nested _ List.mem_cons_self).inside part listed) holds

theorem joinsHeldAmong {pos : Nat} : (parts : List Outline) → (∀ n ∈ nodesOfAll parts, n.Nested) →
    ∀ n ∈ nodesOfAll parts, n.joinsAt pos = true → ∃ part ∈ parts, part.Holds pos
  | [], _, _, among, _ => absurd among List.not_mem_nil
  | part :: others, nested, n, among, joins => by
    rcases List.mem_append.mp among with here | behind
    · exact ⟨part, List.mem_cons_self, joinsHeld part
        (fun n here => nested n (List.mem_append_left _ here)) n here joins⟩
    · obtain ⟨other, listed, holds⟩ := joinsHeldAmong others
        (fun n behind => nested n (List.mem_append_right _ behind)) n behind joins
      exact ⟨other, List.mem_cons_of_mem _ listed, holds⟩

end

theorem joinsAlone {pos : Nat} {heading parts} (joins : joinsAt pos (node heading parts) = true)
    (nested : ∀ n ∈ nodesOfAll parts, n.Nested) : (nodesOfAll parts).countP (joinsAt pos) = 0 := by
  obtain ⟨_, left, right, same, _, ⟨stop, bound, found⟩, behind⟩ := joinsAtExactly.mp joins
  cases same
  rw [List.countP_eq_zero]
  intro n below again
  obtain ⟨part, listed, starts, ends⟩ := joinsHeldAmong _ nested n below again
  rcases List.mem_pair.mp listed with rfl | rfl
  · exact absurd (ends stop found) (Nat.not_lt.mpr bound)
  · exact absurd starts (Nat.not_le.mpr behind)

end Outline

namespace Grammar
open Outline

theorem joinsCovered {parts ts pos} (placed : Placed parts ts) (spaced : Spaced ts) :
    ∀ n ∈ nodesOfAll parts, n.joinsAt pos = true →
      (∃ t ∈ ts, t.span.start ≤ pos) ∧ ∃ u ∈ ts, pos < u.span.stop := by
  intro n among joins
  obtain ⟨part, listed, starts, ends⟩ :=
    joinsHeldAmong parts (placedNested placed spaced) n among joins
  obtain ⟨⟨t, first, start⟩, u, last, stop⟩ := placedEnds placed part listed
  exact ⟨⟨t, first, start ▸ starts⟩, u, last, ends _ stop⟩

theorem countOther {pos kind span detail parts} (other : kind ≠ .binaryExpression) :
    (spanning kind span detail parts).nodes.countP (joinsAt pos) =
      (nodesOfAll parts).countP (joinsAt pos) :=
  List.countP_cons_of_neg (joinsOther other)

theorem joinedOnce {parts ts} (placed : Placed parts ts) (spaced : Spaced ts) (pos : Nat) :
    (nodesOfAll parts).countP (joinsAt pos) ≤ 1 := by
  induction placed with
  | done => exact Nat.zero_le 1
  | own next ih => exact ih (spaced.part (by grind))
  | name kind next ih =>
    have behind := ih (spaced.part (by grind))
    rw [nodesOfAll, List.countP_append, Identifier.outline, countOther (by decide)]
    simpa [nodesOfAll] using behind
  | literal kind next ih =>
    have behind := ih (spaced.part (by grind))
    rw [nodesOfAll, List.countP_append, Literal.outline, countOther (by decide)]
    simpa [nodesOfAll] using behind
  | @node kind span detail parts others ts us inner covers inside next below ih =>
    have own : Spaced ts := spaced.part (by grind)
    have onward : Spaced us := spaced.part (by grind)
    rw [nodesOfAll, List.countP_append]
    by_cases joined : ∃ n ∈ nodesOfAll others, n.joinsAt pos = true
    · -- The tokens of this node all stop before those around the byte.
      obtain ⟨n, among, joins⟩ := joined
      obtain ⟨⟨u, later, starts⟩, _⟩ := joinsCovered next onward n among joins
      have none : (spanning kind span detail parts).nodes.countP (joinsAt pos) = 0 := by
        rw [List.countP_eq_zero]
        intro m here again
        have one := @placedNode kind span detail parts ts inner covers inside
        obtain ⟨_, t, earlier, ends⟩ :=
          joinsCovered one own m (List.mem_append_left _ here) again
        have apart := (List.pairwise_append.mp spaced.ordered).2.2 t earlier u later
        omega
      rw [none, Nat.zero_add]
      exact ih onward
    · have none : (nodesOfAll others).countP (joinsAt pos) = 0 := by
        rw [List.countP_eq_zero]
        intro n among joins
        exact joined ⟨n, among, joins⟩
      rw [none, Nat.add_zero, spanning, nodes, List.countP_cons]
      split
      · rename_i joins
        rw [joinsAlone joins (placedNested inside own)]
      · exact below own
  | @twice kind detail t others ts specifier named next ih =>
    have behind := ih (spaced.part (by grind))
    have other : kind ≠ .binaryExpression := by
      rcases specifier with rfl | rfl <;> decide
    rw [nodesOfAll, List.countP_append, countOther other, nodesOfAll, nodesOfAll, nodesOfAll,
      List.countP_append, List.countP_append, Identifier.outline, countOther (by decide)]
    simpa [nodesOfAll] using behind

def JoinedBy (t : Token) (o : Outline) : Prop :=
  ∃ op, t.kind = .operator op ∧ o.joinsAt t.span.start = true ∧
    o.heading.detail = .text op.lexeme

theorem expressionHeading (e : Expression) : e.outline.heading.start = e.span.start ∧
    e.outline.heading.stop = some e.span.stop := by
  cases e with
  | function f => cases f; exact ⟨rfl, rfl⟩
  | _ => exact ⟨rfl, rfl⟩

theorem operatorJoins {left right : Expression} {t : Token} {op before operand}
    (kind : t.kind = .operator op) (first : Covers left.span before)
    (last : Covers right.span operand) (spaced : Spaced (before ++ t :: operand)) :
    JoinedBy t (join left op right).outline := by
  obtain ⟨apart, behind, across⟩ := List.pairwise_append.mp spaced.ordered
  obtain ⟨_, u, earlier, stop⟩ := endsCovered first .identifier .nothing
  obtain ⟨v, later, rfl, start⟩ := last
  have filled := spaced.filled t (by simp)
  have stops := across u earlier t List.mem_cons_self
  have starts := (List.pairwise_cons.mp behind).1 v List.mem_cons_self
  obtain ⟨_, leftStop⟩ := expressionHeading left
  obtain ⟨rightStart, _⟩ := expressionHeading right
  refine ⟨op, kind, joinsAtExactly.mpr ⟨_, _, _, rfl, rfl, ⟨_, ?_, leftStop⟩, ?_⟩, rfl⟩
  · exact Nat.le_trans (Nat.le_of_eq (Option.some.inj stop)) stops
  · rw [rightStart, start]
    exact Nat.lt_of_lt_of_le filled starts

def Phrase.nodes : Phrase → List Outline
  | .expression e => e.outline.nodes
  | .chain _ whole => whole.outline.nodes
  | .arguments es => nodesOfAll (Expression.outlines es)
  | .function f => f.body.outline.nodes
  | .block b => b.outline.nodes
  | .statements body => nodesOfAll (Statement.outlines body)
  | .declarators _ _ ds => nodesOfAll (Declarator.outlines ds)
  | .vars d => d.outline.nodes
  | .unterminated s => s.outline.nodes
  | .statement s => s.outline.nodes

def Phrase.inner : Phrase → List Statement
  | .expression e => e.nested
  | .chain _ whole => whole.nested
  | .arguments es => Expression.allNested es
  | .function f => f.nested
  | .block b => b.nested
  | .statements body => Statement.allNested body
  | .declarators _ _ ds => Declarator.allNested ds
  | .vars d => d.nested
  | .unterminated s => s :: s.nested
  | .statement s => s :: s.nested

theorem nodesFirst {kind span detail} (first : Outline) (others : List Outline) :
    first.nodes ⊆ (spanning kind span detail (first :: others)).nodes :=
  fun _ among => List.mem_cons_of_mem _ (List.mem_append_left _ among)

theorem nodesSecond {kind span detail} (first second : Outline) :
    second.nodes ⊆ (spanning kind span detail [first, second]).nodes :=
  fun _ among => List.mem_cons_of_mem _
    (List.mem_append_right _ (List.mem_append_left _ among))

theorem nodesSelf (o : Outline) : o ∈ o.nodes := by
  cases o
  exact List.mem_cons_self

theorem nodesAppend (parts others : List Outline) :
    nodesOfAll (parts ++ others) = nodesOfAll parts ++ nodesOfAll others := by
  induction parts with
  | nil => rfl
  | cons part parts ih => rw [List.cons_append, nodesOfAll, nodesOfAll, ih, List.append_assoc]

theorem Derives.chainHolds {operand whole taken rest}
    (derived : Derives (.chain operand whole) taken rest) :
    operand.outline.nodes ⊆ whole.outline.nodes ∧ operand.nested ⊆ whole.nested := by
  generalize same : Phrase.chain operand whole = phrase at derived
  induction derived generalizing operand with
  | stop =>
    cases same
    exact ⟨List.Subset.refl _, List.Subset.refl _⟩
  | call _ _ _ _ _ _ ih =>
    cases same
    obtain ⟨nodes, nested⟩ := ih rfl
    exact ⟨List.Subset.trans (nodesFirst _ _) nodes,
      List.Subset.trans (List.subset_append_left _ _) nested⟩
  | member _ _ _ ih =>
    cases same
    obtain ⟨nodes, nested⟩ := ih rfl
    exact ⟨List.Subset.trans (nodesFirst _ _) nodes, nested⟩
  | operator _ _ _ _ ih =>
    cases same
    obtain ⟨nodes, nested⟩ := ih rfl
    exact ⟨List.Subset.trans (nodesFirst _ _) nodes,
      List.Subset.trans (List.subset_append_left _ _) nested⟩
  | _ => cases same

def plain : Kind → Bool
  | .operator _ => false
  | .punct .asterisk => false
  | _ => true

inductive Phrase.Uses (tokens : List Token) (phrase : Phrase) (t : Token) : Prop where
  | joins {node} (among : node ∈ phrase.nodes) (joined : JoinedBy t node)
  | star {st before taken rest} (among : st ∈ phrase.inner)
      (everything : t.kind = .punct .asterisk)
      (split : tokens = before ++ (taken ++ rest))
      (derived : Derives (.unterminated st) taken rest) (inside : t ∈ taken)
      (clause : (∃ d, st = .imports d) ∨ ∃ d, st = .exportAll d)
  | other (plain : plain t.kind = true)

theorem usesPlain {tokens : List Token} {phrase : Phrase} {t : Token} {kind : Kind}
    (found : t.kind = kind) (other : plain kind = true) : phrase.Uses tokens t :=
  .other (found ▸ other)

theorem usesClause {tokens : List Token} {phrase : Phrase} {t : Token}
    (listed : t.kind ∈ clauseKinds) : phrase.Uses tokens t := by
  have each : ∀ kind ∈ clauseKinds, plain kind = true := by decide
  exact .other (each _ listed)

theorem usesWhole {part whole : Phrase} {ts tokens : List Token} {t : Token}
    (uses : part.Uses ts t) (before : List Token) (same : tokens = before ++ ts)
    (nodes : part.nodes ⊆ whole.nodes) (inner : part.inner ⊆ whole.inner) :
    whole.Uses tokens t := by
  cases uses with
  | joins among joined => exact .joins (nodes among) joined
  | @star st earlier taken rest among everything split derived inside clause =>
    have onward : tokens = (before ++ earlier) ++ (taken ++ rest) := by
      rw [same, split, List.append_assoc]
    exact .star (inner among) everything onward derived inside clause
  | other plain => exact .other plain

theorem usesBehind {phrase : Phrase} {ts tokens : List Token} {t : Token}
    (uses : phrase.Uses ts t) (before : List Token) (same : tokens = before ++ ts) :
    phrase.Uses tokens t :=
  usesWhole uses before same (List.Subset.refl _) (List.Subset.refl _)

theorem usesOptional {kind rest o tokens} {phrase : Phrase} (accepted : Accepted kind rest o)
    (other : plain kind = true) : ∀ t ∈ o.toList, phrase.Uses tokens t := by
  cases o with
  | none => exact List.forall_mem_nil _
  | some t => exact List.forall_mem_singleton.mpr (usesPlain accepted other)

def Phrase.AllUsed (taken rest : List Token) : Phrase → Prop
  | .chain operand whole => ∀ before, Covers operand.span before → Spaced (before ++ taken) →
      ∀ t ∈ taken, (Phrase.expression whole).Uses (taken ++ rest) t
  | phrase => Spaced taken → ∀ t ∈ taken, phrase.Uses (taken ++ rest) t

theorem nodesBody (kind : NodeKind) (f : FunctionDef) :
    f.body.outline.nodes ⊆ (f.outline kind).nodes := by
  cases f with
  | mk span name params body =>
    intro n below
    refine List.mem_cons_of_mem _ ?_
    rw [nodesAppend]
    exact List.mem_append_right _ (List.mem_append_left _ below)

theorem Derives.allUsed {phrase taken rest} (derived : Derives phrase taken rest) :
    phrase.AllUsed taken rest := by
  induction derived with
  | literal kind =>
    intro spaced
    refine List.forall_mem_singleton.mpr ?_
    rcases kind with kind | kind <;> exact usesPlain kind rfl
  | @functionValue f taken rest value ih =>
    intro spaced t among
    exact usesWhole (ih spaced t among) [] rfl (nodesBody _ f) (List.Subset.refl _)
  | @head t e taken rest kind chain ih =>
    intro spaced
    refine List.forall_mem_cons.mpr ⟨usesPlain kind rfl, ?_⟩
    intro u among
    exact usesBehind (ih [t] (coversOne t) spaced u among) [t] rfl
  | stop =>
    intro before _ _
    exact List.forall_mem_nil _
  | @call callee es e opening inner closing semicolon behind rest opens arguments closes ending
      chain inside ih =>
    intro before covers spaced
    obtain ⟨nodes, nested⟩ := chain.chainHolds
    have wider := coversOnward covers (opening :: (inner ++ closing :: semicolon.toList))
    rw [← List.cons_append, stopBehind] at wider
    refine List.forall_mem_cons.mpr ⟨usesPlain opens rfl, ?_⟩
    refine List.forall_mem_append.mpr ⟨?_, List.forall_mem_cons.mpr ⟨usesPlain closes rfl,
      List.forall_mem_append.mpr ⟨usesOptional ending rfl, ?_⟩⟩⟩
    · intro t among
      refine usesWhole (inside (spaced.part (by grind)) t among) [opening] (by simp)
        (List.Subset.trans ?_ nodes) (List.Subset.trans (List.subset_append_right _ _) nested)
      intro n below
      exact List.mem_cons_of_mem _ (List.mem_append_right _ below)
    · intro t among
      have onward : Spaced ((before ++ opening :: (inner ++ closing :: semicolon.toList)) ++
          behind) := by simpa using spaced
      exact usesBehind (ih _ wider onward t among)
        (opening :: (inner ++ closing :: semicolon.toList)) (by simp)
  | @member object e dot name behind rest dotted kind chain ih =>
    intro before covers spaced
    have wider := coversOnward covers [dot, name]
    refine List.forall_mem_cons.mpr ⟨usesPlain dotted rfl, ?_⟩
    refine List.forall_mem_cons.mpr ⟨usesPlain kind rfl, ?_⟩
    intro t among
    have onward : Spaced ((before ++ [dot, name]) ++ behind) := by simpa using spaced
    exact usesBehind (ih _ wider onward t among) [dot, name] (by simp)
  | @operator left op right e t operand behind rest kind value chain inside ih =>
    intro before covers spaced
    obtain ⟨nodes, nested⟩ := chain.chainHolds
    have wider := coversOnward covers (t :: operand)
    rw [stopOf, coversStop value.covered] at wider
    have around : Spaced (before ++ t :: operand) := spaced.part (by grind)
    have own := operatorJoins kind covers value.covered around
    refine List.forall_mem_cons.mpr ⟨.joins (nodes (nodesSelf _)) own,
      List.forall_mem_append.mpr ⟨?_, ?_⟩⟩
    · intro u among
      exact usesWhole (inside (spaced.part (by grind)) u among) [t] (by simp)
        (List.Subset.trans (nodesSecond _ _) nodes)
        (List.Subset.trans (List.subset_append_right _ _) nested)
    · intro u among
      have onward : Spaced ((before ++ t :: operand) ++ behind) := by simpa using spaced
      exact usesBehind (ih _ wider onward u among) (t :: operand) (by simp)
  | noArguments =>
    intro _
    exact List.forall_mem_nil _
  | @lastArgument e taken rest value ends ih =>
    intro spaced t among
    exact usesWhole (ih spaced t among) [] rfl (List.subset_append_left _ _)
      (List.subset_append_left _ _)
  | @argument e es taken comma others rest value kind next first ih =>
    intro spaced
    refine List.forall_mem_append.mpr ⟨?_, List.forall_mem_cons.mpr ⟨usesPlain kind rfl, ?_⟩⟩
    · intro t among
      exact usesWhole (first (spaced.part (by grind)) t among) [] (by simp)
        (List.subset_append_left _ _) (List.subset_append_left _ _)
    · intro t among
      exact usesWhole (ih (spaced.part (by grind)) t among) (taken ++ [comma]) (by simp)
        (List.subset_append_right _ _) (List.subset_append_right _ _)
  | @function word name span params b list body rest kind named parameters block ih =>
    intro spaced
    refine List.forall_mem_cons.mpr ⟨usesPlain kind rfl, List.forall_mem_append.mpr
      ⟨usesOptional named rfl, List.forall_mem_append.mpr
        ⟨fun t among => usesClause (parametersClausal parameters t among), ?_⟩⟩⟩
    intro t among
    exact usesWhole (ih (spaced.part (by grind)) t among) (word :: (name.toList ++ list))
      (by simp) (List.Subset.refl _) (List.Subset.refl _)
  | @block opening body inner closing rest opens statements closes ih =>
    intro spaced
    refine List.forall_mem_cons.mpr ⟨usesPlain opens rfl, List.forall_mem_append.mpr
      ⟨?_, List.forall_mem_singleton.mpr (usesPlain closes rfl)⟩⟩
    intro t among
    exact usesWhole (ih (spaced.part (by grind)) t among) [opening] (by simp)
      (List.subset_cons_self _ _) (List.Subset.refl _)
  | noStatements =>
    intro _
    exact List.forall_mem_nil _
  | @statements s body taken others rest first next here ih =>
    intro spaced
    refine List.forall_mem_append.mpr ⟨?_, ?_⟩
    · intro t among
      exact usesWhole (here (spaced.part (by grind)) t among) [] (by simp)
        (List.subset_append_left _ _) (by simp [Phrase.inner, Statement.allNested])
    · intro t among
      exact usesWhole (ih (spaced.part (by grind)) t among) taken (by simp)
        (List.subset_append_right _ _) (by simp [Phrase.inner, Statement.allNested])
  | semicolon kind =>
    intro _
    exact List.forall_mem_singleton.mpr (usesPlain kind rfl)
  | undeclared =>
    intro _
    exact List.forall_mem_nil _
  | @declarator name assign init comma stop ds before value others rest kind assigned initial
      ending next first ih =>
    intro spaced
    refine List.forall_mem_cons.mpr ⟨usesPlain kind rfl, List.forall_mem_cons.mpr
      ⟨usesPlain assigned rfl, List.forall_mem_append.mpr ⟨?_, List.forall_mem_append.mpr
        ⟨usesOptional ending rfl, ?_⟩⟩⟩⟩
    · intro t among
      refine usesWhole (first (spaced.part (by grind)) t among) [name, assign] (by simp)
        ?_ (List.subset_append_left _ _)
      intro n below
      exact List.mem_append_left _ (nodesSecond _ _ below)
    · intro t among
      exact usesWhole (ih (spaced.part (by grind)) t among)
        (name :: assign :: (value ++ comma.toList)) (by simp) (List.subset_append_right _ _)
        (List.subset_append_right _ _)
  | @vars word sort stop ds taken rest kind declared ih =>
    intro spaced
    refine List.forall_mem_cons.mpr ⟨usesPlain kind (by cases sort <;> rfl), ?_⟩
    intro t among
    exact usesWhole (ih (spaced.part (by grind)) t among) [word] rfl
      (List.subset_cons_self _ _) (List.Subset.refl _)
  | @functionStatement f taken rest value ih =>
    intro spaced t among
    exact usesWhole (ih spaced t among) [] rfl (nodesBody _ f) (List.subset_cons_self _ _)
  | expressionStatement begins value ih =>
    intro spaced t among
    exact usesWhole (ih spaced t among) [] rfl (nodesFirst _ _) (List.subset_cons_self _ _)
  | blockStatement value ih =>
    intro spaced t among
    exact usesWhole (ih spaced t among) [] rfl (List.Subset.refl _) (List.subset_cons_self _ _)
  | @returns word e taken rest kind value ih =>
    intro spaced
    refine List.forall_mem_cons.mpr ⟨usesPlain kind rfl, ?_⟩
    intro t among
    exact usesWhole (ih (spaced.part (by grind)) t among) [word] rfl (nodesFirst _ _)
      (List.subset_cons_self _ _)
  | variableStatement value ih =>
    intro spaced t among
    exact usesWhole (ih spaced t among) [] rfl (List.Subset.refl _) (List.subset_cons_self _ _)
  | @imports d taken rest clause =>
    intro spaced t among
    by_cases everything : t.kind = .punct .asterisk
    · exact .star List.mem_cons_self everything (List.nil_append _).symm (.imports clause) among
        (.inl ⟨d, rfl⟩)
    · exact usesClause ((importsStarred clause t among).resolve_left everything)
  | @exportedValue word default e taken rest kind only begins value ih =>
    intro spaced
    refine List.forall_mem_cons.mpr ⟨usesPlain kind rfl,
      List.forall_mem_cons.mpr ⟨usesPlain only rfl, ?_⟩⟩
    intro t among
    exact usesWhole (ih (spaced.part (by grind)) t among) [word, default] rfl (nodesFirst _ _)
      (List.subset_cons_self _ _)
  | @exportedDefault word default f taken rest kind only value ih =>
    intro spaced
    refine List.forall_mem_cons.mpr ⟨usesPlain kind rfl,
      List.forall_mem_cons.mpr ⟨usesPlain only rfl, ?_⟩⟩
    intro t among
    exact usesWhole (ih (spaced.part (by grind)) t among) [word, default] rfl
      (List.Subset.trans (nodesBody _ f) (nodesFirst _ _)) (List.subset_cons_self _ _)
  | @exportedVariables word d taken rest kind value ih =>
    intro spaced
    refine List.forall_mem_cons.mpr ⟨usesPlain kind rfl, ?_⟩
    intro t among
    exact usesWhole (ih (spaced.part (by grind)) t among) [word] rfl (nodesFirst _ _)
      (List.subset_cons_self _ _)
  | @exportedFunction word f taken rest kind value ih =>
    intro spaced
    refine List.forall_mem_cons.mpr ⟨usesPlain kind rfl, ?_⟩
    intro t among
    exact usesWhole (ih (spaced.part (by grind)) t among) [word] rfl
      (List.Subset.trans (nodesBody _ f) (nodesFirst _ _)) (List.subset_cons_self _ _)
  | exportedNames kind clause =>
    intro spaced
    refine List.forall_mem_cons.mpr ⟨usesPlain kind rfl, ?_⟩
    intro t among
    exact usesClause (exportListClausal clause t among)
  | @exportedModule word d taken rest kind clause =>
    intro spaced t among
    by_cases everything : t.kind = .punct .asterisk
    · exact .star List.mem_cons_self everything (List.nil_append _).symm
        (.exportedModule kind clause) among (.inr ⟨d, rfl⟩)
    · rcases List.mem_cons.mp among with rfl | among
      · exact usesPlain kind rfl
      · exact usesClause ((exportAllStarred clause t among).resolve_left everything)
  | @statement s taken semicolon rest body ending ih =>
    intro spaced
    refine List.forall_mem_append.mpr ⟨?_, usesOptional ending rfl⟩
    intro t among
    exact usesWhole (ih (spaced.part (by grind)) t among) [] (by simp) (List.Subset.refl _)
      (List.Subset.refl _)

end Grammar

end ScriptTree
