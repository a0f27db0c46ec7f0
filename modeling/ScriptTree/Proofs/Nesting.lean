import ScriptTree.Proofs.Placement
import ScriptTree.Proofs.Spacing
/-! Where nodes lie to each other. On tokens that stand one behind another, the parts of a node
lie inside of it, and in the order in which they are written. -/
namespace ScriptTree

def Heading.Inside (part whole : Heading) : Prop :=
  whole.start ≤ part.start ∧
    ∃ inner outer, part.stop = some inner ∧ whole.stop = some outer ∧ inner ≤ outer

namespace Outline

def Before (first second : Outline) : Prop :=
  ∃ stop, first.heading.stop = some stop ∧ stop ≤ second.heading.start

/-- A specifier without `as`, whose two names are the same and all of it. -/
def NamedOnce (o : Outline) : Prop :=
  (o.heading.kind = .importSpecifier ∨ o.heading.kind = .exportSpecifier) ∧
    ∃ name, o.parts = [name, name] ∧ name.heading.start = o.heading.start ∧
      name.heading.stop = o.heading.stop

structure Nested (o : Outline) : Prop where
  filled : ∀ stop ∈ o.heading.stop, o.heading.start < stop
  inside : ∀ part ∈ o.parts, part.heading.Inside o.heading
  ordered : o.parts.Pairwise Before ∨ o.NamedOnce

theorem partAmong {part : Outline} {parts : List Outline} (among : part ∈ parts) :
    part ∈ nodesOfAll parts := by
  induction parts with
  | nil => contradiction
  | cons first others ih =>
    rcases List.mem_cons.mp among with rfl | among
    · cases part
      exact List.mem_append_left _ List.mem_cons_self
    · exact List.mem_append_right _ (ih among)

/- What stands before the last of some parts does not reach beyond it. -/
theorem insideLast {parts : List Outline} (ordered : parts.Pairwise Before)
    (each : ∀ part ∈ parts, part.Nested) {last outer}
    (final : parts.getLast? = some last) (stop : last.heading.stop = some outer) :
    ∀ part ∈ parts, ∀ inner ∈ part.heading.stop, inner ≤ outer := by
  obtain ⟨earlier, rfl⟩ := List.getLast?_eq_some_iff.mp final
  have filled := (each last (by simp)).filled outer stop
  intro part among inner found
  rcases List.mem_append.mp among with among | among
  · obtain ⟨_, same, behind⟩ := (List.pairwise_append.mp ordered).2.2 part among last (by simp)
    have agree : inner = _ := Option.some.inj (found.symm.trans same)
    omega
  · rw [List.mem_singleton.mp among] at found
    have agree : inner = outer := Option.some.inj (found.symm.trans stop)
    omega

end Outline

namespace Grammar
open Outline

theorem stopBounds {t : Token} {more : List Token} (spaced : Spaced (t :: more)) :
    ∀ u ∈ t :: more, u.span.stop ≤ stopOf t.span.stop more := by
  induction more generalizing t with
  | nil =>
    intro u among
    rw [List.mem_singleton.mp among]
    exact Nat.le_refl _
  | cons v more ih =>
    have last := ih (spaced.part (List.sublist_cons_self t _))
    intro u among
    rcases List.mem_cons.mp among with rfl | among
    · have apart := (List.pairwise_cons.mp spaced.ordered).1 v List.mem_cons_self
      have filled := spaced.filled v (by simp)
      have bound := last v List.mem_cons_self
      exact Nat.le_trans apart (Nat.le_trans (Nat.le_of_lt filled) bound)
    · exact last u among

theorem coversBounds {s ts} (covers : Covers s ts) (spaced : Spaced ts) :
    ∀ u ∈ ts, s.start ≤ u.span.start ∧ u.span.stop ≤ s.stop := by
  obtain ⟨t, more, rfl, rfl⟩ := covers
  intro u among
  refine ⟨?_, stopBounds spaced u among⟩
  rcases List.mem_cons.mp among with rfl | behind
  · exact Nat.le_refl _
  · have apart := (List.pairwise_cons.mp spaced.ordered).1 u behind
    exact Nat.le_trans (Nat.le_of_lt (spaced.filled t List.mem_cons_self)) apart

theorem coversFilled {s ts} (covers : Covers s ts) (spaced : Spaced ts) : s.start < s.stop := by
  obtain ⟨t, more, rfl, rfl⟩ := covers
  exact Nat.lt_of_lt_of_le (spaced.filled t List.mem_cons_self)
    (stopBounds spaced t List.mem_cons_self)

theorem stopAmong (t : Token) (more : List Token) :
    ∃ u ∈ t :: more, stopOf t.span.stop more = u.span.stop := by
  induction more generalizing t with
  | nil => exact ⟨t, List.mem_cons_self, rfl⟩
  | cons v more ih =>
    obtain ⟨u, among, same⟩ := ih v
    exact ⟨u, List.mem_cons_of_mem _ among, same⟩

def Ends (h : Heading) (ts : List Token) : Prop :=
  (∃ t ∈ ts, h.start = t.span.start) ∧ ∃ u ∈ ts, h.stop = some u.span.stop

theorem endsPart {h ts us} (ends : Ends h ts) (part : ts ⊆ us) : Ends h us := by
  obtain ⟨⟨t, first, start⟩, u, last, stop⟩ := ends
  exact ⟨⟨t, part first, start⟩, u, part last, stop⟩

theorem endsOne (kind detail) (t : Token) :
    Ends ⟨kind, t.span.start, some t.span.stop, detail⟩ [t] :=
  ⟨⟨t, by simp, rfl⟩, t, by simp, rfl⟩

theorem endsCovered {s ts} (covers : Covers s ts) (kind detail) :
    Ends ⟨kind, s.start, some s.stop, detail⟩ ts := by
  obtain ⟨t, more, rfl, rfl⟩ := covers
  obtain ⟨u, among, stop⟩ := stopAmong t more
  exact ⟨⟨t, List.mem_cons_self, rfl⟩, u, among, congrArg some stop⟩

theorem endsInside {h s ts kind detail} (ends : Ends h ts) (covers : Covers s ts)
    (spaced : Spaced ts) : h.Inside ⟨kind, s.start, some s.stop, detail⟩ := by
  obtain ⟨⟨t, first, start⟩, u, last, stop⟩ := ends
  have bounds := coversBounds covers spaced
  refine ⟨?_, _, _, stop, rfl, (bounds u last).2⟩
  rw [start]
  exact (bounds t first).1

theorem placedEnds {parts ts} (placed : Placed parts ts) : ∀ part ∈ parts, Ends part.heading ts := by
  induction placed with
  | done => exact List.forall_mem_nil _
  | @own t parts ts next ih =>
    intro part among
    exact endsPart (ih part among) (List.subset_cons_self t ts)
  | @name t others ts kind next ih =>
    refine List.forall_mem_cons.mpr ⟨endsPart (endsOne _ _ t) (by simp), ?_⟩
    intro part among
    exact endsPart (ih part among) (List.subset_cons_self t ts)
  | @literal t others ts kind next ih =>
    refine List.forall_mem_cons.mpr ⟨endsPart (endsOne _ _ t) (by simp), ?_⟩
    intro part among
    exact endsPart (ih part among) (List.subset_cons_self t ts)
  | @node kind span detail parts others ts us inner covers inside next _ ih =>
    refine List.forall_mem_cons.mpr
      ⟨endsPart (endsCovered covers _ _) (List.subset_append_left ts us), ?_⟩
    intro part among
    exact endsPart (ih part among) (List.subset_append_right ts us)
  | @twice kind detail t others ts specifier named next ih =>
    refine List.forall_mem_cons.mpr ⟨endsPart (endsOne _ _ t) (by simp), ?_⟩
    intro part among
    exact endsPart (ih part among) (List.subset_cons_self t ts)

theorem endsBefore {o : Outline} {others ts us} (ends : Ends o.heading ts)
    (next : Placed others us) (spaced : Spaced (ts ++ us)) : ∀ part ∈ others, Before o part := by
  intro part among
  obtain ⟨_, u, last, stop⟩ := ends
  obtain ⟨⟨v, first, start⟩, _⟩ := placedEnds next part among
  refine ⟨_, stop, ?_⟩
  rw [start]
  exact (List.pairwise_append.mp spaced.ordered).2.2 u last v first

theorem placedOrdered {parts ts} (placed : Placed parts ts) (spaced : Spaced ts) :
    parts.Pairwise Before := by
  induction placed with
  | done => exact .nil
  | own next ih => exact ih (spaced.part (by grind))
  | @name t others ts kind next ih =>
    exact .cons (@endsBefore _ _ [t] ts (endsOne _ _ t) next spaced) (ih (spaced.part (by grind)))
  | @literal t others ts kind next ih =>
    exact .cons (@endsBefore _ _ [t] ts (endsOne _ _ t) next spaced) (ih (spaced.part (by grind)))
  | node inner covers inside next _ ih =>
    exact .cons (endsBefore (endsCovered covers _ _) next spaced) (ih (spaced.part (by grind)))
  | @twice kind detail t others ts specifier named next ih =>
    exact .cons (@endsBefore _ _ [t] ts (endsOne _ _ t) next spaced) (ih (spaced.part (by grind)))

theorem nestedNode {kind span detail parts ts} (covers : Covers span ts) (inside : Placed parts ts)
    (spaced : Spaced ts) : (spanning kind span detail parts).Nested := by
  refine ⟨?_, ?_, .inl (placedOrdered inside spaced)⟩
  · intro stop found
    cases found
    exact coversFilled covers spaced
  · intro part among
    exact endsInside (placedEnds inside part among) covers spaced

theorem nestedTwice {kind detail t}
    (specifier : kind = .importSpecifier ∨ kind = .exportSpecifier) (spaced : Spaced [t]) :
    (spanning kind t.span detail
      [(Identifier.ofToken t).outline, (Identifier.ofToken t).outline]).Nested := by
  have covers := coversOne t
  refine ⟨?_, ?_, .inr ⟨specifier, (Identifier.ofToken t).outline, rfl, rfl, rfl⟩⟩
  · intro stop found
    cases found
    exact coversFilled covers spaced
  · intro part among
    have same : part = (Identifier.ofToken t).outline := by
      simpa [spanning, parts] using among
    rw [same]
    exact endsInside (endsOne _ _ t) covers spaced

theorem placedNested {parts ts} (placed : Placed parts ts) (spaced : Spaced ts) :
    ∀ node ∈ nodesOfAll parts, node.Nested := by
  induction placed with
  | done => exact List.forall_mem_nil _
  | own next ih => exact ih (spaced.part (by grind))
  | @name t others ts kind next ih =>
    refine List.forall_mem_cons.mpr ⟨?_, ih (spaced.part (by grind))⟩
    exact nestedNode (coversOne t) .done (spaced.part (by grind))
  | @literal t others ts kind next ih =>
    refine List.forall_mem_cons.mpr ⟨?_, ih (spaced.part (by grind))⟩
    exact nestedNode (coversOne t) .done (spaced.part (by grind))
  | @node kind span detail parts others ts us inner covers inside next below ih =>
    have own : Spaced ts := spaced.part (by grind)
    have all := List.forall_mem_append.mpr ⟨below own, ih (spaced.part (by grind))⟩
    exact List.forall_mem_cons.mpr ⟨nestedNode covers inside own, all⟩
  | @twice kind detail t others ts specifier named next ih =>
    have own : Spaced [t] := spaced.part (by grind)
    have name : (Identifier.ofToken t).outline.Nested := nestedNode (coversOne t) .done own
    have all := ih (spaced.part (by grind))
    exact List.forall_mem_cons.mpr ⟨nestedTwice specifier own,
      List.forall_mem_cons.mpr ⟨name, List.forall_mem_cons.mpr ⟨name, all⟩⟩⟩

end Grammar

theorem statementsOutlined (body : List Statement) :
    Statement.outlines body = body.map Statement.outline := by
  induction body with
  | nil => rfl
  | cons s others ih => rw [Statement.outlines, ih, List.map_cons]

theorem statementHeading (s : Statement) :
    s.outline.heading.start = s.span.start ∧ s.outline.heading.stop = some s.span.stop := by
  cases s with
  | vars d => cases d; exact ⟨rfl, rfl⟩
  | function f => cases f; exact ⟨rfl, rfl⟩
  | block b => cases b; exact ⟨rfl, rfl⟩
  | exportNamed _ d => cases d <;> exact ⟨rfl, rfl⟩
  | _ => exact ⟨rfl, rfl⟩

structure Program.Nested (p : Program) : Prop where
  nodes : ∀ node ∈ p.outline.nodes, node.Nested
  start : p.start = 0
  stop : p.stop = p.body.getLast?.map (·.span.stop)
  empty : p.stop = none ↔ p.body = []

theorem rootNested {body : List Statement}
    (each : ∀ part ∈ Statement.outlines body, part.Nested)
    (ordered : (Statement.outlines body).Pairwise Outline.Before) :
    (Program.ofStatements body).outline.Nested := by
  rw [statementsOutlined] at each ordered
  refine ⟨?_, ?_, ?_⟩
  · intro stop found
    obtain ⟨last, final, rfl⟩ := Option.map_eq_some_iff.mp found
    have nested := each last.outline (List.mem_map_of_mem (List.mem_of_getLast? final))
    exact Nat.zero_lt_of_lt (nested.filled _ (statementHeading last).2)
  · intro part among
    have listed : part ∈ body.map Statement.outline := statementsOutlined body ▸ among
    obtain ⟨s, inside, rfl⟩ := List.mem_map.mp listed
    obtain ⟨last, final⟩ := Option.ne_none_iff_exists'.mp
      (fun none => List.ne_nil_of_mem inside (List.getLast?_eq_none_iff.mp none))
    have outlined : (body.map Statement.outline).getLast? = some last.outline := by
      rw [List.getLast?_map, final]
      rfl
    -- The program stops where its last statement does, so what comes before is inside too.
    have bound := Outline.insideLast ordered each outlined (statementHeading last).2 _ listed _
      (statementHeading s).2
    have stop : (Program.ofStatements body).stop = some last.span.stop := by
      rw [Program.ofStatements, final]
      rfl
    exact ⟨Nat.zero_le _, _, _, (statementHeading s).2, stop, bound⟩
  · rw [← statementsOutlined] at ordered
    exact .inl ordered

theorem nestedRead {tokens p} (spaced : Spaced tokens) (parsed : parseTokens tokens = .ok p) :
    p.Nested := by
  obtain ⟨whole, derived⟩ := parsedExactly.mp parsed
  have placed : Grammar.Placed (Statement.outlines p.body) tokens := derived.placed
  have parts := Grammar.placedNested placed spaced
  have root := rootNested (fun part among => parts part (Outline.partAmong among))
    (Grammar.placedOrdered placed spaced)
  rw [← whole] at root
  refine ⟨List.forall_mem_cons.mpr ⟨root, parts⟩, ?_, ?_, ?_⟩
  · rw [whole]
    rfl
  · rw [whole]
    rfl
  · rw [whole]
    simp [Program.ofStatements]

theorem spansNested : (∀ {tokens p}, Spaced tokens → parseTokens tokens = .ok p → p.Nested) ∧
    ∀ {text p}, parse text = .ok p → p.Nested := by
  refine ⟨nestedRead, ?_⟩
  intro text p parsed
  unfold parse at parsed
  cases ok : Text.tokenize text with
  | error e =>
    rw [ok] at parsed
    contradiction
  | ok tokens =>
    rw [ok] at parsed
    exact nestedRead (tokenizedSpaced ok) parsed

def exportedCall : List Token :=
  [.plain (.keyword .exportWord) "export" 0, .plain (.punct .braceLeft) "\x7b" 7,
    .plain .identifier "a" 8, .plain (.punct .comma) "," 9, .plain .identifier "b" 11,
    .plain (.keyword .asWord) "as" 13, .plain .identifier "c" 16,
    .plain (.punct .braceRight) "\x7d" 17, .plain (.punct .semicolon) ";" 18,
    .plain .identifier "f" 20, .plain (.punct .parenLeft) "(" 21,
    .plain (.punct .parenRight) ")" 22, .plain (.punct .semicolon) ";" 23]

def exportedCallProgram : Program :=
  ⟨0, some 24,
    [.exportNamed ⟨0, 18⟩ none [⟨⟨8, 9⟩, ⟨⟨8, 9⟩, "a"⟩, ⟨⟨8, 9⟩, "a"⟩⟩,
        ⟨⟨11, 17⟩, ⟨⟨11, 12⟩, "b"⟩, ⟨⟨16, 17⟩, "c"⟩⟩] none,
      .expression ⟨20, 24⟩ (.call ⟨20, 24⟩ (.identifier ⟨⟨20, 21⟩, "f"⟩) [])]⟩

def calledName : Program :=
  ⟨0, some 5, [.expression ⟨0, 5⟩
    (.call ⟨0, 5⟩ (.identifier ⟨⟨0, 1⟩, "f"⟩) [.identifier ⟨⟨2, 3⟩, "a"⟩])]⟩

theorem exportedCallNested : Spaced exportedCall ∧
    parseTokens exportedCall = .ok exportedCallProgram ∧ exportedCallProgram.Nested ∧
    parse "f(a);" = .ok calledName ∧ calledName.Nested := by
  have spaced : Spaced exportedCall := ⟨by decide, by decide⟩
  have parsed : parseTokens exportedCall = .ok exportedCallProgram := rfl
  have textual : parse "f(a);" = .ok calledName := by cbv
  exact ⟨spaced, parsed, spansNested.1 spaced parsed, textual, spansNested.2 textual⟩

end ScriptTree
