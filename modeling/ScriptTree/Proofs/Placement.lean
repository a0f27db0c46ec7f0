import ScriptTree.Proofs.Run
/-! The nodes of a tree on the tokens that they were read from, in one sequence. Each has a run of
tokens of its own, from its first to its last, and the runs of its parts lie in this one behind
another. -/
namespace ScriptTree

namespace Outline

mutual

def nodes : Outline → List Outline
  | node heading parts => node heading parts :: nodesOfAll parts

def nodesOfAll : List Outline → List Outline
  | [] => []
  | part :: others => part.nodes ++ nodesOfAll others

end

end Outline

namespace Grammar

/-- Nodes on tokens. A token under none of them is their parent's own. The two names of a
specifier without `as` are one token. -/
inductive Placed : List Outline → List Token → Prop where
  | done {ts} : Placed [] ts
  | own {t parts ts} (next : Placed parts ts) : Placed parts (t :: ts)
  | name {t others ts} (kind : t.kind = .identifier) (next : Placed others ts) :
      Placed ((Identifier.ofToken t).outline :: others) (t :: ts)
  | literal {t others ts} (kind : t.kind = .number ∨ t.kind = .string)
      (next : Placed others ts) : Placed ((Literal.ofToken t).outline :: others) (t :: ts)
  | node {kind span detail parts others ts us} (inner : kind ≠ .identifier ∧ kind ≠ .literal)
      (covers : Covers span ts) (inside : Placed parts ts) (next : Placed others us) :
      Placed (.spanning kind span detail parts :: others) (ts ++ us)
  | twice {kind detail t others ts}
      (specifier : kind = .importSpecifier ∨ kind = .exportSpecifier)
      (named : t.kind = .identifier) (next : Placed others ts) :
      Placed (.spanning kind t.span detail
        [(Identifier.ofToken t).outline, (Identifier.ofToken t).outline] :: others) (t :: ts)

theorem placedOwn {parts us} (placed : Placed parts us) (ts : List Token) :
    Placed parts (ts ++ us) := by
  induction ts with
  | nil => exact placed
  | cons t ts ih => exact .own ih

theorem placedNode {kind span detail parts ts} (inner : kind ≠ .identifier ∧ kind ≠ .literal)
    (covers : Covers span ts) (inside : Placed parts ts) :
    Placed [.spanning kind span detail parts] ts := by
  have node := @Placed.node kind span detail parts [] ts [] inner covers inside .done
  rw [List.append_nil] at node
  exact node

theorem placedBehind {parts ts} {o : Outline} (placed : Placed parts (o.past ts)) :
    Placed parts ts := by
  unfold Outline.past at placed
  split at placed
  · cases ts with
    | nil => exact placed
    | cons t ts => exact .own placed
  · exact placed

mutual

theorem overPlaced {others us} : (o : Outline) → ∀ {ts}, o.Over ts → Placed others us →
    Placed (o :: others) (ts ++ us)
  | .node ⟨kind, start, stop, detail⟩ parts, ts, lies, next => by
    rcases lies with leaf | once | ⟨inner, stands, inside⟩
    · generalize Outline.node ⟨kind, start, stop, detail⟩ parts = o at leaf
      cases leaf with
      | name kind => exact .name kind next
      | literal kind => exact .literal kind next
    · generalize Outline.node ⟨kind, start, stop, detail⟩ parts = o at once
      cases once with
      | name specifier named => exact .twice specifier named next
    · obtain ⟨last, rfl, covers⟩ := stands.covers
      exact .node inner covers (partsPlaced parts inside) next

theorem partsPlaced : (parts : List Outline) → ∀ {ts}, Outline.PartsOver parts ts → Placed parts ts
  | [], _, _ => .done
  | part :: others, _, ⟨before, _, _, same, one, next⟩ => by
    rw [same]
    exact placedOwn (overPlaced part one (placedBehind (partsPlaced others next))) before

end

theorem Derives.placed {body taken rest} (derived : Derives (.statements body) taken rest) :
    Placed (Statement.outlines body) taken := partsPlaced _ derived.lies

end Grammar

end ScriptTree
