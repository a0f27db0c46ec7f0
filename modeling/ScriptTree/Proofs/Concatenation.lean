import ScriptTree.Proofs.Carrying
import ScriptTree.Proofs.RenderingRead
import ScriptTree.Proofs.Thinning
/-! Programs one behind another. What is read as a program begins with a statement, and neither of
its first two tokens is a `=`, so that nothing before it reaches into it. -/
namespace ScriptTree
open Relabeling (unchanged)

namespace Grammar

theorem frontExplicit (ts : List Token) : front (explicit ts) = front ts := by
  cases ts <;> rfl

theorem explicitBoundary {ts : List Token} (boundary : Boundary (explicit ts)) : Boundary ts := by
  obtain ⟨quiet, first, second⟩ := boundary
  rw [frontExplicit] at quiet first
  have behind : (explicit ts).drop 1 = explicit (ts.drop 1) := List.map_drop.symm
  rw [behind, frontExplicit] at second
  exact ⟨quiet, first, second⟩

theorem Derives.boundary {body ts} (derived : Derives (.statements body) ts []) : Boundary ts := by
  have written : Writes (.statements body) (explicit ts) := derived.written (thinnedSame ts)
  have closes : Closes [] := ⟨.inl rfl, by simp, by simp⟩
  have boundary := statementsBoundary written derived.shaped closes
  rw [List.append_nil] at boundary
  exact explicitBoundary boundary

/- The statements are read as they were, one after another. Only the last has the new tokens right
behind it, but each sees up to two tokens of what follows. -/
theorem Derives.followed {body others ts us} (derived : Derives (.statements body) ts [])
    (behind : Derives (.statements others) us []) :
    Derives (.statements (body ++ others)) (ts ++ us) [] := by
  induction body generalizing ts with
  | nil =>
    cases derived
    exact behind
  | cons s body ih =>
    cases derived with
    | @statements _ _ taken rest _ first next =>
      have boundary := behind.boundary
      have ends : Behind ([] : List Token) us := ⟨.inr boundary.1, .inr boundary.2.2⟩
      have seen : Behind (rest ++ []) (unchanged.tokens rest ++ us) :=
        behindTokens unchanged ends rest
      have first' := first.carried (r := unchanged) seen trivial
      rw [Phrase.relabeled, Relabeling.statementUnchanged, Relabeling.tokensUnchanged,
        Relabeling.tokensUnchanged, ← List.append_nil (rest ++ us)] at first'
      rw [List.append_assoc]
      exact .statements first' (ih next)

theorem Derives.bodyFilled {body ts} (derived : Derives (.statements body) ts []) :
    body = [] ↔ ts = [] := by
  cases derived with
  | noStatements => simp
  | statements first =>
    obtain ⟨kind, _, found⟩ := first.begins
    simp [frontFilled found]

end Grammar

open Grammar

theorem stopJoined (body others : List Statement) :
    (Program.ofStatements (body ++ others)).stop =
      if others = [] then (Program.ofStatements body).stop
      else (Program.ofStatements others).stop := by
  split
  · rename_i none
    rw [none, List.append_nil]
  · rename_i filled
    obtain ⟨last, found⟩ := Option.isSome_iff_exists.mp (List.getLast?_isSome.mpr filled)
    simp only [Program.ofStatements, List.getLast?_append, found, Option.some_or]

theorem appendParsed {front rear : List Token} {p q} (first : parseTokens front = .ok p)
    (second : parseTokens rear = .ok q) : ∃ whole, parseTokens (front ++ rear) = .ok whole ∧
      whole.body = p.body ++ q.body ∧ whole.stop = if rear = [] then p.stop else q.stop := by
  obtain ⟨frontProgram, frontRead⟩ := parsedExactly.mp first
  obtain ⟨rearProgram, rearRead⟩ := parsedExactly.mp second
  refine ⟨.ofStatements (p.body ++ q.body),
    parsedExactly.mpr ⟨rfl, frontRead.followed rearRead⟩, rfl, ?_⟩
  rw [stopJoined, ← frontProgram, ← rearProgram]
  simp only [rearRead.bodyFilled]

def openDeclaration : List Token :=
  [.plain (.keyword .letWord) "let" 0, .plain .identifier "x" 4, .plain (.punct .assign) "=" 6,
    .plain .identifier "f" 8]

def nameAndDeclaration : List Token :=
  [.plain .identifier "x" 10, .plain (.keyword .letWord) "let" 12, .plain .identifier "y" 16,
    .plain (.punct .assign) "=" 18, .plain .identifier "x" 20, .plain (.punct .parenLeft) "(" 21,
    .literal .number "1" "1" 22, .plain (.punct .parenRight) ")" 23]

def openDeclarationBody : List Statement :=
  [.vars ⟨⟨0, 9⟩, .letKind, [⟨⟨4, 9⟩, ⟨⟨4, 5⟩, "x"⟩, some (.identifier ⟨⟨8, 9⟩, "f"⟩)⟩]⟩]

def nameAndDeclarationBody : List Statement :=
  [.expression ⟨10, 11⟩ (.identifier ⟨⟨10, 11⟩, "x"⟩),
    .vars ⟨⟨12, 24⟩, .letKind, [⟨⟨16, 24⟩, ⟨⟨16, 17⟩, "y"⟩,
      some (.call ⟨20, 24⟩ (.identifier ⟨⟨20, 21⟩, "x"⟩) [.literal ⟨⟨22, 23⟩, "1", "1"⟩])⟩]⟩]

theorem openDeclarationAppended :
    parseTokens openDeclaration = .ok ⟨0, some 9, openDeclarationBody⟩ ∧
    parseTokens nameAndDeclaration = .ok ⟨0, some 24, nameAndDeclarationBody⟩ ∧
    parseTokens (openDeclaration ++ nameAndDeclaration) =
      .ok ⟨0, some 24, openDeclarationBody ++ nameAndDeclarationBody⟩ := by
  have first : parseTokens openDeclaration = .ok ⟨0, some 9, openDeclarationBody⟩ := rfl
  have second : parseTokens nameAndDeclaration =
    .ok ⟨0, some 24, nameAndDeclarationBody⟩ := rfl
  obtain ⟨⟨start, stop, body⟩, read, rfl, rfl⟩ := appendParsed first second
  obtain ⟨shape, _⟩ := parsedExactly.mp read
  obtain rfl : start = 0 := congrArg Program.start shape
  exact ⟨first, second, read⟩

end ScriptTree
