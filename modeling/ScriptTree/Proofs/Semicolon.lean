import ScriptTree.Proofs.RenderingRead
import ScriptTree.Proofs.Thinning
import ScriptTree.Proofs.Twin
/-! Semicolons carry no structure. Without some of its `;` a token list that was read is still a
way to write the tree, and every way to write it is read back. -/
namespace ScriptTree
open Relabeling (placeless unchanged)

namespace Grammar

theorem explicitTwins (ts : List Token) :
    List.Forall₂ (Twins unchanged unchanged) (explicit ts) ts := by
  induction ts with
  | nil => exact .nil
  | cons t ts ih => exact .cons ⟨rfl, rfl, rfl, rfl⟩ ih

theorem explicitDerives {body ts} (derived : Derives (.statements body) (explicit ts) []) :
    Derives (.statements body) ts [] := by
  have found : program (explicit ts) = .done (.ofStatements body) [] :=
    programDone.mpr ⟨rfl, rfl, derived⟩
  have matched := programMirrors (explicitTwins ts)
  rw [found] at matched
  generalize answered : program ts = outcome at matched
  cases matched with
  | @done _ p _ rest same behind =>
    obtain ⟨rfl, _, read⟩ := programDone.mp answered
    have bodies := congrArg Program.body same
    simp only [Relabeling.program, Relabeling.statementsUnchanged] at bodies
    change body = p.body at bodies
    rw [bodies]
    exact read

theorem Derives.thinned {body ts us} (derived : Derives (.statements body) ts [])
    (thinned : Thinned ts us) : ∃ body', placeless.statements body' = placeless.statements body ∧
      Derives (.statements body') us [] := by
  have written : Writes (.statements body) (explicit us) := derived.written thinned
  have closes : Closes [] := ⟨.inl rfl, by simp, by simp⟩
  obtain ⟨body', alike, read⟩ := written.read derived.shaped [] closes
  exact ⟨body', alike, explicitDerives read⟩

end Grammar

open Grammar

theorem thinnedParsed {tokens fewer p} (parsed : parseTokens tokens = .ok p)
    (thinned : Thinned tokens fewer) : ∃ q, parseTokens fewer = .ok q ∧ q.erased = p.erased := by
  obtain ⟨body, alike, read⟩ := (parsedExactly.mp parsed).2.thinned thinned
  exact ⟨.ofStatements body, parsedExactly.mpr ⟨rfl, read⟩, congrArg (Program.mk 0 none) alike⟩

def givenCall : List Token :=
  [.plain (.keyword .varWord) "var" 0, .plain .identifier "x" 4, .plain (.punct .assign) "=" 6,
    .plain .identifier "f" 8, .plain (.punct .parenLeft) "(" 9, .literal .number "1" "1" 10,
    .plain (.punct .parenRight) ")" 11]

def semicolons : List Token :=
  [.plain (.punct .semicolon) ";" 12, .plain (.punct .semicolon) ";" 13,
    .plain (.punct .semicolon) ";" 14, .plain .identifier "y" 16,
    .plain (.punct .semicolon) ";" 17]

def givenCallProgram : Program :=
  ⟨0, some 17, [.vars ⟨⟨0, 14⟩, .varKind, [⟨⟨4, 13⟩, ⟨⟨4, 5⟩, "x"⟩,
      some (.call ⟨8, 13⟩ (.identifier ⟨⟨8, 9⟩, "f"⟩) [.literal ⟨⟨10, 11⟩, "1", "1"⟩])⟩]⟩,
    .expression ⟨16, 17⟩ (.identifier ⟨⟨16, 17⟩, "y"⟩)]⟩

theorem givenCallThinned : parseTokens (givenCall ++ semicolons) = .ok givenCallProgram ∧
    Thinned (givenCall ++ semicolons) (givenCall ++ [.plain .identifier "y" 16]) ∧
    ∃ q, parseTokens (givenCall ++ [.plain .identifier "y" 16]) = .ok q ∧
      q.erased = givenCallProgram.erased := by
  have parsed : parseTokens (givenCall ++ semicolons) = .ok givenCallProgram := rfl
  have ends : Thinned semicolons [.plain .identifier "y" 16] :=
    .dropped rfl (.dropped rfl (.dropped rfl (.kept (.dropped rfl .none))))
  have thinned : Thinned (givenCall ++ semicolons) (givenCall ++ [.plain .identifier "y" 16]) :=
    .kept (.kept (.kept (.kept (.kept (.kept (.kept ends))))))
  exact ⟨parsed, thinned, thinnedParsed parsed thinned⟩

end ScriptTree
