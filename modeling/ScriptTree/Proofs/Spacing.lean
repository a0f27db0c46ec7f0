import ScriptTree.Proofs.Extent
import ScriptTree.Proofs.Scan
/-! Tokens that stand one behind another, as those of a text do. -/
namespace ScriptTree

structure Spaced (tokens : List Token) : Prop where
  filled : ∀ t ∈ tokens, t.span.start < t.span.stop
  ordered : tokens.Pairwise fun t u => t.span.stop ≤ u.span.start

theorem Spaced.part {ts us : List Token} (spaced : Spaced us) (part : ts.Sublist us) :
    Spaced ts :=
  ⟨fun t inside => spaced.filled t (part.subset inside), spaced.ordered.sublist part⟩

theorem tokenizedSpaced {text : String} {tokens} (ok : Text.tokenize text = .ok tokens) :
    Spaced tokens :=
  have lexed := Text.scanLexed (Text.piecesScan ok)
  ⟨lexed.filled, lexed.ordered⟩

end ScriptTree
