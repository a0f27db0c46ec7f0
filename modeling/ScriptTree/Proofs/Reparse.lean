import ScriptTree.Proofs.Carrying
import ScriptTree.Proofs.Extent
import ScriptTree.Proofs.Slice
/-! Statements read on their own. A statement ends at the end of a text as it ended before
whatever stood behind it, so the text under its span is a program of that statement alone. -/
namespace ScriptTree
open Relabeling (since onward unchanged)

namespace Grammar

theorem Derives.alone {st taken rest} (derived : Derives (.unterminated st) taken rest)
    (r : Relabeling) :
    parseTokens (r.tokens taken) = .ok (Program.ofStatements [r.statement st]) := by
  have body : Derives (.unterminated (r.statement st)) (r.tokens taken) [] :=
    derived.carried behindNone trivial
  have first : Derives (.statement (r.statement st)) (r.tokens taken ++ []) [] :=
    @Derives.statement _ _ none _ body (by simp [Accepted])
  have whole : Derives (.statements [r.statement st]) (r.tokens taken ++ [] ++ []) [] :=
    .statements first (.noStatements (.inl rfl))
  rw [List.append_nil, List.append_nil] at whole
  exact parsedExactly.mpr ⟨rfl, whole⟩

theorem tokensReturn (k : Nat) (ts : List Token) :
    (since k).tokens ((onward k).tokens ts) = ts := by
  have returns (t : Token) : (since k).token ((onward k).token t) = t := by
    obtain ⟨kind, text, span, raw⟩ := t
    simp [Relabeling.token, Relabeling.span, since, onward]
  unfold Relabeling.tokens
  rw [List.map_map]
  exact Relabeling.listUnchanged returns ts

/- Counted from where its text is cut the statement is the same, and no offset of it was less. -/
theorem Derives.returned {st k ts rest}
    (derived : Derives (.unterminated st) ((onward k).tokens ts) rest) :
    parseTokens ts = .ok (Program.ofStatements [(since k).statement st]) ∧
      (onward k).statement ((since k).statement st) = st := by
  have moved : Derives (.unterminated ((since k).statement st)) ts [] := by
    have carried := @Derives.carried (since k) _ _ _ derived [] behindNone trivial
    rw [tokensReturn] at carried
    exact carried
  have alone := derived.alone (since k)
  rw [tokensReturn] at alone
  refine ⟨alone, ?_⟩
  have there := moved.alone (onward k)
  have here := derived.alone unchanged
  rw [Relabeling.tokensUnchanged, Relabeling.statementUnchanged, there] at here
  have same := congrArg Program.body (Except.ok.inj here)
  exact (List.cons.inj same).1

theorem leadPlain {kind : Kind} (lead : kind ∈ leads) :
    kind ≠ .punct .asterisk ∧ kind ≠ .operator .mul := by
  constructor
  · intro same
    subst same
    contradiction
  · intro same
    subst same
    contradiction

end Grammar

open Grammar Text

theorem locatedParses {text : String} {tokens st} (ok : tokenize text = .ok tokens)
    (located : Located st tokens) : ∃ slice q, st.span.Cuts text slice ∧ parse slice = .ok q ∧
      q.body = [(since st.span.start).statement st] ∧
        (onward st.span.start).statement ((since st.span.start).statement st) = st := by
  obtain ⟨before, taken, rest, split, derived⟩ := located
  obtain ⟨t, more, rfl, place⟩ := derived.covered
  obtain ⟨kind, lead, found⟩ := derived.begins
  have same : t.kind = kind := Option.some.inj found
  subst same
  obtain ⟨mark, op⟩ := leadPlain lead
  obtain ⟨slice, tokens', cuts, sliced, onwards⟩ := sliceTokens ok split mark op
  rw [onwards] at derived
  obtain ⟨alone, returns⟩ := derived.returned
  have start : st.span.start = t.span.start := by rw [place]
  rw [← place] at cuts
  rw [start]
  refine ⟨slice, .ofStatements [(since t.span.start).statement st], cuts, ?_, rfl, returns⟩
  unfold parse
  rw [sliced]
  exact alone

theorem reparsed {text p} (parsed : parse text = .ok p) {st} (inside : st ∈ p.statements) :
    (∃ slice, st.span.Cuts text slice) ∧ ∀ slice, st.span.Cuts text slice →
      ∃ q, parse slice = .ok q ∧ q.body = [(since st.span.start).statement st] ∧
        (onward st.span.start).statement ((since st.span.start).statement st) = st := by
  unfold parse at parsed
  cases ok : tokenize text with
  | error e =>
    rw [ok] at parsed
    contradiction
  | ok tokens =>
    rw [ok] at parsed
    have located := (parsedExactly.mp parsed).2.locates st inside
    rw [List.append_nil] at located
    obtain ⟨slice, q, cuts, alone⟩ := locatedParses ok located
    refine ⟨⟨slice, cuts⟩, ?_⟩
    intro other cuts'
    rw [Span.cutsAgree cuts' cuts]
    exact ⟨q, alone⟩

def blockedCall : Statement :=
  .expression ⟨2, 7⟩ (.call ⟨2, 7⟩ (.identifier ⟨⟨2, 3⟩, "f"⟩) [.literal ⟨⟨4, 5⟩, "1", "1"⟩])

def blockOfCall : Program := ⟨0, some 9, [.block ⟨⟨0, 9⟩, [blockedCall]⟩]⟩

theorem blockedCallReparsed : parse "\x7b f(1); \x7d" = .ok blockOfCall ∧
    blockedCall ∈ blockOfCall.statements ∧
    ∃ q, parse "f(1);" = .ok q ∧ q.body = [(since 2).statement blockedCall] ∧
      (onward 2).statement ((since 2).statement blockedCall) = blockedCall := by
  have parsed : parse "\x7b f(1); \x7d" = .ok blockOfCall := by cbv
  have inside : blockedCall ∈ blockOfCall.statements := .tail _ (.head _)
  have cuts : blockedCall.span.Cuts "\x7b f(1); \x7d" "f(1);" := ⟨"\x7b ", " \x7d", rfl, rfl⟩
  exact ⟨parsed, inside, (reparsed parsed inside).2 _ cuts⟩

end ScriptTree
