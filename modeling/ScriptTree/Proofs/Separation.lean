import ScriptTree.Proofs.Slice
/-! Blanks between tokens. A blank ends every lexeme but a quoted one that is not closed, and opens
none. So the tokens of a text may be written again with any blanks between them, and a text falls
into two at blanks, which are scanned each for itself. -/
namespace ScriptTree

structure Blank where
  text : String
  blank : ∀ c ∈ text.toList, Text.isBlank c = true

structure Gap extends Blank where
  filled : text ≠ ""

def Token.moved (t : Token) (pos : Nat) : Token :=
  { t with span := ⟨pos, pos + t.lexeme.utf8ByteSize⟩ }

namespace Gap

def joined (gaps : Nat → Gap) : List Token → String
  | [] => ""
  | [t] => t.lexeme
  | t :: u :: more => t.lexeme ++ (gaps 0).text ++ joined (fun n => gaps (n + 1)) (u :: more)

def laid (gaps : Nat → Gap) (pos : Nat) : List Token → List Token
  | [] => []
  | t :: more =>
    t.moved pos :: laid (fun n => gaps (n + 1))
      (pos + t.lexeme.utf8ByteSize + (gaps 0).text.utf8ByteSize) more

end Gap

namespace Relabeling
variable (r : Relabeling)

def error : Error → Error
  | .unexpectedChar pos c => .unexpectedChar (r.offset pos) c
  | .unexpectedToken pos expected actual =>
    .unexpectedToken (r.offset pos) expected (actual.map r.token)

end Relabeling

namespace Text
open Relabeling (onward)

variable {last : Option Kind} {b : Char}

theorem blankParts (blank : isBlank b = true) : isWordPart b = false ∧ isNumberPart b = false := by
  rcases blankChars blank with rfl | rfl | rfl | rfl <;> decide

theorem endsFollowed {p : Char → Bool} {behind : List Char} (ends : Ends p behind)
    (other : behind = [] → p b = false) (more : List Char) : Ends p (behind ++ b :: more) := by
  cases behind with
  | nil =>
    intro d next
    cases next
    exact other rfl
  | cons c behind => exact ends

theorem endsNothing {p : Char → Bool} : Ends p [] := by
  intro d next
  contradiction

theorem operatorSecond {op : Operator} {c d : Char} (spelled : op.lexeme = String.ofList [c, d]) :
    d = '<' ∨ d = '>' := by
  have chars := congrArg String.toList spelled.symm
  rw [String.toList_ofList] at chars
  cases op <;> cases chars
  · exact .inl rfl
  · exact .inr rfl

def Halves (b : Char) : Prop := ∃ (op : Operator) (c : Char), op.lexeme = String.ofList [c, b]

theorem blankAlone (blank : isBlank b = true) : ¬ Halves b := by
  rintro ⟨op, c, spelled⟩
  rcases operatorSecond spelled with rfl | rfl <;> contradiction

theorem opensFollowed {c : Char} {cs more : List Char} (alone : ¬ Halves b)
    (opens : Opens c (cs ++ b :: more)) : Opens c cs := by
  rcases opens with letter | digit | quote | mark | op | ⟨op, d, next, spelled⟩
  · exact .inl letter
  · exact .inr (.inl digit)
  · exact .inr (.inr (.inl quote))
  · exact .inr (.inr (.inr (.inl mark)))
  · exact .inr (.inr (.inr (.inr (.inl op))))
  · cases cs with
    | cons e cs => exact .inr (.inr (.inr (.inr (.inr ⟨op, d, next, spelled⟩))))
    | nil =>
      obtain rfl : b = d := Option.some.inj next
      exact absurd ⟨op, c, spelled⟩ alone

theorem blanksSkipped {pos : Nat} {blanks cs : List Char} {tokens : List Token}
    (all : ∀ c ∈ blanks, isBlank c = true)
    (scans : Scans last (pos + width blanks) cs tokens) : Scans last pos (blanks ++ cs) tokens := by
  induction blanks generalizing pos with
  | nil => exact scans
  | cons c blanks ih =>
    obtain ⟨blank, others⟩ := List.forall_mem_cons.mp all
    rw [widthCons, ← Nat.add_assoc] at scans
    exact .skip (blankOther blank _) (ih others scans)

theorem placedMoved {pos pos' kind text raw} :
    (placed pos kind text raw).moved pos' = placed pos' kind text raw := by
  cases raw <;> rfl

theorem gapFilled (gap : Gap) : gap.text.toList ≠ [] :=
  fun none => gap.filled (String.toList_eq_nil_iff.mp none)

theorem scanAlone {pos kind text raw} (classed : Classed last kind text raw []) :
    Scans last pos (raw.getD text) [placed pos kind text raw] := by
  have scans : Scans last pos (raw.getD text ++ []) [placed pos kind text raw] :=
    .token classed .done
  rwa [List.append_nil] at scans

/- What stood behind a token does not matter but for a quoted text that is not closed, which is the
last one here as there. -/
theorem scanJoined {pos cs tokens} (scans : Scans last pos cs tokens) (gaps : Nat → Gap)
    (pos' : Nat) : Scans last pos' (Gap.joined gaps tokens).toList (Gap.laid gaps pos' tokens) := by
  induction scans generalizing gaps pos' with
  | done => exact .done
  | skip closed next ih => exact ih gaps pos'
  | @token last pos kind text raw behind tokens classed next ih =>
    have size : (placed pos kind text raw).lexeme.utf8ByteSize = width (raw.getD text) := by
      rw [← widthText, placedLexeme]
    cases tokens with
    | nil =>
      rw [Gap.joined, Gap.laid, Gap.laid, placedLexeme, placedMoved]
      exact scanAlone (@Classed.shorter _ _ _ _ [] behind classed)
    | cons u more =>
      have rest := ih (fun n => gaps (n + 1))
        (pos' + width (raw.getD text) + width (gaps 0).text.toList)
      have apart := blanksSkipped (gaps 0).blank rest
      obtain ⟨b, blanks, filled⟩ := List.exists_cons_of_ne_nil (gapFilled (gaps 0))
      obtain ⟨word, number⟩ := blankParts ((gaps 0).blank b (by simp [filled]))
      rw [Gap.joined, Gap.laid, String.toList_append, String.toList_append, placedLexeme,
        placedMoved, size, ← widthText (gaps 0).text, List.append_assoc]
      rw [filled] at apart ⊢
      rcases classed.ended (fun _ _ => endsFollowed endsNothing (fun _ => word) _)
        (fun _ _ => endsFollowed endsNothing (fun _ => number) _) with there | ⟨none, _⟩
      · exact .token there apart
      · subst none
        exact absurd (lexedEmpty (scanLexed next)) (List.cons_ne_nil _ _)

theorem joinedTokenized {text : String} {tokens : List Token} (ok : tokenize text = .ok tokens)
    (lead : Blank) (gaps : Nat → Gap) :
    tokenize (lead.text ++ Gap.joined gaps tokens) =
      .ok (Gap.laid gaps lead.text.utf8ByteSize tokens) := by
  have scans := scanJoined (piecesScan ok) gaps (0 + width lead.text.toList)
  have whole := scanPieces (blanksSkipped lead.blank scans)
  rw [Nat.zero_add, widthText] at whole
  unfold tokenize piecesOf
  rw [String.toList_append, whole]

def spaceAndTab : Gap := ⟨⟨" \t", by simp [isBlank]⟩, by simp⟩

def gluedTokens : List Token :=
  [.literal .number "12" "12" 0, .plain .identifier "ab" 2, .plain (.operator .shl) "<<" 6,
    .literal .string "x" "'x" 8]

theorem gluedJoined : tokenize "12ab§<<'x" = .ok gluedTokens ∧
    tokenize " \t12 \tab \t<< \t'x" = .ok [.literal .number "12" "12" 2,
      .plain .identifier "ab" 6, .plain (.operator .shl) "<<" 10, .literal .string "x" "'x" 14] := by
  have ok : tokenize "12ab§<<'x" = .ok gluedTokens := by cbv
  have joined := joinedTokenized ok spaceAndTab.toBlank fun _ => spaceAndTab
  have written : spaceAndTab.text ++ Gap.joined (fun _ => spaceAndTab) gluedTokens =
    " \t12 \tab \t<< \t'x" := by cbv
  rw [written] at joined
  exact ⟨ok, joined⟩

theorem tokensOnward (k pos : Nat) (ps : List Piece) : tokensFrom (pos + k) ps =
    ((tokensFrom pos ps).map (onward k).tokens).mapError (onward k).error := by
  induction ps generalizing pos with
  | nil => rfl
  | cons piece ps ih =>
    cases piece with
    | fault number unread =>
      simp only [tokensFrom, Nat.add_right_comm pos k]
      rfl
    | lexeme kind text raw =>
      simp only [tokensFrom, Nat.add_right_comm pos k, ih]
      cases tokensFrom (pos + width (raw.getD text)) ps with
      | error e => rfl
      | ok tokens =>
        simp only [Except.map, Except.mapError, Grammar.tokensCons, placedOnward]
    | blank c =>
      simp only [tokensFrom, Nat.add_right_comm pos k, ih]
    | stray c =>
      simp only [tokensFrom, Nat.add_right_comm pos k, ih]

theorem cutNeutral (place : ¬ (last = some (.keyword .importWord) ∨ last = some (.keyword .exportWord)))
    (c : Char) (cs : List Char) : cut last c cs = cut none c cs := by
  unfold cut
  rw [starProduct place]
  rfl

theorem piecesNeutral
    (place : ¬ (last = some (.keyword .importWord) ∨ last = some (.keyword .exportWord)))
    (cs : List Char) : pieces last cs = pieces none cs := by
  induction last, cs using pieces.induct with
  | case1 last => rw [pieces, pieces]
  | case2 last c cs ih =>
    rw [pieces, pieces]
    rw [cutNeutral place] at ih ⊢
    cases kind : (cut none c cs).1.kind? with
    | some k => rfl
    | none =>
      rw [kind] at ih
      rw [Option.none_or, Option.none_or]
      exact congrArg _ (ih place)

theorem blanksPassed {blanks : List Char} (all : ∀ c ∈ blanks, isBlank c = true) (last : Option Kind)
    (pos : Nat) (cs : List Char) : tokensFrom pos (pieces last (blanks ++ cs)) =
      tokensFrom (pos + width blanks) (pieces last cs) := by
  induction blanks generalizing pos with
  | nil => rfl
  | cons c blanks ih =>
    obtain ⟨blank, others⟩ := List.forall_mem_cons.mp all
    rw [List.cons_append, closedPassed (blankOther blank _), ih others, widthCons c blanks,
      Nat.add_assoc]

/- Nothing before `b` goes on with it: no quoted text is open, no operator is half read, and no word
or number that would take it ends right there. -/
theorem scanFollowed {pos cs tokens} (scans : Scans last pos cs tokens)
    (closed : ∀ t ∈ tokens.getLast?, ¬ t.Unclosed) (alone : ¬ Halves b)
    (ends : ∀ t ∈ tokens, t.kind.grows = true → t.span.stop = pos + width cs →
      isWordPart b = false ∧ isNumberPart b = false) (more : List Char) :
    tokensFrom pos (pieces last (cs ++ b :: more)) =
      (tokensFrom (pos + width cs) (pieces ((tokens.getLast?.map Token.kind).or last)
        (b :: more))).map (tokens ++ ·) := by
  induction scans with
  | @done last pos =>
    rw [List.nil_append, widthNil, List.getLast?_nil, Option.map_none, Option.none_or]
    cases tokensFrom pos (pieces last (b :: more)) <;> rfl
  | @skip last pos c cs tokens apart next ih =>
    have there : ¬ Opens c (cs ++ b :: more) := fun opens => apart (opensFollowed alone opens)
    rw [widthCons c cs, ← Nat.add_assoc] at ends ⊢
    rw [List.cons_append, closedPassed there, ih closed ends]
  | @token last pos kind text raw behind tokens classed next ih =>
    rw [widthAppend, ← Nat.add_assoc] at ends ⊢
    obtain ⟨here, behindEnds⟩ := List.forall_mem_cons.mp ends
    rw [placedKind, placedSpan] at here
    have other (grows : kind.grows = true) (none : behind = []) :
        isWordPart b = false ∧ isNumberPart b = false := here grows (by rw [none]; rfl)
    rcases classed.ended (fun grows end' => endsFollowed end' (fun none => (other grows none).1) more)
      (fun grows end' => endsFollowed end' (fun none => (other grows none).2) more) with
      there | ⟨rfl, unclosed⟩
    · have later : ∀ t ∈ tokens.getLast?, ¬ t.Unclosed := by
        intro t final
        refine closed t ?_
        rw [List.getLast?_cons, Option.mem_def.mp final]
        rfl
      rw [List.append_assoc, classedTaken there, ih later behindEnds, lastKind, placedKind]
      cases tokensFrom (pos + width (raw.getD text) + width behind)
        (pieces ((tokens.getLast?.map Token.kind).or (some kind)) (b :: more)) <;> rfl
    · obtain rfl := lexedEmpty (scanLexed next)
      exact absurd (unclosed pos) (closed _ rfl)

theorem scanThen {pos cs tokens} (scans : Scans last pos cs tokens)
    (closed : ∀ t ∈ tokens.getLast?, ¬ t.Unclosed) (blank : isBlank b = true) (more : List Char) :
    tokensFrom pos (pieces last (cs ++ b :: more)) =
      (tokensFrom (pos + width cs) (pieces ((tokens.getLast?.map Token.kind).or last)
        (b :: more))).map (tokens ++ ·) :=
  scanFollowed scans closed (blankAlone blank) (fun _ _ _ _ => blankParts blank) more

theorem lastNeutral {tokens : List Token} (other : ∀ t ∈ tokens.getLast?,
      t.kind ≠ .keyword .importWord ∧ t.kind ≠ .keyword .exportWord) :
    ¬ ((tokens.getLast?.map Token.kind).or none = some (.keyword .importWord) ∨
      (tokens.getLast?.map Token.kind).or none = some (.keyword .exportWord)) := by
  rw [Option.or_none]
  cases final : tokens.getLast? with
  | none => simp
  | some t =>
    obtain ⟨imports, exports⟩ := other t final
    simp [imports, exports]

theorem apartTokenized {text : String} {tokens : List Token} (ok : tokenize text = .ok tokens)
    (other : ∀ t ∈ tokens.getLast?, t.kind ≠ .keyword .importWord ∧ t.kind ≠ .keyword .exportWord)
    (closed : ∀ t ∈ tokens.getLast?, ¬ t.Unclosed) (gap : Gap) (more : String) :
    tokenize (text ++ gap.text ++ more) =
      ((tokenize more).map fun others =>
        tokens ++ (onward (text ++ gap.text).utf8ByteSize).tokens others).mapError
          (onward (text ++ gap.text).utf8ByteSize).error := by
  obtain ⟨b, blanks, filled⟩ := List.exists_cons_of_ne_nil (gapFilled gap)
  have blank : isBlank b = true := gap.blank b (by simp [filled])
  have parts : (text ++ gap.text ++ more).toList =
      text.toList ++ b :: (blanks ++ more.toList) := by
    rw [String.toList_append, String.toList_append, filled, List.append_assoc, List.cons_append]
  have size : width text.toList + width (b :: blanks) = (text ++ gap.text).utf8ByteSize := by
    rw [← filled, widthText, widthText, String.utf8ByteSize_append]
  have behind : tokensFrom (width text.toList)
      (pieces ((tokens.getLast?.map Token.kind).or none) (b :: (blanks ++ more.toList))) =
      tokensFrom (0 + (text ++ gap.text).utf8ByteSize) (pieces none more.toList) := by
    rw [← List.cons_append, blanksPassed (filled ▸ gap.blank), piecesNeutral (lastNeutral other),
      size, Nat.zero_add]
  unfold tokenize piecesOf
  rw [parts, scanThen (piecesScan ok) closed blank, Nat.zero_add, behind, tokensOnward]
  cases tokensFrom 0 (pieces none more.toList) <;> rfl

theorem quotedApart : tokenize "'x'<" = .ok [.literal .string "x" "'x'" 0] ∧
    (∀ t ∈ [Token.literal .string "x" "'x'" 0].getLast?,
      t.kind ≠ .keyword .importWord ∧ t.kind ≠ .keyword .exportWord) ∧
    (∀ t ∈ [Token.literal .string "x" "'x'" 0].getLast?, ¬ t.Unclosed) ∧
    tokenize "< 1.2.3" = .error (.unexpectedChar 5 '.') ∧
    tokenize "'x'< \t< 1.2.3" = .error (.unexpectedChar 11 '.') := by
  have ok : tokenize "'x'<" = .ok [.literal .string "x" "'x'" 0] := by cbv
  have other : ∀ t ∈ [Token.literal .string "x" "'x'" 0].getLast?,
      t.kind ≠ .keyword .importWord ∧ t.kind ≠ .keyword .exportWord := by
    intro t final
    cases Option.some.inj final
    decide
  have closed : ∀ t ∈ [Token.literal .string "x" "'x'" 0].getLast?, ¬ t.Unclosed := by
    intro t final
    cases Option.some.inj final
    rintro ⟨_, raw, same, size⟩
    cases Option.some.inj same
    exact absurd size (by decide)
  have failed : tokenize "< 1.2.3" = .error (.unexpectedChar 5 '.') := by cbv
  have apart := apartTokenized ok other closed spaceAndTab "< 1.2.3"
  have written : "'x'<" ++ spaceAndTab.text ++ "< 1.2.3" = "'x'< \t< 1.2.3" := by cbv
  rw [failed, written] at apart
  exact ⟨ok, other, closed, failed, apart⟩

end Text

end ScriptTree
