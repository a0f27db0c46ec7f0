import ScriptTree.Proofs.Bytes
import ScriptTree.Proofs.Separation
/-! The one way in which a text cannot be cut into tokens. A number has a second point, and it is
read as a number because nothing that was read before it takes its first digit. -/
namespace ScriptTree.Text

def Decimal (number : List Char) : Prop :=
  ∃ digits more, number = digits ++ '.' :: more ∧ digits ≠ [] ∧
    (∀ d ∈ digits, d.isDigit = true) ∧ ∀ d ∈ more, d.isDigit = true

structure Released (tokens : List Token) (stop : Nat) : Prop where
  closed : ∀ t ∈ tokens.getLast?, ¬ t.Unclosed
  apart : ∀ t ∈ tokens, t.kind.grows = true → t.span.stop ≠ stop

def SecondPoint (text : String) (start pos : Nat) : Prop :=
  ∃ before number behind tokens, text = before ++ number ++ "." ++ behind ∧
    start = before.utf8ByteSize ∧ pos = start + number.utf8ByteSize ∧ Decimal number.toList ∧
    tokenize before = .ok tokens ∧ Released tokens start

variable {last : Option Kind} {pos : Nat}

theorem digitParts {d : Char} (digit : d.isDigit = true) :
    isWordPart d = true ∧ isNumberPart d = true := by
  simp [isWordPart, isNumberPart, Char.isAlphanum, digit]

theorem digitAlone {d : Char} (digit : d.isDigit = true) : ¬ Halves d := by
  rintro ⟨op, c, spelled⟩
  rcases operatorSecond spelled with rfl | rfl <;> contradiction

theorem goesOn {p : Char → Bool} {d : Char} {behind : List Char} (part : p d = true) :
    ¬ Ends p (d :: behind) := by
  intro ends
  rw [ends d rfl] at part
  contradiction

theorem Classed.growsNot {kind text raw d behind}
    (classed : Classed last kind text raw (d :: behind)) (digit : d.isDigit = true) :
    kind.grows = false := by
  obtain ⟨word, number⟩ := digitParts digit
  cases classed with
  | keyword _ _ _ maximal => exact absurd maximal (goesOn word)
  | identifier _ _ _ maximal => exact absurd maximal (goesOn word)
  | whole _ _ maximal => exact absurd maximal (goesOn number)
  | decimal _ _ _ maximal => exact absurd maximal (goesOn number)
  | _ => rfl

theorem Classed.closed {kind text raw c behind}
    (classed : Classed last kind text raw (c :: behind)) (pos : Nat) :
    ¬ (placed pos kind text raw).Unclosed := by
  rintro ⟨string, lexeme, found, size⟩
  cases classed with
  | @quoted quote _ _ opens free =>
    cases Option.some.inj found
    have one : width [quote] = 1 := by
      rcases quoteChars opens with rfl | rfl | rfl <;> rfl
    have both : width (quote :: text ++ [quote]) = width text + 1 := size
    rw [widthAppend, widthCons, one] at both
    omega
  | _ =>
    rw [placedKind] at string
    contradiction

theorem decimalLead {number : List Char} (decimal : Decimal number) (behind : List Char) :
    ∃ d more, number ++ behind = d :: more ∧ d.isDigit = true := by
  obtain ⟨digits, more, rfl, filled, digital, _⟩ := decimal
  obtain ⟨d, others, rfl⟩ := List.exists_cons_of_ne_nil filled
  exact ⟨d, _, rfl, digital d List.mem_cons_self⟩

theorem faultCut {digits more : List Char} (digital : ∀ d ∈ digits, d.isDigit = true)
    (decimals : ∀ d ∈ more, d.isDigit = true) (behind : List Char) :
    cutNumber (digits ++ '.' :: (more ++ '.' :: behind)) =
      (.fault (digits ++ '.' :: more) ('.' :: behind), []) := by
  have stops (cs : List Char) : Ends Char.isDigit ('.' :: cs) := by
    intro d next
    cases next
    rfl
  obtain ⟨run, left⟩ := runCut digital (stops (more ++ '.' :: behind))
  obtain ⟨decimalRun, decimalLeft⟩ := runCut decimals (stops behind)
  unfold cutNumber
  rw [run, left]
  simp only [decimalRun, decimalLeft]

theorem decimalFails {number : List Char} (decimal : Decimal number) (behind : List Char) :
    tokensFrom pos (pieces last (number ++ '.' :: behind)) =
      .error (.unexpectedChar (pos + width number) '.') := by
  obtain ⟨d, cs, whole, digit⟩ := decimalLead decimal ('.' :: behind)
  obtain ⟨digits, more, rfl, filled, digital, decimals⟩ := decimal
  have fault := faultCut digital decimals behind
  rw [List.append_assoc, List.cons_append] at whole ⊢
  rw [whole] at fault ⊢
  rw [pieces, cutNumberAt digit, fault, tokensFrom]

theorem secondRefused {before number behind : List Char} {tokens : List Token}
    (scans : Scans last pos before tokens) (released : Released tokens (pos + width before))
    (decimal : Decimal number) : tokensFrom pos (pieces last (before ++ (number ++ '.' :: behind))) =
      .error (.unexpectedChar (pos + width before + width number) '.') := by
  have failed := @decimalFails ((tokens.getLast?.map Token.kind).or last) (pos + width before)
    number decimal behind
  obtain ⟨d, cs, whole, digit⟩ := decimalLead decimal ('.' :: behind)
  rw [whole] at failed ⊢
  rw [scanFollowed scans released.closed (digitAlone digit)
    (fun t mem grows here => absurd here (released.apart t mem grows)), failed]
  rfl

theorem piecesSpell {last : Option Kind} {cs : List Char} :
    (pieces last cs).flatMap Piece.chars = cs := by
  induction last, cs using pieces.induct with
  | case1 last => rw [pieces, List.flatMap_nil]
  | case2 last c cs ih =>
    rw [pieces, List.flatMap_cons, ih]
    have cuts := cutCuts last c cs
    generalize (cut last c cs).1 = piece at cuts
    generalize (cut last c cs).2 = behind at cuts
    generalize c :: cs = text at cuts
    cases cuts with
    | token classed => rfl
    | other closed alone => rcases alone with rfl | rfl <;> rfl
    | fault filled digital decimals => simp [Piece.chars]

structure Halted (last : Option Kind) (pos : Nat) (cs : List Char) (passed : List Piece)
    (number : List Char) (tokens : List Token) : Prop where
  cut : ∃ behind, pieces last cs = passed ++ [.fault number ('.' :: behind)]
  read : tokensFrom pos passed = .ok tokens
  decimal : Decimal number
  scans : Scans last pos (passed.flatMap Piece.chars) tokens
  released : Released tokens (pos + width (passed.flatMap Piece.chars))

variable {cs number : List Char} {passed : List Piece} {tokens : List Token}

theorem Halted.spells (halted : Halted last pos cs passed number tokens) :
    ∃ behind, cs = passed.flatMap Piece.chars ++ number ++ '.' :: behind := by
  obtain ⟨behind, cut⟩ := halted.cut
  have spelled := @piecesSpell last cs
  rw [cut, List.flatMap_append, List.flatMap_singleton] at spelled
  exact ⟨behind, by rw [← spelled, List.append_assoc]; rfl⟩

theorem haltedOther {c : Char} {piece : Piece} (closed : ¬ Opens c cs)
    (alone : piece = .blank c ∨ piece = .stray c)
    (front : pieces last (c :: cs) = piece :: pieces last cs)
    (halted : Halted last (pos + width [c]) cs passed number tokens) :
    Halted last pos (c :: cs) (piece :: passed) number tokens := by
  obtain ⟨more, whole⟩ := halted.spells
  obtain ⟨⟨behind, cut⟩, read, decimal, scans, released⟩ := halted
  have skips : Scans last pos (c :: passed.flatMap Piece.chars) tokens := by
    refine .skip (fun opens => closed ?_) scans
    rw [whole, List.append_assoc]
    exact opensLonger _ opens
  have chars : (piece :: passed).flatMap Piece.chars = c :: passed.flatMap Piece.chars := by
    rcases alone with rfl | rfl <;> rfl
  refine ⟨⟨behind, by rw [front, cut, List.cons_append]⟩, ?_, decimal, chars ▸ skips, ?_⟩
  · rcases alone with rfl | rfl <;> exact read
  · rwa [chars, widthCons, ← Nat.add_assoc]

theorem releasedToken {kind text raw before d behind tokens}
    (classed : Classed last kind text raw (before ++ d :: behind)) (digit : d.isDigit = true)
    (released : Released tokens (pos + width (raw.getD text) + width before)) :
    Released (placed pos kind text raw :: tokens) (pos + width (raw.getD text) + width before) := by
  constructor
  · intro t final
    cases tokens with
    | cons u more => exact released.closed t final
    | nil =>
      cases Option.some.inj final
      cases before with
      | nil => exact classed.closed pos
      | cons c before => exact classed.closed pos
  · refine List.forall_mem_cons.mpr ⟨?_, released.apart⟩
    rw [placedKind, placedSpan]
    intro grows
    cases before with
    | nil =>
      rw [classed.growsNot digit] at grows
      contradiction
    | cons c before =>
      have positive := widthPositive c before
      simp only
      omega

theorem haltedToken {kind text raw behind} (classed : Classed last kind text raw behind)
    (front : pieces last (raw.getD text ++ behind) =
      .lexeme kind text raw :: pieces (some kind) behind)
    (halted : Halted (some kind) (pos + width (raw.getD text)) behind passed number tokens) :
    Halted last pos (raw.getD text ++ behind) (.lexeme kind text raw :: passed) number
      (placed pos kind text raw :: tokens) := by
  obtain ⟨more, whole⟩ := halted.spells
  obtain ⟨⟨unread, cut⟩, read, decimal, scans, released⟩ := halted
  obtain ⟨d, others, lead, digit⟩ := decimalLead decimal ('.' :: more)
  -- The lexeme stays one without the number, whose first digit it does not take.
  rw [whole, List.append_assoc] at classed
  refine ⟨⟨unread, by rw [front, cut, List.cons_append]⟩, ?_, decimal,
    .token classed.shorter scans, ?_⟩
  · rw [tokensFrom, read]
  · have free := releasedToken (lead ▸ classed) digit released
    rw [Nat.add_assoc, ← widthAppend] at free
    exact free

theorem haltsFrom {e} (failed : tokensFrom pos (pieces last cs) = .error e) :
    ∃ passed number tokens, Halted last pos cs passed number tokens ∧
      e = .unexpectedChar (pos + width (passed.flatMap Piece.chars) + width number) '.' := by
  induction last, cs using pieces.induct generalizing pos with
  | case1 last =>
    rw [pieces] at failed
    contradiction
  | case2 last c cs ih =>
    have front : pieces last (c :: cs) = (cut last c cs).1 ::
        pieces ((cut last c cs).1.kind?.or last) (cut last c cs).2 := by
      rw [pieces]
    rw [front] at failed
    have cuts := cutCuts last c cs
    generalize (cut last c cs).1 = piece at failed ih cuts front
    generalize (cut last c cs).2 = behind at failed ih cuts front
    generalize whole : c :: cs = text at cuts front
    cases cuts with
    | token classed =>
      simp only [tokensFrom] at failed
      split at failed
      · contradiction
      · rename_i found
        cases failed
        obtain ⟨passed, number, tokens, halted, rfl⟩ := ih found
        refine ⟨_, number, _, haltedToken classed front halted, ?_⟩
        rw [List.flatMap_cons, widthAppend, ← Nat.add_assoc]
        rfl
    | @other d _ _ closed alone =>
      have passed : piece.kind?.or last = last ∧ piece.chars = [d] ∧
          tokensFrom (pos + width [d]) (pieces last behind) = .error e := by
        rcases alone with rfl | rfl <;> exact ⟨rfl, rfl, failed⟩
      obtain ⟨kind, chars, failed⟩ := passed
      rw [kind] at front ih
      obtain ⟨passed, number, tokens, halted, rfl⟩ := ih failed
      refine ⟨_, number, tokens, haltedOther closed alone front halted, ?_⟩
      rw [List.flatMap_cons, chars, widthAppend, ← Nat.add_assoc]
    | @fault digits more behind filled digital decimals =>
      cases failed
      rw [pieces] at front
      have decimal : Decimal (digits ++ '.' :: more) :=
        ⟨digits, more, rfl, filled, digital, decimals⟩
      have free : Released [] pos := ⟨by simp, by simp⟩
      exact ⟨[], _, [], ⟨⟨behind, front⟩, rfl, decimal, .done, free⟩, rfl⟩

theorem tokenizeFails {text : String} {e} :
    tokenize text = .error e ↔ ∃ start pos, e = .unexpectedChar pos '.' ∧
      SecondPoint text start pos := by
  constructor
  · intro failed
    obtain ⟨passed, number, tokens, halted, rfl⟩ := haltsFrom failed
    obtain ⟨behind, spelled⟩ := halted.spells
    refine ⟨width (passed.flatMap Piece.chars), width (passed.flatMap Piece.chars) + width number,
      by rw [Nat.zero_add], ?_⟩
    refine ⟨String.ofList (passed.flatMap Piece.chars), String.ofList number, String.ofList behind,
      tokens, ?_, rfl, rfl, ?_, ?_, ?_⟩
    · rw [← String.toList_inj, spelled]
      simp
    · rw [String.toList_ofList]
      exact halted.decimal
    · unfold tokenize piecesOf
      rw [String.toList_ofList]
      exact scanPieces halted.scans
    · have free := halted.released
      rwa [Nat.zero_add] at free
  · rintro ⟨start, pos, rfl, before, number, behind, tokens, rfl, rfl, rfl, decimal, ok, released⟩
    have refused := @secondRefused none 0 before.toList number.toList behind.toList tokens
      (piecesScan ok) (by rwa [Nat.zero_add, widthText]) decimal
    rw [Nat.zero_add, widthText, widthText] at refused
    unfold tokenize piecesOf
    simpa using refused

theorem secondPointRefused {text : String} {pos : Nat} {c : Char} :
    (tokenize text = .error (.unexpectedChar pos c) ↔
      c = '.' ∧ ∃ start, SecondPoint text start pos) ∧
    (∀ {e}, tokenize text = .error e → ∃ pos, e = .unexpectedChar pos '.') ∧
    (tokenize text = .error (.unexpectedChar pos c) → ∀ {other}, SameUpTo pos text other →
      tokenize other = .error (.unexpectedChar pos c)) := by
  refine ⟨?_, ?_, ?_⟩
  · rw [tokenizeFails]
    constructor
    · rintro ⟨start, pos', same, second⟩
      cases same
      exact ⟨rfl, start, second⟩
    · rintro ⟨rfl, start, second⟩
      exact ⟨start, pos, rfl, second⟩
  · intro e failed
    obtain ⟨_, pos', same, _⟩ := tokenizeFails.mp failed
    exact ⟨pos', same⟩
  · intro failed other same
    obtain ⟨start, pos', found, before, number, behind, tokens, whole, first, place, rest⟩ :=
      tokenizeFails.mp failed
    cases found
    have chars : text.toList = (before.toList ++ number.toList ++ ['.']) ++ behind.toList := by
      simp [whole]
    have size : width (before.toList ++ number.toList ++ ['.']) = pos + 1 := by
      rw [widthAppend, widthAppend, widthText, widthText, place, first]
      rfl
    obtain ⟨behind', split⟩ := frontSame chars size same
    refine tokenizeFails.mpr ⟨start, pos, rfl, before, number, String.ofList behind', tokens, ?_,
      first, place, rest⟩
    rw [← String.toList_inj, split]
    simp

theorem quotedPointRefused : tokenize "é'a.5.'b1 2.5.7" = .error (.unexpectedChar 14 '.') ∧
    (∃ start, SecondPoint "é'a.5.'b1 2.5.7" start 14) ∧
    tokenize "é'a.5.'b1 2.5. 'x" = .error (.unexpectedChar 14 '.') := by
  have failed : tokenize "é'a.5.'b1 2.5.7" = .error (.unexpectedChar 14 '.') := by cbv
  have same : SameUpTo 14 "é'a.5.'b1 2.5.7" "é'a.5.'b1 2.5. 'x" := by
    unfold SameUpTo
    decide
  obtain ⟨exactly, _, onward⟩ := @secondPointRefused "é'a.5.'b1 2.5.7" 14 '.'
  exact ⟨failed, (exactly.mp failed).2, onward failed same⟩

end ScriptTree.Text
