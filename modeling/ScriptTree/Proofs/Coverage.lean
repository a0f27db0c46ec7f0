import ScriptTree.Event
import ScriptTree.Proofs.SecondPoint
/-! What becomes of each byte of a text. A token takes it, it is blank, or a listener hears of it,
and each of these once. Where a text is refused this holds up to the number it is refused for. -/
namespace ScriptTree.Text

def blanks : List UInt8 := [32, 9, 10, 13]

def covers (pos : Nat) (t : Token) : Bool := t.span.start ≤ pos && pos < t.span.stop

def heard (pos : Nat) (skips : List StrayByte) : List StrayByte := skips.filter (·.pos == pos)

inductive Fate where
  | token | blank | stray
  deriving DecidableEq, Repr

def Fate.Of (tokens : List Token) (skips : List StrayByte) (pos : Nat) (byte : UInt8) :
    Fate → Prop
  | token => tokens.countP (covers pos) = 1 ∧ heard pos skips = []
  | blank => tokens.countP (covers pos) = 0 ∧ byte ∈ blanks ∧ heard pos skips = []
  | stray => tokens.countP (covers pos) = 0 ∧ byte ∉ blanks ∧ heard pos skips = [⟨pos, byte⟩]

structure Accounted (pos : Nat) (bytes : List UInt8) (tokens : List Token)
    (skips : List StrayByte) : Prop where
  once : ∀ n byte, bytes[n]? = some byte → ∃! fate, Fate.Of tokens skips (pos + n) byte fate
  ordered : skips.Pairwise fun a b => a.pos < b.pos
  taken : ∀ t ∈ tokens, pos ≤ t.span.start ∧ t.span.stop ≤ pos + bytes.length
  skipped : ∀ skip ∈ skips, pos ≤ skip.pos ∧ skip.pos < pos + bytes.length

variable {pos : Nat} {a b : List UInt8} {tokens more : List Token} {skips others : List StrayByte}

theorem fateOnce {byte fate} (of : Fate.Of tokens skips pos byte fate) :
    ∃! fate, Fate.Of tokens skips pos byte fate := by
  refine ⟨fate, of, fun other also => ?_⟩
  have counted : ¬ (tokens.countP (covers pos) = 1 ∧ tokens.countP (covers pos) = 0) := by
    omega
  cases fate with
  | token =>
    cases other with
    | token => rfl
    | blank => exact absurd ⟨of.1, also.1⟩ counted
    | stray => exact absurd ⟨of.1, also.1⟩ counted
  | blank =>
    cases other with
    | token => exact absurd ⟨also.1, of.1⟩ counted
    | blank => rfl
    | stray => exact absurd of.2.1 also.2.1
  | stray =>
    cases other with
    | token => exact absurd ⟨also.1, of.1⟩ counted
    | blank => exact absurd also.2.1 of.2.1
    | stray => rfl

theorem uncovered (far : ∀ t ∈ tokens, t.span.stop ≤ pos ∨ pos < t.span.start) :
    tokens.countP (covers pos) = 0 := by
  rw [List.countP_eq_zero]
  intro t mem
  have apart := far t mem
  simp only [covers, Bool.and_eq_true, decide_eq_true_eq]
  omega

theorem unheard (far : ∀ skip ∈ skips, skip.pos ≠ pos) : heard pos skips = [] := by
  rw [heard, List.filter_eq_nil_iff]
  intro skip mem
  simpa using far skip mem

theorem heardAppend : heard pos (skips ++ others) = heard pos skips ++ heard pos others :=
  List.filter_append ..

theorem fateSame {byte fate} (count : more.countP (covers pos) = tokens.countP (covers pos))
    (calls : heard pos others = heard pos skips) (of : Fate.Of tokens skips pos byte fate) :
    Fate.Of more others pos byte fate := by
  cases fate <;> simp only [Fate.Of, count, calls] <;> exact of

theorem fateFront {byte fate} (far : more.countP (covers pos) = 0) (quiet : heard pos others = [])
    (of : Fate.Of tokens skips pos byte fate) :
    Fate.Of (tokens ++ more) (skips ++ others) pos byte fate := by
  refine fateSame ?_ ?_ of
  · rw [List.countP_append, far, Nat.add_zero]
  · rw [heardAppend, quiet, List.append_nil]

theorem fateBehind {byte fate} (far : tokens.countP (covers pos) = 0) (quiet : heard pos skips = [])
    (of : Fate.Of more others pos byte fate) :
    Fate.Of (tokens ++ more) (skips ++ others) pos byte fate := by
  refine fateSame ?_ ?_ of
  · rw [List.countP_append, far, Nat.zero_add]
  · rw [heardAppend, quiet, List.nil_append]

theorem accountedAppend (first : Accounted pos a tokens skips)
    (second : Accounted (pos + a.length) b more others) :
    Accounted pos (a ++ b) (tokens ++ more) (skips ++ others) := by
  refine ⟨?_, ?_, ?_, ?_⟩
  · -- No token and no skipped byte of one part lies on the other.
    intro n byte here
    by_cases inside : n < a.length
    · rw [List.getElem?_append_left inside] at here
      obtain ⟨fate, of, _⟩ := first.once n byte here
      refine fateOnce (fateFront (uncovered fun t mem => ?_) (unheard fun skip mem => ?_) of)
      · have place := second.taken t mem
        omega
      · have place := second.skipped skip mem
        omega
    · rw [List.getElem?_append_right (by omega)] at here
      obtain ⟨fate, of, _⟩ := second.once (n - a.length) byte here
      have same : pos + a.length + (n - a.length) = pos + n := by omega
      rw [same] at of
      refine fateOnce (fateBehind (uncovered fun t mem => ?_) (unheard fun skip mem => ?_) of)
      · have place := first.taken t mem
        omega
      · have place := first.skipped skip mem
        omega
  · refine List.pairwise_append.mpr ⟨first.ordered, second.ordered, fun skip mem other also => ?_⟩
    have place := first.skipped skip mem
    have further := second.skipped other also
    omega
  · intro t mem
    rw [List.length_append]
    rcases List.mem_append.mp mem with mem | mem
    · have place := first.taken t mem
      omega
    · have place := second.taken t mem
      omega
  · intro skip mem
    rw [List.length_append]
    rcases List.mem_append.mp mem with mem | mem
    · have place := first.skipped skip mem
      omega
    · have place := second.skipped skip mem
      omega

theorem accountedNone : Accounted pos [] [] [] := by
  constructor <;> simp

theorem tokenAccounted {t : Token} (place : t.span = ⟨pos, pos + a.length⟩) :
    Accounted pos a [t] [] := by
  refine ⟨?_, .nil, ?_, by simp⟩
  · intro n byte here
    obtain ⟨inside, _⟩ := List.getElem?_eq_some_iff.mp here
    have covered : covers (pos + n) t = true := by
      simp [covers, place, inside]
    have of : Fate.Of [t] [] (pos + n) byte .token := ⟨by simp [covered], rfl⟩
    exact fateOnce of
  · intro t' mem
    cases List.mem_singleton.mp mem
    simp [place]

theorem blankByte {byte : UInt8} (blank : byte ∈ blanks) : Accounted pos [byte] [] [] := by
  refine ⟨?_, .nil, by simp, by simp⟩
  intro n other here
  obtain ⟨inside, rfl⟩ := List.getElem?_eq_some_iff.mp here
  have of : Fate.Of [] [] (pos + n) [byte][n] .blank := ⟨rfl, by simpa using blank, rfl⟩
  exact fateOnce of

theorem strayByte {byte : UInt8} (other : byte ∉ blanks) :
    Accounted pos [byte] [] [⟨pos, byte⟩] := by
  refine ⟨?_, by simp, by simp, by simp⟩
  intro n same here
  cases n with
  | zero =>
    cases Option.some.inj here
    have of : Fate.Of [] [⟨pos, byte⟩] pos byte .stray := ⟨rfl, other, by simp [heard]⟩
    exact fateOnce of
  | succ n => contradiction

theorem strayBytes {bytes : List UInt8} (other : ∀ byte ∈ bytes, byte ∉ blanks) :
    Accounted pos bytes [] (bytesFrom pos bytes) := by
  induction bytes generalizing pos with
  | nil => exact accountedNone
  | cons byte bytes ih =>
    obtain ⟨first, behind⟩ := List.forall_mem_cons.mp other
    exact accountedAppend (strayByte first) (ih behind)

theorem blankAccounted {c : Char} (blank : isBlank c = true) :
    Accounted pos (encoded [c]) [] [] := by
  rw [encodedOne]
  rcases blankChars blank with rfl | rfl | rfl | rfl
  · exact @blankByte pos 32 (by decide)
  · exact @blankByte pos 9 (by decide)
  · exact @blankByte pos 10 (by decide)
  · exact @blankByte pos 13 (by decide)

theorem strayEncoded {c : Char} (other : isBlank c = false) :
    ∀ byte ∈ String.utf8EncodeChar c, byte ∉ blanks := by
  intro byte mem blank
  have own (d : Char) (same : byte.toNat = d.toNat) (small : d.toNat < 128) : c = d := by
    rcases encodedByte mem with here | large
    · exact Char.toNat_inj.mp (here.symm.trans same)
    · omega
  simp only [blanks, List.mem_cons, List.not_mem_nil, or_false] at blank
  rcases blank with rfl | rfl | rfl | rfl
  · cases own ' ' rfl (by decide)
    contradiction
  · cases own '\t' rfl (by decide)
    contradiction
  · cases own '\n' rfl (by decide)
    contradiction
  · cases own '\r' rfl (by decide)
    contradiction

theorem strayAccounted {c : Char} (other : isBlank c = false) :
    Accounted pos (encoded [c]) [] (bytesFrom pos (String.utf8EncodeChar c)) := by
  rw [encodedOne]
  exact strayBytes (strayEncoded other)

/- What is passed over as blank is blank, and what is passed over as stray is not, so the byte tells
the two apart. -/
def Piece.Fair : Piece → Prop
  | blank c => isBlank c = true
  | stray c => isBlank c = false
  | lexeme _ _ _ => True
  | fault _ _ => True

theorem operatorFair {spelling : List Char} {piece : Piece}
    (found : operator? spelling = some piece) : piece.Fair := by
  obtain ⟨op, _, rfl⟩ := operatorSome.mp found
  trivial

theorem symbolFair {c : Char} (other : isBlank c = false) (cs : List Char) :
    (cutSymbol c cs).1.Fair := by
  unfold cutSymbol
  split
  · trivial
  · split
    · rename_i found
      exact operatorFair found
    · cases found : operator? [c] with
      | none => exact other
      | some piece => exact operatorFair found

theorem cutFair (last : Option Kind) (c : Char) (cs : List Char) : (cut last c cs).1.Fair := by
  unfold cut
  split
  · rename_i blank
    exact blank
  · rename_i other
    split
    · trivial
    · split
      · trivial
      · split
        · unfold cutQuoted
          split <;> trivial
        · split
          · unfold cutNumber
            split
            · split <;> trivial
            · trivial
          · exact symbolFair (Bool.eq_false_iff.mpr other) cs

theorem piecesFair {last : Option Kind} {cs : List Char} : ∀ p ∈ pieces last cs, p.Fair := by
  induction last, cs using pieces.induct with
  | case1 last => simp [pieces]
  | case2 last c cs ih =>
    rw [pieces]
    exact List.forall_mem_cons.mpr ⟨cutFair last c cs, ih⟩

theorem charsAccounted {first rest : List Char} (here : Accounted pos (encoded first) tokens skips)
    (behind : Accounted (pos + width first) (encoded rest) more others) :
    Accounted pos (encoded (first ++ rest)) (tokens ++ more) (skips ++ others) := by
  rw [← encodedSize] at behind
  rw [encodedAppend]
  exact accountedAppend here behind

theorem piecesAccounted {ps : List Piece} (fair : ∀ p ∈ ps, p.Fair)
    (ok : tokensFrom pos ps = .ok tokens) :
    Accounted pos (encoded (ps.flatMap Piece.chars)) tokens (straysFrom pos ps) := by
  induction ps generalizing pos tokens with
  | nil =>
    cases ok
    exact accountedNone
  | cons piece ps ih =>
    obtain ⟨first, rest⟩ := List.forall_mem_cons.mp fair
    rw [List.flatMap_cons]
    cases piece with
    | blank c => exact charsAccounted (blankAccounted first) (ih rest ok)
    | stray c => exact charsAccounted (strayAccounted first) (ih rest ok)
    | lexeme kind text raw =>
      simp only [tokensFrom] at ok
      split at ok
      · rename_i found
        cases ok
        refine charsAccounted (tokenAccounted ?_) (ih rest found)
        rw [placedSpan, encodedSize]
        rfl
      · contradiction
    | fault number unread => contradiction

theorem straysHalted {number unread : List Char} (passed : List Piece) :
    straysFrom pos (passed ++ [.fault number unread]) = straysFrom pos passed := by
  induction passed generalizing pos with
  | nil => rfl
  | cons piece passed ih => cases piece <;> simp only [List.cons_append, straysFrom, ih]

/-- The text is refused for `number`, which starts right behind `before`. These are the tokens that
were read until then. -/
structure Halts (text before number : String) (tokens : List Token) : Prop where
  whole : ∃ behind, text = before ++ number ++ "." ++ behind
  decimal : Decimal number.toList
  run : ∃ passed unread, piecesOf text = passed ++ [.fault number.toList unread] ∧
    passed.flatMap Piece.chars = before.toList ∧ tokensFrom 0 passed = .ok tokens
  alone : tokenize before = .ok tokens

theorem tokenizeHalts {text : String} {e} (failed : tokenize text = .error e) :
    ∃ before number tokens, Halts text before number tokens ∧
      e = .unexpectedChar (before.utf8ByteSize + number.utf8ByteSize) '.' ∧
      Accounted 0 (bytes before) tokens (strays text) := by
  obtain ⟨passed, number, tokens, halted, rfl⟩ := haltsFrom failed
  obtain ⟨behind, spelled⟩ := halted.spells
  obtain ⟨⟨unread, cut⟩, read, decimal, scans⟩ := halted
  refine ⟨String.ofList (passed.flatMap Piece.chars), String.ofList number, tokens, ?_, ?_, ?_⟩
  · refine ⟨⟨String.ofList behind, ?_⟩, ?_, ⟨passed, '.' :: unread, ?_, ?_, read⟩, ?_⟩
    · rw [← String.toList_inj, spelled]
      simp
    · rwa [String.toList_ofList]
    · rw [String.toList_ofList]
      exact cut
    · rw [String.toList_ofList]
    · unfold tokenize piecesOf
      rw [String.toList_ofList]
      exact scanPieces scans
  · rw [Nat.zero_add]
    rfl
  · have fair : ∀ p ∈ passed, p.Fair := by
      intro p mem
      have part : p ∈ pieces none text.toList := cut ▸ List.mem_append_left _ mem
      exact piecesFair p part
    have before := piecesAccounted fair read
    rw [strays, piecesOf, cut, straysHalted, bytesEncoded, String.toList_ofList]
    exact before

theorem tokenizeCovers {text : String} (ok : tokenize text = .ok tokens) :
    Accounted 0 (bytes text) tokens (strays text) := by
  have all := piecesAccounted piecesFair ok
  rw [piecesSpell, ← bytesEncoded] at all
  exact all

theorem bytesAccounted {text : String} :
    (∀ {tokens}, tokenize text = .ok tokens → ∃ skips, Event.ofTokenizing text =
      skips.map .skipped ++ [.tokenized text.utf8ByteSize tokens.length] ∧
      Accounted 0 (bytes text) tokens skips) ∧
    ∀ {e}, tokenize text = .error e → ∃ before number tokens skips,
      Halts text before number tokens ∧
      e = .unexpectedChar (before.utf8ByteSize + number.utf8ByteSize) '.' ∧
      Event.ofTokenizing text = skips.map .skipped ∧ Accounted 0 (bytes before) tokens skips := by
  constructor
  · intro tokens ok
    refine ⟨strays text, ?_, tokenizeCovers ok⟩
    rw [Event.ofTokenizing, ok]
  · intro e failed
    obtain ⟨before, number, tokens, halts, same, accounted⟩ := tokenizeHalts failed
    refine ⟨before, number, tokens, strays text, halts, same, ?_, accounted⟩
    rw [Event.ofTokenizing, failed]
    exact List.append_nil _

theorem halfShiftAccounted : (tokenize "é <\ta" = .ok [.plain .identifier "a" 5] ∧
      ∃ skips, Event.ofTokenizing "é <\ta" = skips.map .skipped ++ [.tokenized 6 1] ∧
        Accounted 0 (bytes "é <\ta") [.plain .identifier "a" 5] skips) ∧
    tokenize "é a1.2 1.2.3 §" = .error (.unexpectedChar 11 '.') ∧
      ∃ before number tokens skips, Halts "é a1.2 1.2.3 §" before number tokens ∧
        Event.ofTokenizing "é a1.2 1.2.3 §" = skips.map .skipped ∧
        Accounted 0 (bytes before) tokens skips := by
  have ok : tokenize "é <\ta" = .ok [.plain .identifier "a" 5] := by cbv
  have failed : tokenize "é a1.2 1.2.3 §" = .error (.unexpectedChar 11 '.') := by cbv
  obtain ⟨before, number, tokens, skips, halts, _, heard, accounted⟩ := bytesAccounted.2 failed
  exact ⟨⟨ok, bytesAccounted.1 ok⟩, failed, before, number, tokens, skips, halts, heard, accounted⟩

end ScriptTree.Text
