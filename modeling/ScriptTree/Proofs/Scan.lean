import ScriptTree.Proofs.Lexeme
/-! The tokens of a text, step by step and as a whole. Step by step, a lexeme is taken or a
character that opens none is passed. As a whole, each token stands on its span in its class, and
every character that opens a token lies on the span of one. -/
namespace ScriptTree.Text

inductive Scans : Option Kind → Nat → List Char → List Token → Prop where
  | done {last pos} : Scans last pos [] []
  | skip {last pos c cs tokens} (closed : ¬ Opens c cs)
      (next : Scans last (pos + width [c]) cs tokens) : Scans last pos (c :: cs) tokens
  | token {last pos kind text raw behind tokens} (classed : Classed last kind text raw behind)
      (next : Scans (some kind) (pos + width (raw.getD text)) behind tokens) :
      Scans last pos (raw.getD text ++ behind) (placed pos kind text raw :: tokens)

theorem piecesScan {last pos cs tokens} (ok : tokensFrom pos (pieces last cs) = .ok tokens) :
    Scans last pos cs tokens := by
  induction last, cs using pieces.induct generalizing pos tokens with
  | case1 last =>
    rw [pieces] at ok
    cases ok
    exact .done
  | case2 last c cs ih =>
    rw [pieces] at ok
    have cuts := cutCuts last c cs
    generalize (cut last c cs).1 = piece at ok ih cuts
    generalize (cut last c cs).2 = behind at ok ih cuts
    generalize c :: cs = text at cuts
    cases cuts with
    | token classed =>
      simp only [tokensFrom] at ok
      split at ok
      · rename_i found
        cases ok
        exact .token classed (ih found)
      · contradiction
    | other closed alone =>
      rcases alone with rfl | rfl
      · exact .skip closed (ih ok)
      · exact .skip closed (ih ok)
    | fault => contradiction

theorem cutClosed {c cs} (closed : ¬ Opens c cs) (last : Option Kind) :
    cut last c cs = (.blank c, cs) ∨ cut last c cs = (.stray c, cs) := by
  have cuts := cutCuts last c cs
  generalize cut last c cs = both at cuts
  obtain ⟨piece, behind⟩ := both
  simp only at cuts
  generalize whole : c :: cs = text at cuts
  cases cuts with
  | token classed =>
    obtain ⟨d, ds, lead, opens⟩ := classed.opens
    rw [lead] at whole
    cases whole
    exact absurd opens closed
  | other _ alone =>
    cases whole
    rcases alone with rfl | rfl
    · exact .inl rfl
    · exact .inr rfl
  | @fault digits more behind filled digital =>
    obtain ⟨d, ds, lead, opens⟩ := digitOpens filled digital [] ('.' :: (more ++ '.' :: behind))
    rw [List.append_nil] at lead
    rw [lead] at whole
    cases whole
    exact absurd opens closed

theorem closedPassed {c cs} (closed : ¬ Opens c cs) (last : Option Kind) (pos : Nat) :
    tokensFrom pos (pieces last (c :: cs)) = tokensFrom (pos + width [c]) (pieces last cs) := by
  rw [pieces]
  rcases cutClosed closed last with alone | alone
  · rw [alone]
    rfl
  · rw [alone]
    rfl

theorem classedTaken {last kind text raw behind} (classed : Classed last kind text raw behind)
    (pos : Nat) : tokensFrom pos (pieces last (raw.getD text ++ behind)) =
      (tokensFrom (pos + width (raw.getD text)) (pieces (some kind) behind)).map
        (placed pos kind text raw :: ·) := by
  obtain ⟨c, cs, lead, _⟩ := classed.opens
  have whole : raw.getD text ++ behind = c :: (cs ++ behind) := by
    rw [lead, List.cons_append]
  rw [whole, pieces, classed.cut whole]
  simp only [Piece.kind?, Option.some_or, tokensFrom]
  cases tokensFrom (pos + width (raw.getD text)) (pieces (some kind) behind) <;> rfl

theorem scanPieces {last pos cs tokens} (scans : Scans last pos cs tokens) :
    tokensFrom pos (pieces last cs) = .ok tokens := by
  induction scans with
  | done => rw [pieces, tokensFrom]
  | @skip last pos c cs tokens closed next ih => rw [closedPassed closed, ih]
  | @token last pos kind text raw behind tokens classed next ih =>
    rw [classedTaken classed, ih]
    rfl

def Stands (pos : Nat) (text : List Char) (t : Token) (before behind : List Char) : Prop :=
  text = before ++ (t.lexeme.toList ++ behind) ∧
    t.span = ⟨pos + width before, pos + width before + width t.lexeme.toList⟩

structure Lexed (last : Option Kind) (pos : Nat) (text : List Char) (tokens : List Token) :
    Prop where
  filled : ∀ t ∈ tokens, t.span.start < t.span.stop
  ordered : tokens.Pairwise fun t u => t.span.stop ≤ u.span.start
  classed : ∀ {earlier t later}, tokens = earlier ++ t :: later → ∃ before behind,
    Stands pos text t before behind ∧ Classed ((earlier.getLast?.map Token.kind).or last)
      t.kind t.text.toList (t.raw.map String.toList) behind
  covered : ∀ {before c behind}, text = before ++ c :: behind → Opens c behind →
    ∃ t ∈ tokens, t.span.start ≤ pos + width before ∧ pos + width before < t.span.stop

@[simp] theorem widthNil : width [] = 0 := rfl

theorem widthAppend (a b : List Char) : width (a ++ b) = width a + width b := by
  simp [width, String.ofList_append, String.utf8ByteSize_append]

theorem widthCons (c : Char) (cs : List Char) : width (c :: cs) = width [c] + width cs :=
  widthAppend [c] cs

theorem widthText (text : String) : width text.toList = text.utf8ByteSize := by
  rw [width, String.ofList_toList]

theorem widthPositive (c : Char) (cs : List Char) : 0 < width (c :: cs) := by
  rw [widthCons]
  have one : width [c] = c.utf8Size := by simp [width]
  have positive := Char.utf8Size_pos c
  omega

theorem placedKind {pos kind text raw} : (placed pos kind text raw).kind = kind := by
  cases raw <;> rfl

theorem placedLexeme {pos kind text raw} :
    (placed pos kind text raw).lexeme.toList = raw.getD text := by
  cases raw <;> simp [placed, Token.lexeme, Token.plain, Token.literal]

theorem placedSpan {pos kind text raw} :
    (placed pos kind text raw).span = ⟨pos, pos + width (raw.getD text)⟩ := by
  cases raw <;> rfl

theorem placedFields {pos kind text raw} : (placed pos kind text raw).text.toList = text ∧
    (placed pos kind text raw).raw.map String.toList = raw := by
  cases raw <;> simp [placed, Token.plain, Token.literal]

theorem placedAgain {pos : Nat} {t : Token}
    (place : t.span = ⟨pos, pos + width t.lexeme.toList⟩) :
    placed pos t.kind t.text.toList (t.raw.map String.toList) = t := by
  obtain ⟨kind, text, span, raw⟩ := t
  cases raw <;> simp [placed, Token.plain, Token.literal, Token.lexeme, width] at place ⊢ <;>
    exact place.symm

theorem Lexed.stands {last pos text tokens} (lexed : Lexed last pos text tokens) {t : Token}
    (mem : t ∈ tokens) : ∃ before behind, Stands pos text t before behind := by
  obtain ⟨earlier, later, split⟩ := List.append_of_mem mem
  obtain ⟨before, behind, stands, _⟩ := lexed.classed split
  exact ⟨before, behind, stands⟩

theorem lastKind {u : Token} {earlier : List Token} {last : Option Kind} :
    ((u :: earlier).getLast?.map Token.kind).or last =
      (earlier.getLast?.map Token.kind).or (some u.kind) := by
  rw [List.getLast?_cons]
  cases earlier.getLast? <;> rfl

theorem lexedDone {last pos} : Lexed last pos [] [] := by
  constructor
  · intro t mem
    contradiction
  · exact .nil
  · intro earlier t later split
    have empty := congrArg List.length split
    simp at empty
  · intro before c behind whole
    have empty := congrArg List.length whole
    simp at empty

theorem lexedSkip {last pos c cs tokens} (closed : ¬ Opens c cs)
    (lexed : Lexed last (pos + width [c]) cs tokens) : Lexed last pos (c :: cs) tokens := by
  refine ⟨lexed.filled, lexed.ordered, ?_, ?_⟩
  · intro earlier t later split
    obtain ⟨before, behind, ⟨whole, place⟩, classed⟩ := lexed.classed split
    refine ⟨c :: before, behind, ⟨by rw [whole, List.cons_append], ?_⟩, classed⟩
    rw [place, widthCons c before, Nat.add_assoc pos]
  · intro before d behind whole opens
    cases before with
    | nil =>
      obtain ⟨rfl, rfl⟩ := List.cons.inj whole
      exact absurd opens closed
    | cons e before =>
      obtain ⟨rfl, rest⟩ := List.cons.inj whole
      obtain ⟨t, mem, covers⟩ := lexed.covered rest opens
      rw [widthCons, ← Nat.add_assoc]
      exact ⟨t, mem, covers⟩

theorem lexedToken {last pos kind text raw behind tokens}
    (classed : Classed last kind text raw behind)
    (lexed : Lexed (some kind) (pos + width (raw.getD text)) behind tokens) :
    Lexed last pos (raw.getD text ++ behind) (placed pos kind text raw :: tokens) := by
  have positive : 0 < width (raw.getD text) := by
    obtain ⟨c, cs, lead, _⟩ := classed.opens
    rw [lead]
    exact widthPositive c cs
  refine ⟨?_, ?_, ?_, ?_⟩
  · intro t mem
    rcases List.mem_cons.mp mem with rfl | mem
    · rw [placedSpan]
      exact Nat.lt_add_of_pos_right positive
    · exact lexed.filled t mem
  · refine List.pairwise_cons.mpr ⟨?_, lexed.ordered⟩
    intro t mem
    obtain ⟨before, after, _, place⟩ := lexed.stands mem
    rw [placedSpan, place]
    exact Nat.le_add_right _ _
  · intro earlier t later split
    cases earlier with
    | nil =>
      obtain ⟨rfl, rfl⟩ := List.cons.inj split
      obtain ⟨sameText, sameRaw⟩ := @placedFields pos kind text raw
      refine ⟨[], behind, ⟨by rw [placedLexeme, List.nil_append], ?_⟩, ?_⟩
      · rw [placedSpan, placedLexeme]
        rfl
      · rw [placedKind, sameText, sameRaw]
        exact classed
    | cons u earlier =>
      obtain ⟨rfl, rest⟩ := List.cons.inj split
      obtain ⟨before, after, ⟨whole, place⟩, classed⟩ := lexed.classed rest
      refine ⟨raw.getD text ++ before, after, ⟨by rw [whole, List.append_assoc], ?_⟩, ?_⟩
      · rw [place, widthAppend, Nat.add_assoc pos]
      · rw [lastKind, placedKind]
        exact classed
  · intro before c after whole opens
    rcases List.append_eq_append_iff.mp whole with ⟨more, rfl, rest⟩ | ⟨more, inside, rest⟩
    · obtain ⟨t, mem, covers⟩ := lexed.covered rest opens
      rw [widthAppend, ← Nat.add_assoc]
      exact ⟨t, List.mem_cons_of_mem _ mem, covers⟩
    · cases more with
      | nil =>
        rw [List.append_nil] at inside
        have first : behind = [] ++ c :: after := rest.symm
        obtain ⟨t, mem, covers⟩ := lexed.covered first opens
        rw [← inside]
        exact ⟨t, List.mem_cons_of_mem _ mem, covers⟩
      | cons d more =>
        refine ⟨_, List.mem_cons_self, ?_⟩
        have longer := widthPositive d more
        rw [placedSpan, inside, widthAppend]
        simp only
        omega

theorem scanLexed {last pos cs tokens} (scans : Scans last pos cs tokens) :
    Lexed last pos cs tokens := by
  induction scans with
  | done => exact lexedDone
  | skip closed next ih => exact lexedSkip closed ih
  | token classed next ih => exact lexedToken classed ih

theorem lexedEmpty {last pos tokens} (lexed : Lexed last pos [] tokens) : tokens = [] := by
  cases tokens with
  | nil => rfl
  | cons t more =>
    obtain ⟨before, behind, whole, place⟩ := lexed.stands List.mem_cons_self
    have filled := lexed.filled t List.mem_cons_self
    have empty : t.lexeme.toList = [] := by
      have parts := List.append_eq_nil_iff.mp whole.symm
      exact (List.append_eq_nil_iff.mp parts.2).1
    rw [place, empty] at filled
    exact absurd filled (Nat.lt_irrefl _)

theorem splitByWidth {a b c d : List Char} (same : a ++ b = c ++ d)
    (shorter : width a ≤ width c) : ∃ middle, c = a ++ middle ∧ b = middle ++ d := by
  rcases List.append_eq_append_iff.mp same with ⟨middle, inside, rest⟩ | ⟨middle, inside, rest⟩
  · exact ⟨middle, inside, rest⟩
  · cases middle with
    | nil =>
      rw [List.append_nil] at inside
      exact ⟨[], by rw [inside, List.append_nil], rest.symm⟩
    | cons e middle =>
      have longer := widthPositive e middle
      rw [inside, widthAppend] at shorter
      omega

theorem tokenLexeme {t : Token} :
    (t.raw.map String.toList).getD t.text.toList = t.lexeme.toList := by
  unfold Token.lexeme
  cases t.raw <;> rfl

theorem lexedUnskip {last pos c cs tokens} (closed : ¬ Opens c cs)
    (lexed : Lexed last pos (c :: cs) tokens) : Lexed last (pos + width [c]) cs tokens := by
  refine ⟨lexed.filled, lexed.ordered, ?_, ?_⟩
  · intro earlier t later split
    obtain ⟨before, behind, ⟨whole, place⟩, classed⟩ := lexed.classed split
    cases before with
    | nil =>
      obtain ⟨d, ds, lead, opens⟩ := classed.opens
      rw [tokenLexeme] at lead
      rw [List.nil_append, lead] at whole
      obtain ⟨rfl, rfl⟩ := List.cons.inj whole
      exact absurd opens closed
    | cons d before =>
      obtain ⟨rfl, rest⟩ := List.cons.inj whole
      refine ⟨before, behind, ⟨rest, ?_⟩, classed⟩
      rw [place, widthCons c before]
      simp only [Nat.add_assoc]
  · intro before d behind whole opens
    have later : c :: cs = (c :: before) ++ d :: behind := by rw [whole, List.cons_append]
    obtain ⟨t, mem, covers⟩ := lexed.covered later opens
    rw [widthCons c before, ← Nat.add_assoc] at covers
    exact ⟨t, mem, covers⟩

theorem lexedFirst {last pos c cs tokens} (opens : Opens c cs)
    (lexed : Lexed last pos (c :: cs) tokens) : ∃ t more behind,
      tokens = t :: more ∧ Stands pos (c :: cs) t [] behind ∧
        Classed last t.kind t.text.toList (t.raw.map String.toList) behind := by
  have here : c :: cs = [] ++ c :: cs := rfl
  obtain ⟨u, mem, starts, covers⟩ := lexed.covered here opens
  rw [widthNil, Nat.add_zero] at starts covers
  cases tokens with
  | nil => contradiction
  | cons t more =>
    obtain ⟨before, behind, ⟨whole, place⟩, classed⟩ := lexed.classed (List.nil_append _).symm
    have filled := lexed.filled t List.mem_cons_self
    have first : t.span.start ≤ pos := by
      rcases List.mem_cons.mp mem with rfl | later
      · exact starts
      · -- a later token would start behind this one, which covers something itself
        have apart := (List.pairwise_cons.mp lexed.ordered).1 u later
        omega
    rw [place] at first
    cases before with
    | nil => exact ⟨t, more, behind, rfl, ⟨whole, place⟩, classed⟩
    | cons d before =>
      have positive := widthPositive d before
      simp only at first
      omega

theorem lexedBehind {last pos t more behind text} (stands : Stands pos text t [] behind)
    (lexed : Lexed last pos text (t :: more)) :
    Lexed (some t.kind) (pos + width t.lexeme.toList) behind more := by
  obtain ⟨whole, place⟩ := stands
  rw [List.nil_append] at whole
  rw [widthNil, Nat.add_zero] at place
  obtain ⟨apart, ordered⟩ := List.pairwise_cons.mp lexed.ordered
  refine ⟨fun u mem => lexed.filled u (List.mem_cons_of_mem _ mem), ordered, ?_, ?_⟩
  · intro earlier u later split
    have all : t :: more = (t :: earlier) ++ u :: later := by rw [split, List.cons_append]
    obtain ⟨before, after, ⟨whole', place'⟩, classed⟩ := lexed.classed all
    have behindFirst : width t.lexeme.toList ≤ width before := by
      have mem : u ∈ more := by simp [split]
      have far := apart u mem
      rw [place, place'] at far
      simp only at far
      omega
    obtain ⟨middle, rfl, rest⟩ := splitByWidth (whole.symm.trans whole') behindFirst
    refine ⟨middle, after, ⟨rest, ?_⟩, ?_⟩
    · rw [place', widthAppend]
      simp only [Nat.add_assoc]
    · rw [lastKind] at classed
      exact classed
  · intro before c after rest opens
    have all : text = (t.lexeme.toList ++ before) ++ c :: after := by
      rw [whole, rest, List.append_assoc]
    obtain ⟨u, mem, covers⟩ := lexed.covered all opens
    rw [widthAppend, ← Nat.add_assoc] at covers
    rcases List.mem_cons.mp mem with rfl | mem
    · rw [place] at covers
      simp only at covers
      omega
    · exact ⟨u, mem, covers⟩

theorem lexedScan {last pos cs tokens} (lexed : Lexed last pos cs tokens) :
    Scans last pos cs tokens := by
  generalize size : cs.length = n
  induction n using Nat.strongRecOn generalizing last pos cs tokens with
  | ind n ih =>
    cases cs with
    | nil =>
      rw [lexedEmpty lexed]
      exact .done
    | cons c cs =>
      rw [List.length_cons] at size
      by_cases opens : Opens c cs
      · obtain ⟨t, more, behind, rfl, stands, classed⟩ := lexedFirst opens lexed
        obtain ⟨d, ds, lead, _⟩ := classed.opens
        rw [tokenLexeme] at lead
        have rest := lexedBehind stands lexed
        obtain ⟨whole, place⟩ := stands
        rw [List.nil_append] at whole
        rw [widthNil, Nat.add_zero] at place
        have shorter : behind.length < n := by
          have lengths := congrArg List.length whole
          rw [List.length_append, lead, List.length_cons, List.length_cons] at lengths
          omega
        rw [← tokenLexeme] at rest whole
        have scans := Scans.token classed (ih _ shorter rest rfl)
        rw [← whole, placedAgain place] at scans
        exact scans
      · exact .skip opens (ih _ (by omega) (lexedUnskip opens lexed) rfl)

theorem tokenizedExactly {text : String} {tokens : List Token} :
    tokenize text = .ok tokens ↔ Lexed none 0 text.toList tokens := by
  constructor
  · intro ok
    exact scanLexed (piecesScan ok)
  · intro lexed
    exact scanPieces (lexedScan lexed)

end ScriptTree.Text
