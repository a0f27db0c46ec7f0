import Mathlib
import ScriptTree.Text.Tokenize
/-! The lexemes of tokens by their classes, each with what may stand behind it, and the
characters that open one. What is cut at the front of a text is the one lexeme that stands
there, and a character alone exactly where none can open. -/
namespace ScriptTree

theorem foundByLexeme {all : List α} {lexeme : α → String} {text : String} {a : α}
    (listed : ∀ a, a ∈ all) (distinct : ∀ {a b}, lexeme a = lexeme b → a = b) :
    all.find? (fun a => lexeme a == text) = some a ↔ lexeme a = text := by
  constructor
  · intro found
    simpa using List.find?_some found
  · intro spelled
    cases found : all.find? (fun a => lexeme a == text) with
    | none => exact absurd (beq_iff_eq.mpr spelled) (List.find?_eq_none.mp found a (listed a))
    | some b =>
      have same : lexeme b = text := by simpa using List.find?_some found
      rw [distinct (same.trans spelled.symm)]

theorem Keyword.listed (word : Keyword) : word ∈ all := by cases word <;> decide

theorem Punct.listed (mark : Punct) : mark ∈ all := by cases mark <;> decide

theorem Operator.listed (op : Operator) : op ∈ all := by cases op <;> decide

theorem Keyword.distinct {a b : Keyword} (same : a.lexeme = b.lexeme) : a = b := by
  cases a <;> cases b <;> first | rfl | exact absurd same (by decide)

theorem Punct.distinct {a b : Punct} (same : a.lexeme = b.lexeme) : a = b := by
  cases a <;> cases b <;> first | rfl | exact absurd same (by decide)

theorem Operator.distinct {a b : Operator} (same : a.lexeme = b.lexeme) : a = b := by
  cases a <;> cases b <;> first | rfl | exact absurd same (by decide)

theorem Keyword.ofLexemeOk {text : String} {word : Keyword} :
    ofLexeme text = .ok word ↔ word.lexeme = text := by
  rw [← foundByLexeme listed distinct]
  unfold ofLexeme
  cases all.find? (fun word => word.lexeme == text) <;> simp

theorem Punct.ofLexemeOk {text : String} {mark : Punct} :
    ofLexeme text = .ok mark ↔ mark.lexeme = text := by
  rw [← foundByLexeme listed distinct]
  unfold ofLexeme
  cases all.find? (fun mark => mark.lexeme == text) <;> simp

theorem Operator.ofLexemeOk {text : String} {op : Operator} :
    ofLexeme text = .ok op ↔ op.lexeme = text := by
  rw [← foundByLexeme listed distinct]
  unfold ofLexeme
  cases all.find? (fun op => op.lexeme == text) <;> simp

namespace Text

def Ends (p : Char → Bool) (behind : List Char) : Prop := ∀ d ∈ behind.head?, p d = false

theorem runCut {p : Char → Bool} {run behind : List Char} (all : ∀ d ∈ run, p d = true)
    (ends : Ends p behind) :
    (run ++ behind).takeWhile p = run ∧ (run ++ behind).dropWhile p = behind := by
  rw [List.takeWhile_append_of_pos all, List.dropWhile_append_of_pos all]
  cases behind with
  | nil => simp
  | cons d more =>
    have other : p d = false := ends d rfl
    simp [other]

theorem runAll {p : Char → Bool} {cs : List Char} : ∀ d ∈ cs.takeWhile p, p d = true :=
  List.all_eq_true.mp List.all_takeWhile

theorem runEnds {p : Char → Bool} {cs : List Char} : Ends p (cs.dropWhile p) := by
  intro d next
  have stopped := List.head?_dropWhile_not p cs
  rw [Option.mem_def.mp next] at stopped
  exact stopped

def isNumberPart (c : Char) : Bool := c.isDigit || c == '.'

/-- The lexemes of the kind behind a token of kind `last`: the text of the token, its lexeme where
that is kept apart, and what stands behind it. -/
inductive Classed (last : Option Kind) : Kind → List Char → Option (List Char) → List Char →
    Prop where
  | keyword {word c cs behind} (letter : c.isAlpha = true) (parts : ∀ d ∈ cs, isWordPart d = true)
      (spelled : word.lexeme = String.ofList (c :: cs)) (maximal : Ends isWordPart behind) :
      Classed last (.keyword word) (c :: cs) none behind
  | identifier {c cs behind} (letter : c.isAlpha = true)
      (parts : ∀ d ∈ cs, isWordPart d = true)
      (free : ∀ word : Keyword, word.lexeme ≠ String.ofList (c :: cs))
      (maximal : Ends isWordPart behind) : Classed last .identifier (c :: cs) none behind
  | whole {digits behind} (filled : digits ≠ []) (digital : ∀ d ∈ digits, d.isDigit = true)
      (maximal : Ends isNumberPart behind) : Classed last .number digits (some digits) behind
  | decimal {digits more behind} (filled : digits ≠ [])
      (digital : ∀ d ∈ digits, d.isDigit = true) (decimals : ∀ d ∈ more, d.isDigit = true)
      (maximal : Ends isNumberPart behind) :
      Classed last .number (digits ++ '.' :: more) (some (digits ++ '.' :: more)) behind
  | quoted {quote text behind} (opens : isQuote quote = true) (free : quote ∉ text) :
      Classed last .string text (some (quote :: text ++ [quote])) behind
  | unclosed {quote text} (opens : isQuote quote = true) (free : quote ∉ text) :
      Classed last .string text (some (quote :: text)) []
  | mark {mark text behind} (spelled : mark.lexeme = String.ofList text)
      (other : mark ≠ .asterisk) : Classed last (.punct mark) text none behind
  | everything {behind}
      (place : last = some (.keyword .importWord) ∨ last = some (.keyword .exportWord)) :
      Classed last (.punct .asterisk) ['*'] none behind
  | operator {op text behind} (spelled : op.lexeme = String.ofList text) (other : op ≠ .mul) :
      Classed last (.operator op) text none behind
  | product {behind}
      (place : ¬ (last = some (.keyword .importWord) ∨ last = some (.keyword .exportWord))) :
      Classed last (.operator .mul) ['*'] none behind

def Opens (c : Char) (behind : List Char) : Prop :=
  c.isAlpha = true ∨ c.isDigit = true ∨ isQuote c = true ∨
    (∃ mark : Punct, mark.lexeme = String.ofList [c]) ∨
    (∃ op : Operator, op.lexeme = String.ofList [c]) ∨
    ∃ op : Operator, ∃ d ∈ behind.head?, op.lexeme = String.ofList [c, d]

theorem markLength {mark : Punct} {text : List Char} (spelled : mark.lexeme = String.ofList text) :
    ∃ c, text = [c] := by
  have chars := congrArg String.toList spelled.symm
  rw [String.toList_ofList] at chars
  cases mark <;> exact ⟨_, chars⟩

theorem operatorLength {op : Operator} {text : List Char}
    (spelled : op.lexeme = String.ofList text) : (∃ c, text = [c]) ∨ ∃ c d, text = [c, d] := by
  have chars := congrArg String.toList spelled.symm
  rw [String.toList_ofList] at chars
  cases op <;> first | exact .inl ⟨_, chars⟩ | exact .inr ⟨_, _, chars⟩

theorem digitOpens {digits : List Char} (filled : digits ≠ [])
    (digital : ∀ d ∈ digits, d.isDigit = true) (more behind : List Char) :
    ∃ c cs, digits ++ more = c :: cs ∧ Opens c (cs ++ behind) := by
  cases digits with
  | nil => contradiction
  | cons c cs => exact ⟨c, cs ++ more, rfl, .inr (.inl (digital c List.mem_cons_self))⟩

theorem Classed.opens {last kind text raw behind} (classed : Classed last kind text raw behind) :
    ∃ c cs, raw.getD text = c :: cs ∧ Opens c (cs ++ behind) := by
  cases classed with
  | keyword letter => exact ⟨_, _, rfl, .inl letter⟩
  | identifier letter => exact ⟨_, _, rfl, .inl letter⟩
  | whole filled digital =>
    have opened := digitOpens filled digital [] behind
    rwa [List.append_nil] at opened
  | decimal filled digital => exact digitOpens filled digital _ behind
  | quoted opens => exact ⟨_, _, rfl, .inr (.inr (.inl opens))⟩
  | unclosed opens => exact ⟨_, _, rfl, .inr (.inr (.inl opens))⟩
  | mark spelled =>
    obtain ⟨c, rfl⟩ := markLength spelled
    exact ⟨c, [], rfl, .inr (.inr (.inr (.inl ⟨_, spelled⟩)))⟩
  | everything => exact ⟨'*', [], rfl, .inr (.inr (.inr (.inl ⟨.asterisk, rfl⟩)))⟩
  | operator spelled =>
    obtain ⟨c, rfl⟩ | ⟨c, d, rfl⟩ := operatorLength spelled
    · exact ⟨c, [], rfl, .inr (.inr (.inr (.inr (.inl ⟨_, spelled⟩))))⟩
    · exact ⟨c, [d], rfl, .inr (.inr (.inr (.inr (.inr ⟨_, d, rfl, spelled⟩))))⟩
  | product => exact ⟨'*', [], rfl, .inr (.inr (.inr (.inl ⟨.asterisk, rfl⟩)))⟩

theorem blankChars {c : Char} (blank : isBlank c = true) :
    c = ' ' ∨ c = '\t' ∨ c = '\n' ∨ c = '\r' := by
  simpa [isBlank, or_assoc] using blank

theorem blankOther {c : Char} (blank : isBlank c = true) (behind : List Char) :
    ¬ Opens c behind := by
  have chars := blankChars blank
  have marks : ∀ mark ∈ Punct.all, mark.lexeme.toList.head? ≠ some c := by
    rcases chars with rfl | rfl | rfl | rfl <;> decide
  have operators : ∀ op ∈ Operator.all, op.lexeme.toList.head? ≠ some c := by
    rcases chars with rfl | rfl | rfl | rfl <;> decide
  intro opens
  rcases opens with letter | digit | quote | ⟨mark, spelled⟩ | ⟨op, spelled⟩ | ⟨op, d, _, spelled⟩
  · rcases chars with rfl | rfl | rfl | rfl <;> contradiction
  · rcases chars with rfl | rfl | rfl | rfl <;> contradiction
  · rcases chars with rfl | rfl | rfl | rfl <;> contradiction
  · exact marks mark mark.listed (by rw [spelled, String.toList_ofList]; rfl)
  · exact operators op op.listed (by rw [spelled, String.toList_ofList]; rfl)
  · exact operators op op.listed (by rw [spelled, String.toList_ofList]; rfl)

theorem opensNotBlank {c behind} (opens : Opens c behind) : isBlank c = false := by
  cases blank : isBlank c with
  | false => rfl
  | true => exact absurd opens (blankOther blank behind)

theorem digitNotLetter {c : Char} (digit : c.isDigit = true) : c.isAlpha = false := by
  simp [Char.isDigit, Char.isAlpha, Char.isUpper, Char.isLower, UInt32.le_iff_toNat_le] at *
  omega

theorem quoteChars {c : Char} (quote : isQuote c = true) :
    c = '\x27' ∨ c = '"' ∨ c = '\x60' := by
  simpa [isQuote, or_assoc] using quote

theorem cutWordAt {c : Char} (letter : c.isAlpha = true) (last cs) :
    cut last c cs = cutWord c cs := by
  have opened : Opens c cs := .inl letter
  simp [cut, opensNotBlank opened, letter]

theorem cutQuotedAt {c : Char} (quote : isQuote c = true) (last cs) :
    cut last c cs = cutQuoted c cs := by
  rcases quoteChars quote with rfl | rfl | rfl <;> rfl

theorem cutNumberAt {c : Char} (digit : c.isDigit = true) (last cs) :
    cut last c cs = cutNumber (c :: cs) := by
  have opened : Opens c cs := .inr (.inl digit)
  have star : (c == '*') = false := by
    rw [beq_eq_false_iff_ne]
    intro same
    subst same
    contradiction
  have quote : isQuote c = false := by
    cases quote : isQuote c with
    | false => rfl
    | true => rcases quoteChars quote with rfl | rfl | rfl <;> contradiction
  simp [cut, opensNotBlank opened, digitNotLetter digit, star, quote, digit]

def Plain (c : Char) : Prop :=
  isBlank c = false ∧ c.isAlpha = false ∧ c ≠ '*' ∧ isQuote c = false ∧ c.isDigit = false

theorem cutSymbolAt {c : Char} (plain : Plain c) (last cs) : cut last c cs = cutSymbol c cs := by
  obtain ⟨blank, letter, star, quote, digit⟩ := plain
  simp [cut, blank, letter, star, quote, digit]

theorem operatorSome {text : List Char} {piece : Piece} : operator? text = some piece ↔
    ∃ op : Operator, op.lexeme = String.ofList text ∧
      piece = .lexeme (.operator op) text none := by
  unfold operator?
  cases found : Operator.ofLexeme (String.ofList text) with
  | ok op =>
    have spelled := Operator.ofLexemeOk.mp found
    constructor
    · intro same
      exact ⟨op, spelled, (Option.some.inj same).symm⟩
    · intro same
      obtain ⟨op', spelled', rfl⟩ := same
      rw [Operator.distinct (spelled.trans spelled'.symm)]
  | error e =>
    constructor
    · intro same
      contradiction
    · intro same
      obtain ⟨op, spelled, _⟩ := same
      rw [Operator.ofLexemeOk.mpr spelled] at found
      contradiction

theorem markAlone {c : Char} {mark : Punct} (spelled : mark.lexeme = String.ofList [c])
    (cs : List Char) : cutSymbol c cs = (.lexeme (.punct mark) [c] none, cs) := by
  have found : Punct.ofLexeme (String.singleton c) = .ok mark := Punct.ofLexemeOk.mpr spelled
  unfold cutSymbol
  rw [found]

theorem markNone {c : Char} (unmarked : ∀ mark : Punct, mark.lexeme ≠ String.ofList [c]) :
    Punct.ofLexeme (String.singleton c) = .error .unknown := by
  cases found : Punct.ofLexeme (String.singleton c) with
  | ok mark => exact absurd (Punct.ofLexemeOk.mp found) (unmarked mark)
  | error e => rfl

theorem cutOperator {c : Char} {cs : List Char}
    (unmarked : ∀ mark : Punct, mark.lexeme ≠ String.ofList [c]) :
    cutSymbol c cs = match operator? (c :: cs.take 1) with
      | some piece => (piece, cs.drop 1)
      | none => ((operator? [c]).getD (.stray c), cs) := by
  unfold cutSymbol
  cases operator? (c :: cs.take 1) with
  | some piece => simp only [markNone unmarked]
  | none => simp only [markNone unmarked]

inductive Cuts (last : Option Kind) : List Char → Piece → List Char → Prop where
  | token {kind text raw behind} (classed : Classed last kind text raw behind) :
      Cuts last (raw.getD text ++ behind) (.lexeme kind text raw) behind
  | other {c cs piece} (closed : ¬ Opens c cs) (alone : piece = .blank c ∨ piece = .stray c) :
      Cuts last (c :: cs) piece cs
  | fault {digits more behind} (filled : digits ≠ []) (digital : ∀ d ∈ digits, d.isDigit = true)
      (decimals : ∀ d ∈ more, d.isDigit = true) :
      Cuts last (digits ++ '.' :: (more ++ '.' :: behind))
        (.fault (digits ++ '.' :: more) ('.' :: behind)) []

theorem wordCuts {last c cs} (letter : c.isAlpha = true) :
    Cuts last (c :: cs) (cutWord c cs).1 (cutWord c cs).2 := by
  have whole : c :: cs = c :: cs.takeWhile isWordPart ++ cs.dropWhile isWordPart := by
    rw [List.cons_append, List.takeWhile_append_dropWhile]
  have classed : Classed last (wordKind (c :: cs.takeWhile isWordPart))
      (c :: cs.takeWhile isWordPart) none (cs.dropWhile isWordPart) := by
    unfold wordKind
    cases found : Keyword.ofLexeme (String.ofList (c :: cs.takeWhile isWordPart)) with
    | ok word => exact .keyword letter runAll (Keyword.ofLexemeOk.mp found) runEnds
    | error e =>
      refine .identifier letter runAll ?_ runEnds
      intro word spelled
      rw [Keyword.ofLexemeOk.mpr spelled] at found
      contradiction
  have cut := Cuts.token classed
  rwa [Option.getD_none, ← whole] at cut

theorem quotedCuts {last quote cs} (opens : isQuote quote = true) :
    Cuts last (quote :: cs) (cutQuoted quote cs).1 (cutQuoted quote cs).2 := by
  have parts : cs.takeWhile (· != quote) ++ cs.dropWhile (· != quote) = cs :=
    List.takeWhile_append_dropWhile
  have free : quote ∉ cs.takeWhile (· != quote) := by
    intro found
    have other := runAll quote found
    simp at other
  have ends : Ends (· != quote) (cs.dropWhile (· != quote)) := runEnds
  unfold cutQuoted
  generalize cs.takeWhile (· != quote) = text at parts free
  generalize cs.dropWhile (· != quote) = behind at parts ends
  subst parts
  cases behind with
  | nil =>
    have cut : Cuts last _ _ [] := .token (.unclosed opens free)
    simpa using cut
  | cons close rest =>
    have closes : close = quote := by simpa using ends close rfl
    subst closes
    have cut : Cuts last _ _ rest := .token (.quoted opens free)
    simpa using cut

theorem numberPartEnds {behind : List Char} (digits : Ends Char.isDigit behind)
    (point : behind.head? ≠ some '.') : Ends isNumberPart behind := by
  intro d next
  have other : d ≠ '.' := by
    intro same
    rw [same] at next
    exact point next
  simp [isNumberPart, digits d next, other]

theorem numberCuts {last c cs} (digit : c.isDigit = true) :
    Cuts last (c :: cs) (cutNumber (c :: cs)).1 (cutNumber (c :: cs)).2 := by
  have parts : (c :: cs).takeWhile Char.isDigit ++ (c :: cs).dropWhile Char.isDigit = c :: cs :=
    List.takeWhile_append_dropWhile
  have filled : (c :: cs).takeWhile Char.isDigit ≠ [] := by simp [digit]
  have digital : ∀ d ∈ (c :: cs).takeWhile Char.isDigit, d.isDigit = true := runAll
  have ends : Ends Char.isDigit ((c :: cs).dropWhile Char.isDigit) := runEnds
  unfold cutNumber
  generalize (c :: cs).takeWhile Char.isDigit = whole at parts filled digital
  generalize (c :: cs).dropWhile Char.isDigit = behind at parts ends
  rw [← parts]
  split
  · rename_i more
    have decimalParts : more.takeWhile Char.isDigit ++ more.dropWhile Char.isDigit = more :=
      List.takeWhile_append_dropWhile
    have decimals : ∀ d ∈ more.takeWhile Char.isDigit, d.isDigit = true := runAll
    have ended : Ends Char.isDigit (more.dropWhile Char.isDigit) := runEnds
    generalize more.takeWhile Char.isDigit = decimal at decimalParts decimals
    generalize more.dropWhile Char.isDigit = after at decimalParts ended
    subst decimalParts
    split
    · exact .fault filled digital decimals
    · rename_i point
      have next : after.head? ≠ some '.' := by
        intro found
        obtain ⟨rest, same⟩ := List.head?_eq_some_iff.mp found
        exact point rest same
      have cut : Cuts last _ _ after :=
        .token (.decimal filled digital decimals (numberPartEnds ended next))
      simpa [number] using cut
  · rename_i point
    have next : behind.head? ≠ some '.' := by
      intro found
      obtain ⟨rest, same⟩ := List.head?_eq_some_iff.mp found
      exact point rest same
    exact .token (.whole filled digital (numberPartEnds ends next))

theorem symbolCuts {last c cs} (plain : Plain c) :
    Cuts last (c :: cs) (cutSymbol c cs).1 (cutSymbol c cs).2 := by
  obtain ⟨_, letter, star, quote, digit⟩ := plain
  by_cases marked : ∃ mark : Punct, mark.lexeme = String.ofList [c]
  · obtain ⟨mark, spelled⟩ := marked
    rw [markAlone spelled]
    refine .token (.mark spelled ?_)
    intro same
    subst same
    have chars := congrArg String.toList spelled
    rw [String.toList_ofList] at chars
    exact star (List.cons.inj chars).1.symm
  · have unmarked : ∀ mark : Punct, mark.lexeme ≠ String.ofList [c] :=
      fun mark spelled => marked ⟨mark, spelled⟩
    have notMul {op : Operator} {more : List Char} (spelled : op.lexeme = String.ofList (c :: more)) :
        op ≠ .mul := by
      intro same
      subst same
      have chars := congrArg String.toList spelled
      rw [String.toList_ofList] at chars
      exact star (List.cons.inj chars).1.symm
    rw [cutOperator unmarked]
    split
    · rename_i found
      obtain ⟨op, spelled, rfl⟩ := operatorSome.mp found
      have whole : c :: cs = c :: cs.take 1 ++ cs.drop 1 := by
        rw [List.cons_append, List.take_append_drop]
      have cut : Cuts last _ _ (cs.drop 1) := .token (.operator spelled (notMul spelled))
      rwa [Option.getD_none, ← whole] at cut
    · rename_i missing
      cases found : operator? [c] with
      | some piece =>
        obtain ⟨op, spelled, rfl⟩ := operatorSome.mp found
        exact .token (.operator spelled (notMul spelled))
      | none =>
        refine .other ?_ (.inr rfl)
        intro opens
        rcases opens with yes | yes | yes | ⟨mark, spelled⟩ | ⟨op, spelled⟩ |
          ⟨op, d, next, spelled⟩
        · rw [letter] at yes
          contradiction
        · rw [digit] at yes
          contradiction
        · rw [quote] at yes
          contradiction
        · exact unmarked mark spelled
        · rw [operatorSome.mpr ⟨op, spelled, rfl⟩] at found
          contradiction
        · obtain ⟨rest, rfl⟩ := List.head?_eq_some_iff.mp (Option.mem_def.mp next)
          rw [List.take_succ_cons, List.take_zero, operatorSome.mpr ⟨op, spelled, rfl⟩] at missing
          contradiction

theorem starProduct {last : Option Kind}
    (place : ¬ (last = some (.keyword .importWord) ∨ last = some (.keyword .exportWord))) :
    starKind last = .operator .mul := by
  unfold starKind
  split
  · exact absurd (.inl rfl) place
  · exact absurd (.inr rfl) place
  · rfl

theorem cutCuts (last c cs) : Cuts last (c :: cs) (cut last c cs).1 (cut last c cs).2 := by
  by_cases blank : isBlank c = true
  · have alone : cut last c cs = (.blank c, cs) := by simp [cut, blank]
    rw [alone]
    exact .other (blankOther blank cs) (.inl rfl)
  by_cases letter : c.isAlpha = true
  · rw [cutWordAt letter]
    exact wordCuts letter
  by_cases star : c = '*'
  · subst star
    by_cases place : last = some (.keyword .importWord) ∨ last = some (.keyword .exportWord)
    · have cut : Cuts last _ _ cs := .token (.everything place)
      rcases place with rfl | rfl <;> exact cut
    · have cut : Cuts last _ _ cs := .token (.product place)
      rw [← starProduct place] at cut
      exact cut
  by_cases quote : isQuote c = true
  · rw [cutQuotedAt quote]
    exact quotedCuts quote
  by_cases digit : c.isDigit = true
  · rw [cutNumberAt digit]
    exact numberCuts digit
  have plain : Plain c := by simp_all [Plain]
  rw [cutSymbolAt plain]
  exact symbolCuts plain

theorem wordCut {c : Char} {cs behind : List Char} (parts : ∀ d ∈ cs, isWordPart d = true)
    (maximal : Ends isWordPart behind) :
    cutWord c (cs ++ behind) = (.lexeme (wordKind (c :: cs)) (c :: cs) none, behind) := by
  obtain ⟨run, left⟩ := runCut parts maximal
  simp [cutWord, run, left]

theorem quotedRun {quote : Char} {text : List Char} (free : quote ∉ text) :
    ∀ d ∈ text, (d != quote) = true := by
  intro d found
  rw [bne_iff_ne]
  intro same
  subst same
  exact free found

theorem digitsEnd {behind : List Char} (maximal : Ends isNumberPart behind) :
    Ends Char.isDigit behind ∧ ∀ rest, behind ≠ '.' :: rest := by
  constructor
  · intro d next
    have other := maximal d next
    simp only [isNumberPart, Bool.or_eq_false_iff] at other
    exact other.1
  · intro rest same
    subst same
    have other := maximal '.' rfl
    contradiction

theorem wholeCut {digits behind : List Char} (digital : ∀ d ∈ digits, d.isDigit = true)
    (maximal : Ends isNumberPart behind) :
    cutNumber (digits ++ behind) = (number digits, behind) := by
  obtain ⟨ends, point⟩ := digitsEnd maximal
  obtain ⟨run, left⟩ := runCut digital ends
  unfold cutNumber
  rw [run, left]
  split
  · exact absurd rfl (point _)
  · rfl

theorem decimalCut {digits more behind : List Char} (digital : ∀ d ∈ digits, d.isDigit = true)
    (decimals : ∀ d ∈ more, d.isDigit = true) (maximal : Ends isNumberPart behind) :
    cutNumber (digits ++ '.' :: (more ++ behind)) = (number (digits ++ '.' :: more), behind) := by
  obtain ⟨ends, point⟩ := digitsEnd maximal
  have stops : Ends Char.isDigit ('.' :: (more ++ behind)) := by
    intro d next
    cases next
    rfl
  obtain ⟨run, left⟩ := runCut digital stops
  obtain ⟨decimalRun, decimalLeft⟩ := runCut decimals ends
  unfold cutNumber
  rw [run, left]
  simp only [decimalRun, decimalLeft]

instance (c : Char) : Decidable (Plain c) := inferInstanceAs (Decidable (_ ∧ _))

theorem markPlain {c : Char} {mark : Punct} (spelled : mark.lexeme = String.ofList [c])
    (other : mark ≠ .asterisk) : Plain c := by
  have chars := congrArg String.toList spelled.symm
  rw [String.toList_ofList] at chars
  cases mark with
  | asterisk => exact absurd rfl other
  | _ =>
    cases chars
    decide

theorem operatorPlain {c : Char} {cs : List Char} {op : Operator}
    (spelled : op.lexeme = String.ofList (c :: cs)) (other : op ≠ .mul) :
    Plain c ∧ ∀ mark ∈ Punct.all, mark.lexeme ≠ String.ofList [c] := by
  have chars := congrArg String.toList spelled.symm
  rw [String.toList_ofList] at chars
  cases op with
  | mul => exact absurd rfl other
  | _ =>
    cases chars
    decide

/- No operator is the front of another one. -/
theorem operatorPair {c d : Char} {cs : List Char} {op pair : Operator}
    (spelled : op.lexeme = String.ofList (c :: cs)) (longer : pair.lexeme = String.ofList [c, d]) :
    cs = [d] := by
  have chars := congrArg String.toList spelled.symm
  have both := congrArg String.toList longer.symm
  rw [String.toList_ofList] at chars both
  cases pair <;> cases both <;> cases op <;> cases chars <;> rfl

theorem operatorCut {c : Char} {cs : List Char} {op : Operator}
    (spelled : op.lexeme = String.ofList (c :: cs)) (other : op ≠ .mul) (behind : List Char) :
    cutSymbol c (cs ++ behind) = (.lexeme (.operator op) (c :: cs) none, behind) := by
  have unmarked : ∀ mark : Punct, mark.lexeme ≠ String.ofList [c] :=
    fun mark => (operatorPlain spelled other).2 mark mark.listed
  have found : operator? (c :: cs) = some (.lexeme (.operator op) (c :: cs) none) :=
    operatorSome.mpr ⟨op, spelled, rfl⟩
  rw [cutOperator unmarked]
  obtain ⟨_, same⟩ | ⟨_, d, same⟩ := operatorLength spelled
  · cases same
    cases behind with
    | nil =>
      rw [List.append_nil, List.take_nil, found]
      rfl
    | cons d rest =>
      have alone : operator? [c, d] = none := by
        cases longer : operator? [c, d] with
        | none => rfl
        | some piece =>
          obtain ⟨pair, both, _⟩ := operatorSome.mp longer
          have none : [] = [d] := operatorPair spelled both
          contradiction
      rw [List.nil_append, List.take_succ_cons, List.take_zero, alone, found]
      rfl
  · cases same
    rw [List.cons_append, List.nil_append, List.take_succ_cons, List.take_zero, found]
    rfl

theorem Classed.cut {last kind text raw behind c cs}
    (classed : Classed last kind text raw behind) (spelled : raw.getD text ++ behind = c :: cs) :
    cut last c cs = (.lexeme kind text raw, behind) := by
  cases classed with
  | @keyword word d ds _ letter parts spelt maximal =>
    have kind : wordKind (d :: ds) = .keyword word := by
      unfold wordKind
      rw [Keyword.ofLexemeOk.mpr spelt]
    simp only [Option.getD_none, List.cons_append] at spelled
    obtain ⟨rfl, rfl⟩ := List.cons.inj spelled
    rw [cutWordAt letter, wordCut parts maximal, kind]
  | identifier letter parts free maximal =>
    simp only [Option.getD_none, List.cons_append] at spelled
    obtain ⟨rfl, rfl⟩ := List.cons.inj spelled
    rw [cutWordAt letter, wordCut parts maximal]
    unfold wordKind
    split
    · rename_i found
      exact absurd (Keyword.ofLexemeOk.mp found) (free _)
    · rfl
  | whole filled digital maximal =>
    have digit : c.isDigit = true := by
      obtain ⟨d, more, rfl⟩ := List.exists_cons_of_ne_nil filled
      cases spelled
      exact digital c List.mem_cons_self
    rw [cutNumberAt digit, ← spelled]
    exact wholeCut digital maximal
  | decimal filled digital decimals maximal =>
    have digit : c.isDigit = true := by
      obtain ⟨d, more, rfl⟩ := List.exists_cons_of_ne_nil filled
      cases spelled
      exact digital c List.mem_cons_self
    rw [cutNumberAt digit, ← spelled, Option.getD_some, List.append_assoc]
    exact decimalCut digital decimals maximal
  | @quoted quote _ _ opens free =>
    have stops : Ends (· != quote) (quote :: behind) := by
      intro d next
      cases next
      simp
    obtain ⟨run, left⟩ := runCut (quotedRun free) stops
    simp only [Option.getD_some, List.cons_append, List.append_assoc, List.nil_append] at spelled
    obtain ⟨rfl, rfl⟩ := List.cons.inj spelled
    rw [cutQuotedAt opens]
    simp [cutQuoted, run, left]
  | @unclosed quote _ opens free =>
    have stops : Ends (· != quote) [] := by simp [Ends]
    obtain ⟨run, left⟩ := runCut (quotedRun free) stops
    simp only [Option.getD_some, List.append_nil] at spelled run left
    obtain ⟨rfl, rfl⟩ := List.cons.inj spelled
    rw [cutQuotedAt opens]
    simp [cutQuoted, run, left]
  | mark spelt other =>
    obtain ⟨_, rfl⟩ := markLength spelt
    simp only [Option.getD_none, List.cons_append, List.nil_append] at spelled
    obtain ⟨rfl, rfl⟩ := List.cons.inj spelled
    rw [cutSymbolAt (markPlain spelt other), markAlone spelt]
  | everything place =>
    cases spelled
    rcases place with rfl | rfl <;> rfl
  | operator spelt other =>
    obtain ⟨_, rfl⟩ | ⟨_, d, rfl⟩ := operatorLength spelt
    · cases spelled
      rw [cutSymbolAt (operatorPlain spelt other).1]
      exact operatorCut spelt other behind
    · cases spelled
      rw [cutSymbolAt (operatorPlain spelt other).1]
      exact operatorCut spelt other behind
  | product place =>
    cases spelled
    rw [← starProduct place]
    rfl

end Text

end ScriptTree
