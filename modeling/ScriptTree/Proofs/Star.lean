import ScriptTree.Proofs.Joining
/-! The stars of a text. One stands directly behind the first word of a declaration, lies in a
quoted text, or multiplies. -/
namespace ScriptTree

namespace Text

theorem charWithin {t : Token} {text front back before behind : List Char} {c : Char}
    (stands : Stands 0 text t front back) (split : text = before ++ c :: behind)
    (starts : t.span.start ≤ width before) (stops : width before < t.span.stop) :
    ∃ m n, t.lexeme.toList = m ++ c :: n ∧ before = front ++ m := by
  obtain ⟨whole, place⟩ := stands
  rw [place] at starts stops
  simp only [Nat.zero_add] at starts stops
  obtain ⟨m, rfl, rest⟩ := splitByWidth (whole.symm.trans split) starts
  rw [widthAppend] at stops
  obtain ⟨n, lexeme, more⟩ := splitByWidth rest.symm (by omega)
  cases n with
  | nil =>
    rw [lexeme, List.append_nil] at stops
    omega
  | cons d n =>
    cases more
    exact ⟨m, n, lexeme, rfl⟩

theorem starAlone {last kind text raw behind m n}
    (classed : Classed last kind text raw behind) (split : raw.getD text = m ++ '*' :: n) :
    kind = .string ∨ ((kind = .punct .asterisk ∨ kind = .operator .mul) ∧ m = []) := by
  have among : '*' ∈ raw.getD text := by simp [split]
  cases classed with
  | keyword letter parts =>
    rcases List.mem_cons.mp among with rfl | among
    · contradiction
    · exact absurd (parts _ among) (by decide)
  | identifier letter parts =>
    rcases List.mem_cons.mp among with rfl | among
    · contradiction
    · exact absurd (parts _ among) (by decide)
  | whole filled digital => exact absurd (digital _ among) (by decide)
  | decimal filled digital decimals =>
    rcases List.mem_append.mp among with among | among
    · exact absurd (digital _ among) (by decide)
    · rcases List.mem_cons.mp among with point | among
      · contradiction
      · exact absurd (decimals _ among) (by decide)
  | quoted => exact .inl rfl
  | unclosed => exact .inl rfl
  | @mark mark _ _ spelled other =>
    have char : '*' ∈ mark.lexeme.toList := by simpa [spelled] using among
    cases mark <;> contradiction
  | @operator op _ _ spelled other =>
    have char : '*' ∈ op.lexeme.toList := by simpa [spelled] using among
    cases op <;> contradiction
  | everything =>
    refine .inr ⟨.inl rfl, ?_⟩
    cases m with
    | nil => rfl
    | cons d m => simp at split
  | product =>
    refine .inr ⟨.inr rfl, ?_⟩
    cases m with
    | nil => rfl
    | cons d m => simp at split

theorem starTaken {text before behind : List Char} {tokens} (lexed : Lexed none 0 text tokens)
    (split : text = before ++ '*' :: behind) :
    ∃ t ∈ tokens, (t.kind = .string ∧ t.span.start ≤ width before ∧ width before < t.span.stop) ∨
      ((t.kind = .punct .asterisk ∨ t.kind = .operator .mul) ∧ t.span.start = width before) := by
  have opens : Opens '*' behind := .inr (.inr (.inr (.inl ⟨.asterisk, rfl⟩)))
  obtain ⟨t, among, starts, stops⟩ := lexed.covered split opens
  rw [Nat.zero_add] at starts stops
  obtain ⟨earlier, later, parted⟩ := List.append_of_mem among
  obtain ⟨front, back, stands, classed⟩ := lexed.classed parted
  obtain ⟨m, n, lexeme, rfl⟩ := charWithin stands split starts stops
  rw [← tokenLexeme] at lexeme
  rcases starAlone classed lexeme with quoted | ⟨kind, rfl⟩
  · exact ⟨t, among, .inl ⟨quoted, starts, stops⟩⟩
  · refine ⟨t, among, .inr ⟨kind, ?_⟩⟩
    rw [stands.2, List.append_nil, Nat.zero_add]

theorem starFollows {text : List Char} {earlier t later}
    (lexed : Lexed none 0 text (earlier ++ t :: later)) (everything : t.kind = .punct .asterisk) :
    (earlier.getLast?.map Token.kind = some (.keyword .importWord) ∨
      earlier.getLast?.map Token.kind = some (.keyword .exportWord)) ∧
    ∃ before behind, text = before ++ '*' :: behind ∧ width before = t.span.start := by
  obtain ⟨before, behind, ⟨whole, place⟩, classed⟩ := lexed.classed rfl
  have lexeme := @tokenLexeme t
  rw [everything] at classed
  generalize t.text.toList = text' at classed lexeme
  generalize t.raw.map String.toList = raw at classed lexeme
  rw [Option.or_none] at classed
  cases classed with
  | mark spelled other => exact absurd rfl other
  | everything place' =>
    refine ⟨place', before, behind, ?_, ?_⟩
    · rw [whole, ← lexeme]
      rfl
    · rw [place, Nat.zero_add]

end Text

open Grammar Text

def StarAt (text : String) (pos : Nat) : Prop :=
  ∃ before behind, text.toList = before ++ '*' :: behind ∧ width before = pos

inductive Starred (tokens : List Token) : Statement → Token → Prop where
  | imported {before word star after d stop binding}
      (split : tokens = before ++ word :: star :: after)
      (kind : word.kind = .keyword .importWord) (begins : word.span.start = d.span.start)
      (everything : star.kind = .punct .asterisk)
      (only : d.specifiers = [.wholeModule ⟨star.span.start, stop⟩ binding]) :
      Starred tokens (.imports d) star
  | exported {before word star after d}
      (split : tokens = before ++ word :: star :: after)
      (kind : word.kind = .keyword .exportWord) (begins : word.span.start = d.span.start)
      (everything : star.kind = .punct .asterisk) : Starred tokens (.exportAll d) star

theorem importStarred {text : List Char} {tokens before taken rest d}
    (lexed : Lexed none 0 text tokens) (split : tokens = before ++ (taken ++ rest))
    (sorted : ImportsSorted d taken) :
    (Clausal taken ∧ ∀ span binding, .wholeModule span binding ∉ d.specifiers) ∨
      ∃ star, Starred tokens (.imports d) star ∧
        ∀ t ∈ taken, t.kind = .punct .asterisk → t = star := by
  cases sorted with
  | names clausal none => exact .inl ⟨clausal, none⟩
  | @star word first a star name behind next kind start default everything specifiers clausal =>
    refine .inr ⟨star, ?_⟩
    have parted : tokens = (before ++ word :: a) ++ star :: (behind ++ rest) := by simp [split]
    obtain ⟨place, _⟩ := starFollows (parted ▸ lexed) everything
    -- A name that is taken by default would stand between the word and the star.
    cases default with
    | @present t comma _ named ending =>
      cases comma with
      | none => simp [List.getLast?_append, named] at place
      | some comma =>
        have divides : comma.kind = .punct .comma := ending
        simp [List.getLast?_append, divides] at place
    | absent =>
      refine ⟨.imported (by simpa using parted) kind start everything specifiers, ?_⟩
      intro t among star'
      rcases List.mem_cons.mp among with rfl | among
      · rw [kind] at star'
        contradiction
      · rcases List.mem_cons.mp among with rfl | among
        · rfl
        · exact absurd (clausal t among) (by rw [star']; decide)

theorem exportStarred {tokens before word taken rest d}
    (split : tokens = before ++ (word :: taken ++ rest)) (kind : word.kind = .keyword .exportWord)
    (read : ExportsAll word.span.start d taken rest) :
    ∃ star, Starred tokens (.exportAll d) star ∧
      ∀ t ∈ word :: taken, t.kind = .punct .asterisk → t = star := by
  obtain ⟨star, behind, rfl, everything, clausal, start⟩ := exportAllSorted read
  refine ⟨star, .exported (by simpa using split) kind start.symm everything, ?_⟩
  intro t among star'
  rcases List.mem_cons.mp among with rfl | among
  · rw [kind] at star'
    contradiction
  · rcases List.mem_cons.mp among with rfl | among
    · rfl
    · exact absurd (clausal t among) (by rw [star']; decide)

theorem starredAt {text : String} {tokens st star} (lexed : Lexed none 0 text.toList tokens)
    (starred : Starred tokens st star) : StarAt text star.span.start := by
  obtain ⟨earlier, after, split, everything⟩ : ∃ earlier after, tokens = earlier ++ star :: after ∧
      star.kind = .punct .asterisk := by
    cases starred with
    | @imported before word _ after _ _ _ split _ _ everything =>
      exact ⟨before ++ [word], after, by simp [split], everything⟩
    | @exported before word _ after _ split _ _ everything =>
      exact ⟨before ++ [word], after, by simp [split], everything⟩
  exact (starFollows (split ▸ lexed) everything).2

section Declared
variable {text : String} {tokens : List Token} {p : Program}

theorem importsDeclared (lexed : Lexed none 0 text.toList tokens)
    (parsed : parseTokens tokens = .ok p) {d} (inside : .imports d ∈ p.statements)
    {span binding} (whole : .wholeModule span binding ∈ d.specifiers) :
    d.specifiers = [.wholeModule span binding] ∧
      ∃ star, Starred tokens (.imports d) star ∧ star.span.start = span.start := by
  have located := (parsedExactly.mp parsed).2.locates _ inside
  rw [List.append_nil] at located
  obtain ⟨before, taken, rest, split, derived⟩ := located
  cases derived with
  | exportedNames kind clause => cases clause
  | imports clause =>
    rcases importStarred lexed split (importsSorted clause) with ⟨_, none⟩ | ⟨star, starred, _⟩
    · exact absurd whole (none span binding)
    · cases starred with
      | imported parted kind begins everything only =>
        rw [only] at whole
        cases List.mem_singleton.mp whole
        exact ⟨only, star, .imported parted kind begins everything only, rfl⟩

theorem exportsDeclared (parsed : parseTokens tokens = .ok p) {d}
    (inside : .exportAll d ∈ p.statements) : ∃ star, Starred tokens (.exportAll d) star := by
  have located := (parsedExactly.mp parsed).2.locates _ inside
  rw [List.append_nil] at located
  obtain ⟨before, taken, rest, split, derived⟩ := located
  cases derived with
  | exportedNames kind clause => cases clause
  | exportedModule kind clause =>
    obtain ⟨star, starred, _⟩ := exportStarred split kind clause
    exact ⟨star, starred⟩

theorem usedStar (lexed : Lexed none 0 text.toList tokens)
    (parsed : parseTokens tokens = .ok p) {t} (among : t ∈ tokens)
    (kind : t.kind = .punct .asterisk ∨ t.kind = .operator .mul) :
    (∃ st ∈ p.statements, Starred tokens st t) ∨
      ∃ node ∈ Outline.nodesOfAll (Statement.outlines p.body), JoinedBy t node := by
  have derived := (parsedExactly.mp parsed).2
  cases derived.allUsed ⟨lexed.filled, lexed.ordered⟩ t among with
  | joins among joined => exact .inr ⟨_, among, joined⟩
  | other plain => rcases kind with kind | kind <;> simp [kind, Grammar.plain] at plain
  | @star st before taken rest listed everything split derived inside clause =>
    rw [List.append_nil] at split
    refine .inl ⟨st, listed, ?_⟩
    rcases clause with ⟨d, rfl⟩ | ⟨d, rfl⟩
    · cases derived with
      | exportedNames kind clause => cases clause
      | imports clause =>
        rcases importStarred lexed split (importsSorted clause) with
          ⟨clausal, _⟩ | ⟨star, starred, only⟩
        · exact absurd (clausal t inside) (by rw [everything]; decide)
        · rw [only t inside everything]
          exact starred
    · cases derived with
      | exportedNames kind clause => cases clause
      | exportedModule kind clause =>
        obtain ⟨star, starred, only⟩ := exportStarred split kind clause
        rw [only t inside everything]
        exact starred

theorem starMultiplies (spaced : Spaced tokens) (parsed : parseTokens tokens = .ok p) {t node}
    (kind : t.kind = .operator .mul)
    (among : node ∈ Outline.nodesOfAll (Statement.outlines p.body)) (joined : JoinedBy t node) :
    p.outline.nodes.filter (·.joinsAt t.span.start) = [node] ∧
      node.heading.detail = .text "*" := by
  have placed : Placed (Statement.outlines p.body) tokens := (parsedExactly.mp parsed).2.placed
  obtain ⟨op, found, joins, detail⟩ := joined
  have mul : op = .mul := by
    rw [kind] at found
    cases found
    rfl
  subst mul
  refine ⟨?_, detail⟩
  have once := joinedOnce placed spaced t.span.start
  rw [List.countP_eq_length_filter] at once
  have other : NodeKind.program ≠ .binaryExpression := by decide
  have root : p.outline.nodes.filter (·.joinsAt t.span.start) =
      (Outline.nodesOfAll (Statement.outlines p.body)).filter (·.joinsAt t.span.start) :=
    List.filter_cons_of_neg (Outline.joinsOther other)
  rw [root]
  have listed : node ∈ (Outline.nodesOfAll (Statement.outlines p.body)).filter
      (·.joinsAt t.span.start) := List.mem_filter.mpr ⟨among, joins⟩
  obtain ⟨only, single⟩ :=
    List.length_eq_one_iff.mp (Nat.le_antisymm once (List.length_pos_of_mem listed))
  rw [single] at listed ⊢
  rw [List.mem_singleton.mp listed]

end Declared

structure StarsSorted (text : String) (tokens : List Token) (p : Program) : Prop where
  imported : ∀ d span binding, .imports d ∈ p.statements →
    .wholeModule span binding ∈ d.specifiers → d.specifiers = [.wholeModule span binding] ∧
      ∃ star, StarAt text star.span.start ∧ Starred tokens (.imports d) star ∧
        star.span.start = span.start
  exported : ∀ d, .exportAll d ∈ p.statements →
    ∃ star, StarAt text star.span.start ∧ Starred tokens (.exportAll d) star
  others : ∀ pos, StarAt text pos →
    (∃ t ∈ tokens, t.kind = .string ∧ t.span.start ≤ pos ∧ pos < t.span.stop) ∨
      (∃ st ∈ p.statements, ∃ star, Starred tokens st star ∧ star.span.start = pos) ∨
        ∃ node, p.outline.nodes.filter (·.joinsAt pos) = [node] ∧
          node.heading.detail = .text "*"

theorem starsSorted {text p} (parsed : parse text = .ok p) :
    ∃ tokens, tokenize text = .ok tokens ∧ StarsSorted text tokens p := by
  unfold parse at parsed
  cases ok : tokenize text with
  | error e =>
    rw [ok] at parsed
    contradiction
  | ok tokens =>
    rw [ok] at parsed
    have lexed := tokenizedExactly.mp ok
    refine ⟨tokens, rfl, ?_, ?_, ?_⟩
    · intro d span binding inside whole
      obtain ⟨only, star, starred, start⟩ := importsDeclared lexed parsed inside whole
      exact ⟨only, star, starredAt lexed starred, starred, start⟩
    · intro d inside
      obtain ⟨star, starred⟩ := exportsDeclared parsed inside
      exact ⟨star, starredAt lexed starred, starred⟩
    · rintro pos ⟨before, behind, split, rfl⟩
      obtain ⟨t, among, quoted | ⟨kind, start⟩⟩ := starTaken lexed split
      · exact .inl ⟨t, among, quoted⟩
      · rcases usedStar lexed parsed among kind with ⟨st, inside, starred⟩ | ⟨node, inside, joined⟩
        · exact .inr (.inl ⟨st, inside, t, starred, start⟩)
        · have mul : t.kind = .operator .mul := by
            obtain ⟨op, found, _⟩ := joined
            rcases kind with kind | kind
            · rw [kind] at found
              contradiction
            · exact kind
          rw [← start]
          exact .inr (.inr ⟨node, starMultiplies (tokenizedSpaced ok) parsed mul inside joined⟩)

def multipliedImport : Program :=
  ⟨0, some 28, [.imports ⟨⟨0, 22⟩, [.wholeModule ⟨7, 13⟩ ⟨⟨12, 13⟩, "a"⟩], ⟨⟨19, 22⟩, "m", "'m'"⟩⟩,
    .expression ⟨23, 28⟩ (.binary ⟨23, 28⟩ .mul (.identifier ⟨⟨23, 24⟩, "b"⟩)
      (.identifier ⟨⟨27, 28⟩, "c"⟩))]⟩

theorem multipliedImportSorted : parse "import * as a from 'm' b * c" = .ok multipliedImport ∧
    StarAt "import * as a from 'm' b * c" 7 ∧ StarAt "import * as a from 'm' b * c" 25 ∧
    ∃ tokens, tokenize "import * as a from 'm' b * c" = .ok tokens ∧
      StarsSorted "import * as a from 'm' b * c" tokens multipliedImport := by
  have parsed : parse "import * as a from 'm' b * c" = .ok multipliedImport := by cbv
  refine ⟨parsed, ⟨"import ".toList, " as a from 'm' b * c".toList, by decide, by decide⟩,
    ⟨"import * as a from 'm' b ".toList, " c".toList, by decide, by decide⟩, starsSorted parsed⟩

end ScriptTree
