import ScriptTree.Proofs.Nesting
import ScriptTree.Proofs.Progress
import ScriptTree.Proofs.Slice
/-! Trees and errors against the text that they come from. No position lies inside a character.
Names and literals are what the text has on their spans, and so is a token that was refused. -/
namespace ScriptTree
open Text

structure Divides (text : String) (pos : Nat) : Prop where
  bounded : pos ≤ text.utf8ByteSize
  valid : (String.Pos.Raw.mk pos).IsValid text

theorem dividesAppend (before behind : String) :
    Divides (before ++ behind) before.utf8ByteSize := by
  refine ⟨?_, String.Pos.Raw.isValid_iff_exists_append.mpr ⟨before, behind, rfl, rfl⟩⟩
  rw [String.utf8ByteSize_append]
  exact Nat.le_add_right _ _

theorem dividesFront (text : String) : Divides text 0 := by
  have front := dividesAppend "" text
  rwa [String.empty_append] at front

theorem Span.Cuts.divides {s : Span} {text slice} (cuts : s.Cuts text slice) :
    Divides text s.start ∧ Divides text s.stop := by
  obtain ⟨before, behind, rfl, rfl⟩ := cuts
  constructor
  · rw [String.append_assoc]
    exact dividesAppend before _
  · have last := dividesAppend (before ++ slice) behind
    rwa [String.utf8ByteSize_append] at last

structure Identifier.Written (text : String) (id : Identifier) : Prop where
  cuts : id.span.Cuts text id.name
  letter : ∃ c ∈ id.name.toList.head?, c.isAlpha = true
  parts : ∀ c ∈ id.name.toList, isWordPart c = true
  free : ∀ word : Keyword, word.lexeme ≠ id.name

inductive Literal.Form (text : String) (lit : Literal) : Prop where
  | number (digit : ∃ c ∈ lit.raw.toList.head?, c.isDigit = true)
      (parts : ∀ c ∈ lit.raw.toList, isNumberPart c = true) (value : lit.value = lit.raw)
  | quoted {quote} (opens : isQuote quote = true) (free : quote ∉ lit.value.toList)
      (raw : lit.raw.toList = quote :: lit.value.toList ++ [quote])
  | unclosed {quote} (opens : isQuote quote = true) (free : quote ∉ lit.value.toList)
      (raw : lit.raw.toList = quote :: lit.value.toList) (last : lit.span.stop = text.utf8ByteSize)

structure Literal.Written (text : String) (lit : Literal) : Prop where
  cuts : lit.span.Cuts text lit.raw
  form : lit.Form text

structure Token.Written (text : String) (t : Token) : Prop where
  cuts : t.span.Cuts text t.lexeme
  name : t.kind = .identifier → (Identifier.ofToken t).Written text
  literal : t.kind = .number ∨ t.kind = .string → (Literal.ofToken t).Written text

namespace Text

theorem Stands.cuts {text : String} {t before behind} (stands : Stands 0 text.toList t before behind) :
    t.span.Cuts text t.lexeme := by
  obtain ⟨whole, place⟩ := stands
  refine ⟨String.ofList before, String.ofList behind, ?_, ?_⟩
  · rw [← String.toList_inj, whole]
    simp
  · rw [place, Nat.zero_add, widthText]
    rfl

variable {last : Option Kind} {text behind : List Char} {raw : Option (List Char)}

theorem classedName (classed : Classed last .identifier text raw behind) : raw = none ∧
    (∃ c ∈ text.head?, c.isAlpha = true) ∧ (∀ c ∈ text, isWordPart c = true) ∧
      ∀ word : Keyword, word.lexeme ≠ String.ofList text := by
  cases classed with
  | identifier letter parts free =>
    refine ⟨rfl, ⟨_, rfl, letter⟩, List.forall_mem_cons.mpr ⟨?_, parts⟩, free⟩
    simp [isWordPart, Char.isAlphanum, letter]

theorem classedNumber (classed : Classed last .number text raw behind) : raw = some text ∧
    (∃ c ∈ text.head?, c.isDigit = true) ∧ ∀ c ∈ text, isNumberPart c = true := by
  have part {digits : List Char} (digital : ∀ d ∈ digits, d.isDigit = true) :
      ∀ d ∈ digits, isNumberPart d = true := by
    intro d mem
    simp [isNumberPart, digital d mem]
  cases classed with
  | whole filled digital =>
    obtain ⟨d, ds, rfl⟩ := List.exists_cons_of_ne_nil filled
    exact ⟨rfl, ⟨d, rfl, digital d List.mem_cons_self⟩, part digital⟩
  | decimal filled digital decimals =>
    obtain ⟨d, ds, rfl⟩ := List.exists_cons_of_ne_nil filled
    refine ⟨rfl, ⟨d, rfl, digital d List.mem_cons_self⟩, ?_⟩
    exact List.forall_mem_append.mpr ⟨part digital, List.forall_mem_cons.mpr ⟨rfl, part decimals⟩⟩

theorem classedString (classed : Classed last .string text raw behind) : ∃ quote,
    isQuote quote = true ∧ quote ∉ text ∧
      (raw = some (quote :: text ++ [quote]) ∨ raw = some (quote :: text) ∧ behind = []) := by
  cases classed with
  | quoted opens free => exact ⟨_, opens, free, .inl rfl⟩
  | unclosed opens free => exact ⟨_, opens, free, .inr ⟨rfl, rfl⟩⟩

end Text

theorem tokenizedWritten {text : String} {tokens} (ok : tokenize text = .ok tokens) :
    ∀ t ∈ tokens, t.Written text := by
  intro t mem
  obtain ⟨earlier, later, split⟩ := List.append_of_mem mem
  obtain ⟨before, behind, stands, classed⟩ := (scanLexed (piecesScan ok)).classed split
  have cuts := stands.cuts
  refine ⟨cuts, ?_, ?_⟩
  · intro kind
    rw [kind] at classed
    obtain ⟨plain, letter, parts, free⟩ := classedName classed
    have lexeme : t.lexeme = t.text := by
      rw [Token.lexeme, Option.map_eq_none_iff.mp plain, Option.getD_none]
    rw [String.ofList_toList] at free
    rw [lexeme] at cuts
    exact ⟨cuts, letter, parts, free⟩
  · rintro (kind | kind)
    · rw [kind] at classed
      obtain ⟨same, digit, parts⟩ := classedNumber classed
      have lexeme : t.text = t.lexeme := by
        rw [← String.toList_inj, ← tokenLexeme, same, Option.getD_some]
      rw [lexeme] at digit parts
      exact ⟨cuts, .number digit parts lexeme⟩
    · rw [kind] at classed
      obtain ⟨quote, opens, free, closed | ⟨unclosed, ends⟩⟩ := classedString classed
      · have raw : t.lexeme.toList = quote :: t.text.toList ++ [quote] := by
          rw [← tokenLexeme, closed, Option.getD_some]
        exact ⟨cuts, .quoted opens free raw⟩
      · have raw : t.lexeme.toList = quote :: t.text.toList := by
          rw [← tokenLexeme, unclosed, Option.getD_some]
        refine ⟨cuts, .unclosed opens free raw ?_⟩
        obtain ⟨whole, place⟩ := stands
        subst ends
        rw [List.append_nil] at whole
        have size : width text.toList = width before + width t.lexeme.toList := by
          rw [whole, widthAppend]
        rw [widthText] at size
        rw [Literal.ofToken, place, Nat.zero_add, size]

structure Outline.Faithful (text : String) (o : Outline) : Prop where
  start : Divides text o.heading.start
  stop : ∀ stop ∈ o.heading.stop, Divides text stop
  name : o.heading.kind = .identifier → ∃ id : Identifier, o = id.outline ∧ id.Written text
  literal : o.heading.kind = .literal → ∃ lit : Literal, o = lit.outline ∧ lit.Written text

namespace Grammar
open Outline

variable {text : String}

theorem endsDivide {h ts} (ends : Ends h ts) (written : ∀ t ∈ ts, t.Written text) :
    Divides text h.start ∧ ∀ stop ∈ h.stop, Divides text stop := by
  obtain ⟨⟨t, first, start⟩, u, last, stop⟩ := ends
  refine ⟨start ▸ (written t first).cuts.divides.1, ?_⟩
  intro found same
  rw [stop] at same
  cases same
  exact (written u last).cuts.divides.2

theorem nodeFaithful {kind span detail parts ts} (inner : kind ≠ .identifier ∧ kind ≠ .literal)
    (covers : Covers span ts) (written : ∀ t ∈ ts, t.Written text) :
    (spanning kind span detail parts).Faithful text := by
  obtain ⟨start, stop⟩ := endsDivide (endsCovered covers kind detail) written
  exact ⟨start, stop, fun leaf => absurd leaf inner.1, fun leaf => absurd leaf inner.2⟩

theorem nameFaithful {t : Token} (written : t.Written text) (kind : t.kind = .identifier) :
    (Identifier.ofToken t).outline.Faithful text := by
  obtain ⟨start, stop⟩ := endsDivide (endsOne .identifier (.text t.text) t) (by simpa using written)
  refine ⟨start, stop, fun _ => ⟨_, rfl, written.name kind⟩, ?_⟩
  intro leaf
  contradiction

theorem literalFaithful {t : Token} (written : t.Written text)
    (kind : t.kind = .number ∨ t.kind = .string) : (Literal.ofToken t).outline.Faithful text := by
  obtain ⟨start, stop⟩ := endsDivide (endsOne .literal (.literal t.text t.lexeme) t)
    (by simpa using written)
  refine ⟨start, stop, ?_, fun _ => ⟨_, rfl, written.literal kind⟩⟩
  intro leaf
  contradiction

theorem placedFaithful {parts ts} (placed : Placed parts ts) (written : ∀ t ∈ ts, t.Written text) :
    ∀ node ∈ nodesOfAll parts, node.Faithful text := by
  induction placed with
  | done => exact List.forall_mem_nil _
  | own next ih => exact ih (List.forall_mem_cons.mp written).2
  | name kind next ih =>
    obtain ⟨first, others⟩ := List.forall_mem_cons.mp written
    exact List.forall_mem_cons.mpr ⟨nameFaithful first kind, ih others⟩
  | literal kind next ih =>
    obtain ⟨first, others⟩ := List.forall_mem_cons.mp written
    exact List.forall_mem_cons.mpr ⟨literalFaithful first kind, ih others⟩
  | node inner covers inside next below ih =>
    obtain ⟨own, others⟩ := List.forall_mem_append.mp written
    have all := List.forall_mem_append.mpr ⟨below own, ih others⟩
    exact List.forall_mem_cons.mpr ⟨nodeFaithful inner covers own, all⟩
  | @twice kind detail t others ts specifier named next ih =>
    obtain ⟨first, others⟩ := List.forall_mem_cons.mp written
    have inner : kind ≠ .identifier ∧ kind ≠ .literal := by
      rcases specifier with rfl | rfl <;> decide
    have whole : (spanning kind t.span detail
        [(Identifier.ofToken t).outline, (Identifier.ofToken t).outline]).Faithful text :=
      nodeFaithful inner (coversOne t) (by simpa using first)
    have name := nameFaithful first named
    exact List.forall_mem_cons.mpr ⟨whole, List.forall_mem_cons.mpr ⟨name,
      List.forall_mem_cons.mpr ⟨name, ih others⟩⟩⟩

end Grammar

structure Error.Faithful (text : String) (e : Error) : Prop where
  place : Divides text e.pos
  found : ∀ {pos expected t}, e = .unexpectedToken pos expected (some t) →
    pos = t.span.start ∧ t.span.Cuts text t.lexeme

def Pointed (pos : Nat) (cs : List Char) (e : Error) : Prop :=
  ∃ before behind, cs = before ++ '.' :: behind ∧ e = .unexpectedChar (pos + width before) '.'

theorem Pointed.further {pos cs e} {passed : List Char} (pointed : Pointed (pos + width passed) cs e) :
    Pointed pos (passed ++ cs) e := by
  obtain ⟨before, behind, rfl, rfl⟩ := pointed
  refine ⟨passed ++ before, behind, (List.append_assoc ..).symm, ?_⟩
  rw [widthAppend, Nat.add_assoc]

theorem piecesPointed {last pos cs e} (failed : tokensFrom pos (pieces last cs) = .error e) :
    Pointed pos cs e := by
  induction last, cs using pieces.induct generalizing pos with
  | case1 last =>
    rw [pieces] at failed
    contradiction
  | case2 last c cs ih =>
    rw [pieces] at failed
    -- Only a number with a second point fails, so any other piece is passed.
    have cuts := cutCuts last c cs
    generalize (cut last c cs).1 = piece at failed ih cuts
    generalize (cut last c cs).2 = behind at failed ih cuts
    generalize c :: cs = text at cuts
    cases cuts with
    | token classed =>
      simp only [tokensFrom] at failed
      split at failed
      · contradiction
      · rename_i found
        cases failed
        exact (ih found).further
    | @other c _ _ closed alone =>
      rcases alone with rfl | rfl
      · exact @Pointed.further _ _ _ [c] (ih failed)
      · exact @Pointed.further _ _ _ [c] (ih failed)
    | @fault digits more behind =>
      cases failed
      exact ⟨digits ++ '.' :: more, behind, by simp, rfl⟩

theorem tokenizeFaithful {text : String} {e} (failed : tokenize text = .error e) :
    e.Faithful text := by
  obtain ⟨before, behind, whole, rfl⟩ := piecesPointed failed
  constructor
  · have same : text = String.ofList before ++ String.ofList ('.' :: behind) := by
      rw [← String.ofList_append, ← whole, String.ofList_toList]
    rw [same, Error.pos, Nat.zero_add]
    exact dividesAppend _ _
  · intro pos expected t same
    contradiction

theorem refusalFaithful {text : String} {tokens taken rest : List Token} {expected}
    (split : tokens = taken ++ rest) (written : ∀ t ∈ tokens, t.Written text) :
    ((Session.ofTokens tokens).refusal expected rest).Faithful text := by
  cases rest with
  | nil =>
    refine ⟨?_, fun same => by cases same⟩
    simp only [Session.refusal, Session.ofTokens, Error.pos]
    cases final : tokens.getLast? with
    | none => exact dividesFront text
    | some t => exact (written t (List.mem_of_getLast? final)).cuts.divides.2
  | cons t rest =>
    have cuts := (written t (by simp [split])).cuts
    refine ⟨cuts.divides.1, ?_⟩
    intro pos expected u same
    cases same
    exact ⟨rfl, cuts⟩

theorem rootFaithful {text : String} {body : List Statement}
    (each : ∀ part ∈ Statement.outlines body, part.Faithful text) :
    (Program.ofStatements body).outline.Faithful text := by
  refine ⟨dividesFront text, ?_, fun leaf => by contradiction, fun leaf => by contradiction⟩
  intro stop found
  obtain ⟨last, final, rfl⟩ := Option.map_eq_some_iff.mp found
  rw [statementsOutlined] at each
  have part := each last.outline (List.mem_map_of_mem (List.mem_of_getLast? final))
  exact part.stop _ (statementHeading last).2

theorem parsedFaithful {text : String} :
    (∀ {p}, parse text = .ok p → ∀ node ∈ p.outline.nodes, node.Faithful text) ∧
      ∀ {e}, parse text = .error e → e.Faithful text := by
  unfold parse
  cases ok : tokenize text with
  | error e =>
    refine ⟨fun parsed => by contradiction, ?_⟩
    intro e' failed
    cases failed
    exact tokenizeFaithful ok
  | ok tokens =>
    have written := tokenizedWritten ok
    constructor
    · intro p parsed
      obtain ⟨whole, derived⟩ := parsedExactly.mp parsed
      have placed : Grammar.Placed (Statement.outlines p.body) tokens := derived.placed
      have parts := Grammar.placedFaithful placed written
      have root := rootFaithful fun part among => parts part (Outline.partAmong among)
      rw [← whole] at root
      exact List.forall_mem_cons.mpr ⟨root, parts⟩
    · intro e failed
      have settles := @Grammar.programSettles tokens
      simp only [parseTokens, Session.readsTokens] at failed
      generalize Grammar.program tokens = outcome at settles failed
      cases settles with
      | done => contradiction
      | failed split =>
        cases failed
        exact refusalFaithful split written

def accented : Program :=
  ⟨0, some 14, [.vars ⟨⟨3, 14⟩, .letKind,
    [⟨⟨7, 14⟩, ⟨⟨7, 8⟩, "a"⟩, some (.literal ⟨⟨11, 14⟩, "ü", "'ü"⟩)⟩]⟩]⟩

def unreturned : Error :=
  .unexpectedToken 10 [.identifier] (some (.plain (.punct .parenRight) ")" 10))

theorem accentedFaithful : (parse "é let a = 'ü" = .ok accented ∧
      ∀ node ∈ accented.outline.nodes, node.Faithful "é let a = 'ü") ∧
    parse "é return )" = .error unreturned ∧ unreturned.Faithful "é return )" := by
  have parsed : parse "é let a = 'ü" = .ok accented := by cbv
  have failed : parse "é return )" = .error unreturned := by cbv
  exact ⟨⟨parsed, parsedFaithful.1 parsed⟩, failed, parsedFaithful.2 failed⟩

end ScriptTree
