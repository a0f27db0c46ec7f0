import ScriptTree.Proofs.Extent
import ScriptTree.Tree.Outline
/-! The runs of tokens that nodes are read from. Each node is on a run of its own, from the first
token of it to the last, and its parts are on runs inside of this one, each behind the one before.
Where the tokens lie among the bytes makes no difference to that. -/
namespace ScriptTree

def NodeKind.inList : NodeKind → Bool
  | variableDeclarator | importDefaultSpecifier | importSpecifier | importNamespaceSpecifier
  | exportSpecifier => true
  | _ => false

namespace Grammar

def Firm (ts : List Token) : Prop := ∀ t ∈ ts.getLast?, t.kind ≠ .punct .comma

theorem firmNone : Firm [] := by
  intro t last
  contradiction

theorem firmOne {t : Token} {kind} (found : t.kind = kind) (other : kind ≠ .punct .comma) :
    Firm [t] := by
  intro u last
  have same : t = u := Option.some.inj last
  rw [← same, found]
  exact other

theorem firmAppend {ts us : List Token} (first : Firm ts) (next : Firm us) : Firm (ts ++ us) := by
  intro t last
  rw [List.getLast?_append, Option.mem_def, Option.or_eq_some_iff] at last
  rcases last with last | ⟨_, last⟩
  · exact next t last
  · exact first t last

theorem firmBehind (ts : List Token) {us : List Token} (filled : us ≠ []) (firm : Firm us) :
    Firm (ts ++ us) := by
  intro t last
  rw [List.getLast?_append, List.getLast?_eq_some_getLast filled, Option.some_or] at last
  exact firm t (List.getLast?_eq_some_getLast filled ▸ last)

def Phrase.Firm (taken : List Token) : Phrase → Prop
  | .expression _ | .chain _ _ | .function _ | .block _ => Grammar.Firm taken
  | _ => True

theorem Derives.firm {phrase taken rest} (derived : Derives phrase taken rest) :
    phrase.Firm taken := by
  induction derived with
  | literal kind => rcases kind with kind | kind <;> exact firmOne kind (by decide)
  | functionValue value ih => exact ih
  | @head t e taken rest kind chain ih => exact @firmAppend [t] taken (firmOne kind (by decide)) ih
  | stop => exact firmNone
  | @call callee es e opening inner closing semicolon behind rest opens arguments closes ending
      chain inside ih =>
    have semicolons : Grammar.Firm semicolon.toList := by
      cases semicolon with
      | none => exact firmNone
      | some t => exact firmOne ending (by decide)
    have last := firmAppend (firmOne closes (by decide)) (firmAppend semicolons ih)
    exact firmBehind (opening :: inner) (List.cons_ne_nil _ _) last
  | @member object e dot name behind rest dotted kind chain ih =>
    have name : Grammar.Firm (name :: behind) :=
      @firmAppend [name] behind (firmOne kind (by decide)) ih
    exact firmBehind [dot] (List.cons_ne_nil _ _) name
  | @operator left op right e t operand behind rest kind value chain inside ih =>
    have sign : Grammar.Firm [t] := firmOne kind (fun same => Kind.noConfusion same)
    exact firmAppend sign (firmAppend inside ih)
  | @function word name span params b list body rest kind named parameters block ih =>
    obtain ⟨t, more, rfl, _⟩ := block.covered
    have last := firmBehind (word :: (name.toList ++ list)) (List.cons_ne_nil t more) ih
    rwa [List.cons_append, List.append_assoc] at last
  | @block opening body inner closing rest opens statements closes ih =>
    exact firmBehind (opening :: inner) (List.cons_ne_nil _ _) (firmOne closes (by decide))
  | _ => trivial

end Grammar

open Grammar (Covers Firm front)

/-- The node is on the tokens from the first to the last. None begins with a comma, and one that a
comma may follow does not end with it. -/
structure Heading.On (h : Heading) (ts : List Token) : Prop where
  covers : ∃ stop, h.stop = some stop ∧ Covers ⟨h.start, stop⟩ ts
  begins : front ts ≠ some (.punct .comma)
  ends : h.kind.inList = true → Firm ts

namespace Outline

inductive Leaf : Outline → List Token → Prop where
  | name {t} (kind : t.kind = .identifier) : Leaf (Identifier.ofToken t).outline [t]
  | literal {t} (kind : t.kind = .number ∨ t.kind = .string) :
      Leaf (Literal.ofToken t).outline [t]

inductive Once : Outline → List Token → Prop where
  | name {kind detail t} (specifier : kind = .importSpecifier ∨ kind = .exportSpecifier)
      (named : t.kind = .identifier) :
      Once (.spanning kind t.span detail
        [(Identifier.ofToken t).outline, (Identifier.ofToken t).outline]) [t]

def past (o : Outline) (behind : List Token) : List Token :=
  if o.heading.kind.inList ∧ front behind = some (.punct .comma) then behind.tail else behind

mutual

def Over : Outline → List Token → Prop
  | node heading parts, ts =>
    Leaf (node heading parts) ts ∨ Once (node heading parts) ts ∨
      (heading.kind ≠ .identifier ∧ heading.kind ≠ .literal) ∧ heading.On ts ∧ PartsOver parts ts

def PartsOver : List Outline → List Token → Prop
  | [], _ => True
  | part :: others, ts => ∃ before own behind, ts = before ++ (own ++ behind) ∧
      Over part own ∧ PartsOver others (part.past behind)

end

theorem overBegins {o : Outline} {ts} (lies : o.Over ts) :
    ts ≠ [] ∧ front ts ≠ some (.punct .comma) := by
  cases o with
  | node heading parts =>
    rcases lies with leaf | once | ⟨_, stands, _⟩
    · generalize node heading parts = o at leaf
      cases leaf with
      | name kind => simp [kind]
      | literal kind => rcases kind with kind | kind <;> simp [kind]
    · generalize node heading parts = o at once
      cases once with
      | name specifier named => simp [named]
    · obtain ⟨stop, _, t, more, rfl, _⟩ := stands.covers
      exact ⟨List.cons_ne_nil t more, stands.begins⟩

theorem overNode {kind span detail parts ts} (inner : kind ≠ .identifier ∧ kind ≠ .literal)
    (covers : Covers span ts) (begins : front ts ≠ some (.punct .comma))
    (ends : kind.inList = true → Firm ts) (inside : PartsOver parts ts) :
    (spanning kind span detail parts).Over ts :=
  .inr (.inr ⟨inner, ⟨⟨span.stop, rfl, covers⟩, begins, ends⟩, inside⟩)

theorem partsOne {o : Outline} {ts} (lies : o.Over ts) : PartsOver [o] ts :=
  ⟨[], ts, [], (List.append_nil ts).symm, lies, trivial⟩

theorem partsOwn {parts us} (lies : PartsOver parts us) (ts : List Token) :
    PartsOver parts (ts ++ us) := by
  cases parts with
  | nil => trivial
  | cons part others =>
    obtain ⟨before, own, behind, rfl, one, next⟩ := lies
    exact ⟨ts ++ before, own, behind, (List.append_assoc ..).symm, one, next⟩

/- No node begins with a comma, so the nodes behind one are behind its comma too. -/
theorem partsPast {parts us} (lies : PartsOver parts us) (o : Outline) :
    PartsOver parts (o.past us) := by
  unfold past
  split
  · rename_i comma
    cases parts with
    | nil => trivial
    | cons part others =>
      obtain ⟨before, own, behind, rfl, one, next⟩ := lies
      obtain ⟨filled, other⟩ := overBegins one
      cases before with
      | nil =>
        rw [List.nil_append, Grammar.frontAppend filled] at comma
        exact absurd comma.2 other
      | cons t before => exact ⟨before, own, behind, rfl, one, next⟩
  · exact lies

theorem pastAppend (o : Outline) {ts : List Token} (filled : ts ≠ []) (us : List Token) :
    o.past (ts ++ us) = o.past ts ++ us := by
  unfold past
  rw [Grammar.frontAppend filled]
  split
  · exact List.tail_append_of_ne_nil filled
  · rfl

theorem partsAppend {parts others ts us} (first : PartsOver parts ts)
    (next : PartsOver others us) : PartsOver (parts ++ others) (ts ++ us) := by
  induction parts generalizing ts with
  | nil => exact partsOwn next ts
  | cons part parts ih =>
    obtain ⟨before, own, behind, rfl, one, more⟩ := first
    refine ⟨before, own, behind ++ us, by simp, one, ?_⟩
    have joined := ih more
    cases behind with
    | nil =>
      have others : PartsOver (parts ++ others) us := by simpa [past] using joined
      exact partsPast others part
    | cons t behind =>
      rw [pastAppend part (List.cons_ne_nil t behind)]
      exact joined

theorem partsOnward {parts ts} (lies : PartsOver parts ts) (us : List Token) :
    PartsOver parts (ts ++ us) := by
  have more := partsAppend lies (show PartsOver [] us from trivial)
  rwa [List.append_nil] at more

end Outline

namespace Grammar
open Outline

theorem coversOnward {s ts} (covers : Covers s ts) (us : List Token) :
    Covers ⟨s.start, stopOf s.stop us⟩ (ts ++ us) := by
  obtain ⟨t, more, rfl, rfl⟩ := covers
  exact ⟨t, more ++ us, rfl, congrArg (Span.mk t.span.start) (stopAppend ..).symm⟩

def Lays (reading : Reading α) (outlines : α → List Outline) : Prop :=
  ∀ ⦃value taken rest⦄, reading value taken rest → PartsOver (outlines value) taken

section Combined
variable {reading : Reading α}

theorem seriesLays {stop} {outline : α → Outline} (each : Lays reading fun a => [outline a]) :
    Lays (Series stop reading) (List.map outline) := by
  intro values taken rest series
  induction series with
  | done => trivial
  | more first next ih => exact partsAppend (each first) ih

variable {outlines : α → List Outline}

theorem separatedLays (each : Lays reading outlines) : Lays (Separated reading) outlines := by
  intro value taken rest read
  rcases read with ⟨one, _⟩ | ⟨before, comma, rfl, one, _⟩
  · exact each one
  · exact partsOnward (each one) [comma]

theorem listedLays (each : Lays reading outlines) : Lays (Listed reading) outlines := by
  rintro value taken rest ⟨before, comma, rfl, one, _⟩
  exact partsOnward (each one) comma.toList

theorem enclosedLays {left right} (inner : Lays reading outlines) :
    Lays (Enclosed left right reading) (fun value => outlines value.2) := by
  rintro ⟨span, value⟩ taken rest ⟨opening, middle, closing, rfl, _, _, one, _⟩
  exact partsOwn (partsOnward (inner one) [closing]) [opening]

end Combined

theorem nameOver {t : Token} (kind : t.kind = .identifier) :
    (Identifier.ofToken t).outline.Over [t] := .inl (.name kind)

theorem literalOver {t : Token} (kind : t.kind = .number ∨ t.kind = .string) :
    (Literal.ofToken t).outline.Over [t] := .inl (.literal kind)

theorem firstOther {t : Token} {kind ts} (found : t.kind = kind) (other : kind ≠ .punct .comma) :
    front (t :: ts) ≠ some (.punct .comma) := by
  rw [frontCons, found]
  exact fun same => other (Option.some.inj same)

theorem plainOver {kind span detail parts ts}
    (plain : (kind ≠ .identifier ∧ kind ≠ .literal) ∧ kind.inList = false) (covers : Covers span ts)
    (begins : front ts ≠ some (.punct .comma)) (inside : PartsOver parts ts) :
    (spanning kind span detail parts).Over ts :=
  overNode plain.1 covers begins (fun inList => Bool.noConfusion (plain.2.symm.trans inList)) inside

theorem namedLays : Lays Named (fun id => [id.outline]) := by
  rintro id taken rest ⟨t, rfl, kind, rfl⟩
  exact partsOne (nameOver kind)

theorem parametersLays : Lays Parameters (fun list => list.2.map Identifier.outline) :=
  enclosedLays (seriesLays (separatedLays namedLays))

theorem renamedOver {kind detail names taken rest}
    (specifier : kind = .importSpecifier ∨ kind = .exportSpecifier)
    (read : Renamed names taken rest) :
    (spanning kind (names.1.span.through names.2.span) detail
      [names.1.outline, names.2.outline]).Over taken := by
  obtain ⟨t, more, other, rfl, named, read, rfl⟩ := read
  cases read with
  | absent => exact .inr (.inl (.name specifier named))
  | @present word u _ renames also =>
    have inner : kind ≠ .identifier ∧ kind ≠ .literal := by
      rcases specifier with rfl | rfl <;> decide
    have inside : PartsOver [(Identifier.ofToken t).outline, (Identifier.ofToken u).outline]
        [t, word, u] :=
      partsAppend (partsOne (nameOver named)) (partsOwn (partsOne (nameOver also)) [word])
    exact overNode inner ⟨t, [word, u], rfl, rfl⟩ (firstOther named (by decide))
      (fun _ => firmBehind [t, word] (List.cons_ne_nil u []) (firmOne also (by decide))) inside

theorem namedImportLays : Lays NamedImport (fun s => [s.outline]) := by
  rintro specifier taken rest ⟨names, read, rfl⟩
  exact partsOne (renamedOver (.inl rfl) read)

theorem namedExportLays : Lays NamedExport (fun s => [s.outline]) := by
  rintro specifier taken rest ⟨names, read, rfl⟩
  exact partsOne (renamedOver (.inr rfl) read)

theorem inBracesLays {reading : Reading α} {outline : α → Outline}
    (each : Lays reading fun a => [outline a]) :
    Lays (InBraces reading) (fun list => list.2.map outline) :=
  enclosedLays (seriesLays (listedLays each))

theorem defaultImportLays : Lays DefaultImport (List.map ImportSpecifier.outline) := by
  intro specifiers taken rest read
  cases read with
  | absent => trivial
  | @present t comma _ kind ending =>
    have node : (ImportSpecifier.byDefault t.span (.ofToken t)).outline.Over [t] :=
      overNode (by decide) (coversOne t) (firstOther kind (by decide))
        (fun _ => firmOne kind (by decide)) (partsOne (nameOver kind))
    exact partsOnward (partsOne node) comma.toList

theorem otherImportsLays : Lays OtherImports (List.map ImportSpecifier.outline) := by
  intro specifiers taken rest read
  cases read with
  | absent => trivial
  | braces list => exact inBracesLays namedImportLays list
  | @star star word t _ everything renames kind =>
    exact partsOne (overNode (by decide) (coversBehind (coversOne t) star [word])
      (firstOther everything (by decide))
      (fun _ => firmBehind [star, word] (List.cons_ne_nil t []) (firmOne kind (by decide)))
      (partsOwn (partsOne (nameOver kind)) [star, word]))

theorem importsOver {d taken rest} (read : Imports d taken rest) : d.outline.Over taken := by
  have covers := importsCover read
  cases read with
  | @clause word first a others b origin source _ kind default other ending string =>
    have last : PartsOver [(Literal.ofToken source).outline] (origin.toList ++ [source]) :=
      partsOwn (partsOne (literalOver (.inr string))) _
    have behind := partsAppend (otherImportsLays other) last
    have inside := partsOwn (partsAppend (defaultImportLays default) behind) [word]
    rw [← List.append_assoc, ← List.map_append] at inside
    exact plainOver (by decide) covers (firstOther kind (by decide)) inside

theorem otherNameLays : Lays OtherName (fun name => name.toList.map Identifier.outline) := by
  intro name taken rest read
  cases read with
  | absent => trivial
  | @present word t _ renames kind => exact partsOwn (partsOne (nameOver kind)) [word]

theorem otherSourceLays : Lays OtherSource (fun source => source.toList.map Literal.outline) := by
  intro source taken rest read
  cases read with
  | absent => trivial
  | @present word t _ origin kind => exact partsOwn (partsOne (literalOver (.inr kind))) [word]

theorem exportListOver {word s taken rest} (kind : word.kind = .keyword .exportWord)
    (read : ExportList word.span.start s taken rest) : s.outline.Over (word :: taken) := by
  have stop := exportListStop read word.span.stop
  cases read with
  | clause list origin =>
    have names := inBracesLays namedExportLays list
    exact plainOver (by decide) ⟨word, _, rfl, stop⟩ (firstOther kind (by decide))
      (partsOwn (partsAppend names (otherSourceLays origin)) [word])

theorem exportAllOver {word d taken rest} (kind : word.kind = .keyword .exportWord)
    (read : ExportsAll word.span.start d taken rest) : d.outline.Over (word :: taken) := by
  have stop := exportAllStop read word.span.stop
  cases read with
  | @clause star exported a last source _ everything renames origin string =>
    have behind : PartsOver [(Literal.ofToken source).outline] [last, source] :=
      partsOwn (partsOne (literalOver (.inr string))) [last]
    exact plainOver (by decide) ⟨word, _, rfl, stop⟩ (firstOther kind (by decide))
      (partsOwn (partsAppend (otherNameLays renames) behind) [word, star])

def Phrase.Over (taken : List Token) : Phrase → Prop
  | .expression e => e.outline.Over taken
  | .chain operand whole => ∀ before, Covers operand.span before → operand.outline.Over before →
      whole.outline.Over (before ++ taken)
  | .arguments es => PartsOver (Expression.outlines es) taken
  | .function f => ∀ kind, (kind ≠ .identifier ∧ kind ≠ .literal) ∧ kind.inList = false →
      (f.outline kind).Over taken
  | .block b => b.outline.Over taken
  | .statements body => PartsOver (Statement.outlines body) taken
  | .declarators _ _ ds => PartsOver (Declarator.outlines ds) taken
  | .vars d => d.outline.Over taken
  | .unterminated s => s.outline.Over taken
  | .statement s => PartsOver [s.outline] taken

theorem beginsBehind {o : Outline} {before : List Token} (lies : o.Over before) (ts : List Token) :
    front (before ++ ts) ≠ some (.punct .comma) := by
  rw [frontAppend (overBegins lies).1]
  exact (overBegins lies).2

theorem Derives.lies {phrase taken rest} (derived : Derives phrase taken rest) :
    phrase.Over taken := by
  induction derived with
  | literal kind => exact literalOver kind
  | functionValue value ih => exact ih .functionExpression (by decide)
  | @head t e taken rest kind chain ih => exact ih [t] (coversOne t) (nameOver kind)
  | stop =>
    intro before _ lies
    rw [List.append_nil]
    exact lies
  -- What follows an operand makes a wider one, on all the tokens from the first on.
  | @call callee es e opening inner closing semicolon behind rest opens arguments closes ending
      chain inside ih =>
    intro before covers lies
    have own : PartsOver (Expression.outlines es)
        (opening :: (inner ++ closing :: semicolon.toList)) :=
      partsOwn (partsOnward inside _) [opening]
    have wider := coversOnward covers (opening :: (inner ++ closing :: semicolon.toList))
    rw [← List.cons_append, stopBehind] at wider
    have node := ih _ wider (plainOver (by decide) wider (beginsBehind lies _)
      (partsAppend (partsOne lies) own))
    simpa only [List.append_assoc, List.cons_append] using node
  | @member object e dot name behind rest dotted kind chain ih =>
    intro before covers lies
    have own : PartsOver [(Identifier.ofToken name).outline] [dot, name] :=
      partsOwn (partsOne (nameOver kind)) [dot]
    have wider := coversOnward covers [dot, name]
    have node := ih _ wider (plainOver (by decide) wider (beginsBehind lies _)
      (partsAppend (partsOne lies) own))
    simpa only [List.append_assoc, List.cons_append, List.nil_append] using node
  | @operator left op right e t operand behind rest kind value chain inside ih =>
    intro before covers lies
    have own : PartsOver [right.outline] (t :: operand) := partsOwn (partsOne inside) [t]
    have wider := coversOnward covers (t :: operand)
    rw [stopOf, coversStop value.covered] at wider
    have node := ih _ wider (plainOver (by decide) wider (beginsBehind lies _)
      (partsAppend (partsOne lies) own))
    simpa only [List.append_assoc, List.cons_append] using node
  | noArguments => trivial
  | lastArgument value ends ih => exact partsOne ih
  | @argument e es taken comma others rest value kind next inside ih =>
    exact partsAppend (partsOne inside) (partsOwn ih [comma])
  | @function word name span params b list body rest kind named parameters block ih =>
    intro sort plain
    have own : PartsOver ((name.map Identifier.ofToken).toList.map Identifier.outline)
        name.toList := by
      cases name with
      | none => trivial
      | some t => exact partsOne (nameOver named)
    have covers := coversBehind block.covered word (name.toList ++ list)
    have parts := partsAppend own (partsAppend (parametersLays parameters) (partsOne ih))
    rw [List.append_assoc] at covers
    rw [← List.append_assoc] at parts
    exact plainOver plain covers (firstOther kind (by decide)) (partsOwn parts [word])
  | @block opening body inner closing rest opens statements closes ih =>
    exact plainOver (by decide) (coversBehind (coversOne closing) opening inner)
      (firstOther opens (by decide)) (partsOwn (partsOnward ih [closing]) [opening])
  | noStatements => trivial
  | statements first next inside ih => exact partsAppend inside ih
  | semicolon => trivial
  | undeclared => trivial
  | @declarator name assign init comma stop ds before value others rest kind assigned initial
      ending next inside ih =>
    have covers := coversBehind initial.covered name [assign]
    obtain ⟨t, more, rfl, _⟩ := initial.covered
    have firm := firmBehind [name, assign] (List.cons_ne_nil t more) initial.firm
    have parts := partsAppend (partsOne (nameOver kind)) (partsOwn (partsOne inside) [assign])
    have node : (Declarator.outline ⟨name.span.through init.span, .ofToken name, some init⟩).Over
        (name :: assign :: (t :: more)) :=
      overNode (by decide) covers (firstOther kind (by decide)) (fun _ => firm) parts
    exact partsAppend (partsOne node) (partsOwn ih comma.toList)
  | @vars word sort stop ds taken rest kind declared ih =>
    exact plainOver (by decide) (Derives.vars kind declared).covered
      (firstOther kind (by cases sort <;> decide)) (partsOwn ih [word])
  | functionStatement value ih => exact ih .functionDeclaration (by decide)
  | expressionStatement begins value ih =>
    exact plainOver (by decide) value.covered (overBegins ih).2 (partsOne ih)
  | blockStatement value ih => exact ih
  | @returns word e taken rest kind value ih =>
    exact plainOver (by decide) (coversBehind value.covered word []) (firstOther kind (by decide))
      (partsOwn (partsOne ih) [word])
  | variableStatement value ih => exact ih
  | imports clause => exact importsOver clause
  | @exportedValue word default e taken rest kind only begins value ih =>
    exact plainOver (by decide) (coversBehind value.covered word [default])
      (firstOther kind (by decide)) (partsOwn (partsOne ih) [word, default])
  | @exportedDefault word default f taken rest kind only value ih =>
    exact plainOver (by decide) (coversBehind value.covered word [default])
      (firstOther kind (by decide))
      (partsOwn (partsOne (ih .functionDeclaration (by decide))) [word, default])
  | @exportedVariables word d taken rest kind value ih =>
    exact plainOver (by decide) (coversBehind value.covered word []) (firstOther kind (by decide))
      (partsOwn (partsOne ih) [word])
  | @exportedFunction word f taken rest kind value ih =>
    exact plainOver (by decide) (coversBehind value.covered word []) (firstOther kind (by decide))
      (partsOwn (partsOne (ih .functionDeclaration (by decide))) [word])
  | exportedNames kind clause => exact exportListOver kind clause
  | exportedModule kind clause => exact exportAllOver kind clause
  | statement body ending ih => exact partsOnward (partsOne ih) _

end Grammar

end ScriptTree
