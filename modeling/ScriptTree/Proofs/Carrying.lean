import ScriptTree.Proofs.Relabeling
/-! What a reading has made of its tokens it makes of them again where they are relabeled and where
something else stands behind them, unless that begins with what it would have taken. -/
namespace ScriptTree.Grammar

variable {r : Relabeling}

/-- What has ended before `rest` ends before `rest'` as well. Of the token after the next one it
matters only whether it is a `=`. -/
structure Behind (rest rest' : List Token) : Prop where
  first : front rest' = front rest ∨ Quiet (front rest')
  second : front (rest'.drop 1) = front (rest.drop 1) ∨
    front (rest'.drop 1) ≠ some (.punct .assign)

theorem behindNone {rest : List Token} : Behind rest [] := ⟨.inr (.inl rfl), .inr (by simp)⟩

theorem behindOther {rest rest' kind} (behind : Behind rest rest') (other : front rest ≠ some kind)
    (loud : kind ∉ Kind.punct .braceRight :: leads) : front rest' ≠ some kind := by
  rcases behind.first with same | quiet
  · rw [same]
    exact other
  · exact quietOther quiet loud

theorem behindCons {t u : Token} {rest rest'} (same : u.kind = t.kind)
    (behind : Behind rest rest') : Behind (t :: rest) (u :: rest') := by
  refine ⟨.inl (by simp [same]), ?_⟩
  rcases behind.first with next | quiet
  · exact .inl next
  · exact .inr (quietOther quiet (by decide))

theorem behindTokens (r : Relabeling) {rest rest'} (behind : Behind rest rest')
    (ts : List Token) :
    Behind (ts ++ rest) (r.tokens ts ++ rest') := by
  induction ts with
  | nil => exact behind
  | cons t ts ih => exact behindCons rfl ih

theorem behindAccepted {kind rest rest' o} (behind : Behind rest rest')
    (accepted : Accepted kind rest o) (loud : kind ∉ Kind.punct .braceRight :: leads) :
    Accepted kind rest' (o.map r.token) := by
  cases o with
  | some t => exact accepted
  | none => exact behindOther behind accepted loud

theorem behindEnds {rest rest'} (behind : Behind rest rest') (ends : ¬ Continues rest) :
    ¬ Continues rest' := by
  rcases behind.first with same | quiet
  · unfold Continues at *
    rw [same]
    exact ends
  · exact quietEnds quiet

theorem frontTokens (r : Relabeling) {rest rest' : List Token}
    (same : front rest' = front rest) (ts : List Token) : front (r.tokens ts ++ rest') = front (ts ++ rest) := by
  cases ts with
  | nil => exact same
  | cons t ts => rfl

theorem sameAccepted {kind rest rest' o} (same : front rest' = front rest)
    (accepted : Accepted kind rest o) : Accepted kind rest' (o.map r.token) := by
  cases o with
  | some t => exact accepted
  | none =>
    unfold Accepted
    rw [same]
    exact accepted

def Carries (r : Relabeling) (reading : Reading α) (f : α → α) : Prop :=
  ∀ {value taken rest rest'}, reading value taken rest → front rest' = front rest →
    reading (f value) (r.tokens taken) rest'

def CarriesAnywhere (r : Relabeling) (reading : Reading α) (f : α → α) : Prop :=
  ∀ {value taken rest}, reading value taken rest → ∀ rest',
    reading (f value) (r.tokens taken) rest'

section Combined
variable {reading : Reading α} {f : α → α}

theorem seriesCarries {stop} (carries : Carries r reading f) :
    Carries r (Series stop reading) (List.map f) := by
  intro values taken rest rest' series same
  induction series with
  | done ends => exact .done (same ▸ ends)
  | more first next ih =>
    rw [tokensAppend]
    exact .more (carries first (frontTokens r same _)) (ih same)

theorem separatedCarries (carries : Carries r reading f) : Carries r (Separated reading) f := by
  intro value taken rest rest' read same
  rcases read with ⟨one, closes⟩ | ⟨before, comma, rfl, one, kind⟩
  · exact .inl ⟨carries one same, same.trans closes⟩
  · exact .inr ⟨r.tokens before, r.token comma, by simp, carries one rfl, kind⟩

theorem listedCarries (carries : Carries r reading f) : Carries r (Listed reading) f := by
  intro value taken rest rest' read same
  obtain ⟨before, comma, rfl, one, accepted⟩ := read
  refine ⟨r.tokens before, comma.map r.token, by simp, ?_, sameAccepted same accepted⟩
  rw [← tokensOption]
  exact carries one (frontTokens r same _)

theorem enclosedCarries {left right : Punct} {g : List α → List α}
    {inner : Reading (List α)} (carries : Carries r inner g) :
    CarriesAnywhere r (Enclosed left right inner) fun value => (r.span value.1, g value.2) := by
  intro value taken rest read rest'
  obtain ⟨opening, middle, closing, rfl, opens, closes, all, same⟩ := read
  refine ⟨r.token opening, r.tokens middle, r.token closing, by simp, opens, closes, ?_, ?_⟩
  · exact carries all rfl
  · exact congrArg r.span same

end Combined

theorem namedCarries : Carries r Named r.identifier := by
  intro id taken rest rest' read _
  obtain ⟨t, rfl, kind, rfl⟩ := read
  exact ⟨r.token t, rfl, kind, rfl⟩

theorem parametersCarries :
    CarriesAnywhere r Parameters fun value => (r.span value.1, value.2.map r.identifier) :=
  enclosedCarries (seriesCarries (separatedCarries namedCarries))

theorem otherNameCarries : Carries r OtherName (Option.map r.identifier) := by
  intro name taken rest rest' read same
  cases read with
  | absent behind => exact .absent (same ▸ behind)
  | @present word t _ renames kind =>
    exact @OtherName.present (r.token word) (r.token t) rest' renames kind

theorem renamedCarries :
    Carries r Renamed fun names => (r.identifier names.1, r.identifier names.2) := by
  intro names taken rest rest' read same
  obtain ⟨t, more, other, rfl, kind, second, rfl⟩ := read
  refine ⟨r.token t, r.tokens more, other.map r.identifier, rfl, kind,
    otherNameCarries second same, ?_⟩
  cases other <;> rfl

theorem namedImportCarries : Carries r NamedImport r.importSpecifier := by
  intro specifier taken rest rest' read same
  obtain ⟨names, renamed, rfl⟩ := read
  exact ⟨_, renamedCarries renamed same, rfl⟩

theorem namedExportCarries : Carries r NamedExport r.exportSpecifier := by
  intro specifier taken rest rest' read same
  obtain ⟨names, renamed, rfl⟩ := read
  exact ⟨_, renamedCarries renamed same, rfl⟩

theorem inBracesCarries {reading : Reading α} {f : α → α} (carries : Carries r reading f) :
    CarriesAnywhere r (InBraces reading) fun value => (r.span value.1, value.2.map f) :=
  enclosedCarries (seriesCarries (listedCarries carries))

theorem defaultImportCarries : Carries r DefaultImport (List.map r.importSpecifier) := by
  intro specifiers taken rest rest' read same
  cases read with
  | absent behind => exact .absent (same ▸ behind)
  | @present t comma _ kind ending =>
    rw [tokensCons, tokensOption]
    exact @DefaultImport.present (r.token t) _ rest' kind (sameAccepted same ending)

theorem otherImportsCarries : Carries r OtherImports (List.map r.importSpecifier) := by
  intro specifiers taken rest rest' read same
  cases read with
  | absent brace star => exact .absent (same ▸ brace) (same ▸ star)
  | braces list => exact .braces (inBracesCarries namedImportCarries list rest')
  | @star star word t _ everything renames kind =>
    exact @OtherImports.star (r.token star) (r.token word) (r.token t) rest' everything renames kind

theorem importsCarries : CarriesAnywhere r Imports r.imports := by
  intro declaration taken rest read rest'
  cases read with
  | @clause word first a others b origin source _ kind default other ending string =>
    have last : front (r.token source :: rest') = front (source :: rest) := rfl
    have before : front ((origin.map r.token).toList ++ r.token source :: rest') =
        front (origin.toList ++ source :: rest) := by
      rw [← tokensOption]
      exact frontTokens r last origin.toList
    have default' := defaultImportCarries (r := r) default (frontTokens r before b)
    have other' := otherImportsCarries (r := r) other before
    have clause := @Imports.clause (r.token word) _ _ _ _ _ (r.token source) rest' kind
      default' other' (sameAccepted last ending) string
    rw [literalToken, ← List.map_append] at clause
    simp only [tokensCons, tokensAppend, tokensOption, tokensNil]
    exact clause

theorem otherSourceCarries {source taken rest rest'} (read : OtherSource source taken rest)
    (behind : Behind rest rest') :
    OtherSource (source.map r.literal) (r.tokens taken) rest' := by
  cases read with
  | absent other => exact .absent (behindOther behind other (by decide))
  | @present word t _ origin kind =>
    have present := @OtherSource.present (r.token word) (r.token t) rest' origin kind
    rw [literalToken] at present
    exact present

theorem exportListCarries {start s taken rest rest'} (read : ExportList start s taken rest)
    (behind : Behind rest rest') :
    ExportList (r.offset start) (r.statement s) (r.tokens taken) rest' := by
  cases read with
  | @clause span specifiers a source b _ list origin =>
    have list' := inBracesCarries (r := r) namedExportCarries list (r.tokens b ++ rest')
    have clause := @ExportList.clause (r.offset start) _ _ _ _ _ _ list'
      (otherSourceCarries origin behind)
    rw [tokensAppend]
    cases source <;> exact clause

theorem exportAllCarries {start d taken rest} (read : ExportsAll start d taken rest)
    (rest' : List Token) :
    ExportsAll (r.offset start) (r.exportAll d) (r.tokens taken) rest' := by
  cases read with
  | @clause star exported a word source _ everything renames origin string =>
    have last : front (r.token word :: r.token source :: rest') = front (word :: source :: rest) :=
      rfl
    have renames' := otherNameCarries (r := r) renames last
    have clause := @ExportsAll.clause (r.offset start) (r.token star) _ _ (r.token word)
      (r.token source) rest' everything renames' origin string
    rw [literalToken] at clause
    simp only [tokensCons, tokensAppend, tokensNil]
    exact clause

def Phrase.relabeled (r : Relabeling) : Phrase → Phrase
  | .expression e => .expression (r.expression e)
  | .chain operand whole => .chain (r.expression operand) (r.expression whole)
  | .arguments es => .arguments (r.expressions es)
  | .function f => .function (r.function f)
  | .block b => .block (r.block b)
  | .statements body => .statements (r.statements body)
  | .declarators before stop ds =>
    .declarators (r.offset before) (r.offset stop) (r.declarators ds)
  | .vars d => .vars (r.vars d)
  | .unterminated s => .unterminated (r.statement s)
  | .statement s => .statement (r.statement s)

def Phrase.EndsAgain (rest rest' : List Token) : Phrase → Prop
  | .arguments _ => front rest' = front rest
  | .statements _ => front rest' = none ∨ front rest' = front rest
  | _ => True

theorem joinRelabeled (left op right) :
    r.expression (join left op right) = join (r.expression left) op (r.expression right) := by
  unfold join
  rw [Relabeling.expressionSpan, Relabeling.expressionSpan, Relabeling.expression]
  rfl

theorem closingStop (t : Token) (ts : List Token) :
    stopOf (r.token t).span.stop (r.tokens ts) = r.offset (stopOf t.span.stop ts) :=
  stopRelabeled t.span.stop ts

theorem exportDeclaredRelabeled (start d) :
    r.statement (exportDeclared start d) = exportDeclared (r.offset start) (r.declaration d) := by
  unfold exportDeclared
  rw [Relabeling.declarationSpan]
  rfl

theorem parametersFilled {value taken rest} (read : Parameters value taken rest)
    (rest' : List Token) : front (r.tokens taken ++ rest') = front (taken ++ rest) := by
  obtain ⟨opening, middle, closing, rfl, _⟩ := read
  rfl

theorem Derives.carried {phrase taken rest} (derived : Derives phrase taken rest) {rest'}
    (behind : Behind rest rest') (ends : phrase.EndsAgain rest rest') :
    Derives (phrase.relabeled r) (r.tokens taken) rest' := by
  induction derived generalizing rest' with
  | @literal t rest kind =>
    have value := @Derives.literal (r.token t) rest' kind
    rw [literalToken] at value
    exact value
  | functionValue value ih => exact .functionValue (ih behind trivial)
  | @head t e taken rest kind chain ih =>
    exact @Derives.head (r.token t) _ _ rest' kind (ih behind trivial)
  | stop stops => exact .stop (behindEnds behind stops)
  | @call callee es e opening inner closing semicolon after rest opens arguments closes ending
      chain inside ih =>
    have later := behindTokens r behind after
    have closed : Behind (closing :: (semicolon.toList ++ (after ++ rest)))
        (r.token closing :: (r.tokens semicolon.toList ++ (r.tokens after ++ rest'))) :=
      behindCons rfl (behindTokens r later _)
    have arguments' := inside closed rfl
    have chain' := ih behind trivial
    simp only [tokensCons, tokensAppend, tokensOption] at arguments' ⊢
    refine @Derives.call _ _ _ (r.token opening) _ (r.token closing) _ _ rest' opens arguments'
      closes (behindAccepted later ending (by decide)) ?_
    rw [Relabeling.expressionSpan, ← tokensOption, closingStop]
    exact chain'
  | @member object e dot name after rest dotted kind chain ih =>
    refine @Derives.member _ _ (r.token dot) (r.token name) _ rest' dotted kind ?_
    rw [Relabeling.expressionSpan]
    exact ih behind trivial
  | @operator left op right e t operand after rest kind value chain inside ih =>
    rw [tokensCons, tokensAppend]
    refine @Derives.operator _ _ _ _ (r.token t) _ _ rest' kind
      (inside (behindTokens r behind after) trivial) ?_
    rw [← joinRelabeled]
    exact ih behind trivial
  | noArguments last =>
    have same : front rest' = front _ := ends
    exact .noArguments (same ▸ last)
  | lastArgument value last ih =>
    have same : front rest' = front _ := ends
    exact .lastArgument (ih behind trivial) (same ▸ last)
  | @argument e es taken comma others rest value kind next inside ih =>
    have inner : Behind (comma :: (others ++ rest)) (r.token comma :: (r.tokens others ++ rest')) :=
      behindCons rfl (behindTokens r behind others)
    rw [tokensAppend, tokensCons]
    exact @Derives.argument _ _ _ (r.token comma) _ rest' (inside inner trivial) kind
      (ih behind ends)
  | @function word name span params b list body rest kind named parameters block ih =>
    have list' := parametersCarries (r := r) parameters (r.tokens body ++ rest')
    have named' : Accepted .identifier (r.tokens list ++ (r.tokens body ++ rest'))
        (name.map r.token) := sameAccepted (parametersFilled parameters _) named
    have function := @Derives.function (r.token word) _ _ _ _ _ _ rest' kind named' list'
      (ih behind trivial)
    rw [Relabeling.blockSpan] at function
    simp only [tokensCons, tokensAppend, tokensOption]
    cases name <;> exact function
  | @block opening body inner closing rest opens statements closes ih =>
    have closed : Behind (closing :: rest) (r.token closing :: rest') := behindCons rfl behind
    have inner' := ih closed (.inr rfl)
    have block := @Derives.block (r.token opening) _ _ (r.token closing) rest' opens inner' closes
    simp only [tokensCons, tokensAppend, tokensNil]
    exact block
  | noStatements last =>
    rcases ends with none | same
    · exact .noStatements (.inl none)
    · exact .noStatements (same ▸ last)
  | @statements s body taken others rest first next inside ih =>
    rw [tokensAppend]
    exact .statements (inside (behindTokens r behind others) trivial) (ih behind ends)
  | @semicolon t before rest kind => exact @Derives.semicolon (r.token t) _ rest' kind
  | @undeclared before rest terminated second =>
    refine .undeclared (behindOther behind terminated (by decide)) ?_
    rcases behind.second with same | other
    · rw [same]
      exact second
    · exact other
  | @declarator name assign init comma stop ds before value others rest kind assigned initial
      ending next inside ih =>
    have later := behindTokens r behind others
    have initial' := inside (behindTokens r later comma.toList) trivial
    have next' : Derives (.declarators (r.offset (stopOf init.span.stop comma.toList))
      (r.offset stop) (r.declarators ds)) (r.tokens others) rest' := ih behind trivial
    have stops : stopOf (r.expression init).span.stop (comma.map r.token).toList =
        r.offset (stopOf init.span.stop comma.toList) := by
      rw [Relabeling.expressionSpan, ← tokensOption]
      exact stopRelabeled init.span.stop comma.toList
    rw [← stops] at next'
    simp only [tokensCons, tokensAppend, tokensOption] at initial' ⊢
    have declarator := @Derives.declarator (r.token name) (r.token assign) _ _ _ _
      (r.offset before) _ _ rest' kind assigned initial' (behindAccepted later ending (by decide))
      next'
    rw [Relabeling.expressionSpan] at declarator
    exact declarator
  | @vars word sort stop ds taken rest kind declared ih =>
    exact @Derives.vars (r.token word) _ _ _ _ rest' kind (ih behind trivial)
  | functionStatement value ih => exact .functionStatement (ih behind trivial)
  | @expressionStatement e taken rest begins value ih =>
    have read := ih behind trivial
    have statement := Derives.expressionStatement (by rw [frontRelabeled, begins]) read
    rw [Relabeling.expressionSpan] at statement
    exact statement
  | blockStatement value ih => exact .blockStatement (ih behind trivial)
  | @returns word e taken rest kind value ih =>
    have statement := @Derives.returns (r.token word) _ _ rest' kind (ih behind trivial)
    rw [Relabeling.expressionSpan] at statement
    exact statement
  | variableStatement value ih => exact .variableStatement (ih behind trivial)
  | imports clause => exact .imports (importsCarries clause rest')
  | @exportedValue word default e taken rest kind only begins value ih =>
    have statement := @Derives.exportedValue (r.token word) (r.token default) _ _ rest' kind only
      (by rw [frontRelabeled, begins]) (ih behind trivial)
    rw [Relabeling.expressionSpan] at statement
    exact statement
  | @exportedDefault word default f taken rest kind only value ih =>
    have statement := @Derives.exportedDefault (r.token word) (r.token default) _ _ rest' kind only
      (ih behind trivial)
    rw [Relabeling.functionSpan] at statement
    exact statement
  | @exportedVariables word d taken rest kind value ih =>
    have statement := @Derives.exportedVariables (r.token word) _ _ rest' kind (ih behind trivial)
    rw [Phrase.relabeled, exportDeclaredRelabeled]
    exact statement
  | @exportedFunction word f taken rest kind value ih =>
    have statement := @Derives.exportedFunction (r.token word) _ _ rest' kind (ih behind trivial)
    rw [Phrase.relabeled, exportDeclaredRelabeled]
    exact statement
  | @exportedNames word s taken rest kind clause =>
    exact @Derives.exportedNames (r.token word) _ _ rest' kind (exportListCarries clause behind)
  | @exportedModule word d taken rest kind clause =>
    exact @Derives.exportedModule (r.token word) _ _ rest' kind (exportAllCarries clause rest')
  | @statement s taken semicolon rest body ending ih =>
    have body' := ih (behindTokens r behind semicolon.toList) trivial
    rw [tokensAppend]
    rw [tokensOption] at body' ⊢
    exact .statement body' (behindAccepted behind ending (by decide))

end ScriptTree.Grammar
