import ScriptTree.Proofs.Clause
/-! The kinds of the tokens that the parts without expressions are read from. -/
namespace ScriptTree.Grammar

def clauseKinds : List Kind :=
  [.identifier, .string, .punct .comma, .punct .parenLeft, .punct .parenRight,
    .punct .braceLeft, .punct .braceRight, .keyword .asWord, .keyword .fromWord,
    .keyword .importWord]

abbrev Clausal (tokens : List Token) : Prop := ∀ t ∈ tokens, t.kind ∈ clauseKinds

theorem clausalAppend {ts us : List Token} (first : Clausal ts) (next : Clausal us) :
    Clausal (ts ++ us) := List.forall_mem_append.mpr ⟨first, next⟩

theorem clausalCons {t : Token} {kind ts} (found : t.kind = kind) (listed : kind ∈ clauseKinds)
    (next : Clausal ts) : Clausal (t :: ts) :=
  List.forall_mem_cons.mpr ⟨found ▸ listed, next⟩

theorem clausalOne {t : Token} {kind} (found : t.kind = kind) (listed : kind ∈ clauseKinds) :
    Clausal [t] := clausalCons found listed (List.forall_mem_nil _)

theorem clausalOptional {kind rest o} (accepted : Accepted kind rest o)
    (listed : kind ∈ clauseKinds) : Clausal o.toList := by
  cases o with
  | none => exact List.forall_mem_nil _
  | some t => exact clausalOne accepted listed

def Clauses (reading : Reading α) : Prop :=
  ∀ ⦃value taken rest⦄, reading value taken rest → Clausal taken

section Combined
variable {reading : Reading α}

theorem seriesClausal {stop} (each : Clauses reading) : Clauses (Series stop reading) := by
  intro values taken rest series
  induction series with
  | done => exact List.forall_mem_nil _
  | more first next ih => exact clausalAppend (each first) ih

theorem separatedClausal (each : Clauses reading) : Clauses (Separated reading) := by
  intro value taken rest read
  rcases read with ⟨one, _⟩ | ⟨before, comma, rfl, one, kind⟩
  · exact each one
  · exact clausalAppend (each one) (clausalOne kind (by decide))

theorem listedClausal (each : Clauses reading) : Clauses (Listed reading) := by
  rintro value taken rest ⟨before, comma, rfl, one, accepted⟩
  exact clausalAppend (each one) (clausalOptional accepted (by decide))

theorem enclosedClausal {left right : Punct} (opens : .punct left ∈ clauseKinds)
    (closes : .punct right ∈ clauseKinds) (inner : Clauses reading) :
    Clauses (Enclosed left right reading) := by
  rintro value taken rest ⟨opening, middle, closing, rfl, first, last, one, _⟩
  exact clausalCons first opens (clausalAppend (inner one) (clausalOne last closes))

end Combined

theorem namedClausal : Clauses Named := by
  rintro id taken rest ⟨t, rfl, kind, _⟩
  exact clausalOne kind (by decide)

theorem parametersClausal : Clauses Parameters :=
  enclosedClausal (by decide) (by decide) (seriesClausal (separatedClausal namedClausal))

theorem otherNameClausal : Clauses OtherName := by
  intro name taken rest read
  cases read with
  | absent => exact List.forall_mem_nil _
  | present renames kind => exact clausalCons renames (by decide) (clausalOne kind (by decide))

theorem renamedClausal : Clauses Renamed := by
  rintro names taken rest ⟨t, more, other, rfl, kind, read, _⟩
  exact clausalCons kind (by decide) (otherNameClausal read)

theorem inBracesClausal {reading : Reading α} (each : Clauses reading) :
    Clauses (InBraces reading) :=
  enclosedClausal (by decide) (by decide) (seriesClausal (listedClausal each))

theorem importListClausal : Clauses (InBraces NamedImport) := by
  refine inBracesClausal ?_
  rintro specifier taken rest ⟨names, read, _⟩
  exact renamedClausal read

theorem defaultImportClausal : Clauses DefaultImport := by
  intro specifiers taken rest read
  cases read with
  | absent => exact List.forall_mem_nil _
  | present kind ending =>
    exact clausalCons kind (by decide) (clausalOptional ending (by decide))

theorem otherSourceClausal : Clauses OtherSource := by
  intro source taken rest read
  cases read with
  | absent => exact List.forall_mem_nil _
  | present origin kind => exact clausalCons origin (by decide) (clausalOne kind (by decide))

theorem exportListClausal {start} : Clauses (ExportList start) := by
  intro s taken rest read
  cases read with
  | clause list origin =>
    have names : Clauses NamedExport := by
      rintro specifier taken rest ⟨names, read, _⟩
      exact renamedClausal read
    exact clausalAppend (inBracesClausal names list) (otherSourceClausal origin)

inductive ImportsSorted (d : ImportDeclaration) : List Token → Prop where
  | names {taken} (clausal : Clausal taken)
      (none : ∀ span binding, .wholeModule span binding ∉ d.specifiers) : ImportsSorted d taken
  | star {word first a star name behind next} (kind : word.kind = .keyword .importWord)
      (start : word.span.start = d.span.start) (default : DefaultImport first a next)
      (everything : star.kind = .punct .asterisk)
      (specifiers : d.specifiers =
        first ++ [.wholeModule (star.span.through name.span) (.ofToken name)])
      (clausal : Clausal behind) : ImportsSorted d (word :: (a ++ star :: behind))

theorem defaultNotWhole {first a next span binding} (read : DefaultImport first a next) :
    .wholeModule span binding ∉ first := by
  cases read <;> simp

theorem namesNotWhole {stop specifiers taken rest span binding}
    (read : Series stop (Listed NamedImport) specifiers taken rest) :
    .wholeModule span binding ∉ specifiers := by
  induction read with
  | done => exact List.not_mem_nil
  | more first next ih =>
    obtain ⟨_, _, _, ⟨_, _, rfl⟩, _⟩ := first
    simpa using ih

theorem importsSorted {d taken rest} (read : Imports d taken rest) : ImportsSorted d taken := by
  cases read with
  | @clause word first a others b origin source _ kind default other ending string =>
    have last := clausalAppend (clausalOptional ending (by decide)) (clausalOne string (by decide))
    cases other with
    | absent =>
      refine .names (clausalCons kind (by decide)
        (clausalAppend (defaultImportClausal default) last)) ?_
      intro span binding
      rw [List.append_nil]
      exact defaultNotWhole default
    | braces list =>
      refine .names (clausalCons kind (by decide) (clausalAppend (defaultImportClausal default)
        (clausalAppend (importListClausal list) last))) ?_
      intro span binding among
      rcases List.mem_append.mp among with among | among
      · exact defaultNotWhole default among
      · obtain ⟨_, _, _, _, _, _, series, _⟩ := list
        exact namesNotWhole series among
    | @star star renamed name _ everything renames named =>
      exact .star kind rfl default everything rfl
        (clausalCons renames (by decide) (clausalCons named (by decide) last))

theorem exportAllSorted {start d taken rest} (read : ExportsAll start d taken rest) :
    ∃ star behind, taken = star :: behind ∧ star.kind = .punct .asterisk ∧ Clausal behind ∧
      d.span.start = start := by
  cases read with
  | @clause star exported a word source _ everything renames origin string =>
    have last := clausalCons origin (by decide) (clausalOne string (by decide))
    exact ⟨star, _, rfl, everything, clausalAppend (otherNameClausal renames) last, rfl⟩

theorem importsStarred {d taken rest} (read : Imports d taken rest) :
    ∀ t ∈ taken, t.kind = .punct .asterisk ∨ t.kind ∈ clauseKinds := by
  intro t among
  cases importsSorted read with
  | names clausal => exact .inr (clausal t among)
  | star kind _ default everything _ clausal =>
    have front := clausalCons kind (by decide) (defaultImportClausal default)
    rw [← List.cons_append] at among
    rcases List.mem_append.mp among with among | among
    · exact .inr (front t among)
    · rcases List.mem_cons.mp among with rfl | among
      · exact .inl everything
      · exact .inr (clausal t among)

theorem exportAllStarred {start d taken rest} (read : ExportsAll start d taken rest) :
    ∀ t ∈ taken, t.kind = .punct .asterisk ∨ t.kind ∈ clauseKinds := by
  obtain ⟨star, behind, rfl, everything, clausal, _⟩ := exportAllSorted read
  exact List.forall_mem_cons.mpr ⟨.inl everything, fun t among => .inr (clausal t among)⟩

end ScriptTree.Grammar
