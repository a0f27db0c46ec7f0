import ScriptTree.Proofs.Reading
/-! The parts of a module that hold no expression: names, lists of them, and the clauses that say
what is taken from other modules and given to them. Each is read in exactly one way. -/
namespace ScriptTree.Grammar

def Named : Reading Identifier := fun id taken _ =>
  ∃ t, taken = [t] ∧ t.kind = .identifier ∧ id = .ofToken t

def Parameters : Reading (Span × List Identifier) :=
  Enclosed .parenLeft .parenRight (Series (some (.punct .parenRight)) (Separated Named))

inductive OtherName : Option Identifier → List Token → List Token → Prop where
  | absent {rest} (behind : front rest ≠ some (.keyword .asWord)) : OtherName none [] rest
  | present {word t rest} (renames : word.kind = .keyword .asWord) (kind : t.kind = .identifier) :
      OtherName (some (.ofToken t)) [word, t] rest

def Renamed : Reading (Identifier × Identifier) := fun names taken rest =>
  ∃ t more other, taken = t :: more ∧ t.kind = .identifier ∧ OtherName other more rest ∧
    names = (.ofToken t, other.getD (.ofToken t))

def NamedImport : Reading ImportSpecifier := fun specifier taken rest =>
  ∃ names : Identifier × Identifier, Renamed names taken rest ∧
    specifier = .named (names.1.span.through names.2.span) names.1 names.2

def NamedExport : Reading ExportSpecifier := fun specifier taken rest =>
  ∃ names : Identifier × Identifier, Renamed names taken rest ∧
    specifier = ⟨names.1.span.through names.2.span, names.1, names.2⟩

def InBraces (item : Reading α) : Reading (Span × List α) :=
  Enclosed .braceLeft .braceRight (Series (some (.punct .braceRight)) (Listed item))

inductive DefaultImport : List ImportSpecifier → List Token → List Token → Prop where
  | absent {rest} (behind : front rest ≠ some .identifier) : DefaultImport [] [] rest
  | present {t comma rest} (kind : t.kind = .identifier)
      (ending : Accepted (.punct .comma) rest comma) :
      DefaultImport [.byDefault t.span (.ofToken t)] (t :: comma.toList) rest

inductive OtherImports : List ImportSpecifier → List Token → List Token → Prop where
  | absent {rest} (brace : front rest ≠ some (.punct .braceLeft))
      (star : front rest ≠ some (.punct .asterisk)) : OtherImports [] [] rest
  | braces {span specifiers taken rest} (list : InBraces NamedImport (span, specifiers) taken rest) :
      OtherImports specifiers taken rest
  | star {star word t rest} (everything : star.kind = .punct .asterisk)
      (renames : word.kind = .keyword .asWord) (kind : t.kind = .identifier) :
      OtherImports [.wholeModule (star.span.through t.span) (.ofToken t)] [star, word, t] rest

inductive Imports : ImportDeclaration → List Token → List Token → Prop where
  | clause {word first a others b origin source rest} (kind : word.kind = .keyword .importWord)
      (default : DefaultImport first a (b ++ (origin.toList ++ source :: rest)))
      (other : OtherImports others b (origin.toList ++ source :: rest))
      (ending : Accepted (.keyword .fromWord) (source :: rest) origin)
      (string : source.kind = .string) :
      Imports ⟨word.span.through source.span, first ++ others, .ofToken source⟩
        (word :: (a ++ (b ++ (origin.toList ++ [source])))) rest

inductive OtherSource : Option Literal → List Token → List Token → Prop where
  | absent {rest} (behind : front rest ≠ some (.keyword .fromWord)) : OtherSource none [] rest
  | present {word t rest} (origin : word.kind = .keyword .fromWord) (kind : t.kind = .string) :
      OtherSource (some (.ofToken t)) [word, t] rest

inductive ExportList (start : Nat) : Statement → List Token → List Token → Prop where
  | clause {span specifiers a source b rest}
      (list : InBraces NamedExport (span, specifiers) a (b ++ rest))
      (origin : OtherSource source b rest) :
      ExportList start (.exportNamed ⟨start, source.elim span.stop (·.span.stop)⟩ none specifiers
        source) (a ++ b) rest

inductive ExportsAll (start : Nat) : ExportAll → List Token → List Token → Prop where
  | clause {star exported a word source rest} (everything : star.kind = .punct .asterisk)
      (renames : OtherName exported a (word :: source :: rest))
      (origin : word.kind = .keyword .fromWord) (string : source.kind = .string) :
      ExportsAll start ⟨⟨start, source.span.stop⟩, exported, .ofToken source⟩
        (star :: (a ++ [word, source])) rest

theorem identifierReads : Reads identifier Named := by
  intro tokens id rest ok
  simp only [identifier, bindDone, expectDone] at ok
  obtain ⟨t, _, ⟨rfl, kind⟩, finished⟩ := ok
  cases finished
  exact ⟨[t], rfl, t, rfl, kind, rfl⟩

theorem identifierAnswers {limit} : Answers limit identifier Named := by
  rintro _ _ rest ⟨t, rfl, kind, rfl⟩ _
  exact expectFound kind rfl

theorem parametersReads {budget} : Reads (parenthesized identifier budget) Parameters :=
  enclosedReads (separatedReads identifierReads)

theorem parametersAnswer {budget} :
    Answers (budget + 1) (parenthesized identifier budget) Parameters := by
  refine enclosedAnswers (separatedAnswers identifierAnswers) ?_
  rintro id taken rest (⟨⟨t, rfl, kind, rfl⟩, _⟩ | ⟨_, comma, rfl, ⟨t, rfl, kind, rfl⟩, _⟩) <;>
    simp [kind]

theorem otherNameReads : Reads otherName OtherName := by
  intro tokens name rest ok
  simp only [otherName, bindDone, acceptDone] at ok
  obtain ⟨word, after, ⟨rfl, accepted⟩, ok⟩ := ok
  cases word with
  | none =>
    cases ok
    exact ⟨[], rfl, .absent accepted⟩
  | some word =>
    simp only [bindDone] at ok
    obtain ⟨id, last, found, finished⟩ := ok
    cases finished
    obtain ⟨_, rfl, t, rfl, kind, rfl⟩ := identifierReads found
    exact ⟨[word, t], rfl, .present accepted kind⟩

theorem otherNameAnswers {limit} : Answers limit otherName OtherName := by
  intro name taken rest read _
  cases read with
  | absent behind => exact acceptNone behind rfl
  | @present word t rest renames kind =>
    refine acceptTaken renames ?_
    have name : identifier (t :: rest) = .done (.ofToken t) rest :=
      expectFound kind rfl
    exact bindFound name rfl

theorem renamedReads : Reads renamed Renamed := by
  intro tokens names rest ok
  simp only [renamed, bindDone] at ok
  obtain ⟨id, _, first, other, _, second, finished⟩ := ok
  cases finished
  obtain ⟨_, rfl, t, rfl, kind, rfl⟩ := identifierReads first
  obtain ⟨more, rfl, read⟩ := otherNameReads second
  exact ⟨t :: more, rfl, t, more, other, rfl, kind, read, rfl⟩

theorem renamedAnswers {limit} : Answers limit renamed Renamed := by
  rintro names taken rest ⟨t, more, other, rfl, kind, read, rfl⟩ short
  have name : identifier (t :: (more ++ rest)) = .done (.ofToken t) (more ++ rest) :=
    expectFound kind rfl
  refine bindFound name ?_
  exact bindFound (otherNameAnswers read (Nat.lt_succ_self _)) rfl

theorem renamedBegins {names taken rest} (read : Renamed names taken rest) :
    front taken = some .identifier := by
  obtain ⟨t, more, other, rfl, kind, _, _⟩ := read
  simp [kind]

theorem namedImportReads : Reads namedImport NamedImport := by
  intro tokens specifier rest ok
  obtain ⟨names, taken, rfl, read, rfl⟩ := madeReads renamedReads ok
  exact ⟨taken, rfl, names, read, rfl⟩

theorem namedImportAnswers {limit} : Answers limit namedImport NamedImport := by
  rintro _ taken rest ⟨names, read, rfl⟩ short
  exact bindFound (renamedAnswers read short) rfl

theorem namedExportReads : Reads exportSpecifier NamedExport := by
  intro tokens specifier rest ok
  obtain ⟨names, taken, rfl, read, rfl⟩ := madeReads renamedReads ok
  exact ⟨taken, rfl, names, read, rfl⟩

theorem namedExportAnswers {limit} : Answers limit exportSpecifier NamedExport := by
  rintro _ taken rest ⟨names, read, rfl⟩ short
  exact bindFound (renamedAnswers read short) rfl

theorem inBracesReads {item : Production α} {reading : Reading α} {budget}
    (reads : Reads item reading) : Reads (braced (listed item) budget) (InBraces reading) :=
  enclosedReads (listedReads reads)

theorem inBracesAnswers {item : Production α} {reading : Reading α} {budget}
    (answers : Answers budget item reading)
    (begins : ∀ {value taken rest}, reading value taken rest → front taken = some .identifier) :
    Answers (budget + 1) (braced (listed item) budget) (InBraces reading) := by
  refine enclosedAnswers (listedAnswers answers) ?_
  rintro value taken rest ⟨before, comma, rfl, read, _⟩
  obtain ⟨t, more, rfl, kind⟩ := frontSome (begins read)
  simp [kind]

theorem defaultImportReads : Reads defaultImport DefaultImport := by
  intro tokens specifiers rest ok
  simp only [defaultImport, bindDone, acceptDone] at ok
  obtain ⟨name, after, ⟨rfl, accepted⟩, ok⟩ := ok
  cases name with
  | none =>
    cases ok
    exact ⟨[], rfl, .absent accepted⟩
  | some t =>
    simp only [bindDone, acceptDone] at ok
    obtain ⟨comma, _, ⟨rfl, ending⟩, finished⟩ := ok
    cases finished
    exact ⟨t :: comma.toList, rfl, .present accepted ending⟩

theorem defaultImportAnswers {limit} : Answers limit defaultImport DefaultImport := by
  intro specifiers taken rest read _
  cases read with
  | absent behind => exact acceptNone behind rfl
  | @present t comma rest kind ending =>
    refine acceptTaken kind ?_
    exact acceptFound ending rfl

theorem otherImportsReads {budget} : Reads (otherImports budget) OtherImports := by
  intro tokens specifiers rest ok
  simp only [otherImports, bindDone, peekDone] at ok
  obtain ⟨next, _, ⟨seen, rfl⟩, ok⟩ := ok
  split at ok
  · simp only [bindDone] at ok
    obtain ⟨⟨span, values⟩, _, found, finished⟩ := ok
    cases finished
    obtain ⟨taken, rfl, list⟩ := inBracesReads namedImportReads found
    exact ⟨taken, rfl, .braces list⟩
  · simp only [bindDone, expectDone] at ok
    obtain ⟨star, _, ⟨rfl, everything⟩, word, _, ⟨rfl, renames⟩, id, _, found, finished⟩ := ok
    cases finished
    obtain ⟨_, rfl, t, rfl, kind, rfl⟩ := identifierReads found
    exact ⟨[star, word, t], rfl, .star everything renames kind⟩
  · rename_i brace star
    cases ok
    exact ⟨[], rfl, .absent (fun found => brace (seen.trans found))
      (fun found => star (seen.trans found))⟩

theorem otherImportsAnswer {budget} :
    Answers (budget + 1) (otherImports budget) OtherImports := by
  intro specifiers taken rest read short
  refine peekFound rfl ?_
  cases read with
  | absent brace star =>
    rw [List.nil_append]
    generalize front rest = next at brace star
    split
    · exact absurd rfl brace
    · exact absurd rfl star
    · rfl
  | @braces span _ _ _ list =>
    have opens : front (taken ++ rest) = some (.punct .braceLeft) := by
      obtain ⟨opening, middle, closing, rfl, kind, _⟩ := list
      simp [kind]
    rw [opens]
    exact bindFound (inBracesAnswers namedImportAnswers
      (fun ⟨_, read, _⟩ => renamedBegins read) list short) rfl
  | @star star word t _ everything renames kind =>
    have name : identifier (t :: rest) = .done (.ofToken t) rest :=
      expectFound kind rfl
    simp only [List.cons_append, List.nil_append, frontCons, everything]
    refine expectFound everything ?_
    refine expectFound renames ?_
    exact bindFound name rfl

theorem moduleSourceDone {lit tokens rest} :
    moduleSource tokens = .done lit rest ↔
      ∃ t, tokens = t :: rest ∧ t.kind = .string ∧ lit = .ofToken t := by
  simp only [moduleSource, bindDone, expectDone]
  constructor
  · rintro ⟨t, _, ⟨rfl, kind⟩, finished⟩
    cases finished
    exact ⟨t, rfl, kind, rfl⟩
  · rintro ⟨t, rfl, kind, rfl⟩
    exact ⟨t, rest, ⟨rfl, kind⟩, rfl⟩

theorem importsRead {budget} : Reads (imports budget) Imports := by
  intro tokens declaration rest ok
  simp only [imports, bindDone, expectDone, acceptDone, moduleSourceDone] at ok
  obtain ⟨word, _, ⟨rfl, kind⟩, first, _, named, others, _, listed, origin, _,
    ⟨rfl, ending⟩, _, _, ⟨source, rfl, string, rfl⟩, finished⟩ := ok
  cases finished
  obtain ⟨a, rfl, default⟩ := defaultImportReads named
  obtain ⟨b, rfl, other⟩ := otherImportsReads listed
  exact ⟨word :: (a ++ (b ++ (origin.toList ++ [source]))), by simp,
    .clause kind default other ending string⟩

theorem importsAnswer {budget} : Answers (budget + 1) (imports budget) Imports := by
  intro declaration taken rest read short
  cases read with
  | @clause word first a others b origin source _ kind default other ending string =>
    simp only [List.cons_append, List.append_assoc, List.nil_append, List.length_cons,
      List.length_append] at short ⊢
    have last : moduleSource (source :: rest) = .done (.ofToken source) rest :=
      moduleSourceDone.mpr ⟨source, rfl, string, rfl⟩
    have listed : otherImports budget (b ++ (origin.toList ++ source :: rest)) =
        .done others (origin.toList ++ source :: rest) :=
      otherImportsAnswer other (by simp only [List.length_append, List.length_cons]; omega)
    refine expectFound kind ?_
    refine bindFound (defaultImportAnswers default (Nat.lt_succ_self _)) ?_
    refine bindFound listed ?_
    refine acceptFound ending ?_
    exact bindFound last rfl

theorem otherSourceReads : Reads otherSource OtherSource := by
  intro tokens source rest ok
  simp only [otherSource, bindDone, acceptDone] at ok
  obtain ⟨word, after, ⟨rfl, accepted⟩, ok⟩ := ok
  cases word with
  | none =>
    cases ok
    exact ⟨[], rfl, .absent accepted⟩
  | some word =>
    simp only [bindDone, moduleSourceDone] at ok
    obtain ⟨_, _, ⟨t, rfl, kind, rfl⟩, finished⟩ := ok
    cases finished
    exact ⟨[word, t], rfl, .present accepted kind⟩

theorem otherSourceAnswers {limit} : Answers limit otherSource OtherSource := by
  intro source taken rest read _
  cases read with
  | absent behind => exact acceptNone behind rfl
  | @present word t _ origin kind =>
    refine acceptTaken origin ?_
    exact bindFound (moduleSourceDone.mpr ⟨t, rfl, kind, rfl⟩) rfl

theorem exportListReads {start budget} : Reads (exportList start budget) (ExportList start) := by
  intro tokens s rest ok
  simp only [exportList, bindDone] at ok
  obtain ⟨⟨span, specifiers⟩, _, listed, source, _, found, finished⟩ := ok
  cases finished
  obtain ⟨a, rfl, list⟩ := inBracesReads namedExportReads listed
  obtain ⟨b, rfl, origin⟩ := otherSourceReads found
  exact ⟨a ++ b, (List.append_assoc ..).symm, .clause list origin⟩

theorem exportListAnswers {start budget} :
    Answers (budget + 1) (exportList start budget) (ExportList start) := by
  intro s taken rest read short
  cases read with
  | clause list origin =>
    rw [List.append_assoc] at short ⊢
    have listed := inBracesAnswers namedExportAnswers
      (fun ⟨_, read, _⟩ => renamedBegins read) list short
    refine bindFound listed ?_
    exact bindFound (otherSourceAnswers origin (Nat.lt_succ_self _)) rfl

theorem exportAllReads {start} : Reads (exportAll start) (ExportsAll start) := by
  intro tokens declaration rest ok
  simp only [exportAll, bindDone, expectDone, moduleSourceDone] at ok
  obtain ⟨star, _, ⟨rfl, everything⟩, exported, _, renamed, word, _, ⟨rfl, origin⟩, _, _,
    ⟨source, rfl, string, rfl⟩, finished⟩ := ok
  cases finished
  obtain ⟨a, rfl, renames⟩ := otherNameReads renamed
  exact ⟨star :: (a ++ [word, source]), by simp, .clause everything renames origin string⟩

theorem exportAllAnswers {start limit} : Answers limit (exportAll start) (ExportsAll start) := by
  intro declaration taken rest read _
  cases read with
  | @clause star exported a word source _ everything renames origin string =>
    simp only [List.cons_append, List.append_assoc, List.nil_append]
    have last : moduleSource (source :: rest) = .done (.ofToken source) rest :=
      moduleSourceDone.mpr ⟨source, rfl, string, rfl⟩
    refine expectFound everything ?_
    refine bindFound (otherNameAnswers renames (Nat.lt_succ_self _)) ?_
    refine expectFound origin ?_
    exact bindFound last rfl

end ScriptTree.Grammar
