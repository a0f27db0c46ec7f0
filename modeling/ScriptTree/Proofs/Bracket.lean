import ScriptTree.Proofs.DerivationAnswer
/-! Round brackets and braces. Each phrase closes the brackets that it opens and no others, so
those of a module nest. Whether brackets nest is decided by keeping those that wait to be closed. -/
namespace ScriptTree

inductive Bracket where
  | round | brace
  deriving DecidableEq, Repr

inductive Edge where
  | opening (bracket : Bracket)
  | closing (bracket : Bracket)
  deriving DecidableEq, Repr

def Kind.edge? : Kind → Option Edge
  | .punct .parenLeft => some (.opening .round)
  | .punct .parenRight => some (.closing .round)
  | .punct .braceLeft => some (.opening .brace)
  | .punct .braceRight => some (.closing .brace)
  | _ => none

def edges (tokens : List Token) : List Edge := tokens.filterMap (·.kind.edge?)

inductive Balanced : List Edge → Prop where
  | none : Balanced []
  | pair {bracket within behind} (inner : Balanced within) (next : Balanced behind) :
      Balanced (.opening bracket :: (within ++ .closing bracket :: behind))

def opened : List Bracket → List Edge → Option (List Bracket)
  | waiting, [] => some waiting
  | waiting, .opening bracket :: more => opened (bracket :: waiting) more
  | [], .closing _ :: _ => none
  | latest :: waiting, .closing bracket :: more =>
    if latest = bracket then opened waiting more else none

theorem openedAppend (waiting : List Bracket) (word more : List Edge) :
    opened waiting (word ++ more) = (opened waiting word).bind fun left => opened left more := by
  induction word generalizing waiting with
  | nil => rfl
  | cons edge word ih =>
    cases edge with
    | opening bracket => exact ih (bracket :: waiting)
    | closing bracket =>
      cases waiting with
      | nil => rfl
      | cons latest waiting =>
        simp only [List.cons_append, opened]
        split
        · exact ih waiting
        · rfl

theorem Balanced.append {word more : List Edge} (first : Balanced word) (next : Balanced more) :
    Balanced (word ++ more) := by
  induction first with
  | none => exact next
  | @pair bracket within behind inner _ _ ih =>
    rw [List.cons_append, List.append_assoc, List.cons_append]
    exact .pair inner ih

theorem Balanced.opened {word : List Edge} (balanced : Balanced word) (waiting : List Bracket) :
    opened waiting word = some waiting := by
  induction balanced generalizing waiting with
  | none => rfl
  | @pair bracket within behind _ _ inner next =>
    rw [ScriptTree.opened, openedAppend, inner, Option.bind_some, ScriptTree.opened, if_pos rfl]
    exact next waiting

def Unwinds : List Bracket → List Edge → Prop
  | [], word => Balanced word
  | latest :: waiting, word => ∃ within behind, word = within ++ .closing latest :: behind ∧
      Balanced within ∧ Unwinds waiting behind

theorem unwindsPair {bracket : Bracket} {waiting within behind} (inner : Balanced within)
    (unwinds : Unwinds waiting behind) :
    Unwinds waiting (.opening bracket :: (within ++ .closing bracket :: behind)) := by
  cases waiting with
  | nil => exact .pair inner unwinds
  | cons latest waiting =>
    obtain ⟨between, behind, rfl, balanced, rest⟩ := unwinds
    refine ⟨.opening bracket :: (within ++ .closing bracket :: between), behind, ?_, ?_, rest⟩
    · rw [List.cons_append, List.append_assoc, List.cons_append]
    · exact .pair inner balanced

theorem openedUnwinds {waiting : List Bracket} {word : List Edge}
    (closed : opened waiting word = some []) : Unwinds waiting word := by
  induction word generalizing waiting with
  | nil =>
    cases Option.some.inj closed
    exact .none
  | cons edge word ih =>
    cases edge with
    | opening bracket =>
      obtain ⟨within, behind, rfl, inner, rest⟩ := ih closed
      exact unwindsPair inner rest
    | closing bracket =>
      cases waiting with
      | nil => contradiction
      | cons latest waiting =>
        simp only [opened] at closed
        split at closed
        · rename_i same
          subst same
          exact ⟨[], word, rfl, .none, ih closed⟩
        · contradiction

theorem balancedChecked {word : List Edge} : Balanced word ↔ opened [] word = some [] :=
  ⟨fun balanced => balanced.opened [], openedUnwinds⟩

instance (word : List Edge) : Decidable (Balanced word) :=
  decidable_of_iff _ balancedChecked.symm

example : ¬ Balanced [.opening .round, .opening .brace, .closing .round, .closing .brace] := by
  decide

namespace Grammar

abbrev Even (tokens : List Token) : Prop := Balanced (edges tokens)

theorem evenAppend {ts us : List Token} (first : Even ts) (next : Even us) : Even (ts ++ us) := by
  rw [Even, edges, List.filterMap_append]
  exact first.append next

theorem evenCons {t : Token} {kind ts} (found : t.kind = kind) (other : kind.edge? = none)
    (next : Even ts) : Even (t :: ts) := by
  rwa [Even, edges, List.filterMap_cons_none (by rw [found, other])]

theorem evenOne {t : Token} {kind} (found : t.kind = kind) (other : kind.edge? = none) :
    Even [t] := evenCons found other .none

theorem evenOptional {kind rest o} (accepted : Accepted kind rest o) (other : kind.edge? = none) :
    Even o.toList := by
  cases o with
  | none => exact .none
  | some t => exact evenOne accepted other

def Paired (left right : Kind) : Prop :=
  ∃ bracket, left.edge? = some (.opening bracket) ∧ right.edge? = some (.closing bracket)

theorem parensPaired : Paired (.punct .parenLeft) (.punct .parenRight) := ⟨.round, rfl, rfl⟩

theorem bracesPaired : Paired (.punct .braceLeft) (.punct .braceRight) := ⟨.brace, rfl, rfl⟩

theorem evenPair {opening closing : Token} {left right ts us} (paired : Paired left right)
    (opens : opening.kind = left) (closes : closing.kind = right) (inner : Even ts)
    (next : Even us) : Even (opening :: (ts ++ closing :: us)) := by
  subst opens closes
  obtain ⟨bracket, first, last⟩ := paired
  simp only [Even, edges, List.filterMap_cons, List.filterMap_append, first, last]
  exact .pair inner next

def Evens (reading : Reading α) : Prop := ∀ ⦃value taken rest⦄, reading value taken rest → Even taken

section Combined
variable {reading : Reading α}

theorem seriesEvens {stop} (each : Evens reading) : Evens (Series stop reading) := by
  intro values taken rest series
  induction series with
  | done => exact .none
  | more first next ih => exact evenAppend (each first) ih

theorem separatedEvens (each : Evens reading) : Evens (Separated reading) := by
  intro value taken rest read
  rcases read with ⟨one, _⟩ | ⟨before, comma, rfl, one, kind⟩
  · exact each one
  · exact evenAppend (each one) (evenOne kind rfl)

theorem listedEvens (each : Evens reading) : Evens (Listed reading) := by
  rintro value taken rest ⟨before, comma, rfl, one, accepted⟩
  exact evenAppend (each one) (evenOptional accepted rfl)

theorem enclosedEvens {left right : Punct} (paired : Paired (.punct left) (.punct right))
    (inner : Evens reading) : Evens (Enclosed left right reading) := by
  rintro value taken rest ⟨opening, middle, closing, rfl, opens, closes, one, _⟩
  exact evenPair paired opens closes (inner one) .none

end Combined

theorem namedEvens : Evens Named := by
  rintro id taken rest ⟨t, rfl, kind, _⟩
  exact evenOne kind rfl

theorem parametersEvens : Evens Parameters :=
  enclosedEvens parensPaired (seriesEvens (separatedEvens namedEvens))

theorem otherNameEvens : Evens OtherName := by
  intro name taken rest read
  cases read with
  | absent => exact .none
  | present renames kind => exact evenCons renames rfl (evenOne kind rfl)

theorem renamedEvens : Evens Renamed := by
  rintro names taken rest ⟨t, more, other, rfl, kind, read, _⟩
  exact evenCons kind rfl (otherNameEvens read)

theorem inBracesEvens {reading : Reading α} (each : Evens reading) : Evens (InBraces reading) :=
  enclosedEvens bracesPaired (seriesEvens (listedEvens each))

theorem importListEvens : Evens (InBraces NamedImport) := by
  refine inBracesEvens ?_
  rintro specifier taken rest ⟨names, read, _⟩
  exact renamedEvens read

theorem exportNamesEvens : Evens (InBraces NamedExport) := by
  refine inBracesEvens ?_
  rintro specifier taken rest ⟨names, read, _⟩
  exact renamedEvens read

theorem defaultImportEvens : Evens DefaultImport := by
  intro specifiers taken rest read
  cases read with
  | absent => exact .none
  | present kind ending => exact evenCons kind rfl (evenOptional ending rfl)

theorem otherImportsEvens : Evens OtherImports := by
  intro specifiers taken rest read
  cases read with
  | absent => exact .none
  | braces list => exact importListEvens list
  | star everything renames kind =>
    exact evenCons everything rfl (evenCons renames rfl (evenOne kind rfl))

theorem importsEvens : Evens Imports := by
  intro d taken rest read
  cases read with
  | clause kind default other ending string =>
    have source := evenAppend (evenOptional ending rfl) (evenOne string rfl)
    have behind := evenAppend (defaultImportEvens default)
      (evenAppend (otherImportsEvens other) source)
    exact evenCons kind rfl behind

theorem otherSourceEvens : Evens OtherSource := by
  intro source taken rest read
  cases read with
  | absent => exact .none
  | present origin kind => exact evenCons origin rfl (evenOne kind rfl)

theorem exportListEvens {start} : Evens (ExportList start) := by
  intro s taken rest read
  cases read with
  | clause list origin => exact evenAppend (exportNamesEvens list) (otherSourceEvens origin)

theorem exportAllEvens {start} : Evens (ExportsAll start) := by
  intro d taken rest read
  cases read with
  | clause everything renames origin string =>
    have source := evenCons origin rfl (evenOne string rfl)
    exact evenCons everything rfl (evenAppend (otherNameEvens renames) source)

/- A phrase takes whole brackets only, also where it stops within one, as the arguments do. -/
theorem Derives.even {phrase taken rest} (derived : Derives phrase taken rest) : Even taken := by
  induction derived with
  | literal kind => rcases kind with kind | kind <;> exact evenOne kind rfl
  | functionValue value ih => exact ih
  | head kind chain ih => exact evenCons kind rfl ih
  | stop => exact .none
  | call opens arguments closes ending chain inside ih =>
    exact evenPair parensPaired opens closes inside (evenAppend (evenOptional ending rfl) ih)
  | member dotted kind chain ih => exact evenCons dotted rfl (evenCons kind rfl ih)
  | operator kind value chain inside ih => exact evenCons kind rfl (evenAppend inside ih)
  | noArguments => exact .none
  | lastArgument value ends ih => exact ih
  | argument value kind next inside ih => exact evenAppend inside (evenCons kind rfl ih)
  | function kind named parameters block ih =>
    have list := parametersEvens parameters
    exact evenCons kind rfl (evenAppend (evenOptional named rfl) (evenAppend list ih))
  | block opens statements closes ih => exact evenPair bracesPaired opens closes ih .none
  | noStatements => exact .none
  | statements first next inside ih => exact evenAppend inside ih
  | semicolon kind => exact evenOne kind rfl
  | undeclared => exact .none
  | declarator kind assigned initial ending next inside ih =>
    have others := evenAppend (evenOptional ending rfl) ih
    exact evenCons kind rfl (evenCons assigned rfl (evenAppend inside others))
  | vars kind declared ih => exact evenCons kind rfl ih
  | functionStatement value ih => exact ih
  | expressionStatement begins value ih => exact ih
  | blockStatement value ih => exact ih
  | returns kind value ih => exact evenCons kind rfl ih
  | variableStatement value ih => exact ih
  | imports clause => exact importsEvens clause
  | exportedValue kind only begins value ih => exact evenCons kind rfl (evenCons only rfl ih)
  | exportedDefault kind only value ih => exact evenCons kind rfl (evenCons only rfl ih)
  | exportedVariables kind value ih => exact evenCons kind rfl ih
  | exportedFunction kind value ih => exact evenCons kind rfl ih
  | exportedNames kind clause => exact evenCons kind rfl (exportListEvens clause)
  | exportedModule kind clause => exact evenCons kind rfl (exportAllEvens clause)
  | statement body ending ih => exact evenAppend ih (evenOptional ending rfl)

end Grammar

theorem bracketsBalanced {tokens p} (parsed : parseTokens tokens = .ok p) :
    Balanced (edges tokens) := (parsedExactly.mp parsed).2.even

def calledBack : List Token :=
  [.plain (.keyword .importWord) "import" 0, .plain (.punct .braceLeft) "\x7b" 7,
    .plain .identifier "a" 8, .plain (.punct .braceRight) "\x7d" 9, .literal .string "m" "'m'" 11,
    .plain .identifier "a" 15, .plain (.punct .parenLeft) "(" 16,
    .plain (.keyword .functionWord) "function" 17, .plain (.punct .parenLeft) "(" 26,
    .plain .identifier "b" 27, .plain (.punct .parenRight) ")" 28,
    .plain (.punct .braceLeft) "\x7b" 30, .plain .identifier "b" 31,
    .plain (.punct .parenLeft) "(" 32, .plain (.punct .parenRight) ")" 33,
    .plain (.punct .braceRight) "\x7d" 34, .plain (.punct .parenRight) ")" 35]

theorem calledBackBalanced : ∃ p, parseTokens calledBack = .ok p ∧
    edges calledBack = [.opening .brace, .closing .brace, .opening .round, .opening .round,
      .closing .round, .opening .brace, .opening .round, .closing .round, .closing .brace,
      .closing .round] ∧ Balanced (edges calledBack) := by
  have parsed : ∃ p, parseTokens calledBack = .ok p := ⟨_, rfl⟩
  obtain ⟨p, parsed⟩ := parsed
  exact ⟨p, parsed, rfl, bracketsBalanced parsed⟩

end ScriptTree
