import ScriptTree.Proofs.Spacing
/-! What a tree keeps of its tokens. Marks that only divide or join leave nothing; every other
token is found in the tree again, in the order of the text, with what it said. -/
namespace ScriptTree

/-- What a node holds that no node below it does. -/
inductive Sign where
  | kind (kind : Kind)
  | name (id : Identifier)
  | literal (lit : Literal)
  deriving DecidableEq, Repr

def silent : List Kind :=
  [.punct .parenLeft, .punct .parenRight, .punct .braceLeft, .punct .braceRight, .punct .comma,
    .punct .dot, .punct .semicolon, .punct .assign, .keyword .asWord, .keyword .fromWord]

def Token.sign (t : Token) : Sign :=
  match t.kind with
  | .identifier => .name (.ofToken t)
  | .number => .literal (.ofToken t)
  | .string => .literal (.ofToken t)
  | kind => .kind kind

def Sign.lexeme : Sign → String
  | kind (.keyword word) => word.lexeme
  | kind (.punct mark) => mark.lexeme
  | kind (.operator op) => op.lexeme
  | kind _ => ""
  | name id => id.name
  | literal lit => lit.raw

def signsOf (tokens : List Token) : List Sign :=
  (tokens.filter (fun t => t.kind ∉ silent)).map Token.sign

def renamedSigns (name other : Identifier) : List Sign :=
  if name = other then [.name name] else [.name name, .name other]

def ImportSpecifier.signs : ImportSpecifier → List Sign
  | byDefault _ binding => [.name binding]
  | named _ imported binding => renamedSigns imported binding
  | wholeModule _ binding => [.kind (.punct .asterisk), .name binding]

def ExportSpecifier.signs (s : ExportSpecifier) : List Sign := renamedSigns s.binding s.exported

def ImportDeclaration.signs (d : ImportDeclaration) : List Sign :=
  .kind (.keyword .importWord) ::
    (d.specifiers.flatMap ImportSpecifier.signs ++ [.literal d.source])

def ExportAll.signs (d : ExportAll) : List Sign :=
  .kind (.punct .asterisk) :: (d.exported.toList.map Sign.name ++ [.literal d.source])

mutual

def Expression.signs : Expression → List Sign
  | .identifier id => [.name id]
  | .literal lit => [.literal lit]
  | .function f => f.signs
  | .member _ object property _ => object.signs ++ [.name property]
  | .call _ callee arguments => callee.signs ++ Expression.allSigns arguments
  | .binary _ op left right => left.signs ++ .kind (.operator op) :: right.signs

def Expression.allSigns : List Expression → List Sign
  | [] => []
  | e :: others => e.signs ++ Expression.allSigns others

def FunctionDef.signs : FunctionDef → List Sign
  | ⟨_, name, params, body⟩ =>
    .kind (.keyword .functionWord) ::
      (name.toList.map Sign.name ++ (params.map Sign.name ++ body.signs))

def Block.signs : Block → List Sign
  | ⟨_, body⟩ => Statement.allSigns body

def Declarator.signs : Declarator → List Sign
  | ⟨_, id, none⟩ => [.name id]
  | ⟨_, id, some init⟩ => .name id :: init.signs

def Declarator.allSigns : List Declarator → List Sign
  | [] => []
  | d :: others => d.signs ++ Declarator.allSigns others

def VariableDeclaration.signs : VariableDeclaration → List Sign
  | ⟨_, kind, declarators⟩ =>
    .kind (.keyword (Grammar.variableWord kind)) :: Declarator.allSigns declarators

def Declaration.signs : Declaration → List Sign
  | .vars declaration => declaration.signs
  | .function f => f.signs

def DefaultDeclaration.signs : DefaultDeclaration → List Sign
  | .expression e => e.signs
  | .function f => f.signs

def Statement.signs : Statement → List Sign
  | .vars declaration => declaration.signs
  | .function f => f.signs
  | .block b => b.signs
  | .returns _ argument => .kind (.keyword .returnWord) :: argument.signs
  | .expression _ e => e.signs
  | .imports declaration => declaration.signs
  | .exportNamed _ none specifiers source =>
    .kind (.keyword .exportWord) ::
      (specifiers.flatMap ExportSpecifier.signs ++ source.toList.map Sign.literal)
  | .exportNamed _ (some declaration) specifiers source =>
    .kind (.keyword .exportWord) :: (declaration.signs ++
      (specifiers.flatMap ExportSpecifier.signs ++ source.toList.map Sign.literal))
  | .exportDefault _ declaration =>
    .kind (.keyword .exportWord) :: .kind (.keyword .defaultWord) :: declaration.signs
  | .exportAll declaration => .kind (.keyword .exportWord) :: declaration.signs

def Statement.allSigns : List Statement → List Sign
  | [] => []
  | s :: others => s.signs ++ Statement.allSigns others

end

def Program.signs (p : Program) : List Sign := Statement.allSigns p.body

namespace Grammar

@[simp] theorem signsNil : signsOf [] = [] := rfl

@[simp] theorem signsAppend (ts us : List Token) :
    signsOf (ts ++ us) = signsOf ts ++ signsOf us := by
  simp [signsOf]

theorem signsSilent {t : Token} (quiet : t.kind ∈ silent) (ts : List Token) :
    signsOf (t :: ts) = signsOf ts := by
  simp [signsOf, quiet]

theorem signsLoud {t : Token} (loud : t.kind ∉ silent) (ts : List Token) :
    signsOf (t :: ts) = t.sign :: signsOf ts := by
  simp [signsOf, loud]

theorem signsMark {t : Token} {mark : Punct} (kind : t.kind = .punct mark)
    (other : mark ≠ .asterisk) (ts : List Token) : signsOf (t :: ts) = signsOf ts := by
  refine signsSilent ?_ ts
  rw [kind]
  cases mark <;> first | decide | contradiction

theorem signsStar {t : Token} (kind : t.kind = .punct .asterisk) (ts : List Token) :
    signsOf (t :: ts) = .kind (.punct .asterisk) :: signsOf ts := by
  rw [signsLoud (by rw [kind]; decide), Token.sign, kind]

theorem signsWord {t : Token} {word : Keyword} (kind : t.kind = .keyword word)
    (loud : word ≠ .asWord ∧ word ≠ .fromWord) (ts : List Token) :
    signsOf (t :: ts) = .kind (.keyword word) :: signsOf ts := by
  have outside : t.kind ∉ silent := by
    rw [kind]
    cases word <;> first | decide | simp at loud
  rw [signsLoud outside, Token.sign, kind]

theorem signsOperator {t : Token} {op : Operator} (kind : t.kind = .operator op)
    (ts : List Token) : signsOf (t :: ts) = .kind (.operator op) :: signsOf ts := by
  rw [signsLoud (by simp [kind, silent]), Token.sign, kind]

theorem signsName {t : Token} (kind : t.kind = .identifier) (ts : List Token) :
    signsOf (t :: ts) = .name (.ofToken t) :: signsOf ts := by
  rw [signsLoud (by rw [kind]; decide), Token.sign, kind]

theorem signsLiteral {t : Token} (kind : t.kind = .number ∨ t.kind = .string)
    (ts : List Token) : signsOf (t :: ts) = .literal (.ofToken t) :: signsOf ts := by
  rcases kind with kind | kind
  · rw [signsLoud (by rw [kind]; decide), Token.sign, kind]
  · rw [signsLoud (by rw [kind]; decide), Token.sign, kind]

theorem signsOptional {kind rest o} (accepted : Accepted kind rest o) (quiet : kind ∈ silent) :
    signsOf o.toList = [] := by
  cases o with
  | none => rfl
  | some t =>
    have same : t.kind = kind := accepted
    exact signsSilent (same ▸ quiet) []

def Signs (reading : Reading α) (signs : α → List Sign) : Prop :=
  ∀ ⦃value taken rest⦄, reading value taken rest → Spaced taken → signs value = signsOf taken

section Combined
variable {reading : Reading α} {signs : α → List Sign}

theorem seriesSigns {stop} (each : Signs reading signs) :
    Signs (Series stop reading) (List.flatMap signs) := by
  intro values taken rest series spaced
  induction series with
  | done => rfl
  | @more value values taken others rest first next ih =>
    have one := each first (spaced.part (by grind))
    have all := ih (spaced.part (by grind))
    rw [List.flatMap_cons, one, all, signsAppend]

theorem separatedSigns (each : Signs reading signs) : Signs (Separated reading) signs := by
  intro value taken rest read spaced
  rcases read with ⟨one, _⟩ | ⟨before, comma, rfl, one, kind⟩
  · exact each one spaced
  · rw [each one (spaced.part (by grind)), signsAppend, signsMark kind (by decide)]
    exact (List.append_nil _).symm

theorem listedSigns (each : Signs reading signs) : Signs (Listed reading) signs := by
  rintro value taken rest ⟨before, comma, rfl, one, accepted⟩ spaced
  rw [each one (spaced.part (by grind)), signsAppend, signsOptional accepted (by decide),
    List.append_nil]

theorem enclosedSigns {left right : Punct} (opens : left ≠ .asterisk) (closes : right ≠ .asterisk)
    (inner : Signs reading signs) : Signs (Enclosed left right reading) (fun value => signs value.2) := by
  rintro ⟨span, value⟩ taken rest ⟨opening, middle, closing, rfl, opened, closed, one, _⟩ spaced
  have signed : signs value = signsOf middle := inner one (spaced.part (by grind))
  rw [signsMark opened opens, signsAppend, signsMark closed closes, signsNil, List.append_nil]
  exact signed

end Combined

theorem namedSigns : Signs Named (fun id => [.name id]) := by
  rintro id taken rest ⟨t, rfl, kind, rfl⟩ _
  exact (signsName kind []).symm

theorem parametersSigns : Signs Parameters (fun list => list.2.map Sign.name) := by
  intro list taken rest read spaced
  have inner : Signs (Series (some (.punct .parenRight)) (Separated Named))
      (List.flatMap fun id => [Sign.name id]) := seriesSigns (separatedSigns namedSigns)
  have signed : list.2.flatMap (fun id => [Sign.name id]) = signsOf taken :=
    enclosedSigns (by decide) (by decide) inner read spaced
  exact List.map_eq_flatMap.trans signed

theorem otherNameSigns : Signs OtherName (fun name => name.toList.map Sign.name) := by
  intro name taken rest read _
  cases read with
  | absent => rfl
  | @present word t _ renames kind =>
    rw [signsSilent (by rw [renames]; decide), signsName kind]
    rfl

/- Only here it matters that tokens stand apart: two names are one node if they are one token. -/
theorem renamedSigned : Signs Renamed (fun names => renamedSigns names.1 names.2) := by
  rintro names taken rest ⟨t, more, other, rfl, kind, read, rfl⟩ spaced
  rw [signsName kind]
  cases read with
  | absent => exact if_pos rfl
  | @present word u _ renames named =>
    have behind : t.span.stop ≤ u.span.start :=
      (List.pairwise_cons.mp spaced.ordered).1 u (by simp)
    have filled := spaced.filled t List.mem_cons_self
    have apart : Identifier.ofToken t ≠ .ofToken u := by
      intro same
      have place : t.span = u.span := congrArg Identifier.span same
      rw [place] at behind filled
      omega
    rw [signsSilent (by rw [renames]; decide), signsName named]
    exact if_neg apart

theorem namedImportSigns : Signs NamedImport ImportSpecifier.signs := by
  rintro specifier taken rest ⟨names, read, rfl⟩ spaced
  exact renamedSigned read spaced

theorem namedExportSigns : Signs NamedExport ExportSpecifier.signs := by
  rintro specifier taken rest ⟨names, read, rfl⟩ spaced
  exact renamedSigned read spaced

theorem inBracesSigns {reading : Reading α} {signs : α → List Sign}
    (each : Signs reading signs) : Signs (InBraces reading) (fun list => list.2.flatMap signs) :=
  enclosedSigns (by decide) (by decide) (seriesSigns (listedSigns each))

theorem defaultImportSigns : Signs DefaultImport (List.flatMap ImportSpecifier.signs) := by
  intro specifiers taken rest read _
  cases read with
  | absent => rfl
  | present kind ending =>
    rw [signsName kind, signsOptional ending (by decide)]
    rfl

theorem otherImportsSigns : Signs OtherImports (List.flatMap ImportSpecifier.signs) := by
  intro specifiers taken rest read spaced
  cases read with
  | absent => rfl
  | braces list => exact inBracesSigns namedImportSigns list spaced
  | star everything renames kind =>
    rw [signsStar everything, signsSilent (by rw [renames]; decide), signsName kind]
    rfl

theorem importsSigns : Signs Imports ImportDeclaration.signs := by
  intro d taken rest read spaced
  cases read with
  | @clause word first a others b origin source _ kind default other ending string =>
    have one := defaultImportSigns default (spaced.part (by grind))
    have behind := otherImportsSigns other (spaced.part (by grind))
    rw [signsWord kind (by decide)]
    simp only [signsAppend, signsOptional ending (by decide), signsLiteral (.inr string), signsNil,
      ImportDeclaration.signs, List.flatMap_append, one, behind, List.append_assoc, List.nil_append]

theorem otherSourceSigns : Signs OtherSource (fun source => source.toList.map Sign.literal) := by
  intro source taken rest read _
  cases read with
  | absent => rfl
  | present origin kind =>
    rw [signsSilent (by rw [origin]; decide), signsLiteral (.inr kind)]
    rfl

theorem exportListSigns {start s taken rest} (read : ExportList start s taken rest)
    (spaced : Spaced taken) : s.signs = .kind (.keyword .exportWord) :: signsOf taken := by
  cases read with
  | @clause span specifiers a source b _ list origin =>
    have names : specifiers.flatMap ExportSpecifier.signs = signsOf a :=
      inBracesSigns namedExportSigns list (spaced.part (by grind))
    have behind : source.toList.map Sign.literal = signsOf b :=
      otherSourceSigns origin (spaced.part (by grind))
    rw [Statement.signs, names, behind, signsAppend]

theorem exportAllSigns {start} : Signs (ExportsAll start) ExportAll.signs := by
  intro d taken rest read spaced
  cases read with
  | @clause star exported a word source _ everything renames origin string =>
    have name : exported.toList.map Sign.name = signsOf a :=
      otherNameSigns renames (spaced.part (by grind))
    rw [signsStar everything, signsAppend, signsSilent (by rw [origin]; decide),
      signsLiteral (.inr string), ← name]
    rfl

def Phrase.Signed (taken : List Token) : Phrase → Prop
  | .expression e => e.signs = signsOf taken
  | .chain operand whole => whole.signs = operand.signs ++ signsOf taken
  | .arguments es => Expression.allSigns es = signsOf taken
  | .function f => f.signs = signsOf taken
  | .block b => b.signs = signsOf taken
  | .statements body => Statement.allSigns body = signsOf taken
  | .declarators _ _ ds => Declarator.allSigns ds = signsOf taken
  | .vars d => d.signs = signsOf taken
  | .unterminated s => s.signs = signsOf taken
  | .statement s => s.signs = signsOf taken

theorem Derives.signed {phrase taken rest} (derived : Derives phrase taken rest)
    (spaced : Spaced taken) : phrase.Signed taken := by
  induction derived with
  | literal kind => exact (signsLiteral kind []).symm
  | functionValue value ih => exact ih spaced
  | head kind chain ih =>
    have behind := ih (spaced.part (by grind))
    rw [Phrase.Signed, signsName kind]
    exact behind
  | stop => exact (List.append_nil _).symm
  -- Of a chain, the whole has the signs of the operand first and then those of the tokens.
  | call opens arguments closes ending chain inside ih =>
    have among := inside (spaced.part (by grind))
    have behind := ih (spaced.part (by grind))
    simp only [Phrase.Signed] at among behind ⊢
    rw [behind, Expression.signs, among, signsMark opens (by decide), signsAppend,
      signsMark closes (by decide), signsAppend, signsOptional ending (by decide),
      List.nil_append, List.append_assoc]
  | member dotted kind chain ih =>
    have behind := ih (spaced.part (by grind))
    simp only [Phrase.Signed] at behind ⊢
    rw [behind, Expression.signs, signsMark dotted (by decide), signsName kind, List.append_assoc]
    rfl
  | operator kind value chain inside ih =>
    have right := inside (spaced.part (by grind))
    have behind := ih (spaced.part (by grind))
    simp only [Phrase.Signed] at right behind ⊢
    rw [behind, join, Expression.signs, right, signsOperator kind, signsAppend, List.append_assoc]
    rfl
  | noArguments => rfl
  | lastArgument value ends ih =>
    have one := ih spaced
    simp only [Phrase.Signed] at one ⊢
    rw [Expression.allSigns, Expression.allSigns, one, List.append_nil]
  | argument value kind next inside ih =>
    have one := inside (spaced.part (by grind))
    have others := ih (spaced.part (by grind))
    simp only [Phrase.Signed] at one others ⊢
    rw [Expression.allSigns, one, others, signsAppend, signsMark kind (by decide)]
  | @function word name span params b list body rest kind named parameters block ih =>
    have names : params.map Sign.name = signsOf list :=
      parametersSigns parameters (spaced.part (by grind))
    have inner := ih (spaced.part (by grind))
    have own : (name.map Identifier.ofToken).toList.map Sign.name = signsOf name.toList := by
      cases name with
      | none => rfl
      | some t => exact (signsName named []).symm
    simp only [Phrase.Signed] at inner ⊢
    rw [FunctionDef.signs, own, names, inner, signsWord kind (by decide), signsAppend, signsAppend]
  | block opens statements closes ih =>
    have body := ih (spaced.part (by grind))
    simp only [Phrase.Signed] at body ⊢
    rw [Block.signs, body, signsMark opens (by decide), signsAppend, signsMark closes (by decide),
      signsNil, List.append_nil]
  | noStatements => rfl
  | statements first next inside ih =>
    have one := inside (spaced.part (by grind))
    have others := ih (spaced.part (by grind))
    simp only [Phrase.Signed] at one others ⊢
    rw [Statement.allSigns, one, others, signsAppend]
  | semicolon kind => exact (signsMark kind (by decide) []).symm
  | undeclared => rfl
  | declarator kind assigned initial ending next inside ih =>
    have value := inside (spaced.part (by grind))
    have others := ih (spaced.part (by grind))
    simp only [Phrase.Signed] at value others ⊢
    rw [Declarator.allSigns, Declarator.signs, value, others, signsName kind,
      signsMark assigned (by decide), signsAppend, signsAppend, signsOptional ending (by decide)]
    rfl
  | @vars word sort stop ds taken rest kind declared ih =>
    have all := ih (spaced.part (by grind))
    simp only [Phrase.Signed] at all ⊢
    rw [VariableDeclaration.signs, all, signsWord kind (by cases sort <;> decide)]
  | functionStatement value ih => exact ih spaced
  | expressionStatement begins value ih => exact ih spaced
  | blockStatement value ih => exact ih spaced
  | returns kind value ih =>
    have argument := ih (spaced.part (by grind))
    simp only [Phrase.Signed] at argument ⊢
    rw [Statement.signs, argument, signsWord kind (by decide)]
  | variableStatement value ih => exact ih spaced
  | imports clause => exact importsSigns clause spaced
  | exportedValue kind only begins value ih =>
    have inner := ih (spaced.part (by grind))
    simp only [Phrase.Signed] at inner ⊢
    rw [Statement.signs, DefaultDeclaration.signs, inner, signsWord kind (by decide),
      signsWord only (by decide)]
  | exportedDefault kind only value ih =>
    have inner := ih (spaced.part (by grind))
    simp only [Phrase.Signed] at inner ⊢
    rw [Statement.signs, DefaultDeclaration.signs, inner, signsWord kind (by decide),
      signsWord only (by decide)]
  | exportedVariables kind value ih =>
    have inner := ih (spaced.part (by grind))
    simp only [Phrase.Signed] at inner ⊢
    rw [exportDeclared, Statement.signs, Declaration.signs, inner, signsWord kind (by decide)]
    exact congrArg _ (List.append_nil _)
  | exportedFunction kind value ih =>
    have inner := ih (spaced.part (by grind))
    simp only [Phrase.Signed] at inner ⊢
    rw [exportDeclared, Statement.signs, Declaration.signs, inner, signsWord kind (by decide)]
    exact congrArg _ (List.append_nil _)
  | exportedNames kind clause =>
    rw [Phrase.Signed, exportListSigns clause (spaced.part (by grind)), signsWord kind (by decide)]
  | exportedModule kind clause =>
    rw [Phrase.Signed, Statement.signs, exportAllSigns clause (spaced.part (by grind)),
      signsWord kind (by decide)]
  | statement body ending ih =>
    have inner := ih (spaced.part (by grind))
    simp only [Phrase.Signed] at inner ⊢
    rw [inner, signsAppend, signsOptional ending (by decide), List.append_nil]

end Grammar

theorem scansSigned {last pos cs tokens} (scans : Text.Scans last pos cs tokens) :
    ∀ t ∈ tokens, t.sign.lexeme = t.lexeme := by
  induction scans with
  | done => exact List.forall_mem_nil _
  | skip closed next ih => exact ih
  | token classed next ih =>
    refine List.forall_mem_cons.mpr ⟨?_, ih⟩
    cases classed with
    | keyword letter parts spelled => exact spelled
    | mark spelled => exact spelled
    | operator spelled => exact spelled
    | _ => rfl

theorem signsRead {tokens p} (spaced : Spaced tokens) (parsed : parseTokens tokens = .ok p) :
    p.signs = (tokens.filter (fun t => t.kind ∉ silent)).map Token.sign ∧
      ∀ {text}, Text.tokenize text = .ok tokens →
        p.signs.map Sign.lexeme = (tokens.filter (fun t => t.kind ∉ silent)).map Token.lexeme := by
  have signed : p.signs = signsOf tokens := (parsedExactly.mp parsed).2.signed spaced
  refine ⟨signed, ?_⟩
  intro text ok
  have each := scansSigned (Text.piecesScan ok)
  rw [signed, signsOf, List.map_map]
  refine List.map_congr_left ?_
  intro t mem
  exact each t (List.mem_of_mem_filter mem)

def renamedImport : List Token :=
  [.plain (.keyword .importWord) "import" 0, .plain (.punct .braceLeft) "\x7b" 7,
    .plain .identifier "a" 8, .plain (.keyword .asWord) "as" 10, .plain .identifier "b" 13,
    .plain (.punct .comma) "," 14, .plain .identifier "c" 16,
    .plain (.punct .braceRight) "\x7d" 17, .literal .string "m" "'m'" 19]

def renamedImportProgram : Program :=
  ⟨0, some 22, [.imports ⟨⟨0, 22⟩, [.named ⟨8, 14⟩ ⟨⟨8, 9⟩, "a"⟩ ⟨⟨13, 14⟩, "b"⟩,
    .named ⟨16, 17⟩ ⟨⟨16, 17⟩, "c"⟩ ⟨⟨16, 17⟩, "c"⟩], ⟨⟨19, 22⟩, "m", "'m'"⟩⟩]⟩

theorem renamedImportRead : Spaced renamedImport ∧
    Text.tokenize "import \x7ba as b, c\x7d 'm'" = .ok renamedImport ∧
    parseTokens renamedImport = .ok renamedImportProgram ∧
    renamedImportProgram.signs = [.kind (.keyword .importWord), .name ⟨⟨8, 9⟩, "a"⟩,
      .name ⟨⟨13, 14⟩, "b"⟩, .name ⟨⟨16, 17⟩, "c"⟩, .literal ⟨⟨19, 22⟩, "m", "'m'"⟩] ∧
    renamedImportProgram.signs.map Sign.lexeme = ["import", "a", "b", "c", "'m'"] := by
  have spaced : Spaced renamedImport := ⟨by decide, by decide⟩
  have ok : Text.tokenize "import \x7ba as b, c\x7d 'm'" = .ok renamedImport := by cbv
  have parsed : parseTokens renamedImport = .ok renamedImportProgram := rfl
  obtain ⟨signs, written⟩ := signsRead spaced parsed
  refine ⟨spaced, ok, parsed, signs.trans ?_, (written ok).trans ?_⟩
  · decide
  · decide

end ScriptTree
