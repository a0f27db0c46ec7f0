import ScriptTree.Proofs.Rendering
/-! The clauses of a module are read back as they were written: names, lists of names, and what is
taken from other modules and given to them. -/
namespace ScriptTree.Grammar
open Relabeling (placeless)

theorem spelledAlike {id : Identifier} {t : Token} (spelled : Spells id t) :
    placeless.identifier (.ofToken t) = placeless.identifier id := by
  simp only [Relabeling.identifier, Identifier.ofToken, spelled.2]
  rfl

theorem quotedAlike {lit : Literal} {t : Token} (quoted : Quotes lit t) :
    placeless.literal (.ofToken t) = placeless.literal lit := by
  simp only [Relabeling.literal, Literal.ofToken, Token.lexeme, quoted.1, quoted.2]
  rfl

theorem acceptedMay {kind : Kind} {o : Option Token} {rest : List Token} (may : MayHave kind o)
    (other : front rest ≠ some kind) : Accepted kind rest o := by
  cases o with
  | none => exact other
  | some t => exact may t rfl

theorem namesRead {ids ts} (writes : WritesNames ids ts) {rest}
    (closes : front rest = some (.punct .parenRight)) : ∃ ids' : List Identifier,
      ids'.map placeless.identifier = ids.map placeless.identifier ∧
        Series (some (.punct .parenRight)) (Separated Named) ids' ts rest := by
  induction writes with
  | none => exact ⟨[], rfl, .done (.inr closes)⟩
  | @last id t comma spelled ending =>
    refine ⟨[.ofToken t], by simp [spelledAlike spelled], ?_⟩
    have one : Named (.ofToken t) [t] (comma.toList ++ rest) := ⟨t, rfl, spelled.1, rfl⟩
    have item : Separated Named (.ofToken t) (t :: comma.toList) ([] ++ rest) := by
      cases comma with
      | none => exact .inl ⟨one, closes⟩
      | some comma => exact .inr ⟨[t], comma, rfl, one, ending comma rfl⟩
    have series := Series.more item (.done (.inr closes))
    rwa [List.append_nil] at series
  | @more id next ids t comma others spelled kind behind ih =>
    obtain ⟨ids', alike, series⟩ := ih
    have one : Named (.ofToken t) [t] (comma :: (others ++ rest)) := ⟨t, rfl, spelled.1, rfl⟩
    have item : Separated Named (.ofToken t) [t, comma] (others ++ rest) :=
      .inr ⟨[t], comma, rfl, one, kind⟩
    refine ⟨.ofToken t :: ids', ?_, Series.more item series⟩
    rw [List.map_cons, alike, spelledAlike spelled]
    rfl

theorem renamedRead {name other ts} (writes : WritesRenamed name other ts) {rest}
    (behind : front rest ≠ some (.keyword .asWord)) : ∃ names : Identifier × Identifier,
      placeless.identifier names.1 = placeless.identifier name ∧
        placeless.identifier names.2 = placeless.identifier other ∧ Renamed names ts rest := by
  cases writes with
  | @same t spelled again =>
    refine ⟨(.ofToken t, .ofToken t), spelledAlike spelled, ?_, ?_⟩
    · rw [spelledAlike spelled]
      simp only [Relabeling.identifier, again]
      rfl
    · exact ⟨t, [], none, rfl, spelled.1, .absent behind, rfl⟩
  | @renamed t word u spelled renames spelled' =>
    refine ⟨(.ofToken t, .ofToken u), spelledAlike spelled, spelledAlike spelled', ?_⟩
    exact ⟨t, [word, u], some (.ofToken u), rfl, spelled.1, .present renames spelled'.1, rfl⟩

theorem renamedOpens {name other ts} (writes : WritesRenamed name other ts) :
    front ts = some .identifier := by
  cases writes with
  | same spelled => simp [spelled.1]
  | renamed spelled => simp [spelled.1]

theorem importRead {specifier ts} (writes : WritesImport specifier ts) {rest}
    (behind : front rest ≠ some (.keyword .asWord)) : ∃ specifier',
      placeless.importSpecifier specifier' = placeless.importSpecifier specifier ∧
        NamedImport specifier' ts rest := by
  cases writes with
  | named names =>
    obtain ⟨both, first, second, read⟩ := renamedRead names behind
    refine ⟨_, ?_, both, read, rfl⟩
    simp only [Relabeling.importSpecifier, first, second]
    rfl

theorem exportRead {specifier ts} (writes : WritesExport specifier ts) {rest}
    (behind : front rest ≠ some (.keyword .asWord)) : ∃ specifier',
      placeless.exportSpecifier specifier' = placeless.exportSpecifier specifier ∧
        NamedExport specifier' ts rest := by
  cases writes with
  | named names =>
    obtain ⟨both, first, second, read⟩ := renamedRead names behind
    refine ⟨_, ?_, both, read, rfl⟩
    simp only [Relabeling.exportSpecifier, first, second]
    rfl

section Listed
variable {item : α → List Token → Prop} {reading : Reading α} {f : α → α}

theorem listedFront (begins : ∀ {value ts}, item value ts → front ts = some .identifier)
    {values ts} (list : WritesListed item values ts) {rest}
    (closes : front rest = some (.punct .braceRight)) :
    front (ts ++ rest) = some .identifier ∨ front (ts ++ rest) = some (.punct .braceRight) := by
  cases list with
  | none => exact .inr closes
  | more one ending behind =>
    obtain ⟨t, more, rfl, kind⟩ := frontSome (begins one)
    exact .inl (by simp [kind])

theorem listedRead (begins : ∀ {value ts}, item value ts → front ts = some .identifier)
    (each : ∀ {value ts rest}, item value ts → front rest ≠ some (.keyword .asWord) →
      ∃ value', f value' = f value ∧ reading value' ts rest)
    {values ts} (list : WritesListed item values ts) {rest}
    (closes : front rest = some (.punct .braceRight)) : ∃ values' : List α,
      values'.map f = values.map f ∧
        Series (some (.punct .braceRight)) (Listed reading) values' ts rest := by
  induction list with
  | none => exact ⟨[], rfl, .done (.inr closes)⟩
  | @more value values ts comma others one ending behind ih =>
    obtain ⟨values', alike, series⟩ := ih
    have next := listedFront begins behind closes
    have noComma : front (others ++ rest) ≠ some (.punct .comma) := by
      rcases next with next | next <;> simp [next]
    have noAs : front (comma.toList ++ (others ++ rest)) ≠ some (.keyword .asWord) := by
      cases comma with
      | none => rcases next with next | next <;> simp [next]
      | some comma => simp [ending comma rfl]
    obtain ⟨value', same, read⟩ := each one noAs
    refine ⟨value' :: values', by rw [List.map_cons, same, alike, List.map_cons], ?_⟩
    have listed : Listed reading value' (ts ++ comma.toList) (others ++ rest) :=
      ⟨ts, comma, rfl, read, acceptedMay ending noComma⟩
    have whole := Series.more listed series
    rwa [List.append_assoc] at whole

end Listed

theorem bracesRead {item : α → List Token → Prop} {reading : Reading α} {f : α → α}
    (begins : ∀ {value ts}, item value ts → front ts = some .identifier)
    (each : ∀ {value ts rest}, item value ts → front rest ≠ some (.keyword .asWord) →
      ∃ value', f value' = f value ∧ reading value' ts rest)
    {values : List α} {opening inner closing} (opens : opening.kind = .punct .braceLeft)
    (list : WritesListed item values inner) (closes : closing.kind = .punct .braceRight)
    (rest : List Token) : ∃ values' : List α, values'.map f = values.map f ∧
      InBraces reading (opening.span.through closing.span, values')
        (opening :: (inner ++ [closing])) rest := by
  have ends : front (closing :: rest) = some (.punct .braceRight) := by simp [closes]
  obtain ⟨values', alike, series⟩ := listedRead begins each list ends
  exact ⟨values', alike, opening, inner, closing, rfl, opens, closes, series, rfl⟩

theorem othersRead {specifiers ts} (writes : WritesOthers specifiers ts) {rest}
    (brace : front rest ≠ some (.punct .braceLeft)) (star : front rest ≠ some (.punct .asterisk)) :
    ∃ specifiers' : List ImportSpecifier,
      specifiers'.map placeless.importSpecifier = specifiers.map placeless.importSpecifier ∧
        OtherImports specifiers' ts rest := by
  cases writes with
  | absent => exact ⟨[], rfl, .absent brace star⟩
  | braces opens list closes =>
    have begins {value : ImportSpecifier} {ts} (one : WritesImport value ts) :
        front ts = some .identifier := by
      cases one with
      | named names => exact renamedOpens names
    have read : ∃ values' : List ImportSpecifier, values'.map placeless.importSpecifier = _ ∧
      InBraces NamedImport (_, values') _ rest :=
        bracesRead begins (fun one => importRead one) opens list closes rest
    obtain ⟨values', alike, list'⟩ := read
    exact ⟨values', alike, .braces list'⟩
  | @star span binding star word t everything renames spelled =>
    refine ⟨_, ?_, .star everything renames spelled.1⟩
    simp only [List.map_cons, Relabeling.importSpecifier, spelledAlike spelled]
    rfl

theorem defaultRead {specifiers ts} (writes : WritesDefault specifiers ts) {rest}
    (name : front rest ≠ some .identifier) (comma : front rest ≠ some (.punct .comma)) :
    ∃ specifiers' : List ImportSpecifier,
      specifiers'.map placeless.importSpecifier = specifiers.map placeless.importSpecifier ∧
        DefaultImport specifiers' ts rest := by
  cases writes with
  | absent => exact ⟨[], rfl, .absent name⟩
  | present spelled ending =>
    refine ⟨_, ?_, .present spelled.1 (acceptedMay ending comma)⟩
    simp only [List.map_cons, Relabeling.importSpecifier, spelledAlike spelled]
    rfl

theorem othersFront {specifiers b origin t} (other : WritesOthers specifiers b)
    (ending : MayHave (.keyword .fromWord) origin) (string : t.kind = .string)
    (rest : List Token) : front (b ++ (origin.toList ++ t :: rest)) ∈
      [some (.punct .braceLeft), some (.punct .asterisk), some (.keyword .fromWord),
        some .string] := by
  cases other with
  | absent =>
    cases origin with
    | none => simp [string]
    | some word => simp [ending word rfl]
  | braces opens => simp [opens]
  | star everything => simp [everything]

theorem clauseRead {d ts} (writes : WritesImports d ts) (rest : List Token) :
    ∃ d', placeless.imports d' = placeless.imports d ∧ Imports d' ts rest := by
  cases writes with
  | @clause span first others source word a b origin t kind default other ending string quoted =>
    have next := othersFront other ending string rest
    have noSource : front (t :: rest) ≠ some (.keyword .fromWord) := by simp [string]
    have noBrace : front (origin.toList ++ t :: rest) ≠ some (.punct .braceLeft) := by
      cases origin with
      | none => simp [string]
      | some word => simp [ending word rfl]
    have noStar : front (origin.toList ++ t :: rest) ≠ some (.punct .asterisk) := by
      cases origin with
      | none => simp [string]
      | some word => simp [ending word rfl]
    have noName : front (b ++ (origin.toList ++ t :: rest)) ≠ some .identifier := by
      intro found
      rw [found] at next
      simp at next
    have noComma : front (b ++ (origin.toList ++ t :: rest)) ≠ some (.punct .comma) := by
      intro found
      rw [found] at next
      simp at next
    obtain ⟨first', firstAlike, default'⟩ := defaultRead default noName noComma
    obtain ⟨others', othersAlike, other'⟩ := othersRead other noBrace noStar
    refine ⟨_, ?_, .clause kind default' other' (acceptedMay ending noSource) string⟩
    simp only [Relabeling.imports, List.map_append, firstAlike, othersAlike, quotedAlike quoted]
    rfl

theorem sourceRead {source ts} (writes : WritesSource source ts) {rest}
    (other : front rest ≠ some (.keyword .fromWord)) : ∃ source' : Option Literal,
      source'.map placeless.literal = source.map placeless.literal ∧
        OtherSource source' ts rest := by
  cases writes with
  | absent => exact ⟨none, rfl, .absent other⟩
  | present origin string quoted =>
    refine ⟨_, ?_, .present origin string⟩
    rw [Option.map_some, Option.map_some, quotedAlike quoted]

theorem otherNameRead {name ts} (writes : WritesOtherName name ts) {rest}
    (other : front rest ≠ some (.keyword .asWord)) : ∃ name' : Option Identifier,
      name'.map placeless.identifier = name.map placeless.identifier ∧
        OtherName name' ts rest := by
  cases writes with
  | absent => exact ⟨none, rfl, .absent other⟩
  | present renames spelled =>
    refine ⟨_, ?_, .present renames spelled.1⟩
    rw [Option.map_some, Option.map_some, spelledAlike spelled]

theorem exportListRead {span specifiers source opening inner closing ts}
    (opens : opening.kind = .punct .braceLeft) (list : WritesListed WritesExport specifiers inner)
    (closes : closing.kind = .punct .braceRight) (origin : WritesSource source ts) (start : Nat)
    {rest} (other : front rest ≠ some (.keyword .fromWord)) : ∃ s',
      placeless.statement s' = placeless.statement (.exportNamed span none specifiers source) ∧
        ExportList start s' (opening :: (inner ++ closing :: ts)) rest := by
  have begins {value : ExportSpecifier} {ts} (one : WritesExport value ts) :
      front ts = some .identifier := by
    cases one with
    | named names => exact renamedOpens names
  have read : ∃ values' : List ExportSpecifier, values'.map placeless.exportSpecifier = _ ∧
      InBraces NamedExport (_, values') _ (ts ++ rest) :=
    bracesRead begins (fun one => exportRead one) opens list closes (ts ++ rest)
  obtain ⟨values', alike, list'⟩ := read
  obtain ⟨source', sourceAlike, origin'⟩ := sourceRead origin other
  have clause : ExportList start _ _ rest := .clause list' origin'
  simp only [List.cons_append, List.append_assoc, List.nil_append] at clause
  refine ⟨_, ?_, clause⟩
  simp only [Relabeling.statement, alike, sourceAlike]
  rfl

theorem exportAllRead {span exported source star ts origin t}
    (everything : star.kind = .punct .asterisk) (renames : WritesOtherName exported ts)
    (from' : origin.kind = .keyword .fromWord) (string : t.kind = .string)
    (quoted : Quotes source t) (start : Nat) (rest : List Token) : ∃ d',
      placeless.exportAll d' = placeless.exportAll ⟨span, exported, source⟩ ∧
        ExportsAll start d' (star :: (ts ++ [origin, t])) rest := by
  have noAs : front (origin :: t :: rest) ≠ some (.keyword .asWord) := by simp [from']
  obtain ⟨name', alike, renames'⟩ := otherNameRead renames noAs
  refine ⟨_, ?_, .clause everything renames' from' string⟩
  simp only [Relabeling.exportAll, alike, quotedAlike quoted]
  rfl

end ScriptTree.Grammar
