import ScriptTree.Proofs.Rendering
/-! Token lists without some of their `;`. Whatever was read, its tokens without some of their `;`
are a way to write it, as each `;` that a reading takes is one that need not be written. -/
namespace ScriptTree

def Token.explicit (t : Token) : Token := { t with raw := some t.lexeme }

namespace Grammar

inductive Thinned : List Token → List Token → Prop where
  | none : Thinned [] []
  | kept {t ts us} (behind : Thinned ts us) : Thinned (t :: ts) (t :: us)
  | dropped {t ts us} (kind : t.kind = .punct .semicolon) (behind : Thinned ts us) :
      Thinned (t :: ts) us

theorem thinnedSame (ts : List Token) : Thinned ts ts := by
  induction ts with
  | nil => exact .none
  | cons t ts ih => exact .kept ih

theorem thinnedCons {t : Token} {kind ts us} (same : t.kind = kind)
    (other : kind ≠ .punct .semicolon) (thinned : Thinned (t :: ts) us) :
    ∃ us', us = t :: us' ∧ Thinned ts us' := by
  cases thinned with
  | kept behind => exact ⟨_, rfl, behind⟩
  | dropped semicolon => exact absurd (same.symm.trans semicolon) other

theorem thinnedAppend {ts us vs} (thinned : Thinned (ts ++ us) vs) :
    ∃ ts' us', vs = ts' ++ us' ∧ Thinned ts ts' ∧ Thinned us us' := by
  induction ts generalizing vs with
  | nil => exact ⟨[], vs, rfl, .none, thinned⟩
  | cons t ts ih =>
    cases thinned with
    | kept behind =>
      obtain ⟨ts', us', rfl, front, rear⟩ := ih behind
      exact ⟨t :: ts', us', rfl, .kept front, rear⟩
    | dropped kind behind =>
      obtain ⟨ts', us', rfl, front, rear⟩ := ih behind
      exact ⟨ts', us', rfl, .dropped kind front, rear⟩

theorem thinnedOption {o : Option Token} {kind us} (may : MayHave kind o)
    (thinned : Thinned o.toList us) : ∃ o', us = o'.toList ∧ MayHave kind o' := by
  cases o with
  | none =>
    cases thinned
    exact ⟨none, rfl, mayHaveNone⟩
  | some t =>
    cases thinned with
    | kept behind =>
      cases behind
      exact ⟨some t, rfl, may⟩
    | dropped _ behind =>
      cases behind
      exact ⟨none, rfl, mayHaveNone⟩

theorem thinnedOne {t : Token} {kind us} (same : t.kind = kind) (other : kind ≠ .punct .semicolon)
    (thinned : Thinned [t] us) : us = [t] := by
  obtain ⟨_, rfl, behind⟩ := thinnedCons same other thinned
  cases behind
  rfl

def explicit (ts : List Token) : List Token := ts.map Token.explicit

@[simp] theorem explicitNil : explicit [] = [] := rfl

@[simp] theorem explicitCons (t : Token) (ts : List Token) :
    explicit (t :: ts) = t.explicit :: explicit ts := rfl

@[simp] theorem explicitAppend (ts us : List Token) :
    explicit (ts ++ us) = explicit ts ++ explicit us := List.map_append

@[simp] theorem explicitOption (o : Option Token) :
    explicit o.toList = (o.map Token.explicit).toList := by
  cases o <;> rfl

theorem mayExplicit {kind : Kind} {o : Option Token} (may : MayHave kind o) :
    MayHave kind (o.map Token.explicit) := by
  cases o with
  | none => exact mayHaveNone
  | some t => exact mayHaveSome.mpr (may t rfl)

theorem acceptedMayHave {kind rest o} (accepted : Accepted kind rest o) : MayHave kind o := by
  cases o with
  | none => exact mayHaveNone
  | some t => exact mayHaveSome.mpr accepted

theorem tokenSpells {t : Token} (kind : t.kind = .identifier) :
    Spells (.ofToken t) t.explicit := ⟨kind, rfl⟩

theorem tokenQuotes (t : Token) : Quotes (.ofToken t) t.explicit := ⟨rfl, rfl⟩

def WrittenAs (reading : Reading α) (written : α → List Token → Prop) : Prop :=
  ∀ {value taken rest us}, reading value taken rest → Thinned taken us →
    written value (explicit us)

theorem namesWritten :
    WrittenAs (Series (some (.punct .parenRight)) (Separated Named)) WritesNames := by
  intro ids taken rest us series thinned
  induction series generalizing us with
  | done =>
    cases thinned
    exact .none
  | more first next ih =>
    obtain ⟨ts, others, rfl, one, behind⟩ := thinnedAppend thinned
    have written := ih behind
    rcases first with ⟨⟨t, rfl, kind, rfl⟩, closes⟩ | ⟨_, comma, rfl, ⟨t, rfl, kind, rfl⟩, mark⟩
    · cases thinnedOne kind (by simp) one
      cases next with
      | done =>
        cases behind
        exact @WritesNames.last _ _ none (tokenSpells kind) mayHaveNone
      | more another =>
        rcases another with ⟨⟨u, rfl, other, _⟩, _⟩ | ⟨_, _, rfl, ⟨u, rfl, other, _⟩, _⟩ <;>
          simp [other] at closes
    · obtain ⟨_, rfl, ending⟩ := thinnedCons kind (by simp) one
      cases thinnedOne mark (by simp) ending
      cases next with
      | done =>
        cases behind
        exact @WritesNames.last _ _ (some comma.explicit) (tokenSpells kind) (mayHaveSome.mpr mark)
      | more => exact .more (tokenSpells kind) mark written

theorem renamedWritten : WrittenAs Renamed fun names => WritesRenamed names.1 names.2 := by
  intro names taken rest us read thinned
  obtain ⟨t, more, other, rfl, kind, second, rfl⟩ := read
  obtain ⟨_, rfl, behind⟩ := thinnedCons kind (by simp) thinned
  cases second with
  | absent =>
    cases behind
    exact .same (tokenSpells kind) rfl
  | @present word u _ renames kind' =>
    obtain ⟨_, rfl, last⟩ := thinnedCons renames (by simp) behind
    cases thinnedOne kind' (by simp) last
    exact .renamed (tokenSpells kind) renames (tokenSpells kind')

theorem importWritten : WrittenAs NamedImport WritesImport := by
  intro specifier taken rest us read thinned
  obtain ⟨names, read, rfl⟩ := read
  exact .named (renamedWritten read thinned)

theorem exportWritten : WrittenAs NamedExport WritesExport := by
  intro specifier taken rest us read thinned
  obtain ⟨names, read, rfl⟩ := read
  exact .named (renamedWritten read thinned)

section Listed
variable {reading : Reading α} {item : α → List Token → Prop}

theorem listedWritten {stop} (each : WrittenAs reading item) :
    WrittenAs (Series stop (Listed reading)) (WritesListed item) := by
  intro values taken rest us series thinned
  induction series generalizing us with
  | done =>
    cases thinned
    exact .none
  | more first next ih =>
    obtain ⟨before, comma, rfl, read, accepted⟩ := first
    obtain ⟨ts, others, rfl, one, behind⟩ := thinnedAppend thinned
    obtain ⟨ts, _, rfl, value, ending⟩ := thinnedAppend one
    obtain ⟨o, rfl, may⟩ := thinnedOption (acceptedMayHave accepted) ending
    have written := WritesListed.more (each read value) (mayExplicit may) (ih behind)
    simpa using written

theorem bracesWritten (each : WrittenAs reading item) {span values taken rest us}
    (read : InBraces reading (span, values) taken rest) (thinned : Thinned taken us) :
    ∃ opening inner closing, explicit us = opening :: (inner ++ [closing]) ∧
      opening.kind = .punct .braceLeft ∧ WritesListed item values inner ∧
        closing.kind = .punct .braceRight := by
  obtain ⟨opening, middle, closing, rfl, opens, closes, series, _⟩ := read
  obtain ⟨_, rfl, behind⟩ := thinnedCons opens (by simp) thinned
  obtain ⟨inner, _, rfl, inside, last⟩ := thinnedAppend behind
  cases thinnedOne closes (by simp) last
  have written := listedWritten @each series inside
  exact ⟨opening.explicit, explicit inner, closing.explicit, by simp, opens, written, closes⟩

end Listed

theorem defaultWritten : WrittenAs DefaultImport WritesDefault := by
  intro specifiers taken rest us read thinned
  cases read with
  | absent =>
    cases thinned
    exact .absent
  | present kind ending =>
    obtain ⟨_, rfl, last⟩ := thinnedCons kind (by simp) thinned
    obtain ⟨o, rfl, may⟩ := thinnedOption (acceptedMayHave ending) last
    rw [explicitCons, explicitOption]
    exact .present (tokenSpells kind) (mayExplicit may)

theorem othersWritten : WrittenAs OtherImports WritesOthers := by
  intro specifiers taken rest us read thinned
  cases read with
  | absent =>
    cases thinned
    exact .absent
  | braces list =>
    obtain ⟨_, _, _, same, opens, written, closes⟩ :=
      bracesWritten @importWritten list thinned
    rw [same]
    exact .braces opens written closes
  | star everything renames kind =>
    obtain ⟨_, rfl, behind⟩ := thinnedCons everything (by simp) thinned
    obtain ⟨_, rfl, last⟩ := thinnedCons renames (by simp) behind
    cases thinnedOne kind (by simp) last
    exact .star everything renames (tokenSpells kind)

theorem importsWritten : WrittenAs Imports WritesImports := by
  intro d taken rest us read thinned
  cases read with
  | @clause word first a others b origin source _ kind default other ending string =>
    obtain ⟨_, rfl, names⟩ := thinnedCons kind (by simp) thinned
    obtain ⟨a', _, rfl, first, behind⟩ := thinnedAppend names
    obtain ⟨b', _, rfl, others, ends⟩ := thinnedAppend behind
    obtain ⟨_, _, rfl, from', last⟩ := thinnedAppend ends
    obtain ⟨o, rfl, may⟩ := thinnedOption (acceptedMayHave ending) from'
    cases thinnedOne string (by simp) last
    have written := @WritesImports.clause (word.span.through source.span) _ _ _ word.explicit _ _
      _ source.explicit kind (defaultWritten default first) (othersWritten other others)
      (mayExplicit may) string (tokenQuotes source)
    simpa using written

theorem sourceWritten : WrittenAs OtherSource WritesSource := by
  intro source taken rest us read thinned
  cases read with
  | absent =>
    cases thinned
    exact .absent
  | present origin kind =>
    obtain ⟨_, rfl, last⟩ := thinnedCons origin (by simp) thinned
    cases thinnedOne kind (by simp) last
    exact .present origin kind (tokenQuotes _)

theorem otherNameWritten : WrittenAs OtherName WritesOtherName := by
  intro name taken rest us read thinned
  cases read with
  | absent =>
    cases thinned
    exact .absent
  | present renames kind =>
    obtain ⟨_, rfl, last⟩ := thinnedCons renames (by simp) thinned
    cases thinnedOne kind (by simp) last
    exact .present renames (tokenSpells kind)

def Phrase.Written (us : List Token) : Phrase → Prop
  | .expression e => Writes (.expression e) (explicit us)
  | .chain operand whole => ∀ ts, Writes (.expression operand) ts →
      Writes (.expression whole) (ts ++ explicit us)
  | .arguments es => Writes (.arguments es) (explicit us)
  | .function f => Writes (.function f) (explicit us)
  | .block b => Writes (.block b) (explicit us)
  | .statements body => Writes (.statements body) (explicit us)
  | .declarators _ _ ds => Writes (.declarators ds) (explicit us)
  | .vars d => Writes (.vars d) (explicit us)
  | .unterminated s => Writes (.unterminated s) (explicit us)
  | .statement s => Writes (.statement s) (explicit us)

theorem parametersWritten {span params taken rest us}
    (read : Parameters (span, params) taken rest) (thinned : Thinned taken us) :
    ∃ opening names closing, explicit us = opening :: (names ++ [closing]) ∧
      opening.kind = .punct .parenLeft ∧ WritesNames params names ∧
        closing.kind = .punct .parenRight := by
  obtain ⟨opening, middle, closing, rfl, opens, closes, series, _⟩ := read
  obtain ⟨_, rfl, behind⟩ := thinnedCons opens (by simp) thinned
  obtain ⟨names, _, rfl, inside, last⟩ := thinnedAppend behind
  cases thinnedOne closes (by simp) last
  have written := namesWritten series inside
  exact ⟨opening.explicit, explicit names, closing.explicit, by simp, opens, written, closes⟩

theorem nameWritten {name : Option Token} {rest us} (named : Accepted .identifier rest name)
    (thinned : Thinned name.toList us) : ∃ id, explicit us = id.toList ∧
      Option.Rel Spells (name.map .ofToken) id := by
  cases name with
  | none =>
    cases thinned
    exact ⟨none, rfl, .none⟩
  | some t =>
    cases thinnedOne named (by simp) thinned
    exact ⟨some t.explicit, rfl, .some (tokenSpells named)⟩

theorem exportListWritten {word : Token} {start s taken rest us} (kind : word.kind = .keyword .exportWord)
    (read : ExportList start s taken rest) (thinned : Thinned taken us) :
    Writes (.unterminated s) (word.explicit :: explicit us) := by
  cases read with
  | clause list origin =>
    obtain ⟨_, _, rfl, front, rear⟩ := thinnedAppend thinned
    obtain ⟨_, _, _, same, opens, written, closes⟩ := bracesWritten @exportWritten list front
    rw [explicitAppend, same, List.cons_append, List.append_assoc]
    exact .exportedNames kind opens written closes (sourceWritten origin rear)

theorem exportAllWritten {word : Token} {start d taken rest us} (kind : word.kind = .keyword .exportWord)
    (read : ExportsAll start d taken rest) (thinned : Thinned taken us) :
    Writes (.unterminated (.exportAll d)) (word.explicit :: explicit us) := by
  cases read with
  | clause everything renames origin string =>
    obtain ⟨_, rfl, behind⟩ := thinnedCons everything (by simp) thinned
    obtain ⟨_, _, rfl, name, ends⟩ := thinnedAppend behind
    obtain ⟨_, rfl, last⟩ := thinnedCons origin (by simp) ends
    cases thinnedOne string (by simp) last
    rw [explicitCons, explicitAppend]
    exact .exportedModule kind everything (otherNameWritten renames name) origin string
      (tokenQuotes _)

theorem Derives.written {phrase taken rest} (derived : Derives phrase taken rest) {us}
    (thinned : Thinned taken us) : phrase.Written us := by
  induction derived generalizing us with
  | @literal t rest kind =>
    have other : t.kind ≠ .punct .semicolon := by
      rcases kind with kind | kind <;> simp [kind]
    cases thinnedOne rfl other thinned
    exact .literal kind (tokenQuotes t)
  | functionValue value ih => exact .functionValue (ih thinned)
  | head kind chain ih =>
    obtain ⟨_, rfl, behind⟩ := thinnedCons kind (by simp) thinned
    exact ih behind _ (.identifier (tokenSpells kind))
  | stop =>
    cases thinned
    intro ts operand
    rw [explicitNil, List.append_nil]
    exact operand
  | @call callee es e opening inner closing semicolon after rest opens arguments closes ending
      chain inside ih =>
    obtain ⟨_, rfl, called⟩ := thinnedCons opens (by simp) thinned
    obtain ⟨_, _, rfl, list, ends⟩ := thinnedAppend called
    obtain ⟨_, rfl, last⟩ := thinnedCons closes (by simp) ends
    obtain ⟨_, _, rfl, semicolon, behind⟩ := thinnedAppend last
    obtain ⟨o, rfl, may⟩ := thinnedOption (acceptedMayHave ending) semicolon
    intro ts operand
    have called := ih behind _ (@Writes.call _ _ _ _ opening.explicit _ closing.explicit _ operand
      opens (inside list) closes (mayExplicit may))
    simpa using called
  | @member object e dot name behind rest dotted kind chain ih =>
    obtain ⟨_, rfl, name⟩ := thinnedCons dotted (by simp) thinned
    obtain ⟨_, rfl, behind⟩ := thinnedCons kind (by simp) name
    intro ts operand
    have accessed := ih behind _ (@Writes.member _ _ _ _ _ dot.explicit _ operand dotted
      (tokenSpells kind))
    simpa using accessed
  | @operator left op right e t operand behind rest kind value chain inside ih =>
    obtain ⟨_, rfl, joined⟩ := thinnedCons kind (by simp) thinned
    obtain ⟨_, _, rfl, right, behind⟩ := thinnedAppend joined
    intro ts operand
    have joined := ih behind _ (@Writes.binary _ _ _ _ _ t.explicit _ operand kind (inside right))
    simpa using joined
  | noArguments =>
    cases thinned
    exact .noArguments
  | lastArgument value ends ih =>
    have written := @Writes.lastArgument _ _ none (ih thinned) mayHaveNone
    rw [Option.toList_none, List.append_nil] at written
    exact written
  | @argument e es taken comma others rest value kind next inside ih =>
    obtain ⟨_, _, rfl, first, ends⟩ := thinnedAppend thinned
    obtain ⟨_, rfl, behind⟩ := thinnedCons kind (by simp) ends
    rw [Phrase.Written, explicitAppend, explicitCons]
    cases next with
    | noArguments =>
      cases behind
      rw [explicitNil]
      exact @Writes.lastArgument _ _ (some comma.explicit) (inside first) (mayHaveSome.mpr kind)
    | lastArgument =>
      exact @Writes.argument _ _ _ _ comma.explicit _ (inside first) kind (ih behind)
    | argument =>
      exact @Writes.argument _ _ _ _ comma.explicit _ (inside first) kind (ih behind)
  | function kind named parameters block ih =>
    obtain ⟨_, rfl, signature⟩ := thinnedCons kind (by simp) thinned
    obtain ⟨_, _, rfl, name, behind⟩ := thinnedAppend signature
    obtain ⟨_, _, rfl, list, body⟩ := thinnedAppend behind
    obtain ⟨id, sameName, spelled⟩ := nameWritten named name
    obtain ⟨_, _, _, same, opens, names, closes⟩ := parametersWritten parameters list
    rw [Phrase.Written, explicitCons, explicitAppend, explicitAppend, sameName, same,
      List.cons_append, List.append_assoc]
    exact .function kind spelled opens names closes (ih body)
  | block opens statements closes ih =>
    obtain ⟨_, rfl, behind⟩ := thinnedCons opens (by simp) thinned
    obtain ⟨_, _, rfl, inside, last⟩ := thinnedAppend behind
    cases thinnedOne closes (by simp) last
    rw [Phrase.Written, explicitCons, explicitAppend]
    exact .block opens (ih inside) closes
  | noStatements =>
    cases thinned
    exact .noStatements
  | statements first next inside ih =>
    obtain ⟨_, _, rfl, one, others⟩ := thinnedAppend thinned
    rw [Phrase.Written, explicitAppend]
    exact .statements (inside one) (ih others)
  | @semicolon t before rest kind =>
    obtain ⟨o, rfl, may⟩ := @thinnedOption (some t) _ _ (mayHaveSome.mpr kind) thinned
    rw [Phrase.Written, explicitOption]
    exact .ended (mayExplicit may)
  | undeclared =>
    cases thinned
    exact @Writes.ended none mayHaveNone
  | declarator kind assigned initial ending next inside ih =>
    obtain ⟨_, rfl, ends⟩ := thinnedCons kind (by simp) thinned
    obtain ⟨_, rfl, given⟩ := thinnedCons assigned (by simp) ends
    obtain ⟨_, _, rfl, value, behind⟩ := thinnedAppend given
    obtain ⟨_, _, rfl, comma, others⟩ := thinnedAppend behind
    obtain ⟨o, rfl, may⟩ := thinnedOption (acceptedMayHave ending) comma
    rw [Phrase.Written, explicitCons, explicitCons, explicitAppend, explicitAppend, explicitOption]
    exact .declarator (tokenSpells kind) assigned (inside value) (mayExplicit may) (ih others)
  | @vars word sort stop ds taken rest kind declared ih =>
    obtain ⟨_, rfl, behind⟩ := thinnedCons kind (by simp) thinned
    exact @Writes.vars _ _ _ word.explicit _ kind (ih behind)
  | functionStatement value ih => exact .functionStatement (ih thinned)
  | expressionStatement begins value ih => exact .expressionStatement (ih thinned)
  | blockStatement value ih => exact .blockStatement (ih thinned)
  | @returns word e taken rest kind value ih =>
    obtain ⟨_, rfl, behind⟩ := thinnedCons kind (by simp) thinned
    exact @Writes.returns _ _ word.explicit _ kind (ih behind)
  | variableStatement value ih => exact .variableStatement (ih thinned)
  | imports clause => exact .imports (importsWritten clause thinned)
  | @exportedValue word default e taken rest kind only begins value ih =>
    obtain ⟨_, rfl, value⟩ := thinnedCons kind (by simp) thinned
    obtain ⟨_, rfl, behind⟩ := thinnedCons only (by simp) value
    exact @Writes.exportedValue _ _ word.explicit default.explicit _ kind only (ih behind)
  | @exportedDefault word default f taken rest kind only value ih =>
    obtain ⟨_, rfl, value⟩ := thinnedCons kind (by simp) thinned
    obtain ⟨_, rfl, behind⟩ := thinnedCons only (by simp) value
    exact @Writes.exportedDefault _ _ word.explicit default.explicit _ kind only (ih behind)
  | @exportedVariables word d taken rest kind value ih =>
    obtain ⟨_, rfl, behind⟩ := thinnedCons kind (by simp) thinned
    exact @Writes.exportedVariables _ _ _ _ word.explicit _ kind (ih behind)
  | @exportedFunction word f taken rest kind value ih =>
    obtain ⟨_, rfl, behind⟩ := thinnedCons kind (by simp) thinned
    exact @Writes.exportedFunction _ _ _ _ word.explicit _ kind (ih behind)
  | exportedNames kind clause =>
    obtain ⟨_, rfl, behind⟩ := thinnedCons kind (by simp) thinned
    exact exportListWritten kind clause behind
  | exportedModule kind clause =>
    obtain ⟨_, rfl, behind⟩ := thinnedCons kind (by simp) thinned
    exact exportAllWritten kind clause behind
  | statement body ending ih =>
    obtain ⟨_, _, rfl, one, last⟩ := thinnedAppend thinned
    obtain ⟨o, rfl, may⟩ := thinnedOption (acceptedMayHave ending) last
    rw [Phrase.Written, explicitAppend, explicitOption]
    exact .statement (ih one) (mayExplicit may)

end Grammar

end ScriptTree
