import ScriptTree.Proofs.Carrying
/-! What a phrase sees of what stands behind it. For an expression it is one token. A function sees
one as well, but where its body ends with a variable declaration it must not be a `=`. -/
namespace ScriptTree

open Relabeling (unchanged)

namespace Grammar

theorem phraseUnchanged (phrase : Phrase) : phrase.relabeled unchanged = phrase := by
  cases phrase with
  | expression e => rw [Phrase.relabeled, Relabeling.expressionUnchanged]
  | chain operand whole =>
    rw [Phrase.relabeled, Relabeling.expressionUnchanged, Relabeling.expressionUnchanged]
  | arguments es => rw [Phrase.relabeled, Relabeling.expressionsUnchanged]
  | function f => rw [Phrase.relabeled, Relabeling.functionUnchanged]
  | block b => rw [Phrase.relabeled, Relabeling.blockUnchanged]
  | statements body => rw [Phrase.relabeled, Relabeling.statementsUnchanged]
  | declarators before stop ds =>
    rw [Phrase.relabeled, Relabeling.declaratorsUnchanged]
    rfl
  | vars d => rw [Phrase.relabeled, Relabeling.variablesUnchanged]
  | unterminated s => rw [Phrase.relabeled, Relabeling.statementUnchanged]
  | statement s => rw [Phrase.relabeled, Relabeling.statementUnchanged]

theorem Derives.again {phrase taken rest rest'} (derived : Derives phrase taken rest)
    (behind : Behind rest rest') (ends : phrase.EndsAgain rest rest') :
    Derives phrase taken rest' := by
  have carried := derived.carried (r := unchanged) behind ends
  rwa [phraseUnchanged, Relabeling.tokensUnchanged] at carried

theorem frontBehind {rest rest' : List Token} (same : front rest' = front rest)
    (ts : List Token) : front (ts ++ rest') = front (ts ++ rest) := by
  cases ts with
  | nil => exact same
  | cons t ts => rfl

/- Behind a token that is the same, only the next one can differ. -/
theorem behindToken {rest rest' : List Token} (t : Token)
    (next : front rest' = front rest ∨ front rest' ≠ some (.punct .assign)) :
    Behind (t :: rest) (t :: rest') := ⟨.inl rfl, next⟩

theorem behindFilled {ts rest rest' : List Token} (filled : ts ≠ [])
    (same : front rest' = front rest) : Behind (ts ++ rest) (ts ++ rest') := by
  obtain ⟨t, ts, rfl⟩ := List.exists_cons_of_ne_nil filled
  exact behindToken t (.inl (frontBehind same ts))

theorem acceptedAgain {kind rest rest' o} (same : front rest' = front rest)
    (accepted : Accepted kind rest o) : Accepted kind rest' o := by
  cases o with
  | some t => exact accepted
  | none =>
    unfold Accepted
    rw [same]
    exact accepted

theorem parametersAgain {value taken rest} (read : Parameters value taken rest)
    (rest' : List Token) : Parameters value taken rest' := by
  have same : (unchanged.span value.1, value.2.map unchanged.identifier) = value :=
    Prod.ext rfl (Relabeling.listUnchanged (fun _ => rfl) value.2)
  have carried : Parameters (unchanged.span value.1, value.2.map unchanged.identifier)
    (unchanged.tokens taken) rest' := parametersCarries read rest'
  rwa [same, Relabeling.tokensUnchanged] at carried

def Phrase.Valued : Phrase → Prop
  | .expression _ | .chain _ _ | .arguments _ | .function _ | .block _ => True
  | _ => False

theorem Derives.valued {phrase taken rest} (derived : Derives phrase taken rest) {rest'}
    (same : front rest' = front rest) (valued : phrase.Valued) : Derives phrase taken rest' := by
  induction derived generalizing rest' with
  | literal kind => exact .literal kind
  | functionValue value ih => exact .functionValue (ih same trivial)
  | head kind chain ih => exact .head kind (ih same trivial)
  | stop ends =>
    refine .stop ?_
    unfold Continues at *
    rw [same]
    exact ends
  | call opens arguments closes ending chain inside ih =>
    exact .call opens (inside rfl trivial) closes (acceptedAgain (frontBehind same _) ending)
      (ih same trivial)
  | member dotted kind chain ih => exact .member dotted kind (ih same trivial)
  | operator kind value chain inside ih =>
    exact .operator kind (inside (frontBehind same _) trivial) (ih same trivial)
  | noArguments ends => exact .noArguments (same ▸ ends)
  | lastArgument value ends ih => exact .lastArgument (ih same trivial) (same ▸ ends)
  | argument value kind next first ih =>
    exact .argument (first rfl trivial) kind (ih same trivial)
  | function kind named parameters block ih =>
    exact .function kind (acceptedAgain (frontBehind (frontBehind same _) _) named)
      (parametersAgain parameters _) (ih same trivial)
  | block opens statements closes =>
    exact .block opens (statements.again (behindToken _ (.inl same)) (.inr rfl)) closes
  | _ => exact absurd valued id

def Closed (ts : List Token) : Prop :=
  ∃ before t, ts = before ++ [t] ∧ t.kind = .punct .semicolon ∧
    ∀ earlier closing, before = earlier ++ [closing] → closing.kind ≠ .punct .parenRight

theorem closedNone : ¬ Closed [] := by
  rintro ⟨before, t, split, _⟩
  simp at split

theorem closedOne {t : Token} {kind} (found : t.kind = kind) (other : kind ≠ .punct .semicolon) :
    ¬ Closed [t] := by
  rintro ⟨before, u, split, semicolon, _⟩
  cases before with
  | nil =>
    cases split
    exact other (found.symm.trans semicolon)
  | cons v before => simp at split

theorem closedBehind {ts us : List Token} (closed : Closed (ts ++ us)) (filled : us ≠ []) :
    Closed us := by
  obtain ⟨before, t, split, semicolon, own⟩ := closed
  rw [← List.dropLast_concat_getLast filled, ← List.append_assoc] at split
  obtain ⟨rfl, last⟩ := List.append_inj' split rfl
  refine ⟨us.dropLast, t, ?_, semicolon, ?_⟩
  · rw [← last, List.dropLast_concat_getLast]
  · intro earlier closing parts
    exact own (ts ++ earlier) closing (by rw [parts, List.append_assoc])

theorem closedTail {t : Token} {us : List Token} (closed : Closed (t :: us)) (filled : us ≠ []) :
    Closed us := by
  have whole : Closed ([t] ++ us) := closed
  exact closedBehind whole filled

theorem openAppend {ts us : List Token} (first : ¬ Closed ts) (next : ¬ Closed us) :
    ¬ Closed (ts ++ us) := by
  by_cases none : us = []
  · rwa [none, List.append_nil]
  · exact fun closed => next (closedBehind closed none)

theorem openCons {t : Token} {kind us} (found : t.kind = kind) (other : kind ≠ .punct .semicolon)
    (next : ¬ Closed us) : ¬ Closed (t :: us) := openAppend (closedOne found other) next

theorem openCalled {closing t : Token} (closes : closing.kind = .punct .parenRight) :
    ¬ Closed [closing, t] := by
  rintro ⟨before, u, split, _, own⟩
  have parts : [closing] ++ [t] = before ++ [u] := split
  obtain ⟨rfl, _⟩ := List.append_inj' parts rfl
  exact own [] closing rfl closes

theorem Derives.valueOpen {phrase taken rest} (derived : Derives phrase taken rest)
    (valued : phrase.Valued) : ¬ Closed taken := by
  induction derived with
  | literal kind => rcases kind with kind | kind <;> exact closedOne kind (by decide)
  | functionValue value ih => exact ih trivial
  | head kind chain ih => exact openCons kind (by decide) (ih trivial)
  | stop => exact closedNone
  | @call _ _ _ opening inner closing semicolon behind _ opens arguments closes ending chain
      inside ih =>
    refine openCons opens (by decide) (openAppend (inside trivial) ?_)
    cases semicolon with
    | none => exact openCons closes (by decide) (ih trivial)
    | some t =>
      have called : ¬ Closed [closing, t] := openCalled closes
      exact openAppend called (ih trivial)
  | member dotted kind chain ih =>
    exact openCons dotted (by decide) (openCons kind (by decide) (ih trivial))
  | operator kind value chain inside ih =>
    exact openCons kind (by simp) (openAppend (inside trivial) (ih trivial))
  | noArguments => exact closedNone
  | lastArgument value ends ih => exact ih trivial
  | argument value kind next first ih =>
    exact openAppend (first trivial) (openCons kind (by decide) (ih trivial))
  | @function word name span params b list body rest kind named parameters block ih =>
    obtain ⟨t, more, rfl, _⟩ := frontSome block.begins
    intro closed
    have whole : Closed ((word :: (name.toList ++ list)) ++ t :: more) := by simpa using closed
    exact ih trivial (closedBehind whole (by simp))
  | @block opening _ inner closing _ opens statements closes =>
    intro closed
    have whole : Closed ((opening :: inner) ++ [closing]) := closed
    exact closedOne closes (by decide) (closedBehind whole (by simp))
  | _ => exact absurd valued id

theorem Derives.declaredClosed {phrase taken rest} (derived : Derives phrase taken rest)
    {before stop ds} (same : phrase = .declarators before stop ds) (closed : Closed taken)
    (rest' : List Token) : Derives phrase taken rest' := by
  induction derived generalizing before stop ds with
  | semicolon kind => exact .semicolon kind
  | undeclared => exact absurd closed closedNone
  | @declarator name assign init comma stop ds before value others rest kind assigned initial
      ending next first ih =>
    have filled : others ≠ [] := by
      rintro rfl
      refine absurd closed ?_
      rw [List.append_nil]
      refine openCons kind (by decide) (openCons assigned (by decide)
        (openAppend (initial.valueOpen trivial) ?_))
      cases comma with
      | none => exact closedNone
      | some t => exact closedOne ending (by decide)
    have onward : Closed others := by
      have whole : Closed ((name :: assign :: (value ++ comma.toList)) ++ others) := by
        simpa using closed
      exact closedBehind whole filled
    have seen : front (others ++ rest') = front (others ++ rest) := by
      rw [frontAppend filled, frontAppend filled]
    exact .declarator kind assigned (initial.valued (frontBehind seen _) trivial)
      (acceptedAgain seen ending) (ih rfl onward)
  | _ => cases same

theorem varsClosed {d taken rest} (derived : Derives (.vars d) taken rest)
    (closed : Closed taken) (rest' : List Token) : Derives (.vars d) taken rest' := by
  cases derived with
  | @vars word sort stop ds taken _ kind declared =>
    have filled : taken ≠ [] := by
      rintro rfl
      exact closedOne kind (by simp) closed
    exact .vars kind (declared.declaredClosed rfl (closedTail closed filled) rest')

theorem importsAgain {d taken rest} (read : Imports d taken rest) (rest' : List Token) :
    Imports d taken rest' := by
  have carried := importsCarries (r := unchanged) read rest'
  have same := Relabeling.statementUnchanged (.imports d)
  rw [Relabeling.statement, Statement.imports.injEq] at same
  rwa [same, Relabeling.tokensUnchanged] at carried

theorem exportListAgain {start s taken rest rest'} (read : ExportList start s taken rest)
    (same : front rest' = front rest) : ExportList start s taken rest' := by
  cases read with
  | @clause span specifiers a source b _ list origin =>
    have names : (unchanged.span span, specifiers.map unchanged.exportSpecifier) =
        (span, specifiers) := Prod.ext rfl (Relabeling.listUnchanged (fun _ => rfl) specifiers)
    have carried : InBraces NamedExport (unchanged.span span,
        specifiers.map unchanged.exportSpecifier) (unchanged.tokens a) (b ++ rest') :=
      inBracesCarries namedExportCarries list (b ++ rest')
    rw [names, Relabeling.tokensUnchanged] at carried
    refine .clause carried ?_
    cases origin with
    | absent behind => exact .absent (same ▸ behind)
    | present origin kind => exact .present origin kind

theorem exportAllAgain {start d taken rest} (read : ExportsAll start d taken rest)
    (rest' : List Token) : ExportsAll start d taken rest' := by
  have carried := exportAllCarries (r := unchanged) read rest'
  have same := Relabeling.statementUnchanged (.exportAll d)
  rw [Relabeling.statement, Statement.exportAll.injEq] at same
  rwa [same, Relabeling.tokensUnchanged] at carried

end Grammar

def Statement.declares : Statement → Bool
  | .vars _ => true
  | .exportNamed _ (some (.vars _)) _ _ => true
  | _ => false

namespace Grammar

theorem statementAgain {s taken rest rest'} (derived : Derives (.unterminated s) taken rest)
    (same : front rest' = front rest) (closed : s.declares = true → Closed taken) :
    Derives (.unterminated s) taken rest' := by
  cases derived with
  | functionStatement value => exact .functionStatement (value.valued same trivial)
  | expressionStatement begins value =>
    exact .expressionStatement begins (value.valued same trivial)
  | blockStatement value => exact .blockStatement (value.valued same trivial)
  | returns kind value => exact .returns kind (value.valued same trivial)
  | variableStatement value => exact .variableStatement (varsClosed value (closed rfl) rest')
  | imports clause => exact .imports (importsAgain clause rest')
  | exportedValue kind only begins value =>
    exact .exportedValue kind only begins (value.valued same trivial)
  | exportedDefault kind only value => exact .exportedDefault kind only (value.valued same trivial)
  | @exportedVariables word d taken _ kind value =>
    obtain ⟨t, more, rfl, _⟩ := frontSome value.begins
    exact .exportedVariables kind (varsClosed value (closedTail (closed rfl) (by simp)) rest')
  | exportedFunction kind value => exact .exportedFunction kind (value.valued same trivial)
  | exportedNames kind clause => exact .exportedNames kind (exportListAgain clause same)
  | exportedModule kind clause => exact .exportedModule kind (exportAllAgain clause rest')

theorem terminatedAgain {s taken rest rest'} (derived : Derives (.statement s) taken rest)
    (same : front rest' = front rest) (closed : s.declares = true → Closed taken) :
    Derives (.statement s) taken rest' := by
  cases derived with
  | @statement _ taken semicolon _ body ending =>
    refine .statement ?_ (acceptedAgain same ending)
    cases semicolon with
    | none =>
      rw [Option.toList_none, List.append_nil] at closed
      exact statementAgain body same closed
    | some t => exact body.again (behindToken t (.inl same)) trivial

theorem bodyAgain {body ts rest rest'} (derived : Derives (.statements body) ts rest)
    (same : front rest' = front rest)
    (closed : body.getLast?.any Statement.declares = true → Closed ts) :
    Derives (.statements body) ts rest' := by
  induction body generalizing ts with
  | nil =>
    cases derived with
    | noStatements ends => exact .noStatements (same ▸ ends)
  | cons s body ih =>
    cases derived with
    | @statements _ _ taken others _ first next =>
      cases next with
      | noStatements ends =>
        rw [List.append_nil] at closed
        exact .statements (terminatedAgain first same closed) (.noStatements (same ▸ ends))
      | @statements u body ts us _ second further =>
        -- The statements before the last see tokens of it, and nothing behind it.
        have filled : ts ++ us ≠ [] := by
          obtain ⟨kind, _, found⟩ := second.begins
          obtain ⟨t, more, rfl, _⟩ := frontSome found
          simp
        have later := ih (.statements second further)
          (fun declares => closedBehind (closed declares) filled)
        exact .statements (first.again (behindFilled filled same) trivial) later

end Grammar

/-- The body ends with a variable declaration, and this not with a `;` of its own: what stands before
the closing brace is something else, or the `;` of a call. -/
def FunctionDef.Undecided (f : FunctionDef) (ts : List Token) : Prop :=
  f.body.body.getLast?.any Statement.declares = true ∧
    ∀ before t semicolon closing, ts = before ++ [t, semicolon, closing] →
      semicolon.kind = .punct .semicolon → t.kind = .punct .parenRight

namespace Grammar

theorem closedWithin {earlier ts : List Token} {opening : Token}
    (opens : opening.kind = .punct .braceLeft) (closed : Closed (earlier ++ opening :: ts)) :
    Closed ts := by
  have behind : Closed (opening :: ts) := closedBehind closed (by simp)
  refine closedTail behind ?_
  rintro rfl
  exact closedOne opens (by decide) behind

theorem functionAgain {f ts rest} (derived : Derives (.function f) ts [])
    (decided : front rest = some (.punct .assign) → ¬ f.Undecided ts) :
    Derives (.function f) ts rest := by
  cases derived with
  | @function word name span params b list body _ kind named parameters block =>
    cases block with
    | @block opening inside inner closing _ opens statements closes =>
      have later : Derives (.block ⟨opening.span.through closing.span, inside⟩)
          (opening :: (inner ++ [closing])) rest := by
        by_cases assigned : front rest = some (.punct .assign)
        · refine .block opens (bodyAgain statements rfl ?_) closes
          intro declares
          refine Classical.byContradiction fun unclosed => ?_
          refine decided assigned ⟨declares, ?_⟩
          intro before t semicolon last split kind
          refine Decidable.byContradiction fun other => ?_
          -- Without the closing brace, the tokens end with a `;` that is not a call's.
          have whole : (word :: (name.toList ++ list) ++ opening :: inner) ++ [closing] =
              (before ++ [t] ++ [semicolon]) ++ [last] := by simpa using split
          obtain ⟨parts, _⟩ := List.append_inj' whole rfl
          refine unclosed (closedWithin opens ⟨before ++ [t], semicolon, parts, kind, ?_⟩)
          intro earlier u same
          obtain ⟨_, found⟩ := List.append_inj' same rfl
          cases found
          exact other
        · have behind : Behind [closing] (closing :: rest) := behindToken closing (.inr assigned)
          exact .block opens (statements.again behind (.inr rfl)) closes
      have seen : front (opening :: (inner ++ [closing]) ++ rest) =
          front (opening :: (inner ++ [closing]) ++ []) := rfl
      have first := acceptedAgain (frontBehind seen list) named
      exact .function kind first (parametersAgain parameters _) later

theorem argumentsAgain {es inner closing} (derived : Derives (.arguments es) inner [closing])
    (rest : List Token) : Derives (.arguments es) inner (closing :: rest) :=
  derived.valued rfl trivial

end Grammar

end ScriptTree
