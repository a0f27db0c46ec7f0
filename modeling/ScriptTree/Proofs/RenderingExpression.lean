import ScriptTree.Proofs.RenderingClause
/-! What is read of the ways to write an expression or a function. What is behind an expression may
lend it a `;`, as a call takes the one that was written behind its statement, so that of each
expression it is said what it leaves. -/
namespace ScriptTree.Grammar
open Relabeling (placeless)

def Calm (rest : List Token) : Prop :=
  ¬ Continues rest ∧ ∀ t more, rest = t :: more → t.kind = .punct .semicolon → ¬ Continues more

def Boundary (rest : List Token) : Prop :=
  (front rest = none ∨ ∃ kind ∈ .punct .braceRight :: leads, front rest = some kind) ∧
    Unassigned rest

theorem boundaryOther {rest kind} (boundary : Boundary rest)
    (other : kind ∉ Kind.punct .braceRight :: leads) : front rest ≠ some kind :=
  quietOther boundary.1 other

theorem boundaryUnterminated {rest} (boundary : Boundary rest) :
    front rest ≠ some (.punct .semicolon) := boundaryOther boundary (by decide)

theorem boundaryEnds {rest} (boundary : Boundary rest) : ¬ Continues rest :=
  quietEnds boundary.1

theorem calmSemicolon {o : Option Token} {rest} (ending : MayHave (.punct .semicolon) o)
    (boundary : Boundary rest) : Calm (o.toList ++ rest) := by
  have ends := boundaryEnds boundary
  cases o with
  | none =>
    refine ⟨ends, ?_⟩
    intro t more same kind
    have other := boundaryUnterminated boundary
    rw [Option.toList_none, List.nil_append] at same
    rw [same, frontCons, kind] at other
    contradiction
  | some t =>
    have kind := ending t rfl
    refine ⟨by simp [Continues, kind], ?_⟩
    intro u more same _
    cases same
    exact ends

def Extends (e : Expression) (ts behind : List Token) : Prop :=
  ∃ e' o rest, placeless.expression e' = placeless.expression e ∧ behind = o.toList ++ rest ∧
    MayHave (.punct .semicolon) o ∧ (front behind ≠ some (.punct .semicolon) → o = none) ∧
    ∀ {whole d after}, rest = d ++ after → Derives (.chain e' whole) d after →
      Derives (.expression whole) (ts ++ (o.toList ++ d)) after

def Ended (e : Expression) (ts behind : List Token) : Prop :=
  ∃ e' o rest, placeless.expression e' = placeless.expression e ∧ behind = o.toList ++ rest ∧
    MayHave (.punct .semicolon) o ∧ (front behind ≠ some (.punct .semicolon) → o = none) ∧
    Derives (.expression e') (ts ++ o.toList) rest

def Extending (e : Expression) (ts : List Token) : Prop :=
  ∀ behind, front behind ≠ some (.punct .assign) → Extends e ts behind

def Ending (e : Expression) (ts : List Token) : Prop :=
  ∀ behind, front behind ≠ some (.punct .assign) → Calm behind → Ended e ts behind

theorem calmEnds {o : Option Token} {rest} (may : MayHave (.punct .semicolon) o)
    (calm : Calm (o.toList ++ rest)) : ¬ Continues rest := by
  cases o with
  | none => exact calm.1
  | some t => exact calm.2 t rest rfl (may t rfl)

theorem extendsEnded {e ts behind} (extended : Extends e ts behind) (calm : Calm behind) :
    Ended e ts behind := by
  obtain ⟨e', o, rest, alike, split, may, free, extend⟩ := extended
  have ends : ¬ Continues rest := by
    rw [split] at calm
    exact calmEnds may calm
  have derived := extend rfl (.stop ends)
  rw [List.append_nil] at derived
  exact ⟨e', o, rest, alike, split, may, free, derived⟩

theorem extendsFree {e ts behind} (extended : Extends e ts behind)
    (other : front behind ≠ some (.punct .semicolon)) : ∃ e',
      placeless.expression e' = placeless.expression e ∧
        ∀ {whole d after}, behind = d ++ after → Derives (.chain e' whole) d after →
          Derives (.expression whole) (ts ++ d) after := by
  obtain ⟨e', o, rest, alike, split, _, free, extend⟩ := extended
  have none := free other
  subst none
  rw [Option.toList_none, List.nil_append] at split
  subst split
  exact ⟨e', alike, extend⟩

theorem endedFree {e ts behind} (ended : Ended e ts behind)
    (other : front behind ≠ some (.punct .semicolon)) : ∃ e',
      placeless.expression e' = placeless.expression e ∧
        Derives (.expression e') ts behind := by
  obtain ⟨e', o, rest, alike, split, _, free, read⟩ := ended
  have none := free other
  subst none
  rw [Option.toList_none, List.nil_append] at split
  subst split
  rw [Option.toList_none, List.append_nil] at read
  exact ⟨e', alike, read⟩

theorem identifierExtends {id t} (spelled : Spells id t) (behind : List Token) :
    Extends (.identifier id) [t] behind := by
  refine ⟨.identifier (.ofToken t), none, behind, ?_, rfl, mayHaveNone, fun _ => rfl, ?_⟩
  · simp only [Relabeling.expression, spelledAlike spelled]
  · intro whole d after _ chain
    exact .head spelled.1 chain

theorem memberExtends {span object property ts dot name}
    (value : Extending object ts) (dotted : dot.kind = .punct .dot)
    (spelled : Spells property name) (behind : List Token) :
    Extends (.member span object property false) (ts ++ [dot, name]) behind := by
  obtain ⟨object', alike, extend⟩ :=
    extendsFree (value (dot :: name :: behind) (by simp [dotted])) (by simp [dotted])
  refine ⟨.member (object'.span.through name.span) object' (.ofToken name) false, none, behind, ?_,
    rfl, mayHaveNone, fun _ => rfl, ?_⟩
  · simp only [Relabeling.expression, alike, spelledAlike spelled]
    rfl
  · intro whole d after same chain
    subst same
    have derived := extend rfl (.member dotted spelled.1 chain)
    simpa using derived

/- A call takes the `;` that was written for it, or else one that comes behind. -/
theorem semicolonTaken {written : Option Token} (may : MayHave (.punct .semicolon) written)
    (behind : List Token) : ∃ taken o rest, taken.toList = written.toList ++ o.toList ∧
      behind = o.toList ++ rest ∧ MayHave (.punct .semicolon) o ∧
      (front behind ≠ some (.punct .semicolon) → o = none) ∧
      Accepted (.punct .semicolon) rest taken := by
  cases written with
  | some t => exact ⟨some t, none, behind, rfl, rfl, mayHaveNone, fun _ => rfl, may t rfl⟩
  | none =>
    by_cases next : front behind = some (.punct .semicolon)
    · obtain ⟨t, more, rfl, kind⟩ := frontSome next
      exact ⟨some t, some t, more, rfl, rfl, mayHaveSome.mpr kind, absurd next, kind⟩
    · exact ⟨none, none, behind, rfl, rfl, mayHaveNone, fun _ => rfl, next⟩

theorem callExtends {span callee es ts opening inner closing semicolon}
    (value : Extending callee ts) (opens : opening.kind = .punct .parenLeft)
    (arguments : ∀ rest, front rest = some (.punct .parenRight) → ∃ es',
      placeless.expressions es' = placeless.expressions es ∧ Derives (.arguments es') inner rest)
    (closes : closing.kind = .punct .parenRight)
    (ending : MayHave (.punct .semicolon) semicolon) (behind : List Token) :
    Extends (.call span callee es) (ts ++ opening :: (inner ++ closing :: semicolon.toList))
      behind := by
  obtain ⟨taken, o, rest, all, split, may, free, accepted⟩ := semicolonTaken ending behind
  obtain ⟨es', esAlike, read⟩ := arguments (closing :: (taken.toList ++ rest)) (by simp [closes])
  have called := value (opening :: (inner ++ closing :: (taken.toList ++ rest))) (by simp [opens])
  obtain ⟨callee', alike, extend⟩ := extendsFree called (by simp [opens])
  refine ⟨.call ⟨callee'.span.start, stopOf closing.span.stop taken.toList⟩ callee' es', o, rest,
    ?_, split, may, free, ?_⟩
  · simp only [Relabeling.expression, alike, esAlike]
    rfl
  · intro whole d after same chain
    subst same
    have derived := extend (by simp) (.call opens read closes accepted chain)
    simpa [all] using derived

theorem binaryExtends {span op left right ls t rs} (first : Extending left ls)
    (kind : t.kind = .operator op)
    (second : ∀ behind, front behind ≠ some (.punct .assign) → ∃ right',
      placeless.expression right' = placeless.expression right ∧
        Derives (.expression right') rs behind)
    {behind} (other : front behind ≠ some (.punct .assign)) :
    Extends (.binary span op left right) (ls ++ t :: rs) behind := by
  obtain ⟨right', rightAlike, read⟩ := second behind other
  obtain ⟨left', alike, extend⟩ :=
    extendsFree (first (t :: (rs ++ behind)) (by simp [kind])) (by simp [kind])
  refine ⟨join left' op right', none, behind, ?_, rfl, mayHaveNone, fun _ => rfl, ?_⟩
  · simp only [join, Relabeling.expression, alike, rightAlike]
    rfl
  · intro whole d after same chain
    subst same
    have derived := extend (by simp) (.operator kind read chain)
    simpa using derived

theorem binaryEnded {span op left right ls t rs behind} (first : Extending left ls)
    (kind : t.kind = .operator op) (second : Ended right rs behind) (calm : Calm behind) :
    Ended (.binary span op left right) (ls ++ t :: rs) behind := by
  obtain ⟨right', o, rest, rightAlike, split, may, free, read⟩ := second
  obtain ⟨left', alike, extend⟩ :=
    extendsFree (first (t :: (rs ++ behind)) (by simp [kind])) (by simp [kind])
  have ends : ¬ Continues rest := by
    rw [split] at calm
    exact calmEnds may calm
  refine ⟨join left' op right', o, rest, ?_, split, may, free, ?_⟩
  · simp only [join, Relabeling.expression, alike, rightAlike]
    rfl
  · have operand : Derives (.expression right') (rs ++ o.toList) ([] ++ rest) := read
    have derived := extend (by simp [split]) (.operator kind operand (.stop ends))
    simpa using derived

theorem calmBefore {kind : Kind} {rest} (next : front rest = some kind)
    (listed : kind ∈ [Kind.punct .comma, .punct .parenRight, .identifier]) : Calm rest := by
  constructor
  · refine notContinues ?_ ?_ ?_
    · rw [next]
      intro same
      cases same
      contradiction
    · rw [next]
      intro same
      cases same
      contradiction
    · rw [next]
      intro op same
      cases same
      simp at listed
  · intro t more same semicolon
    subst same
    rw [frontCons, semicolon] at next
    cases next
    contradiction

theorem separatedRead {e ts behind kind} (value : Ending e ts) (next : front behind = some kind)
    (mark : kind = .punct .comma ∨ kind = .punct .parenRight) :
    ∃ e', placeless.expression e' = placeless.expression e ∧
      Derives (.expression e') ts behind := by
  rcases mark with rfl | rfl
  · have ended := value behind (by simp [next]) (calmBefore next (by simp))
    exact endedFree ended (by simp [next])
  · have ended := value behind (by simp [next]) (calmBefore next (by simp))
    exact endedFree ended (by simp [next])

theorem lastArgumentRead {e ts comma} (value : Ending e ts)
    (ending : MayHave (.punct .comma) comma) {rest}
    (closes : front rest = some (.punct .parenRight)) : ∃ es',
      placeless.expressions es' = placeless.expressions [e] ∧
        Derives (.arguments es') (ts ++ comma.toList) rest := by
  cases comma with
  | none =>
    obtain ⟨e', alike, read⟩ := separatedRead value closes (.inr rfl)
    rw [Option.toList_none, List.append_nil]
    exact ⟨[e'], by simp only [Relabeling.expressions, alike], .lastArgument read closes⟩
  | some comma =>
    have kind := ending comma rfl
    have next : front (comma :: rest) = some (.punct .comma) := by simp [kind]
    obtain ⟨e', alike, read⟩ := separatedRead value next (.inl rfl)
    refine ⟨[e'], by simp only [Relabeling.expressions, alike], ?_⟩
    exact .argument read kind (.noArguments (.inr closes))

theorem argumentRead {e es ts comma others} (value : Ending e ts)
    (kind : comma.kind = .punct .comma) {rest} (behind : ∃ es',
      placeless.expressions es' = placeless.expressions es ∧ Derives (.arguments es') others rest) :
    ∃ es', placeless.expressions es' = placeless.expressions (e :: es) ∧
      Derives (.arguments es') (ts ++ comma :: others) rest := by
  obtain ⟨es', othersAlike, next⟩ := behind
  have comes : front (comma :: (others ++ rest)) = some (.punct .comma) := by simp [kind]
  obtain ⟨e', alike, read⟩ := separatedRead value comes (.inl rfl)
  refine ⟨e' :: es', by simp only [Relabeling.expressions, alike, othersAlike], ?_⟩
  exact .argument read kind next

theorem functionRead {span name params b word id opening names closing body}
    (kind : word.kind = .keyword .functionWord) (named : Option.Rel Spells name id)
    (opens : opening.kind = .punct .parenLeft) (parameters : WritesNames params names)
    (closes : closing.kind = .punct .parenRight) {rest} (block : ∃ b',
      placeless.block b' = placeless.block b ∧ Derives (.block b') body rest) :
    ∃ f', placeless.function f' = placeless.function ⟨span, name, params, b⟩ ∧
      Derives (.function f') (word :: (id.toList ++ opening :: (names ++ closing :: body)))
        rest := by
  obtain ⟨b', blockAlike, read⟩ := block
  have ends : front (closing :: (body ++ rest)) = some (.punct .parenRight) := by simp [closes]
  obtain ⟨params', namesAlike, series⟩ := namesRead parameters ends
  have list : Parameters (opening.span.through closing.span, params')
      (opening :: (names ++ [closing])) (body ++ rest) :=
    ⟨opening, names, closing, rfl, opens, closes, series, rfl⟩
  have nameAlike : (id.map Identifier.ofToken).map placeless.identifier =
      name.map placeless.identifier := by
    cases named with
    | none => rfl
    | some spelled => exact congrArg some (spelledAlike spelled)
  have accepted : Accepted .identifier ((opening :: (names ++ [closing])) ++ (body ++ rest)) id := by
    cases named with
    | none => simp [Accepted, opens]
    | some spelled => exact spelled.1
  have derived := Derives.function kind accepted list read
  simp only [List.cons_append, List.append_assoc, List.nil_append] at derived
  refine ⟨_, ?_, derived⟩
  simp only [Relabeling.function, nameAlike, namesAlike, blockAlike]
  rfl

end ScriptTree.Grammar
