import ScriptTree.Proofs.Reading
/-! Where productions come to, whether they succeed or not. They take tokens from the front only,
and one that fails stands where another kind is next than any that was expected. Budgets above
the number of tokens make no difference, so this is proved for two budgets at once. -/
namespace ScriptTree.Grammar

def Refused (expected : List Kind) (rest : List Token) : Prop :=
  expected ≠ [] ∧ ∀ kind ∈ expected, front rest ≠ some kind

inductive Settles (least : Nat) (tokens : List Token) : Outcome α → Prop where
  | done {value taken rest} (split : tokens = taken ++ rest) (enough : least ≤ taken.length) :
      Settles least tokens (.done value rest)
  | failed {expected taken rest} (split : tokens = taken ++ rest)
      (refused : Refused expected rest) : Settles least tokens (.failed expected rest)

structure Alike (least : Nat) (p q : Production α) (tokens : List Token) : Prop where
  same : p tokens = q tokens
  settles : Settles least tokens (p tokens)

def AlikeBelow (limit least : Nat) (p q : Production α) : Prop :=
  ∀ ⦃tokens⦄, tokens.length < limit → Alike least p q tokens

variable {tokens : List Token}

theorem Settles.any {least} {outcome : Outcome α} (settles : Settles least tokens outcome) :
    Settles 0 tokens outcome := by
  cases settles with
  | done split _ => exact .done split (Nat.zero_le _)
  | failed split refused => exact .failed split refused

theorem Alike.any {least} {p q : Production α} (alike : Alike least p q tokens) :
    Alike 0 p q tokens := ⟨alike.same, alike.settles.any⟩

theorem Alike.replaced {least} {p q q' : Production α} (alike : Alike least q q' tokens)
    (same : p tokens = q tokens) : Alike least p q' tokens :=
  ⟨same.trans alike.same, same ▸ alike.settles⟩

theorem Alike.shorter {p q : Production α} (alike : Alike 1 p q tokens) {value rest}
    (found : p tokens = .done value rest) : rest.length < tokens.length := by
  have settles := alike.settles
  rw [found] at settles
  cases settles with
  | done split enough =>
    rw [split, List.length_append]
    omega

theorem bindAssociates (p : Production α) (f : α → Production β) (g : β → Production γ) :
    (p >>= f) >>= g = p >>= fun a => f a >>= g := by
  funext tokens
  simp only [Production.bindApply]
  cases p tokens <;> rfl

theorem bindSame {p q : Production α} {f g : α → Production β} (first : p tokens = q tokens)
    (next : ∀ value rest, p tokens = .done value rest → f value rest = g value rest) :
    (p >>= f) tokens = (q >>= g) tokens := by
  rw [Production.bindApply, Production.bindApply, ← first]
  cases found : p tokens with
  | done value rest => exact next value rest found
  | failed => rfl

theorem peekThen {f : Option Kind → Production α} :
    (peek >>= f) tokens = f (front tokens) tokens := rfl

theorem alikePure (value : α) : Alike 0 (pure value) (pure value) tokens :=
  ⟨rfl, @Settles.done _ _ _ _ [] _ rfl (Nat.zero_le _)⟩

theorem alikeBind {a b least} {p q : Production α} {f g : α → Production β}
    (first : Alike a p q tokens)
    (next : ∀ value rest, rest.length + a ≤ tokens.length → Alike b (f value) (g value) rest)
    (enough : least ≤ a + b) : Alike least (p >>= f) (q >>= g) tokens := by
  obtain ⟨same, settles⟩ := first
  cases found : p tokens with
  | failed expected rest =>
    rw [found] at same settles
    cases settles with
    | failed split refused =>
      constructor
      · rw [Production.bindApply, Production.bindApply, found, ← same]
      · rw [Production.bindApply, found]
        exact .failed split refused
  | done value rest =>
    rw [found] at same settles
    cases settles with
    | @done _ taken _ split most =>
      have count := congrArg List.length split
      rw [List.length_append] at count
      obtain ⟨equal, settles⟩ := next value rest (by omega)
      constructor
      · rw [Production.bindApply, Production.bindApply, found, ← same]
        exact equal
      · rw [Production.bindApply, found]
        simp only
        generalize f value rest = outcome at settles
        subst split
        cases settles with
        | @done _ more _ split behind =>
          subst split
          refine .done (List.append_assoc ..).symm ?_
          rw [List.length_append]
          omega
        | failed split refused =>
          subst split
          exact .failed (List.append_assoc ..).symm refused

theorem alikeAfter {p q : Production α} {f g : α → Production β} (first : Alike 1 p q tokens)
    (next : ∀ value rest, rest.length < tokens.length → Alike 0 (f value) (g value) rest) :
    Alike 1 (p >>= f) (q >>= g) tokens :=
  alikeBind first next (Nat.le_refl _)

theorem alikeThen {least} {p q : Production α} {f g : α → Production β}
    (first : Alike 0 p q tokens)
    (next : ∀ value rest, rest.length ≤ tokens.length → Alike least (f value) (g value) rest) :
    Alike least (p >>= f) (q >>= g) tokens :=
  alikeBind first next (Nat.le_of_eq (Nat.zero_add _).symm)

theorem alikePeek {least} {f g : Option Kind → Production α}
    (next : Alike least (f (front tokens)) (g (front tokens)) tokens) :
    Alike least (peek >>= f) (peek >>= g) tokens := ⟨next.same, next.settles⟩

theorem alikePeekSecond {least} {f g : Option Kind → Production α}
    (next : Alike least (f (front (tokens.drop 1))) (g (front (tokens.drop 1))) tokens) :
    Alike least (peekSecond >>= f) (peekSecond >>= g) tokens := ⟨next.same, next.settles⟩

theorem alikeFail {least expected} (refused : Refused expected tokens) :
    Alike least (fail expected : Production α) (fail expected) tokens :=
  ⟨rfl, @Settles.failed _ _ _ _ [] _ rfl refused⟩

theorem alikeOneOf {kinds : List Kind} (filled : kinds ≠ []) :
    Alike 1 (oneOf kinds) (oneOf kinds) tokens := by
  refine ⟨rfl, ?_⟩
  cases tokens with
  | nil => exact @Settles.failed _ _ _ _ [] _ rfl ⟨filled, by simp⟩
  | cons t rest =>
    rw [oneOf]
    split
    · exact @Settles.done _ _ _ _ [t] _ rfl (Nat.le_refl _)
    · rename_i other
      refine @Settles.failed _ _ _ _ [] _ rfl ⟨filled, ?_⟩
      rintro kind listed next
      rw [← Option.some.inj next] at listed
      exact other listed

theorem alikeExpect {kind : Kind} : Alike 1 (expect kind) (expect kind) tokens :=
  alikeOneOf (List.cons_ne_nil _ _)

theorem alikeAccept {kind : Kind} : Alike 0 (accept kind) (accept kind) tokens := by
  refine ⟨rfl, ?_⟩
  cases tokens with
  | nil => exact @Settles.done _ _ _ _ [] _ rfl (Nat.zero_le _)
  | cons t rest =>
    rw [accept]
    split
    · exact @Settles.done _ _ _ _ [t] _ rfl (Nat.zero_le _)
    · exact @Settles.done _ _ _ _ [] _ rfl (Nat.zero_le _)

variable {limit b b' : Nat} {p q : Production α}

theorem manyAlike {stop} (items : AlikeBelow limit 1 p q) (short : tokens.length < limit)
    (enough : tokens.length < b) (enough' : tokens.length < b') :
    Alike 0 (many stop p b) (many stop q b') tokens := by
  induction b generalizing b' tokens with
  | zero => contradiction
  | succ b ih =>
    obtain ⟨b', rfl⟩ := budgetLeft enough'
    refine alikePeek ?_
    split
    · exact alikePure []
    · refine (alikeAfter (items short) fun first rest shorter => ?_).any
      exact alikeThen (ih (by omega) (by omega) (by omega)) fun others _ _ => alikePure _

theorem enclosedAlike {left right} (items : AlikeBelow limit 1 p q)
    (within : tokens.length ≤ limit) (enough : tokens.length ≤ b) (enough' : tokens.length ≤ b') :
    Alike 1 (enclosed left right p b) (enclosed left right q b') tokens := by
  refine alikeAfter alikeExpect fun opening rest shorter => ?_
  refine alikeThen (manyAlike items (by omega) (by omega) (by omega)) fun values _ _ => ?_
  exact (alikeAfter alikeExpect fun closing _ _ => alikePure _).any

theorem separatedAlike (items : AlikeBelow limit 1 p q) :
    AlikeBelow limit 1 (separated p) (separated q) := by
  intro tokens short
  refine alikeAfter (items short) fun value rest _ => alikePeek ?_
  split
  · exact alikePure value
  · exact (alikeAfter alikeExpect fun comma _ _ => alikePure value).any

theorem listedAlike (items : AlikeBelow limit 1 p q) : AlikeBelow limit 1 (listed p) (listed q) := by
  intro tokens short
  exact alikeAfter (items short) fun value _ _ => alikeThen alikeAccept fun comma _ _ => alikePure value

theorem identifierAlike : Alike 1 identifier identifier tokens :=
  alikeAfter alikeExpect fun _ _ _ => alikePure _

theorem literalAlike : Alike 1 literal literal tokens :=
  alikeAfter (alikeOneOf (List.cons_ne_nil _ _)) fun _ _ _ => alikePure _

theorem blockAlike {s s' : Production Statement} (inner : AlikeBelow limit 1 s s')
    (within : tokens.length ≤ limit) (enough : tokens.length ≤ b) (enough' : tokens.length ≤ b') :
    Alike 1 (block s b) (block s' b') tokens :=
  alikeAfter (enclosedAlike inner within enough enough') fun _ _ _ => alikePure _

theorem functionAlike {s s' : Production Statement} (inner : AlikeBelow limit 1 s s')
    (within : tokens.length ≤ limit) (enough : tokens.length ≤ b) (enough' : tokens.length ≤ b') :
    Alike 1 (functionDef s b) (functionDef s' b') tokens := by
  refine alikeAfter alikeExpect fun word rest shorter => ?_
  refine alikeThen alikeAccept fun name rest' shorter' => ?_
  have params : Alike 0 (parenthesized identifier b) (parenthesized identifier b') rest' :=
    (enclosedAlike (separatedAlike fun _ _ => identifierAlike) (Nat.le_refl _) (by omega)
      (by omega)).any
  refine alikeThen params fun list _ _ => ?_
  exact (alikeAfter (blockAlike inner (by omega) (by omega) (by omega)) fun _ _ _ =>
    alikePure _).any

theorem operandAlike {s s' : Production Statement} (inner : AlikeBelow limit 1 s s')
    (within : tokens.length ≤ limit) (enough : tokens.length ≤ b) (enough' : tokens.length ≤ b') :
    Alike 1 (operand s b) (operand s' b') tokens := by
  refine alikePeek ?_
  generalize front tokens = next
  split
  · exact alikeAfter (functionAlike inner within enough enough') fun f _ _ => alikePure _
  · exact alikeAfter literalAlike fun lit _ _ => alikePure _
  · exact alikeAfter literalAlike fun lit _ _ => alikePure _
  · exact alikeAfter identifierAlike fun id _ _ => alikePure _

theorem callAlike {callee} {arg arg' : Production Expression} (args : AlikeBelow limit 1 arg arg')
    (within : tokens.length ≤ limit) (enough : tokens.length ≤ b) (enough' : tokens.length ≤ b') :
    Alike 1 (call arg b callee) (call arg' b' callee) tokens := by
  have list : Alike 1 (parenthesized arg b) (parenthesized arg' b') tokens :=
    enclosedAlike (separatedAlike args) within enough enough'
  exact alikeAfter list fun _ _ _ => alikeThen alikeAccept fun semicolon _ _ => alikePure _

theorem memberAlike {object} : Alike 1 (member object) (member object) tokens := by
  refine alikeAfter alikeExpect fun dot _ _ => ?_
  exact (alikeAfter identifierAlike fun property _ _ => alikePure _).any

theorem continuedAlike {arg arg' : Production Expression} {op op' : Production Operand}
    (args : AlikeBelow limit 1 arg arg') (operands : AlikeBelow limit 1 op op')
    (short : tokens.length < limit) (enough : tokens.length < b) (enough' : tokens.length < b')
    {pending current} :
    Alike 0 (continued arg op b pending current) (continued arg' op' b' pending current)
      tokens := by
  induction b generalizing b' tokens pending current with
  | zero => contradiction
  | succ b ih =>
    obtain ⟨b', rfl⟩ := budgetLeft enough'
    refine alikePeek ?_
    generalize front tokens = next
    split
    · have called : Alike 1 (call arg b current) (call arg' b' current) tokens :=
        callAlike args (by omega) (by omega) (by omega)
      exact (alikeAfter called fun _ _ _ => ih (by omega) (by omega) (by omega)).any
    · exact (alikeAfter memberAlike fun _ _ _ => ih (by omega) (by omega) (by omega)).any
    · refine (alikeAfter alikeExpect fun t rest shorter => ?_).any
      refine (alikeAfter (operands (by omega)) fun o _ _ => ?_).any
      cases o with
      | head id => exact ih (by omega) (by omega) (by omega)
      | tail right => exact ih (by omega) (by omega) (by omega)
    · exact alikePure _

theorem expressionAlike {arg arg' : Production Expression} {s s' : Production Statement}
    (args : AlikeBelow limit 1 arg arg') (inner : AlikeBelow limit 1 s s')
    (within : tokens.length ≤ limit) (enough : tokens.length ≤ b) (enough' : tokens.length ≤ b') :
    Alike 1 (Grammar.expression arg s b) (Grammar.expression arg' s' b') tokens := by
  refine alikeAfter (operandAlike inner within enough enough') fun o rest shorter => ?_
  cases o with
  | tail e => exact alikePure e
  | head id =>
    have operands : AlikeBelow tokens.length 1 (operand s b) (operand s' b') :=
      fun _ _ => operandAlike inner (by omega) (by omega) (by omega)
    have arguments : AlikeBelow tokens.length 1 arg arg' := fun _ _ => args (by omega)
    exact continuedAlike arguments operands shorter (by omega) (by omega)

variable {e e' : Production Expression}

theorem declaratorAlike (values : AlikeBelow limit 1 e e') (short : tokens.length < limit) :
    Alike 1 (declarator e) (declarator e') tokens := by
  refine alikeAfter identifierAlike fun id rest shorter => ?_
  refine alikeThen alikeAccept fun assign rest' _ => ?_
  cases assign with
  | none => exact alikePure _
  | some t => exact (alikeAfter (values (by omega)) fun init _ _ => alikePure _).any

theorem declaratorsAlike (values : AlikeBelow limit 1 e e') (short : tokens.length < limit)
    (enough : tokens.length < b) (enough' : tokens.length < b') {stop} :
    Alike 0 (declarators e b stop) (declarators e' b' stop) tokens := by
  induction b generalizing b' tokens stop with
  | zero => contradiction
  | succ b ih =>
    obtain ⟨b', rfl⟩ := budgetLeft enough'
    refine alikeThen alikeAccept fun semicolon rest shorter => ?_
    cases semicolon with
    | some t => exact alikePure _
    | none =>
      refine alikePeekSecond ?_
      split
      · refine (alikeAfter (declaratorAlike values (by omega)) fun first rest' _ => ?_).any
        refine alikeThen alikeAccept fun comma rest'' _ => ?_
        exact alikeThen (ih (by omega) (by omega) (by omega)) fun _ _ _ => alikePure _
      · exact alikePure _

theorem variablesAlike {sort} (values : AlikeBelow limit 1 e e') (within : tokens.length ≤ limit)
    (enough : tokens.length ≤ b) (enough' : tokens.length ≤ b') :
    Alike 1 (variableDeclaration e b sort) (variableDeclaration e' b' sort) tokens := by
  refine alikeAfter alikeExpect fun word rest shorter => ?_
  exact alikeThen (declaratorsAlike values (by omega) (by omega) (by omega)) fun _ _ _ =>
    alikePure _

theorem otherNameAlike : Alike 0 otherName otherName tokens := by
  refine alikeThen alikeAccept fun word _ _ => ?_
  cases word with
  | none => exact alikePure _
  | some t => exact (alikeAfter identifierAlike fun name _ _ => alikePure _).any

theorem renamedAlike : Alike 1 renamed renamed tokens :=
  alikeAfter identifierAlike fun _ _ _ => alikeThen otherNameAlike fun _ _ _ => alikePure _

theorem namedImportAlike : Alike 1 namedImport namedImport tokens :=
  alikeAfter renamedAlike fun _ _ _ => alikePure _

theorem namedExportAlike : Alike 1 exportSpecifier exportSpecifier tokens :=
  alikeAfter renamedAlike fun _ _ _ => alikePure _

theorem moduleSourceAlike : Alike 1 moduleSource moduleSource tokens :=
  alikeAfter alikeExpect fun _ _ _ => alikePure _

theorem defaultImportAlike : Alike 0 defaultImport defaultImport tokens := by
  refine alikeThen alikeAccept fun name _ _ => ?_
  cases name with
  | none => exact alikePure _
  | some t => exact alikeThen alikeAccept fun comma _ _ => alikePure _

theorem otherImportsAlike (enough : tokens.length ≤ b) (enough' : tokens.length ≤ b') :
    Alike 0 (otherImports b) (otherImports b') tokens := by
  refine alikePeek ?_
  generalize front tokens = next
  split
  · have list : Alike 1 (braced (listed namedImport) b) (braced (listed namedImport) b') tokens :=
      enclosedAlike (listedAlike fun _ _ => namedImportAlike) (Nat.le_refl _) enough enough'
    exact (alikeAfter list fun _ _ _ => alikePure _).any
  · refine (alikeAfter alikeExpect fun star _ _ => ?_).any
    refine (alikeAfter alikeExpect fun word _ _ => ?_).any
    exact (alikeAfter identifierAlike fun binding _ _ => alikePure _).any
  · exact alikePure _

theorem importsAlike (enough : tokens.length ≤ b) (enough' : tokens.length ≤ b') :
    Alike 1 (imports b) (imports b') tokens := by
  refine alikeAfter alikeExpect fun word rest _ => ?_
  refine alikeThen defaultImportAlike fun first rest' _ => ?_
  refine alikeThen (otherImportsAlike (by omega) (by omega)) fun others _ _ => ?_
  refine alikeThen alikeAccept fun origin _ _ => ?_
  exact (alikeAfter moduleSourceAlike fun source _ _ => alikePure _).any

theorem otherSourceAlike : Alike 0 otherSource otherSource tokens := by
  refine alikeThen alikeAccept fun word _ _ => ?_
  cases word with
  | none => exact alikePure _
  | some t => exact (alikeAfter moduleSourceAlike fun source _ _ => alikePure _).any

theorem exportListAlike {start} (enough : tokens.length ≤ b) (enough' : tokens.length ≤ b') :
    Alike 1 (exportList start b) (exportList start b') tokens := by
  have list : Alike 1 (braced (listed exportSpecifier) b) (braced (listed exportSpecifier) b')
      tokens := enclosedAlike (listedAlike fun _ _ => namedExportAlike) (Nat.le_refl _) enough enough'
  exact alikeAfter list fun _ _ _ => alikeThen otherSourceAlike fun source _ _ => alikePure _

theorem exportAllAlike {start} : Alike 1 (exportAll start) (exportAll start) tokens := by
  refine alikeAfter alikeExpect fun star _ _ => ?_
  refine alikeThen otherNameAlike fun exported _ _ => ?_
  refine (alikeAfter alikeExpect fun word _ _ => ?_).any
  exact (alikeAfter moduleSourceAlike fun source _ _ => alikePure _).any

theorem defaultAlike {f f' : Production FunctionDef} (values : AlikeBelow limit 1 e e')
    (functions : AlikeBelow limit 1 f f') (within : tokens.length ≤ limit) :
    Alike 1 (defaultDeclaration e f) (defaultDeclaration e' f') tokens := by
  refine alikeAfter alikeExpect fun word rest _ => alikePeek ?_
  generalize seen : front rest = next
  split
  · exact (alikeAfter (values (by omega)) fun _ _ _ => alikePure _).any
  · exact (alikeAfter (functions (by omega)) fun _ _ _ => alikePure _).any
  · refine alikeFail ⟨List.cons_ne_nil _ _, ?_⟩
    simp_all

theorem exportsAlike {f f' : Production FunctionDef} (values : AlikeBelow limit 1 e e')
    (functions : AlikeBelow limit 1 f f') (within : tokens.length ≤ limit)
    (enough : tokens.length ≤ b) (enough' : tokens.length ≤ b') :
    Alike 1 (exports e f b) (exports e' f' b') tokens := by
  refine alikeAfter alikeExpect fun word rest _ => alikePeek ?_
  have declared {sort} :
      Alike 1 (variableDeclaration e b sort) (variableDeclaration e' b' sort) rest :=
    variablesAlike values (by omega) (by omega) (by omega)
  generalize front rest = next
  split
  · exact (alikeAfter (defaultAlike values functions (by omega)) fun _ _ _ => alikePure _).any
  · exact (exportListAlike (by omega) (by omega)).any
  · exact (alikeAfter declared fun _ _ _ => alikePure _).any
  · exact (alikeAfter declared fun _ _ _ => alikePure _).any
  · exact (alikeAfter declared fun _ _ _ => alikePure _).any
  · exact (alikeAfter (functions (by omega)) fun _ _ _ => alikePure _).any
  · exact (alikeAfter exportAllAlike fun _ _ _ => alikePure _).any

theorem returnsAlike (values : AlikeBelow limit 1 e e') (within : tokens.length ≤ limit) :
    Alike 1 (returns e) (returns e') tokens := by
  refine alikeAfter alikeExpect fun word rest _ => ?_
  exact (alikeAfter (values (by omega)) fun _ _ _ => alikePure _).any

variable {s s' : Production Statement}

theorem unterminatedAlike (values : AlikeBelow (limit + 1) 1 e e') (inner : AlikeBelow limit 1 s s')
    (within : tokens.length ≤ limit) (enough : tokens.length ≤ b) (enough' : tokens.length ≤ b') :
    Alike 1 (unterminated e s b) (unterminated e' s' b') tokens := by
  have later : AlikeBelow limit 1 e e' := fun _ _ => values (by omega)
  have declared {sort} :
      Alike 1 (variableDeclaration e b sort) (variableDeclaration e' b' sort) tokens :=
    variablesAlike later within enough enough'
  have functions : Alike 1 (functionDef s b) (functionDef s' b') tokens :=
    functionAlike inner within enough enough'
  have exported : AlikeBelow tokens.length 1 (functionDef s b) (functionDef s' b') :=
    fun _ _ => functionAlike inner (by omega) (by omega) (by omega)
  refine alikePeek ?_
  generalize seen : front tokens = next
  split
  · exact alikeAfter functions fun _ _ _ => alikePure _
  · exact alikeAfter (values (by omega)) fun _ _ _ => alikePure _
  · exact alikeAfter (blockAlike inner within enough enough') fun _ _ _ => alikePure _
  · exact returnsAlike later within
  · exact alikeAfter (importsAlike enough enough') fun _ _ _ => alikePure _
  · exact exportsAlike (fun _ _ => later (by omega)) exported (Nat.le_refl _) enough enough'
  · exact alikeAfter declared fun _ _ _ => alikePure _
  · exact alikeAfter declared fun _ _ _ => alikePure _
  · exact alikeAfter declared fun _ _ _ => alikePure _
  · refine alikeFail ⟨List.cons_ne_nil _ _, ?_⟩
    simp_all [leads]

theorem statementAlike (values : AlikeBelow (limit + 1) 1 e e') (inner : AlikeBelow limit 1 s s')
    (within : tokens.length ≤ limit) (enough : tokens.length ≤ b) (enough' : tokens.length ≤ b') :
    Alike 1 (statement e s b) (statement e' s' b') tokens :=
  alikeAfter (unterminatedAlike values inner within enough enough') fun _ _ _ =>
    alikeThen alikeAccept fun _ _ _ => alikePure _

structure AlikeFamilies (limit : Nat) (p q : Productions) : Prop where
  expressions : AlikeBelow limit 1 p.expression q.expression
  statements : AlikeBelow limit 1 p.statement q.statement

theorem alikeNone {p q : Productions} : AlikeFamilies 0 p q := by
  constructor
  · intro tokens short
    contradiction
  · intro tokens short
    contradiction

theorem AlikeFamilies.operands {p q : Productions} (alike : AlikeFamilies limit p q)
    (enough : limit ≤ b) (enough' : limit ≤ b') :
    AlikeBelow limit 1 (operand p.statement b) (operand q.statement b') :=
  fun _ _ => operandAlike alike.statements (by omega) (by omega) (by omega)

theorem nextAlike {p q : Productions} (alike : AlikeFamilies limit p q) (enough : limit ≤ b)
    (enough' : limit ≤ b') : AlikeFamilies (limit + 1) (p.next b) (q.next b') := by
  have values : AlikeBelow (limit + 1) 1 (p.next b).expression (q.next b').expression :=
    fun _ _ => expressionAlike alike.expressions alike.statements (by omega) (by omega) (by omega)
  refine ⟨values, ?_⟩
  intro tokens short
  exact statementAlike values alike.statements (by omega) (by omega) (by omega)

theorem levelsAlike {n m : Nat} (enough : limit ≤ n) (enough' : limit ≤ m) :
    AlikeFamilies limit (Productions.upTo n) (Productions.upTo m) := by
  induction limit generalizing n m with
  | zero => exact alikeNone
  | succ limit ih =>
    obtain ⟨n, rfl⟩ := budgetLeft enough
    obtain ⟨m, rfl⟩ := budgetLeft enough'
    exact nextAlike (ih (by omega) (by omega)) (by omega) (by omega)

theorem programSettles : Settles 0 tokens (program tokens) := by
  have each := (levelsAlike (Nat.le_refl (tokens.length + 1)) (Nat.le_refl _)).statements
  have all : Alike 0 (statements (tokens.length + 1)) (statements (tokens.length + 1)) tokens :=
    manyAlike each (Nat.lt_succ_self _) (Nat.lt_succ_self _) (Nat.lt_succ_self _)
  exact (alikeThen all fun body _ _ => alikePure (Program.ofStatements body)).settles

end ScriptTree.Grammar
