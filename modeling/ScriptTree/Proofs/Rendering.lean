import ScriptTree.Proofs.Shape
import ScriptTree.Proofs.Relabeling
/-! The ways in which a tree can be written as tokens, whatever the spans. Each rule writes one
node, with the marks that it needs and those that may be left out. -/
namespace ScriptTree.Grammar

def MayHave (kind : Kind) (o : Option Token) : Prop := ∀ t ∈ o, t.kind = kind

@[simp] theorem mayHaveNone {kind : Kind} : MayHave kind none := by simp [MayHave]

@[simp] theorem mayHaveSome {kind : Kind} {t : Token} :
    MayHave kind (some t) ↔ t.kind = kind := by simp [MayHave]

def Spells (id : Identifier) (t : Token) : Prop := t.kind = .identifier ∧ t.text = id.name

def Quotes (lit : Literal) (t : Token) : Prop := t.text = lit.value ∧ t.raw = some lit.raw

inductive WritesNames : List Identifier → List Token → Prop where
  | none : WritesNames [] []
  | last {id t comma} (spelled : Spells id t) (ending : MayHave (.punct .comma) comma) :
      WritesNames [id] (t :: comma.toList)
  | more {id next ids t comma others} (spelled : Spells id t) (kind : comma.kind = .punct .comma)
      (behind : WritesNames (next :: ids) others) :
      WritesNames (id :: next :: ids) (t :: comma :: others)

inductive WritesRenamed : Identifier → Identifier → List Token → Prop where
  | same {name other t} (spelled : Spells name t) (again : other.name = name.name) :
      WritesRenamed name other [t]
  | renamed {name other t word u} (spelled : Spells name t) (renames : word.kind = .keyword .asWord)
      (spelled' : Spells other u) : WritesRenamed name other [t, word, u]

inductive WritesImport : ImportSpecifier → List Token → Prop where
  | named {span imported binding ts} (names : WritesRenamed imported binding ts) :
      WritesImport (.named span imported binding) ts

inductive WritesExport : ExportSpecifier → List Token → Prop where
  | named {span binding exported ts} (names : WritesRenamed binding exported ts) :
      WritesExport ⟨span, binding, exported⟩ ts

inductive WritesListed (item : α → List Token → Prop) : List α → List Token → Prop where
  | none : WritesListed item [] []
  | more {value values ts comma others} (one : item value ts)
      (ending : MayHave (.punct .comma) comma) (behind : WritesListed item values others) :
      WritesListed item (value :: values) (ts ++ (comma.toList ++ others))

inductive WritesDefault : List ImportSpecifier → List Token → Prop where
  | absent : WritesDefault [] []
  | present {span binding t comma} (spelled : Spells binding t)
      (ending : MayHave (.punct .comma) comma) :
      WritesDefault [.byDefault span binding] (t :: comma.toList)

/-- No named import may be written with empty braces, or without them. -/
inductive WritesOthers : List ImportSpecifier → List Token → Prop where
  | absent : WritesOthers [] []
  | braces {specifiers opening inner closing} (opens : opening.kind = .punct .braceLeft)
      (list : WritesListed WritesImport specifiers inner)
      (closes : closing.kind = .punct .braceRight) :
      WritesOthers specifiers (opening :: (inner ++ [closing]))
  | star {span binding star word t} (everything : star.kind = .punct .asterisk)
      (renames : word.kind = .keyword .asWord) (spelled : Spells binding t) :
      WritesOthers [.wholeModule span binding] [star, word, t]

inductive WritesImports : ImportDeclaration → List Token → Prop where
  | clause {span first others source word a b origin t} (kind : word.kind = .keyword .importWord)
      (default : WritesDefault first a) (other : WritesOthers others b)
      (ending : MayHave (.keyword .fromWord) origin) (string : t.kind = .string)
      (quoted : Quotes source t) :
      WritesImports ⟨span, first ++ others, source⟩ (word :: (a ++ (b ++ (origin.toList ++ [t]))))

inductive WritesSource : Option Literal → List Token → Prop where
  | absent : WritesSource none []
  | present {source word t} (origin : word.kind = .keyword .fromWord) (string : t.kind = .string)
      (quoted : Quotes source t) : WritesSource (some source) [word, t]

inductive WritesOtherName : Option Identifier → List Token → Prop where
  | absent : WritesOtherName none []
  | present {name word t} (renames : word.kind = .keyword .asWord) (spelled : Spells name t) :
      WritesOtherName (some name) [word, t]

inductive Part where
  | expression (e : Expression)
  | arguments (es : List Expression)
  | function (f : FunctionDef)
  | block (b : Block)
  | statements (body : List Statement)
  | declarators (ds : List Declarator)
  | vars (d : VariableDeclaration)
  | unterminated (s : Statement)
  | statement (s : Statement)

inductive Writes : Part → List Token → Prop where
  | identifier {id t} (spelled : Spells id t) : Writes (.expression (.identifier id)) [t]
  | literal {lit t} (kind : t.kind = .number ∨ t.kind = .string) (quoted : Quotes lit t) :
      Writes (.expression (.literal lit)) [t]
  | functionValue {f ts} (value : Writes (.function f) ts) : Writes (.expression (.function f)) ts
  | member {span object property computed ts dot name} (value : Writes (.expression object) ts)
      (dotted : dot.kind = .punct .dot) (spelled : Spells property name) :
      Writes (.expression (.member span object property computed)) (ts ++ [dot, name])
  | call {span callee es ts opening inner closing semicolon}
      (value : Writes (.expression callee) ts) (opens : opening.kind = .punct .parenLeft)
      (arguments : Writes (.arguments es) inner) (closes : closing.kind = .punct .parenRight)
      (ending : MayHave (.punct .semicolon) semicolon) :
      Writes (.expression (.call span callee es))
        (ts ++ opening :: (inner ++ closing :: semicolon.toList))
  | binary {span op left right ls t rs} (first : Writes (.expression left) ls)
      (kind : t.kind = .operator op) (second : Writes (.expression right) rs) :
      Writes (.expression (.binary span op left right)) (ls ++ t :: rs)
  | noArguments : Writes (.arguments []) []
  | lastArgument {e ts comma} (value : Writes (.expression e) ts)
      (ending : MayHave (.punct .comma) comma) : Writes (.arguments [e]) (ts ++ comma.toList)
  | argument {e next es ts comma others} (value : Writes (.expression e) ts)
      (kind : comma.kind = .punct .comma) (behind : Writes (.arguments (next :: es)) others) :
      Writes (.arguments (e :: next :: es)) (ts ++ comma :: others)
  | function {span name params b word id opening names closing body}
      (kind : word.kind = .keyword .functionWord) (named : Option.Rel Spells name id)
      (opens : opening.kind = .punct .parenLeft) (parameters : WritesNames params names)
      (closes : closing.kind = .punct .parenRight) (block : Writes (.block b) body) :
      Writes (.function ⟨span, name, params, b⟩)
        (word :: (id.toList ++ opening :: (names ++ closing :: body)))
  | block {span body opening inner closing} (opens : opening.kind = .punct .braceLeft)
      (statements : Writes (.statements body) inner) (closes : closing.kind = .punct .braceRight) :
      Writes (.block ⟨span, body⟩) (opening :: (inner ++ [closing]))
  | noStatements : Writes (.statements []) []
  | statements {s body ts others} (first : Writes (.statement s) ts)
      (behind : Writes (.statements body) others) : Writes (.statements (s :: body)) (ts ++ others)
  | ended {semicolon} (ending : MayHave (.punct .semicolon) semicolon) :
      Writes (.declarators []) semicolon.toList
  | declarator {span id init ds name assign value comma others} (spelled : Spells id name)
      (assigned : assign.kind = .punct .assign) (initial : Writes (.expression init) value)
      (ending : MayHave (.punct .comma) comma) (behind : Writes (.declarators ds) others) :
      Writes (.declarators (⟨span, id, some init⟩ :: ds))
        (name :: assign :: (value ++ (comma.toList ++ others)))
  | vars {span sort ds word ts} (kind : word.kind = .keyword (variableWord sort))
      (declared : Writes (.declarators ds) ts) : Writes (.vars ⟨span, sort, ds⟩) (word :: ts)
  | functionStatement {f ts} (value : Writes (.function f) ts) :
      Writes (.unterminated (.function f)) ts
  | expressionStatement {span e ts} (value : Writes (.expression e) ts) :
      Writes (.unterminated (.expression span e)) ts
  | blockStatement {b ts} (value : Writes (.block b) ts) : Writes (.unterminated (.block b)) ts
  | returns {span e word ts} (kind : word.kind = .keyword .returnWord)
      (value : Writes (.expression e) ts) : Writes (.unterminated (.returns span e)) (word :: ts)
  | variableStatement {d ts} (value : Writes (.vars d) ts) :
      Writes (.unterminated (.vars d)) ts
  | imports {d ts} (clause : WritesImports d ts) : Writes (.unterminated (.imports d)) ts
  | exportedValue {span e word default ts} (kind : word.kind = .keyword .exportWord)
      (only : default.kind = .keyword .defaultWord) (value : Writes (.expression e) ts) :
      Writes (.unterminated (.exportDefault span (.expression e))) (word :: default :: ts)
  | exportedDefault {span f word default ts} (kind : word.kind = .keyword .exportWord)
      (only : default.kind = .keyword .defaultWord) (value : Writes (.function f) ts) :
      Writes (.unterminated (.exportDefault span (.function f))) (word :: default :: ts)
  | exportedVariables {span d specifiers source word ts} (kind : word.kind = .keyword .exportWord)
      (value : Writes (.vars d) ts) :
      Writes (.unterminated (.exportNamed span (some (.vars d)) specifiers source)) (word :: ts)
  | exportedFunction {span f specifiers source word ts} (kind : word.kind = .keyword .exportWord)
      (value : Writes (.function f) ts) :
      Writes (.unterminated (.exportNamed span (some (.function f)) specifiers source)) (word :: ts)
  | exportedNames {span specifiers source word opening inner closing ts}
      (kind : word.kind = .keyword .exportWord) (opens : opening.kind = .punct .braceLeft)
      (list : WritesListed WritesExport specifiers inner)
      (closes : closing.kind = .punct .braceRight) (origin : WritesSource source ts) :
      Writes (.unterminated (.exportNamed span none specifiers source))
        (word :: opening :: (inner ++ closing :: ts))
  | exportedModule {span exported source word star ts origin t}
      (kind : word.kind = .keyword .exportWord) (everything : star.kind = .punct .asterisk)
      (renames : WritesOtherName exported ts) (from' : origin.kind = .keyword .fromWord)
      (string : t.kind = .string) (quoted : Quotes source t) :
      Writes (.unterminated (.exportAll ⟨span, exported, source⟩))
        (word :: star :: (ts ++ [origin, t]))
  | statement {s ts semicolon} (body : Writes (.unterminated s) ts)
      (ending : MayHave (.punct .semicolon) semicolon) : Writes (.statement s) (ts ++ semicolon.toList)

def Unassigned (tokens : List Token) : Prop :=
  front tokens ≠ some (.punct .assign) ∧ front (tokens.drop 1) ≠ some (.punct .assign)

theorem unassignedAppend {ts rest : List Token} (filled : ts ≠ []) (inside : Unassigned ts)
    (behind : front rest ≠ some (.punct .assign)) : Unassigned (ts ++ rest) := by
  cases ts with
  | nil => contradiction
  | cons t more =>
    refine ⟨inside.1, ?_⟩
    cases more with
    | nil => exact behind
    | cons u more => exact inside.2

theorem unassignedCons {t : Token} {kind : Kind} (kinds : t.kind = kind) {rest : List Token}
    (other : kind ≠ .punct .assign) (behind : front rest ≠ some (.punct .assign)) :
    Unassigned (t :: rest) :=
  ⟨by simpa [kinds] using other, behind⟩

def Part.Opens (ts : List Token) : Part → Prop
  | .expression e => ts ≠ [] ∧ Unassigned ts ∧
      (e.Shaped → ¬ e.IsTail → front ts = some .identifier)
  | .arguments _ => True
  | .function _ => front ts = some (.keyword .functionWord) ∧ Unassigned ts
  | .block _ => front ts = some (.punct .braceLeft) ∧ Unassigned ts
  | .statements _ => front ts ≠ some (.punct .assign)
  | .declarators _ => front ts ≠ some (.punct .assign)
  | .vars d => front ts = some (.keyword (variableWord d.kind)) ∧ Unassigned ts
  | .unterminated s => ts ≠ [] ∧ Unassigned ts ∧
      (s.Shaped → ∃ kind ∈ leads, front ts = some kind)
  | .statement s => ts ≠ [] ∧ Unassigned ts ∧
      (s.Shaped → ∃ kind ∈ leads, front ts = some kind)

theorem frontFilled {ts : List Token} {kind : Kind} (found : front ts = some kind) : ts ≠ [] := by
  obtain ⟨t, more, rfl, _⟩ := frontSome found
  exact List.cons_ne_nil t more

theorem wordOpens {s word ts lead} (kind : word.kind = .keyword lead)
    (listed : .keyword lead ∈ leads) (next : front ts ≠ some (.punct .assign)) :
    Part.Opens (word :: ts) (.unterminated s) := by
  refine ⟨List.cons_ne_nil _ _, unassignedCons kind (by simp) next, ?_⟩
  intro _
  exact ⟨.keyword lead, listed, by simp [kind]⟩

theorem importsOpen {d ts} (writes : WritesImports d ts) :
    front ts = some (.keyword .importWord) ∧ Unassigned ts := by
  cases writes with
  | @clause span first others source word a b origin t kind default other ending string quoted =>
    have source : front (origin.toList ++ [t]) ≠ some (.punct .assign) := by
      cases origin with
      | none => simp [string]
      | some from' => simp [ending from' rfl]
    have others : front (b ++ (origin.toList ++ [t])) ≠ some (.punct .assign) := by
      cases other with
      | absent => exact source
      | braces opens => simp [opens]
      | star everything => simp [everything]
    refine ⟨by simp [kind], unassignedCons kind (by simp) ?_⟩
    cases default with
    | absent => exact others
    | present spelled => simp [spelled.1]

theorem Writes.opens {part ts} (writes : Writes part ts) : part.Opens ts := by
  induction writes with
  | identifier spelled =>
    refine ⟨List.cons_ne_nil _ _, unassignedCons spelled.1 (by simp) (by simp), ?_⟩
    intro _ _
    simp [spelled.1]
  | literal kind quoted =>
    refine ⟨List.cons_ne_nil _ _, ?_, fun _ head => absurd trivial head⟩
    rcases kind with kind | kind
    · exact unassignedCons kind (by simp) (by simp)
    · exact unassignedCons kind (by simp) (by simp)
  | functionValue value ih =>
    exact ⟨frontFilled ih.1, ih.2, fun _ head => absurd trivial head⟩
  | member value dotted spelled ih =>
    obtain ⟨filled, unassigned, begins⟩ := ih
    refine ⟨by simp, unassignedAppend filled unassigned (by simp [dotted]), ?_⟩
    intro shaped _
    rw [frontAppend filled]
    exact begins shaped.2.1 (Expression.extendableHead shaped.1)
  | call value opens arguments closes ending ih inside =>
    obtain ⟨filled, unassigned, begins⟩ := ih
    refine ⟨by simp, unassignedAppend filled unassigned (by simp [opens]), ?_⟩
    intro shaped _
    rw [frontAppend filled]
    exact begins shaped.2.1 (Expression.extendableHead shaped.1)
  | binary first kind second ih inside =>
    obtain ⟨filled, unassigned, begins⟩ := ih
    refine ⟨by simp, unassignedAppend filled unassigned (by simp [kind]), ?_⟩
    intro shaped _
    rw [frontAppend filled]
    exact begins shaped.2.1 (Expression.extendableHead shaped.1)
  | noArguments => trivial
  | lastArgument => trivial
  | argument => trivial
  | @function span name params b word id opening names closing body kind named opens =>
    refine ⟨by simp [kind], unassignedCons kind (by simp) ?_⟩
    cases named with
    | none => simp [opens]
    | some spelled => simp [spelled.1]
  | block opens statements closes ih =>
    refine ⟨by simp [opens], unassignedCons opens (by simp) ?_⟩
    rename_i inner _
    cases inner with
    | nil => simp [closes]
    | cons t more => exact ih
  | noStatements => simp [Part.Opens]
  | statements first behind ih =>
    have begins : front _ ≠ _ := ih.2.1.1
    rw [← frontAppend ih.1] at begins
    exact begins
  | @ended semicolon ending =>
    cases semicolon with
    | none => simp [Part.Opens]
    | some t => simp [Part.Opens, ending t rfl]
  | declarator spelled => simp [Part.Opens, spelled.1]
  | vars kind declared ih => exact ⟨by simp [kind], unassignedCons kind (by simp) ih⟩
  | functionStatement value ih =>
    exact ⟨frontFilled ih.1, ih.2, fun _ => ⟨_, by decide, ih.1⟩⟩
  | expressionStatement value ih =>
    exact ⟨ih.1, ih.2.1, fun shaped => ⟨_, by decide, ih.2.2 shaped.2 shaped.1⟩⟩
  | blockStatement value ih => exact ⟨frontFilled ih.1, ih.2, fun _ => ⟨_, by decide, ih.1⟩⟩
  | returns kind value ih => exact wordOpens kind (by decide) ih.2.1.1
  | @variableStatement d ts value ih =>
    refine ⟨frontFilled ih.1, ih.2, fun _ => ⟨_, ?_, ih.1⟩⟩
    cases d.kind <;> decide
  | imports clause =>
    obtain ⟨begins, unassigned⟩ := importsOpen clause
    exact ⟨frontFilled begins, unassigned, fun _ => ⟨_, by decide, begins⟩⟩
  | exportedValue kind only => exact wordOpens kind (by decide) (by simp [only])
  | exportedDefault kind only => exact wordOpens kind (by decide) (by simp [only])
  | exportedVariables kind value ih => exact wordOpens kind (by decide) ih.2.1
  | exportedFunction kind value ih => exact wordOpens kind (by decide) ih.2.1
  | exportedNames kind opens => exact wordOpens kind (by decide) (by simp [opens])
  | exportedModule kind everything => exact wordOpens kind (by decide) (by simp [everything])
  | @statement s ts semicolon body ending ih =>
    obtain ⟨filled, unassigned, begins⟩ := ih
    refine ⟨by simp [filled], unassignedAppend filled unassigned ?_, ?_⟩
    · cases semicolon with
      | none => simp
      | some t => simp [ending t rfl]
    · intro shaped
      rw [frontAppend filled]
      exact begins shaped

end ScriptTree.Grammar

namespace ScriptTree

def Program.RenderedBy (p : Program) (tokens : List Token) : Prop :=
  Grammar.Writes (.statements p.body) tokens

def Program.erased (p : Program) : Program :=
  ⟨0, none, Relabeling.placeless.statements p.body⟩

end ScriptTree
