import Mathlib.Data.List.Forall2
import Mathlib.Data.List.Nodup
import ScriptTree.Proofs.Scan
import ScriptTree.Tree.Wire
/-! What the wire form keeps. The field `type` tells the sort of every node, so that a tree can be
told from any other by it. A token's kind does not tell operators apart, but their texts do. -/
namespace ScriptTree

namespace Wire

/-- The same value, whatever the order of the fields: records have the same names, and the same
under each of them. -/
inductive Same : Wire → Wire → Prop where
  | null : Same .null .null
  | flag {flag} : Same (.flag flag) (.flag flag)
  | number {number} : Same (.number number) (.number number)
  | text {text} : Same (.text text) (.text text)
  | list {items others} (each : List.Forall₂ Same items others) :
      Same (.list items) (.list others)
  | record {fields others}
      (names : ∀ name, (fields.lookup name).isSome = (others.lookup name).isSome)
      (values : ∀ {name v w}, fields.lookup name = some v → others.lookup name = some w →
        Same v w) : Same (.record fields) (.record others)

theorem Same.refl : (w : Wire) → Same w w
  | .null => .null
  | .flag _ => .flag
  | .number _ => .number
  | .text _ => .text
  | .list items => .list (List.forall₂_same.mpr fun item _ => Same.refl item)
  | .record fields => by
    refine .record (fun _ => rfl) ?_
    intro name v w here there
    cases Option.some.inj (here.symm.trans there)
    obtain ⟨before, behind, split, _⟩ := List.lookup_eq_some_iff.mp here
    have inside : (name, v) ∈ fields := by simp [split]
    exact Same.refl v
termination_by w => sizeOf w
decreasing_by
  · have smaller := List.sizeOf_lt_of_mem ‹_›
    simp only [list.sizeOf_spec]
    omega
  · have smaller := List.sizeOf_lt_of_mem inside
    simp only [record.sizeOf_spec, Prod.mk.sizeOf_spec] at smaller ⊢
    omega

theorem lookupPermuted {fields others : List (String × Wire)} (permuted : fields.Perm others)
    (apart : (fields.map Prod.fst).Nodup) (name : String) :
    others.lookup name = fields.lookup name := by
  induction permuted with
  | nil => rfl
  | cons field _ ih => rw [List.lookup_cons, List.lookup_cons, ih (List.nodup_cons.mp apart).2]
  | swap first second fields =>
    obtain ⟨one, v⟩ := first
    obtain ⟨two, w⟩ := second
    have other : two ≠ one := by
      rw [List.map_cons, List.map_cons, List.nodup_cons, List.mem_cons, not_or] at apart
      exact apart.1.1
    simp only [List.lookup_cons]
    by_cases here : name = one
    · subst here
      simp [beq_eq_false_iff_ne.mpr other.symm]
    · simp [beq_eq_false_iff_ne.mpr here]
  | trans first second ih more =>
    rw [more ((first.map Prod.fst).nodup_iff.mp apart), ih apart]

theorem samePermuted {fields others : List (String × Wire)} (permuted : fields.Perm others)
    (apart : (fields.map Prod.fst).Nodup) : Same (.record fields) (.record others) := by
  have same := lookupPermuted permuted apart
  refine .record (fun name => by rw [same]) ?_
  intro name v w here there
  rw [same, here] at there
  cases there
  exact .refl v

example : Same (.record [("start", .number 1), ("end", .null)])
    (.record [("end", .null), ("start", .number 1)]) :=
  samePermuted (.swap ..) (by decide)

variable {kind kind' : NodeKind} {span span' : Span} {fields others : List (String × Wire)}

theorem Same.under {v w} (same : Same (.record fields) (.record others)) (name : String)
    (here : fields.lookup name = some v) (there : others.lookup name = some w) : Same v w := by
  cases same with
  | record names values => exact values here there

theorem Same.names (same : Same (.record fields) (.record others)) (name : String) :
    (fields.lookup name).isSome = (others.lookup name).isSome := by
  cases same with
  | record names values => exact names name

theorem Same.texts {a b} (same : Same (.text a) (.text b)) : a = b := by
  cases same
  rfl

theorem Same.numbers {a b} (same : Same (.number a) (.number b)) : a = b := by
  cases same
  rfl

theorem Same.flags {a b} (same : Same (.flag a) (.flag b)) : a = b := by
  cases same
  rfl

theorem Same.lists {items others} (same : Same (.list items) (.list others)) :
    List.Forall₂ Same items others := by
  cases same with
  | list each => exact each

end Wire

namespace NodeKind

def all : List NodeKind :=
  [program, identifier, literal, variableDeclaration, variableDeclarator, functionDeclaration,
    functionExpression, blockStatement, returnStatement, expressionStatement, memberExpression,
    callExpression, binaryExpression, importDeclaration, importDefaultSpecifier, importSpecifier,
    importNamespaceSpecifier, exportNamedDeclaration, exportDefaultDeclaration,
    exportAllDeclaration, exportSpecifier]

theorem listed (kind : NodeKind) : kind ∈ all := by cases kind <;> decide

theorem distinct {a b : NodeKind} (same : a.name = b.name) : a = b := by
  have apart : (all.map name).Nodup := by decide
  exact List.inj_on_of_nodup_map apart a.listed b.listed same

end NodeKind

section Nodes
open Wire
variable {kind kind' : NodeKind} {span span' : Span} {fields others : List (String × Wire)}

theorem nodeKinds (same : (node kind span fields).Same (node kind' span' others)) :
    kind = kind' :=
  NodeKind.distinct (same.under "type" rfl rfl).texts

theorem nodeSpans (same : (node kind span fields).Same (node kind' span' others)) :
    span = span' := by
  obtain ⟨start, stop⟩ := span
  obtain ⟨start', stop'⟩ := span'
  have starts : start = start' := (same.under "start" rfl rfl).numbers
  have stops : stop = stop' := (same.under "end" rfl rfl).numbers
  rw [starts, stops]

/-- Null is no node, so an absent part can be told from any that is there. -/
theorem nullApart {w : Wire} (written : ∃ fields, w = .node kind span fields) :
    ¬ Wire.null.Same w ∧ ¬ w.Same Wire.null := by
  obtain ⟨fields, rfl⟩ := written
  constructor
  · intro same
    cases same
  · intro same
    cases same

theorem optionalKept {form : α → Wire} {place : α → Span} {o o' : Option α}
    (written : ∀ a, ∃ fields, form a = .node kind (place a) fields)
    (kept : ∀ {a a'}, (form a).Same (form a') → a = a')
    (same : (Wire.optional form o).Same (Wire.optional form o')) : o = o' := by
  cases o with
  | none =>
    cases o' with
    | none => rfl
    | some a' => exact absurd same (nullApart (written a')).1
  | some a =>
    cases o' with
    | none => exact absurd same (nullApart (written a)).2
    | some a' => exact congrArg some (kept same)

theorem listKept {form : α → Wire} {as bs : List α}
    (kept : ∀ {a b}, (form a).Same (form b) → a = b)
    (same : Same (.list (as.map form)) (.list (bs.map form))) : as = bs := by
  have each := same.lists
  rw [List.forall₂_map_left_iff, List.forall₂_map_right_iff] at each
  exact List.forall₂_eq_eq_eq ▸ each.imp fun _ _ => kept

end Nodes

theorem identifierWire (id : Identifier) :
    ∃ fields, id.wire = .node .identifier id.span fields := ⟨_, rfl⟩

theorem literalWire (lit : Literal) : ∃ fields, lit.wire = .node .literal lit.span fields :=
  ⟨_, rfl⟩

theorem identifierKept {id id' : Identifier} (same : id.wire.Same id'.wire) : id = id' := by
  obtain ⟨span, name⟩ := id
  obtain ⟨span', name'⟩ := id'
  have spans : span = span' := nodeSpans same
  have names : name = name' := (same.under "name" rfl rfl).texts
  rw [spans, names]

theorem literalKept {lit lit' : Literal} (same : lit.wire.Same lit'.wire) : lit = lit' := by
  obtain ⟨span, value, raw⟩ := lit
  obtain ⟨span', value', raw'⟩ := lit'
  have spans : span = span' := nodeSpans same
  have values : value = value' := (same.under "value" rfl rfl).texts
  have raws : raw = raw' := (same.under "raw" rfl rfl).texts
  rw [spans, values, raws]

theorem importSpecifierKept {s s' : ImportSpecifier} (same : s.wire.Same s'.wire) : s = s' := by
  cases s with
  | byDefault span binding =>
    cases s' with
    | byDefault span' binding' =>
      have spans : span = span' := nodeSpans same
      have bindings : binding = binding' := identifierKept (same.under "local" rfl rfl)
      rw [spans, bindings]
    | _ => exact absurd (nodeKinds same) (by decide)
  | named span imported binding =>
    cases s' with
    | named span' imported' binding' =>
      have spans : span = span' := nodeSpans same
      have names : imported = imported' := identifierKept (same.under "imported" rfl rfl)
      have bindings : binding = binding' := identifierKept (same.under "local" rfl rfl)
      rw [spans, names, bindings]
    | _ => exact absurd (nodeKinds same) (by decide)
  | wholeModule span binding =>
    cases s' with
    | wholeModule span' binding' =>
      have spans : span = span' := nodeSpans same
      have bindings : binding = binding' := identifierKept (same.under "local" rfl rfl)
      rw [spans, bindings]
    | _ => exact absurd (nodeKinds same) (by decide)

theorem exportSpecifierKept {s s' : ExportSpecifier} (same : s.wire.Same s'.wire) : s = s' := by
  obtain ⟨span, binding, exported⟩ := s
  obtain ⟨span', binding', exported'⟩ := s'
  have spans : span = span' := nodeSpans same
  have bindings : binding = binding' := identifierKept (same.under "local" rfl rfl)
  have names : exported = exported' := identifierKept (same.under "exported" rfl rfl)
  rw [spans, bindings, names]

theorem importsKept {d d' : ImportDeclaration} (same : d.wire.Same d'.wire) : d = d' := by
  obtain ⟨span, specifiers, source⟩ := d
  obtain ⟨span', specifiers', source'⟩ := d'
  have spans : span = span' := nodeSpans same
  have lists : specifiers = specifiers' :=
    listKept importSpecifierKept (same.under "specifiers" rfl rfl)
  have sources : source = source' := literalKept (same.under "source" rfl rfl)
  rw [spans, lists, sources]

theorem exportAllKept {d d' : ExportAll} (same : d.wire.Same d'.wire) : d = d' := by
  obtain ⟨span, exported, source⟩ := d
  obtain ⟨span', exported', source'⟩ := d'
  have spans : span = span' := nodeSpans same
  have names : exported = exported' :=
    optionalKept identifierWire identifierKept (same.under "exported" rfl rfl)
  have sources : source = source' := literalKept (same.under "source" rfl rfl)
  rw [spans, names, sources]

def Declaration.nodeKind : Declaration → NodeKind
  | .vars _ => .variableDeclaration
  | .function _ => .functionDeclaration

def Statement.nodeKind : Statement → NodeKind
  | .vars _ => .variableDeclaration
  | .function _ => .functionDeclaration
  | .block _ => .blockStatement
  | .returns _ _ => .returnStatement
  | .expression _ _ => .expressionStatement
  | .imports _ => .importDeclaration
  | .exportNamed _ _ _ _ => .exportNamedDeclaration
  | .exportDefault _ _ => .exportDefaultDeclaration
  | .exportAll _ => .exportAllDeclaration

theorem functionWire (kind : NodeKind) (f : FunctionDef) :
    ∃ fields, f.wire kind = .node kind f.span fields := by
  obtain ⟨span, name, params, body⟩ := f
  exact ⟨_, rfl⟩

theorem variablesWire (d : VariableDeclaration) :
    ∃ fields, d.wire = .node .variableDeclaration d.span fields := by
  obtain ⟨span, kind, ds⟩ := d
  exact ⟨_, rfl⟩

theorem expressionWire (e : Expression) : ∃ fields, e.wire = .node e.nodeKind e.span fields := by
  cases e with
  | function f => exact functionWire .functionExpression f
  | _ => exact ⟨_, rfl⟩

theorem declarationWire (d : Declaration) :
    ∃ fields, d.wire = .node d.nodeKind d.span fields := by
  cases d with
  | vars d => exact variablesWire d
  | function f => exact functionWire .functionDeclaration f

theorem defaultWire (d : DefaultDeclaration) :
    ∃ fields, d.wire = .node d.nodeKind d.span fields := by
  cases d with
  | expression e => exact expressionWire e
  | function f => exact functionWire .functionDeclaration f

theorem statementWire (s : Statement) : ∃ fields, s.wire = .node s.nodeKind s.span fields := by
  cases s with
  | vars d => exact variablesWire d
  | function f => exact functionWire .functionDeclaration f
  | block b =>
    obtain ⟨span, body⟩ := b
    exact ⟨_, rfl⟩
  | exportNamed span d => cases d <;> exact ⟨_, rfl⟩
  | _ => exact ⟨_, rfl⟩

theorem sortKept {a b : Wire} {kind kind' : NodeKind} {span span' : Span}
    (first : ∃ fields, a = .node kind span fields) (second : ∃ fields, b = .node kind' span' fields)
    (same : a.Same b) : kind = kind' := by
  obtain ⟨fields, rfl⟩ := first
  obtain ⟨others, rfl⟩ := second
  exact nodeKinds same

theorem variableKindKept {kind kind' : VariableKind} (same : kind.lexeme = kind'.lexeme) :
    kind = kind' := by
  cases kind <;> cases kind' <;> first | rfl | exact absurd same (by decide)

mutual

theorem expressionKept {e e' : Expression} (same : e.wire.Same e'.wire) : e = e' := by
  have kinds : e.nodeKind = e'.nodeKind := sortKept (expressionWire e) (expressionWire e') same
  cases e with
  | identifier id =>
    cases e' with
    | identifier id' => exact congrArg _ (identifierKept same)
    | _ => contradiction
  | literal lit =>
    cases e' with
    | literal lit' => exact congrArg _ (literalKept same)
    | _ => contradiction
  | function f =>
    cases e' with
    | function f' => exact congrArg _ (functionKept same)
    | _ => contradiction
  | member span object property computed =>
    cases e' with
    | member span' object' property' computed' =>
      have spans : span = span' := nodeSpans same
      have objects : object = object' := expressionKept (same.under "object" rfl rfl)
      have names : property = property' := identifierKept (same.under "property" rfl rfl)
      have flags : computed = computed' := (same.under "computed" rfl rfl).flags
      rw [spans, objects, names, flags]
    | _ => contradiction
  | call span callee arguments =>
    cases e' with
    | call span' callee' arguments' =>
      have spans : span = span' := nodeSpans same
      have callees : callee = callee' := expressionKept (same.under "callee" rfl rfl)
      have lists : arguments = arguments' := expressionsKept (same.under "arguments" rfl rfl)
      rw [spans, callees, lists]
    | _ => contradiction
  | binary span op left right =>
    cases e' with
    | binary span' op' left' right' =>
      have spans : span = span' := nodeSpans same
      have operators : op = op' := Operator.distinct (same.under "operator" rfl rfl).texts
      have lefts : left = left' := expressionKept (same.under "left" rfl rfl)
      have rights : right = right' := expressionKept (same.under "right" rfl rfl)
      rw [spans, operators, lefts, rights]
    | _ => contradiction
termination_by structural e

theorem expressionsKept {es es' : List Expression}
    (same : Wire.Same (.list (Expression.wires es)) (.list (Expression.wires es'))) :
    es = es' := by
  have each := same.lists
  cases es with
  | nil =>
    cases es' with
    | nil => rfl
    | cons => cases each
  | cons e others =>
    cases es' with
    | nil => cases each
    | cons e' others' =>
      obtain ⟨first, more⟩ := List.forall₂_cons.mp each
      rw [expressionKept first, expressionsKept (.list more)]
termination_by structural es

theorem functionKept {kind : NodeKind} {f f' : FunctionDef}
    (same : (f.wire kind).Same (f'.wire kind)) : f = f' := by
  obtain ⟨span, name, params, body⟩ := f
  obtain ⟨span', name', params', body'⟩ := f'
  have spans : span = span' := nodeSpans same
  have names : name = name' :=
    optionalKept identifierWire identifierKept (same.under "id" rfl rfl)
  have lists : params = params' := listKept identifierKept (same.under "params" rfl rfl)
  have bodies : body = body' := blockKept (same.under "body" rfl rfl)
  rw [spans, names, lists, bodies]
termination_by structural f

theorem blockKept {b b' : Block} (same : b.wire.Same b'.wire) : b = b' := by
  obtain ⟨span, body⟩ := b
  obtain ⟨span', body'⟩ := b'
  have spans : span = span' := nodeSpans same
  have bodies : body = body' := statementsKept (same.under "body" rfl rfl)
  rw [spans, bodies]
termination_by structural b

theorem declaratorKept {d d' : Declarator} (same : d.wire.Same d'.wire) : d = d' := by
  obtain ⟨span, id, init⟩ := d
  obtain ⟨span', id', init'⟩ := d'
  cases init with
  | none =>
    cases init' with
    | none =>
      have spans : span = span' := nodeSpans same
      have names : id = id' := identifierKept (same.under "id" rfl rfl)
      rw [spans, names]
    | some init' =>
      exact absurd (same.under "init" rfl rfl) (nullApart (expressionWire init')).1
  | some init =>
    cases init' with
    | none => exact absurd (same.under "init" rfl rfl) (nullApart (expressionWire init)).2
    | some init' =>
      have spans : span = span' := nodeSpans same
      have names : id = id' := identifierKept (same.under "id" rfl rfl)
      have values : init = init' := expressionKept (same.under "init" rfl rfl)
      rw [spans, names, values]
termination_by structural d

theorem declaratorsKept {ds ds' : List Declarator}
    (same : Wire.Same (.list (Declarator.wires ds)) (.list (Declarator.wires ds'))) :
    ds = ds' := by
  have each := same.lists
  cases ds with
  | nil =>
    cases ds' with
    | nil => rfl
    | cons => cases each
  | cons d others =>
    cases ds' with
    | nil => cases each
    | cons d' others' =>
      obtain ⟨first, more⟩ := List.forall₂_cons.mp each
      rw [declaratorKept first, declaratorsKept (.list more)]
termination_by structural ds

theorem variablesKept {d d' : VariableDeclaration} (same : d.wire.Same d'.wire) : d = d' := by
  obtain ⟨span, kind, ds⟩ := d
  obtain ⟨span', kind', ds'⟩ := d'
  have spans : span = span' := nodeSpans same
  have kinds : kind = kind' := variableKindKept (same.under "kind" rfl rfl).texts
  have lists : ds = ds' := declaratorsKept (same.under "declarations" rfl rfl)
  rw [spans, kinds, lists]
termination_by structural d

theorem declarationKept {d d' : Declaration} (same : d.wire.Same d'.wire) : d = d' := by
  have kinds : d.nodeKind = d'.nodeKind := sortKept (declarationWire d) (declarationWire d') same
  cases d with
  | vars d =>
    cases d' with
    | vars d' => exact congrArg _ (variablesKept same)
    | _ => contradiction
  | function f =>
    cases d' with
    | function f' => exact congrArg _ (functionKept same)
    | _ => contradiction
termination_by structural d

/- A function given by default is written as a declaration, one that is a value as an expression. -/
theorem defaultKept {d d' : DefaultDeclaration} (same : d.wire.Same d'.wire) : d = d' := by
  have kinds : d.nodeKind = d'.nodeKind := sortKept (defaultWire d) (defaultWire d') same
  cases d with
  | expression e =>
    cases d' with
    | expression e' => exact congrArg _ (expressionKept same)
    | function => cases e <;> contradiction
  | function f =>
    cases d' with
    | expression e' => cases e' <;> contradiction
    | function f' => exact congrArg _ (functionKept same)
termination_by structural d

theorem statementKept {s s' : Statement} (same : s.wire.Same s'.wire) : s = s' := by
  have kinds : s.nodeKind = s'.nodeKind := sortKept (statementWire s) (statementWire s') same
  cases s with
  | vars d =>
    cases s' with
    | vars d' => exact congrArg _ (variablesKept same)
    | _ => contradiction
  | function f =>
    cases s' with
    | function f' => exact congrArg _ (functionKept same)
    | _ => contradiction
  | block b =>
    cases s' with
    | block b' => exact congrArg _ (blockKept same)
    | _ => contradiction
  | returns span argument =>
    cases s' with
    | returns span' argument' =>
      have spans : span = span' := nodeSpans same
      have values : argument = argument' := expressionKept (same.under "argument" rfl rfl)
      rw [spans, values]
    | _ => contradiction
  | expression span e =>
    cases s' with
    | expression span' e' =>
      have spans : span = span' := nodeSpans same
      have values : e = e' := expressionKept (same.under "expression" rfl rfl)
      rw [spans, values]
    | _ => contradiction
  | imports d =>
    cases s' with
    | imports d' => exact congrArg _ (importsKept same)
    | _ => contradiction
  | exportNamed span d specifiers source =>
    cases s' with
    | exportNamed span' d' specifiers' source' =>
      cases d with
      | none =>
        cases d' with
        | none =>
          have spans : span = span' := nodeSpans same
          have lists : specifiers = specifiers' :=
            listKept exportSpecifierKept (same.under "specifiers" rfl rfl)
          have sources : source = source' :=
            optionalKept literalWire literalKept (same.under "source" rfl rfl)
          rw [spans, lists, sources]
        | some d' =>
          exact absurd (same.under "declaration" rfl rfl) (nullApart (declarationWire d')).1
      | some d =>
        cases d' with
        | none =>
          exact absurd (same.under "declaration" rfl rfl) (nullApart (declarationWire d)).2
        | some d' =>
          have spans : span = span' := nodeSpans same
          have declared : d = d' := declarationKept (same.under "declaration" rfl rfl)
          have lists : specifiers = specifiers' :=
            listKept exportSpecifierKept (same.under "specifiers" rfl rfl)
          have sources : source = source' :=
            optionalKept literalWire literalKept (same.under "source" rfl rfl)
          rw [spans, declared, lists, sources]
    | _ => contradiction
  | exportDefault span d =>
    cases s' with
    | exportDefault span' d' =>
      have spans : span = span' := nodeSpans same
      have declared : d = d' := defaultKept (same.under "declaration" rfl rfl)
      rw [spans, declared]
    | _ => contradiction
  | exportAll d =>
    cases s' with
    | exportAll d' => exact congrArg _ (exportAllKept same)
    | _ => contradiction
termination_by structural s

theorem statementsKept {body body' : List Statement}
    (same : Wire.Same (.list (Statement.wires body)) (.list (Statement.wires body'))) :
    body = body' := by
  have each := same.lists
  cases body with
  | nil =>
    cases body' with
    | nil => rfl
    | cons => cases each
  | cons s others =>
    cases body' with
    | nil => cases each
    | cons s' others' =>
      obtain ⟨first, more⟩ := List.forall₂_cons.mp each
      rw [statementKept first, statementsKept (.list more)]
termination_by structural body

end

theorem stopKept {stop stop' : Option Nat}
    (same : (Wire.optional Wire.number stop).Same (Wire.optional Wire.number stop')) :
    stop = stop' := by
  cases stop <;> cases stop' <;> cases same <;> rfl

theorem programKept {p q : Program} (same : p.wire.Same q.wire) : p = q := by
  obtain ⟨start, stop, body⟩ := p
  obtain ⟨start', stop', body'⟩ := q
  have starts : start = start' := (same.under "start" rfl rfl).numbers
  have stops : stop = stop' := stopKept (same.under "end" rfl rfl)
  have bodies : body = body' := statementsKept (same.under "body" rfl rfl)
  rw [starts, stops, bodies]

def Kind.named : List Kind :=
  Keyword.all.map .keyword ++ Punct.all.map .punct ++ [.identifier, .number, .string]

theorem kindNamed (kind : Kind) : kind ∈ Kind.named ∨ ∃ op, kind = .operator op := by
  cases kind with
  | keyword word => cases word <;> exact .inl (by decide)
  | punct mark => cases mark <;> exact .inl (by decide)
  | operator op => exact .inr ⟨op, rfl⟩
  | _ => exact .inl (by decide)

theorem kindTold {kind kind' : Kind} (same : kind.name = kind'.name) :
    kind = kind' ∨ ∃ op op', kind = .operator op ∧ kind' = .operator op' := by
  have apart : (Kind.named.map Kind.name).Nodup := by decide
  have other : "Operator" ∉ Kind.named.map Kind.name := by decide
  rcases kindNamed kind with named | ⟨op, rfl⟩
  · rcases kindNamed kind' with named' | ⟨op', rfl⟩
    · exact .inl (List.inj_on_of_nodup_map apart named named' same)
    · have shared : kind.name = "Operator" := same
      exact absurd (shared ▸ List.mem_map_of_mem named) other
  · rcases kindNamed kind' with named' | ⟨op', rfl⟩
    · have shared : kind'.name = "Operator" := same.symm
      exact absurd (shared ▸ List.mem_map_of_mem named') other
    · exact .inr ⟨op, op', rfl, rfl⟩

def Token.Spelled (t : Token) : Prop := ∀ op, t.kind = .operator op → t.text = op.lexeme

theorem tokenizedSpelled {text : String} {tokens} (ok : Text.tokenize text = .ok tokens) :
    ∀ t ∈ tokens, t.Spelled := by
  intro t mem op kind
  obtain ⟨earlier, later, split⟩ := List.append_of_mem mem
  obtain ⟨before, behind, _, classed⟩ := (Text.scanLexed (Text.piecesScan ok)).classed split
  rw [kind] at classed
  generalize letters : t.text.toList = cs at classed
  generalize t.raw.map String.toList = raw at classed
  have whole : t.text = String.ofList cs := by rw [← letters, String.ofList_toList]
  cases classed with
  | operator spelled => rw [whole, spelled]
  | product => exact whole

theorem tokenKept {t u : Token} (spelled : t.Spelled) (alike : u.Spelled)
    (same : t.wire.Same u.wire) : t = u := by
  obtain ⟨kind, text, ⟨start, stop⟩, raw⟩ := t
  obtain ⟨kind', text', ⟨start', stop'⟩, raw'⟩ := u
  have names : kind.name = kind'.name := (same.under "kind" rfl rfl).texts
  have texts : text = text' := (same.under "text" rfl rfl).texts
  have starts : start = start' := (same.under "start" rfl rfl).numbers
  have stops : stop = stop' := (same.under "end" rfl rfl).numbers
  have kinds : kind = kind' := by
    rcases kindTold names with told | ⟨op, op', rfl, rfl⟩
    · exact told
    · have lexemes : op.lexeme = op'.lexeme :=
        (spelled op rfl).symm.trans (texts.trans (alike op' rfl))
      rw [Operator.distinct lexemes]
  have raws : raw = raw' := by
    cases raw with
    | none =>
      cases raw' with
      | none => rfl
      | some raw' =>
        have apart : false = true := same.names "rawText"
        contradiction
    | some raw =>
      cases raw' with
      | none =>
        have apart : true = false := same.names "rawText"
        contradiction
      | some raw' => rw [(same.under "rawText" rfl rfl).texts]
  rw [kinds, texts, starts, stops, raws]

theorem tokensKept {ts us : List Token} (spelled : ∀ t ∈ ts, t.Spelled)
    (alike : ∀ u ∈ us, u.Spelled)
    (same : Wire.Same (.list (ts.map Token.wire)) (.list (us.map Token.wire))) : ts = us := by
  have each := same.lists
  rw [List.forall₂_map_left_iff, List.forall₂_map_right_iff] at each
  clear same
  induction each with
  | nil => rfl
  | cons first _ ih =>
    obtain ⟨here, others⟩ := List.forall_mem_cons.mp spelled
    obtain ⟨there, others'⟩ := List.forall_mem_cons.mp alike
    rw [tokenKept here there first, ih others others']

theorem wireKept : (∀ {p q : Program}, p.wire.Same q.wire ↔ p = q) ∧
    ∀ {text other : String} {a b}, Text.tokenize text = .ok a → Text.tokenize other = .ok b →
      (Wire.Same (.list (a.map Token.wire)) (.list (b.map Token.wire)) ↔ a = b) := by
  constructor
  · intro p q
    refine ⟨programKept, ?_⟩
    rintro rfl
    exact .refl _
  · intro text other a b first second
    refine ⟨tokensKept (tokenizedSpelled first) (tokenizedSpelled second), ?_⟩
    rintro rfl
    exact .refl _

def givenFunction (given : FunctionDef → DefaultDeclaration) : Program :=
  ⟨0, some 29, [.exportDefault ⟨0, 29⟩ (given ⟨⟨15, 29⟩, none, [], ⟨⟨27, 29⟩, []⟩⟩)]⟩

def shiftedTokens (op : Operator) : List Token :=
  [.plain .identifier "x" 0, .plain (.operator op) op.lexeme 2, .plain .identifier "y" 5]

theorem shiftsToldApart :
    ¬ (givenFunction .function).wire.Same (givenFunction (.expression ∘ .function)).wire ∧
    Text.tokenize "x << y" = .ok (shiftedTokens .shl) ∧
    Text.tokenize "x >> y" = .ok (shiftedTokens .shr) ∧
    (shiftedTokens .shl).map (·.kind.name) = (shiftedTokens .shr).map (·.kind.name) ∧
    ¬ Wire.Same (.list ((shiftedTokens .shl).map Token.wire))
      (.list ((shiftedTokens .shr).map Token.wire)) := by
  constructor
  · intro same
    cases wireKept.1.mp same
  · have left : Text.tokenize "x << y" = .ok (shiftedTokens .shl) := by cbv
    have right : Text.tokenize "x >> y" = .ok (shiftedTokens .shr) := by cbv
    refine ⟨left, right, rfl, ?_⟩
    intro same
    exact absurd ((wireKept.2 left right).mp same) (by decide)

end ScriptTree
