import ScriptTree.Grammar.Statement
/-! What a production that succeeds has read: a value, the tokens it took for it, and the tokens
behind these, of which it may have seen two. For every way to put productions together there is
a way to put readings together, and the two agree in both directions. -/
namespace ScriptTree.Grammar

def front (tokens : List Token) : Option Kind := tokens.head?.map Token.kind

@[simp] theorem frontNil : front [] = none := rfl

@[simp] theorem frontCons (t : Token) (rest : List Token) : front (t :: rest) = some t.kind := rfl

theorem frontAppend {tokens : List Token} (filled : tokens ≠ []) (rest : List Token) :
    front (tokens ++ rest) = front tokens := by
  cases tokens with
  | nil => contradiction
  | cons t more => rfl

theorem frontSome {tokens : List Token} {kind : Kind} (found : front tokens = some kind) :
    ∃ t rest, tokens = t :: rest ∧ t.kind = kind := by
  cases tokens with
  | nil => contradiction
  | cons t rest => exact ⟨t, rest, rfl, Option.some.inj found⟩

abbrev Reading (α : Type) := α → List Token → List Token → Prop

def Reads (production : Production α) (reading : Reading α) : Prop :=
  ∀ {tokens value rest}, production tokens = .done value rest →
    ∃ taken, tokens = taken ++ rest ∧ reading value taken rest

theorem bindDone {first : Production α} {next : α → Production β} {tokens value rest} :
    (first >>= next) tokens = .done value rest ↔
      ∃ middle between, first tokens = .done middle between ∧
        next middle between = .done value rest := by
  rw [Production.bindApply]
  cases first tokens with
  | done middle between =>
    constructor
    · intro ok
      exact ⟨middle, between, rfl, ok⟩
    · rintro ⟨_, _, same, ok⟩
      cases same
      exact ok
  | failed expected between => simp

theorem oneOfDone {kinds t tokens rest} :
    oneOf kinds tokens = .done t rest ↔ tokens = t :: rest ∧ t.kind ∈ kinds := by
  constructor
  · intro ok
    cases tokens with
    | nil => contradiction
    | cons u more =>
      simp only [oneOf] at ok
      split at ok
      · rename_i listed
        cases ok
        exact ⟨rfl, listed⟩
      · contradiction
  · intro read
    obtain ⟨rfl, listed⟩ := read
    exact if_pos listed

theorem expectDone {kind t tokens rest} :
    expect kind tokens = .done t rest ↔ tokens = t :: rest ∧ t.kind = kind := by
  simp [expect, oneOfDone]

def Accepted (kind : Kind) (rest : List Token) : Option Token → Prop
  | some t => t.kind = kind
  | none => front rest ≠ some kind

theorem acceptDone {kind taken tokens rest} :
    accept kind tokens = .done taken rest ↔
      tokens = taken.toList ++ rest ∧ Accepted kind rest taken := by
  constructor
  · intro ok
    cases tokens with
    | nil =>
      cases ok
      exact ⟨rfl, by simp [Accepted]⟩
    | cons u more =>
      simp only [accept] at ok
      split at ok
      · rename_i same
        cases ok
        exact ⟨rfl, same⟩
      · rename_i other
        cases ok
        exact ⟨rfl, by simpa [Accepted] using other⟩
  · intro read
    obtain ⟨rfl, accepted⟩ := read
    cases taken with
    | some t => exact if_pos accepted
    | none =>
      cases rest with
      | nil => rfl
      | cons u more =>
        have other : u.kind ≠ kind := by simpa [Accepted] using accepted
        exact if_neg other

theorem peekDone {next tokens rest} :
    peek tokens = .done next rest ↔ next = front tokens ∧ rest = tokens := by
  simp only [peek, front, Outcome.done.injEq]
  exact and_congr eq_comm eq_comm

theorem peekSecondDone {next tokens rest} :
    peekSecond tokens = .done next rest ↔ next = front (tokens.drop 1) ∧ rest = tokens := by
  simp only [peekSecond, front, Outcome.done.injEq]
  exact and_congr eq_comm eq_comm

theorem bindFound {first : Production α} {next : α → Production β} {tokens middle between value
    rest} (found : first tokens = .done middle between)
    (ok : next middle between = .done value rest) : (first >>= next) tokens = .done value rest :=
  bindDone.mpr ⟨middle, between, found, ok⟩

theorem peekFound {next : Option Kind → Production α} {kind tokens value rest}
    (found : front tokens = kind) (ok : next kind tokens = .done value rest) :
    (peek >>= next) tokens = .done value rest :=
  bindFound (peekDone.mpr ⟨found.symm, rfl⟩) ok

theorem expectFound {next : Token → Production α} {kind t between value rest}
    (found : t.kind = kind) (ok : next t between = .done value rest) :
    (expect kind >>= next) (t :: between) = .done value rest :=
  bindFound (expectDone.mpr ⟨rfl, found⟩) ok

theorem acceptFound {next : Option Token → Production α} {kind taken between value rest}
    (accepted : Accepted kind between taken) (ok : next taken between = .done value rest) :
    (accept kind >>= next) (taken.toList ++ between) = .done value rest :=
  bindFound (acceptDone.mpr ⟨rfl, accepted⟩) ok

theorem acceptTaken {next : Option Token → Production α} {kind t between value rest}
    (found : t.kind = kind) (ok : next (some t) between = .done value rest) :
    (accept kind >>= next) (t :: between) = .done value rest :=
  @acceptFound α next kind (some t) between value rest found ok

theorem acceptNone {next : Option Token → Production α} {kind between value rest}
    (other : front between ≠ some kind) (ok : next none between = .done value rest) :
    (accept kind >>= next) between = .done value rest :=
  @acceptFound α next kind none between value rest other ok

theorem madeReads {production : Production α} {reading : Reading α} {f : α → β}
    (reads : Reads production reading) {tokens value rest}
    (ok : (production >>= fun a => pure (f a)) tokens = .done value rest) :
    ∃ a taken, tokens = taken ++ rest ∧ reading a taken rest ∧ value = f a := by
  obtain ⟨a, _, found, finished⟩ := bindDone.mp ok
  cases finished
  obtain ⟨taken, rfl, read⟩ := reads found
  exact ⟨a, taken, rfl, read, rfl⟩

inductive Series (stop : Option Kind) (item : Reading α) :
    List α → List Token → List Token → Prop where
  | done {rest} (ends : front rest = none ∨ front rest = stop) : Series stop item [] [] rest
  | more {value values taken others rest} (first : item value taken (others ++ rest))
      (next : Series stop item values others rest) :
      Series stop item (value :: values) (taken ++ others) rest

def Separated (item : Reading α) : Reading α := fun value taken rest =>
  (item value taken rest ∧ front rest = some (.punct .parenRight)) ∨
    ∃ before comma, taken = before ++ [comma] ∧ item value before (comma :: rest) ∧
      comma.kind = .punct .comma

def Listed (item : Reading α) : Reading α := fun value taken rest =>
  ∃ before comma, taken = before ++ comma.toList ∧ item value before (comma.toList ++ rest) ∧
    Accepted (.punct .comma) rest comma

def Enclosed (left right : Punct) (inner : Reading α) : Reading (Span × α) :=
  fun value taken rest => ∃ opening middle closing,
    taken = opening :: (middle ++ [closing]) ∧ opening.kind = .punct left ∧
    closing.kind = .punct right ∧ inner value.2 middle (closing :: rest) ∧
    value.1 = opening.span.through closing.span

theorem seriesAll {stop : Option Kind} {item : Reading α} {holds : α → Prop} {values taken rest}
    (series : Series stop item values taken rest)
    (each : ∀ {value taken rest}, item value taken rest → holds value) :
    ∀ value ∈ values, holds value := by
  induction series with
  | done => exact List.forall_mem_nil _
  | more first next ih => exact List.forall_mem_cons.mpr ⟨each first, ih⟩

variable {item : Production α} {reading : Reading α}

theorem manyReads (reads : Reads item reading) (stop : Option Kind) (budget : Nat) :
    Reads (many stop item budget) (Series stop reading) := by
  induction budget with
  | zero => intro tokens values rest ok; cases ok
  | succ budget ih =>
    intro tokens values rest ok
    simp only [many, bindDone, peekDone] at ok
    obtain ⟨next, between, ⟨rfl, rfl⟩, ok⟩ := ok
    split at ok
    · rename_i ends
      cases ok
      exact ⟨[], rfl, .done ends⟩
    · simp only [bindDone] at ok
      obtain ⟨value, after, first, others, last, more, finished⟩ := ok
      cases finished
      obtain ⟨taken, rfl, one⟩ := reads first
      obtain ⟨behind, rfl, all⟩ := ih more
      exact ⟨taken ++ behind, (List.append_assoc ..).symm, .more one all⟩

theorem separatedReads (reads : Reads item reading) :
    Reads (separated item) (Separated reading) := by
  intro tokens value rest ok
  simp only [separated, bindDone, peekDone] at ok
  obtain ⟨value', after, first, next, _, ⟨rfl, rfl⟩, ok⟩ := ok
  obtain ⟨taken, rfl, one⟩ := reads first
  split at ok
  · rename_i closes
    cases ok
    exact ⟨taken, rfl, .inl ⟨one, closes⟩⟩
  · simp only [bindDone, expectDone] at ok
    obtain ⟨comma, last, ⟨rfl, kind⟩, finished⟩ := ok
    cases finished
    exact ⟨taken ++ [comma], by simp, .inr ⟨taken, comma, rfl, one, kind⟩⟩

theorem listedReads (reads : Reads item reading) : Reads (listed item) (Listed reading) := by
  intro tokens value rest ok
  simp only [listed, bindDone, acceptDone] at ok
  obtain ⟨value', after, first, comma, last, ⟨rfl, accepted⟩, finished⟩ := ok
  cases finished
  obtain ⟨taken, rfl, one⟩ := reads first
  exact ⟨taken ++ comma.toList, (List.append_assoc ..).symm, taken, comma, rfl, one, accepted⟩

theorem enclosedReads {left right : Punct} {budget : Nat} (reads : Reads item reading) :
    Reads (enclosed left right item budget)
      (Enclosed left right (Series (some (.punct right)) reading)) := by
  intro tokens value rest ok
  simp only [enclosed, bindDone, expectDone] at ok
  obtain ⟨opening, _, ⟨rfl, opens⟩, values, _, items, closing, _, ⟨rfl, closes⟩, finished⟩ := ok
  cases finished
  obtain ⟨middle, rfl, all⟩ := manyReads reads _ _ items
  exact ⟨opening :: (middle ++ [closing]), by simp, opening, middle, closing, rfl, opens, closes,
    all, rfl⟩

def Answers (limit : Nat) (production : Production α) (reading : Reading α) : Prop :=
  ∀ {value taken rest}, reading value taken rest → (taken ++ rest).length < limit →
    production (taken ++ rest) = .done value rest

def Begins (reading : Reading α) (stop : Option Kind) : Prop :=
  ∀ {value taken rest}, reading value taken rest → taken ≠ [] ∧ front taken ≠ stop

theorem budgetLeft {count budget : Nat} (enough : count < budget) : ∃ less, budget = less + 1 :=
  ⟨budget - 1, by omega⟩

theorem manyAnswers {limit stop} (answers : Answers limit item reading)
    (begins : Begins reading stop) {values taken rest}
    (series : Series stop reading values taken rest) {budget : Nat}
    (short : (taken ++ rest).length < limit) (enough : (taken ++ rest).length < budget) :
    many stop item budget (taken ++ rest) = .done values rest := by
  induction series generalizing budget with
  | done ends =>
    obtain ⟨budget, rfl⟩ := budgetLeft enough
    refine peekFound rfl ?_
    rw [List.nil_append, if_pos ends]
    rfl
  | @more value values taken others rest first next ih =>
    obtain ⟨budget, rfl⟩ := budgetLeft enough
    obtain ⟨filled, other⟩ := begins first
    rw [List.append_assoc] at short enough ⊢
    have positive : 0 < taken.length := List.length_pos_iff.mpr filled
    simp only [List.length_append] at short enough ih
    have goes : ¬ (front (taken ++ (others ++ rest)) = none ∨
        front (taken ++ (others ++ rest)) = stop) := by
      rw [frontAppend filled]
      rintro (ends | ends)
      · exact filled (by simpa [front] using ends)
      · exact other ends
    refine peekFound rfl ?_
    rw [if_neg goes]
    refine bindFound (answers first (by simp only [List.length_append]; omega)) ?_
    exact bindFound (ih (by omega) (by omega)) rfl

theorem separatedAnswers {limit} (answers : Answers limit item reading) :
    Answers limit (separated item) (Separated reading) := by
  intro value taken rest read short
  rcases read with ⟨one, closes⟩ | ⟨before, comma, rfl, one, kind⟩
  · refine bindFound (answers one short) ?_
    refine peekFound rfl ?_
    rw [if_pos closes]
    rfl
  · simp only [List.append_assoc, List.cons_append, List.nil_append] at short ⊢
    refine bindFound (answers one short) ?_
    refine peekFound rfl ?_
    rw [if_neg (by simp [kind])]
    exact expectFound kind rfl

theorem listedAnswers {limit} (answers : Answers limit item reading) :
    Answers limit (listed item) (Listed reading) := by
  rintro value taken rest ⟨before, comma, rfl, one, accepted⟩ short
  rw [List.append_assoc] at short ⊢
  refine bindFound (answers one short) ?_
  exact acceptFound accepted rfl

theorem enclosedAnswers {left right : Punct} {budget : Nat}
    (answers : Answers budget item reading) (begins : Begins reading (some (.punct right))) :
    Answers (budget + 1) (enclosed left right item budget)
      (Enclosed left right (Series (some (.punct right)) reading)) := by
  rintro ⟨span, values⟩ taken rest ⟨opening, middle, closing, rfl, opens, closes, all, rfl⟩ short
  simp only [List.cons_append, List.append_assoc, List.nil_append] at short ⊢
  have inner : (middle ++ closing :: rest).length < budget := by
    simpa only [List.length_cons, Nat.add_lt_add_iff_right] using short
  refine expectFound opens ?_
  refine bindFound (manyAnswers answers begins all inner inner) ?_
  exact expectFound closes rfl

end ScriptTree.Grammar
