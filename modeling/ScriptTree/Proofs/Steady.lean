import ScriptTree.Proofs.Progress
/-! A reading is done again on the tokens that it took and those that later readings took, and one
more. It comes to the same, unless it takes the new token too, which is then the last; and where it
failed and the new token is of a kind that was expected, it takes that token. A `=` is never
expected, so that the new token changes nothing for what looks two tokens ahead. -/
namespace ScriptTree.Grammar

def Holds (value : α) (rest : List Token) (outcome : Outcome α) : Prop :=
  outcome = .done value rest ∨ outcome.rest = []

def Leaves (left : Token → Prop) (t : Token) (outcome : Outcome α) : Prop :=
  outcome.rest = [] ∨ left t ∧ ∃ value, outcome = .done value [t]

/-- Tokens `between` were taken after this reading and before the new token. -/
structure Steady (limit least : Nat) (left : Token → Prop) (p : Production α) : Prop where
  kept : ∀ ⦃tokens value rest⦄, p tokens = .done value rest →
    ∃ taken, tokens = taken ++ rest ∧ least ≤ taken.length ∧
      ∀ ⦃between behind t⦄, rest = between ++ behind → t.kind ≠ .punct .assign →
        (taken ++ (between ++ [t])).length < limit →
          Holds value (between ++ [t]) (p (taken ++ (between ++ [t])))
  viable : ∀ ⦃tokens expected rest⦄, tokens.length < limit → p tokens = .failed expected rest →
    ∃ taken, tokens = taken ++ rest ∧ Kind.punct .assign ∉ expected ∧
      ∀ ⦃t⦄, t.kind ∈ expected → (taken ++ [t]).length < limit → Leaves left t (p (taken ++ [t]))
  ended : (p []).rest = []

structure Leads (limit : Nat) (starts : List Kind) (left : Token → Prop) (p : Production α) :
    Prop where
  steady : Steady limit 1 left p
  opens : ∀ ⦃tokens expected⦄, tokens.length < limit → p tokens = .failed expected tokens →
    expected = starts ∧ ∀ kind ∈ starts, front tokens ≠ some kind

def takesAll (_ : Token) : Prop := False

def leavesName (t : Token) : Prop := t.kind = .identifier

variable {limit least : Nat} {left : Token → Prop} {starts : List Kind} {p : Production α}

theorem Steady.weaken {limit' least' : Nat} {left' : Token → Prop}
    (steady : Steady limit least left p) (shorter : limit' ≤ limit) (less : least' ≤ least)
    (more : ∀ t, left t → left' t) : Steady limit' least' left' p := by
  refine ⟨?_, ?_, steady.ended⟩
  · intro tokens value rest found
    obtain ⟨taken, split, enough, again⟩ := steady.kept found
    refine ⟨taken, split, Nat.le_trans less enough, ?_⟩
    intro between behind t parts other short
    exact again parts other (Nat.lt_of_lt_of_le short shorter)
  · intro tokens expected rest short failed
    obtain ⟨taken, split, other, again⟩ := steady.viable (Nat.lt_of_lt_of_le short shorter) failed
    refine ⟨taken, split, other, ?_⟩
    intro t listed short
    rcases again listed (Nat.lt_of_lt_of_le short shorter) with none | ⟨may, found⟩
    · exact .inl none
    · exact .inr ⟨more t may, found⟩

theorem Steady.any {left' : Token → Prop} (steady : Steady limit least takesAll p) :
    Steady limit 0 left' p :=
  steady.weaken (Nat.le_refl _) (Nat.zero_le _) fun _ impossible => impossible.elim

theorem Leads.any {left' : Token → Prop} (leads : Leads limit starts takesAll p) :
    Steady limit 0 left' p := leads.steady.any

theorem Leads.shorter {limit' : Nat} (leads : Leads limit starts left p) (less : limit' ≤ limit) :
    Leads limit' starts left p := by
  refine ⟨leads.steady.weaken less (Nat.le_refl _) fun _ => id, ?_⟩
  intro tokens expected short
  exact leads.opens (Nat.lt_of_lt_of_le short less)

theorem Leads.before (leads : Leads limit starts left p) : Steady limit 0 left p :=
  leads.steady.weaken (Nat.le_refl _) (Nat.zero_le _) fun _ => id

theorem Leads.loose {left' : Token → Prop} (leads : Leads limit starts takesAll p) :
    Leads limit starts left' p :=
  ⟨leads.steady.weaken (Nat.le_refl _) (Nat.le_refl _) fun _ impossible => impossible.elim,
    leads.opens⟩

theorem Leads.goesOn (leads : Leads limit starts left p) {tokens value rest}
    (found : p tokens = .done value rest) : rest.length < tokens.length := by
  obtain ⟨taken, rfl, enough, _⟩ := leads.steady.kept found
  rw [List.length_append]
  omega

theorem Leads.begins (leads : Leads limit starts left p) {t : Token} (listed : t.kind ∈ starts)
    (short : 1 < limit) : (p [t]).rest = [] := by
  have ended := leads.steady.ended
  cases found : p [] with
  | done value rest => exact absurd (leads.goesOn found) (Nat.not_lt_zero _)
  | failed expected rest =>
    rw [found] at ended
    have none : rest = [] := ended
    subst none
    have open' : ([] : List Token).length < limit := Nat.lt_of_succ_lt short
    obtain ⟨rfl, _⟩ := leads.opens open' found
    obtain ⟨taken, split, _, again⟩ := leads.steady.viable open' found
    obtain ⟨rfl, _⟩ := List.append_eq_nil_iff.mp split.symm
    rcases again listed short with none | ⟨_, value, stays⟩
    · exact none
    · exact absurd (leads.goesOn stays) (Nat.lt_irrefl _)

theorem steadyPure (value : α) : Steady limit 0 left (pure value) := by
  refine ⟨?_, ?_, rfl⟩
  · intro tokens value' rest found
    cases found
    exact ⟨[], rfl, Nat.le_refl _, fun _ _ _ _ _ _ => .inl rfl⟩
  · intro tokens expected rest _ failed
    contradiction

theorem bindEnded {f : α → Production β} {tokens : List Token} (first : (p tokens).rest = [])
    (next : ∀ value, (f value []).rest = []) : ((p >>= f) tokens).rest = [] := by
  rw [Production.bindApply]
  cases found : p tokens with
  | done value rest =>
    rw [found] at first
    have none : rest = [] := first
    rw [none]
    exact next value
  | failed expected rest =>
    rw [found] at first
    exact first

theorem bindKept {f : α → Production β} {tokens middle value between rest}
    (first : Holds middle between (p tokens)) (next : Holds value rest (f middle between))
    (ended : ∀ value, (f value []).rest = []) : Holds value rest ((p >>= f) tokens) := by
  rcases first with found | none
  · rw [Production.bindApply, found]
    exact next
  · exact .inr (bindEnded none ended)

theorem bindViable {left' : Token → Prop} {f : α → Production β} {tokens middle between t}
    (first : Holds middle between (p tokens)) (next : Leaves left' t (f middle between))
    (ended : ∀ value, (f value []).rest = []) : Leaves left' t ((p >>= f) tokens) := by
  rcases first with found | none
  · rw [Production.bindApply, found]
    exact next
  · exact .inl (bindEnded none ended)

theorem steadyBind {a b : Nat} {left' : Token → Prop} {f : α → Production β}
    (first : Steady limit a left p) (next : ∀ value, Steady (limit - a) b left' (f value))
    (pass : ∀ value t, left t → Leaves left' t (f value [t])) :
    Steady limit (a + b) left' (p >>= f) := by
  have ended (value : α) : (f value []).rest = [] := (next value).ended
  refine ⟨?_, ?_, bindEnded first.ended ended⟩
  · intro tokens value rest found
    obtain ⟨middle, _, begun, finished⟩ := bindDone.mp found
    obtain ⟨taken, rfl, enough, again⟩ := first.kept begun
    obtain ⟨others, rfl, enough', again'⟩ := (next middle).kept finished
    refine ⟨taken ++ others, (List.append_assoc ..).symm, ?_, ?_⟩
    · rw [List.length_append]
      omega
    · intro between behind t parts other short
      have short' : (others ++ (between ++ [t])).length < limit - a := by
        simp only [List.length_append] at short ⊢
        omega
      have parts' : others ++ rest = (others ++ between) ++ behind := by
        rw [parts, List.append_assoc]
      rw [List.append_assoc, ← List.append_assoc others] at short ⊢
      refine bindKept (again parts' other short) ?_ ended
      rw [List.append_assoc]
      exact again' parts other short'
  · intro tokens expected rest short failed
    rw [Production.bindApply] at failed
    cases begun : p tokens with
    | failed expected' rest' =>
      rw [begun] at failed
      cases failed
      obtain ⟨taken, split, other, again⟩ := first.viable short begun
      refine ⟨taken, split, other, ?_⟩
      intro t listed short
      rcases again listed short with none | ⟨may, value, found⟩
      · exact .inl (bindEnded none ended)
      · rw [Production.bindApply, found]
        exact pass value t may
    | done middle rest' =>
      rw [begun] at failed
      obtain ⟨taken, rfl, enough, again⟩ := first.kept begun
      have short' : rest'.length < limit - a := by
        rw [List.length_append] at short
        omega
      obtain ⟨others, rfl, other, again'⟩ := (next middle).viable short' failed
      refine ⟨taken ++ others, (List.append_assoc ..).symm, other, ?_⟩
      intro t listed short
      have short' : (others ++ [t]).length < limit - a := by
        simp only [List.length_append] at short ⊢
        omega
      rw [List.append_assoc] at short ⊢
      have different : t.kind ≠ .punct .assign := fun same => other (same ▸ listed)
      exact bindViable (again rfl different short) (again' listed short') ended

theorem steadyThen {left' : Token → Prop} {f : α → Production β}
    (first : Steady limit 0 takesAll p) (next : ∀ value, Steady limit least left' (f value)) :
    Steady limit least left' (p >>= f) := by
  have both := steadyBind first next fun _ _ impossible => impossible.elim
  rwa [Nat.zero_add] at both

theorem steadyMade {f : α → β} (steady : Steady limit 0 left p) :
    Steady limit 0 left (p >>= fun value => pure (f value)) :=
  steadyBind steady (fun _ => steadyPure _) fun _ _ may => .inr ⟨may, _, rfl⟩

theorem leadsBind {left' : Token → Prop} {f : α → Production β}
    (first : Leads limit starts left p) (next : ∀ value, Steady (limit - 1) 0 left' (f value))
    (pass : ∀ value t, left t → Leaves left' t (f value [t])) :
    Leads limit starts left' (p >>= f) := by
  refine ⟨steadyBind first.steady next pass, ?_⟩
  intro tokens expected short failed
  rw [Production.bindApply] at failed
  cases begun : p tokens with
  | failed expected' rest' =>
    rw [begun] at failed
    cases failed
    exact first.opens short begun
  | done middle rest' =>
    rw [begun] at failed
    have fewer := first.goesOn begun
    obtain ⟨taken, split, _⟩ := (next middle).viable (by omega) failed
    rw [split, List.length_append] at fewer
    omega

theorem leadsAfter {left' : Token → Prop} {f : α → Production β}
    (first : Leads limit starts takesAll p)
    (next : ∀ value, Steady (limit - 1) 0 left' (f value)) : Leads limit starts left' (p >>= f) :=
  leadsBind first next fun _ _ impossible => impossible.elim

theorem leadsMade {f : α → β} (leads : Leads limit starts left p) :
    Leads limit starts left (p >>= fun value => pure (f value)) :=
  leadsBind leads (fun _ => steadyPure _) fun _ _ may => .inr ⟨may, _, rfl⟩

theorem oneOfFailed {kinds expected : List Kind} {tokens rest}
    (failed : oneOf kinds tokens = .failed expected rest) :
    expected = kinds ∧ rest = tokens ∧ ∀ kind ∈ kinds, front tokens ≠ some kind := by
  cases tokens with
  | nil =>
    cases failed
    exact ⟨rfl, rfl, by simp⟩
  | cons t more =>
    rw [oneOf] at failed
    split at failed
    · contradiction
    · rename_i other
      cases failed
      refine ⟨rfl, rfl, ?_⟩
      intro kind listed same
      exact other (Option.some.inj same ▸ listed)

theorem leadsOneOf {kinds : List Kind} (assign : Kind.punct .assign ∉ kinds) :
    Leads limit kinds takesAll (oneOf kinds) := by
  refine ⟨⟨?_, ?_, rfl⟩, ?_⟩
  · intro tokens t rest found
    obtain ⟨rfl, listed⟩ := oneOfDone.mp found
    refine ⟨[t], rfl, Nat.le_refl _, ?_⟩
    intro between behind u _ _ _
    exact .inl (oneOfDone.mpr ⟨rfl, listed⟩)
  · intro tokens expected rest _ failed
    obtain ⟨rfl, rfl, _⟩ := oneOfFailed failed
    refine ⟨[], rfl, assign, ?_⟩
    intro t listed _
    have taken : oneOf expected [t] = .done t [] := oneOfDone.mpr ⟨rfl, listed⟩
    rw [List.nil_append, taken]
    exact .inl rfl
  · intro tokens expected _ failed
    obtain ⟨same, _, refused⟩ := oneOfFailed failed
    exact ⟨same, refused⟩

theorem leadsExpect {kind : Kind} (other : kind ≠ .punct .assign) :
    Leads limit [kind] takesAll (expect kind) :=
  leadsOneOf fun among => other (List.mem_singleton.mp among).symm

theorem steadyAccept {kind : Kind} : Steady limit 0 left (accept kind) := by
  refine ⟨?_, ?_, rfl⟩
  · intro tokens o rest found
    obtain ⟨rfl, accepted⟩ := acceptDone.mp found
    refine ⟨o.toList, rfl, Nat.zero_le _, ?_⟩
    intro between behind t parts other _
    cases o with
    | some u => exact .inl (acceptDone.mpr ⟨rfl, accepted⟩)
    | none =>
      cases between with
      | cons u more =>
        subst parts
        exact .inl (acceptDone.mpr ⟨rfl, accepted⟩)
      | nil =>
        by_cases same : t.kind = kind
        · have taken : accept kind [t] = .done (some t) [] := if_pos same
          exact .inr (congrArg Outcome.rest taken)
        · exact .inl (if_neg same)
  · intro tokens expected rest _ failed
    cases tokens with
    | nil => contradiction
    | cons t more =>
      rw [accept] at failed
      split at failed <;> contradiction

def Chosen (limit : Nat) (left : Token → Prop) (next : Option Kind) (p : Production α) : Prop :=
  ∃ kind own, next = some kind ∧ kind ∈ own ∧ Leads limit own left p

theorem chosenBy {kind : Kind} {others : List Kind} (leads : Leads limit (kind :: others) left p) :
    Chosen limit left (some kind) p :=
  ⟨kind, kind :: others, rfl, List.mem_cons_self, leads⟩

theorem chosenGoesOn {next : Option Kind} (chosen : Chosen limit left next p) {tokens expected rest}
    (seen : front tokens = next) (short : tokens.length < limit)
    (failed : p tokens = .failed expected rest) : rest ≠ tokens := by
  obtain ⟨kind, own, rfl, listed, leads⟩ := chosen
  intro same
  subst same
  exact (leads.opens short failed).2 kind listed seen

theorem frontAgain {taken rest : List Token} (filled : taken ≠ []) (rest' : List Token) :
    front (taken ++ rest') = front (taken ++ rest) := by
  rw [frontAppend filled, frontAppend filled]

theorem chosenKept {f : Option Kind → Production α} {tokens : List Token}
    (chosen : Chosen limit left (front tokens) (f (front tokens))) {value rest}
    (found : f (front tokens) tokens = .done value rest) :
    ∃ taken, tokens = taken ++ rest ∧ 1 ≤ taken.length ∧
      ∀ ⦃between behind t⦄, rest = between ++ behind → t.kind ≠ .punct .assign →
        (taken ++ (between ++ [t])).length < limit →
          Holds value (between ++ [t]) ((peek >>= f) (taken ++ (between ++ [t]))) := by
  obtain ⟨kind, own, _, _, leads⟩ := chosen
  obtain ⟨taken, rfl, enough, again⟩ := leads.steady.kept found
  refine ⟨taken, rfl, enough, ?_⟩
  intro between behind t parts other short
  have filled : taken ≠ [] := List.length_pos_iff.mp enough
  rw [peekThen, frontAgain filled]
  exact again parts other short

theorem chosenViable {f : Option Kind → Production α} {tokens : List Token}
    (chosen : Chosen limit left (front tokens) (f (front tokens))) {expected rest}
    (short : tokens.length < limit) (failed : f (front tokens) tokens = .failed expected rest) :
    ∃ taken, tokens = taken ++ rest ∧ Kind.punct .assign ∉ expected ∧
      ∀ ⦃t⦄, t.kind ∈ expected → (taken ++ [t]).length < limit →
        Leaves left t ((peek >>= f) (taken ++ [t])) := by
  have goesOn := chosenGoesOn chosen rfl short failed
  obtain ⟨kind, own, _, _, leads⟩ := chosen
  obtain ⟨taken, rfl, other, again⟩ := leads.steady.viable short failed
  refine ⟨taken, rfl, other, ?_⟩
  intro t listed short
  have filled : taken ≠ [] := by
    rintro rfl
    exact goesOn rfl
  rw [peekThen, frontAgain filled]
  exact again listed short

theorem leadsChoice {f : Option Kind → Production α} (assign : Kind.punct .assign ∉ starts)
    (each : ∀ next, Chosen limit left next (f next) ∨ next ∉ starts.map some ∧
      ∀ tokens, front tokens = next → f next tokens = .failed starts tokens) :
    Leads limit starts left (peek >>= f) := by
  have opens {tokens expected} (short : tokens.length < limit)
      (failed : f (front tokens) tokens = .failed expected tokens) :
      expected = starts ∧ ∀ kind ∈ starts, front tokens ≠ some kind := by
    rcases each (front tokens) with chosen | ⟨other, refuses⟩
    · exact absurd rfl (chosenGoesOn chosen rfl short failed)
    · rw [refuses tokens rfl] at failed
      cases failed
      refine ⟨rfl, ?_⟩
      intro kind listed same
      exact other (same ▸ List.mem_map_of_mem listed)
  have begins {t : Token} (listed : t.kind ∈ starts) :
      ∃ own, t.kind ∈ own ∧ Leads limit own left (f (some t.kind)) := by
    rcases each (some t.kind) with ⟨kind, own, same, among, leads⟩ | ⟨other, _⟩
    · cases same
      exact ⟨own, among, leads⟩
    · exact absurd (List.mem_map_of_mem listed) other
  refine ⟨⟨?_, ?_, ?_⟩, fun _ _ => opens⟩
  · intro tokens value rest found
    rcases each (front tokens) with chosen | ⟨other, refuses⟩
    · exact chosenKept chosen found
    · rw [peekThen, refuses tokens rfl] at found
      contradiction
  · intro tokens expected rest short failed
    rcases each (front tokens) with chosen | ⟨other, refuses⟩
    · exact chosenViable chosen short failed
    · rw [peekThen, refuses tokens rfl] at failed
      cases failed
      refine ⟨[], rfl, assign, ?_⟩
      intro t listed short
      obtain ⟨own, among, leads⟩ := begins listed
      exact .inl (leads.begins among short)
  · rcases each none with ⟨_, _, impossible, _⟩ | ⟨_, refuses⟩
    · contradiction
    · rw [peekThen]
      exact congrArg Outcome.rest (refuses [] rfl)

theorem steadyChoice {f : Option Kind → Production α} (starts : List Kind)
    (assign : Kind.punct .assign ∉ starts)
    (each : ∀ next, Chosen limit left next (f next) ∨ next ∉ starts.map some ∧
      ∀ tokens, front tokens = next → f next tokens = .failed starts tokens) :
    Steady limit 0 left (peek >>= f) := (leadsChoice assign each).before

theorem steadyMaybe {f : Option Kind → Production α} (value : α)
    (each : ∀ next, Chosen limit left next (f next) ∨ f next = pure value) :
    Steady limit 0 left (peek >>= f) := by
  refine ⟨?_, ?_, ?_⟩
  · intro tokens value' rest found
    rcases each (front tokens) with chosen | stays
    · obtain ⟨taken, split, _, again⟩ := chosenKept chosen found
      exact ⟨taken, split, Nat.zero_le _, again⟩
    · rw [peekThen, stays] at found
      cases found
      refine ⟨[], rfl, Nat.zero_le _, ?_⟩
      intro between behind t parts other short
      rw [List.nil_append, peekThen]
      cases between with
      | cons u more =>
        subst parts
        have same : front (u :: more ++ [t]) = front (u :: more ++ behind) := rfl
        rw [same, stays]
        exact .inl rfl
      | nil =>
        rcases each (front ([] ++ [t])) with ⟨kind, own, same, listed, leads⟩ | stays
        · cases same
          exact .inr (leads.begins listed short)
        · rw [stays]
          exact .inl rfl
  · intro tokens expected rest short failed
    rcases each (front tokens) with chosen | stays
    · exact chosenViable chosen short failed
    · rw [peekThen, stays] at failed
      contradiction
  · rcases each none with ⟨_, _, impossible, _⟩ | stays
    · contradiction
    · rw [peekThen]
      exact congrArg (fun q : Production α => (q []).rest) stays

end ScriptTree.Grammar
