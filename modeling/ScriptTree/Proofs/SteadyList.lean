import ScriptTree.Proofs.Steady
/-! Lists of steady items, up to the mark that ends them. -/
namespace ScriptTree.Grammar

variable {limit : Nat} {left : Token → Prop} {starts : List Kind} {p : Production α}

/-- Steady as an item of a list that ends before `stop`. At the end of the list it may see that, so
that a new token there has to be that as well; and what it leaves is the next item. -/
structure Item (limit : Nat) (stop : Option Kind) (p : Production α) : Prop where
  kept : ∀ ⦃tokens value rest⦄, p tokens = .done value rest →
    ∃ taken, tokens = taken ++ rest ∧ taken ≠ [] ∧
      ∀ ⦃between behind t⦄, rest = between ++ behind → t.kind ≠ .punct .assign →
        (taken ++ (between ++ [t])).length < limit →
          (between = [] → front behind = stop → some t.kind = stop) →
            Holds value (between ++ [t]) (p (taken ++ (between ++ [t])))
  viable : ∀ ⦃tokens expected rest⦄, tokens.length < limit → p tokens = .failed expected rest →
    ∃ taken, tokens = taken ++ rest ∧ Kind.punct .assign ∉ expected ∧
      ∀ ⦃t⦄, t.kind ∈ expected → (taken ++ [t]).length < limit →
        (taken = [] → some t.kind ≠ stop) ∧
          Leaves (fun t => some t.kind ≠ stop ∧ (p [t]).rest = []) t (p (taken ++ [t]))
  ended : (p []).rest = []

theorem Leads.item {stop : Option Kind} (leads : Leads limit starts left p)
    (other : stop ∉ starts.map some) (next : ∀ t, left t → t.kind ∈ starts) :
    Item limit stop p := by
  have differs {t : Token} (listed : t.kind ∈ starts) : some t.kind ≠ stop := by
    intro same
    exact other (same ▸ List.mem_map_of_mem listed)
  refine ⟨?_, ?_, leads.steady.ended⟩
  · intro tokens value rest found
    obtain ⟨taken, split, enough, again⟩ := leads.steady.kept found
    refine ⟨taken, split, List.length_pos_iff.mp enough, ?_⟩
    intro between behind t parts other short _
    exact again parts other short
  · intro tokens expected rest short failed
    obtain ⟨taken, split, assign, again⟩ := leads.steady.viable short failed
    refine ⟨taken, split, assign, ?_⟩
    intro t listed short'
    refine ⟨?_, ?_⟩
    · rintro rfl
      have same : tokens = rest := split
      subst same
      obtain ⟨rfl, _⟩ := leads.opens short failed
      exact differs listed
    · rcases again listed short' with none | ⟨may, found⟩
      · exact .inl none
      · have alone : 1 < limit := by
          rw [List.length_append] at short'
          exact Nat.lt_of_le_of_lt (Nat.le_add_left _ _) short'
        have named := next t may
        exact .inr ⟨⟨differs named, leads.begins named alone⟩, found⟩

def separator (value : α) : Production α := do
  let next ← peek
  if next = some (.punct .parenRight) then pure value
  else
    let _ ← expect (.punct .comma)
    pure value

theorem separatorFound {value : α} {tokens : List Token} :
    (front tokens = some (.punct .parenRight) → separator value tokens = .done value tokens) ∧
      ∀ comma rest, tokens = comma :: rest → comma.kind = .punct .comma →
        separator value tokens = .done value rest := by
  constructor
  · intro closes
    exact peekFound rfl (by rw [if_pos closes]; rfl)
  · rintro comma rest rfl kind
    refine peekFound rfl ?_
    rw [if_neg (by simp [kind])]
    exact expectFound kind rfl

theorem separatorDone {value value' : α} {tokens rest}
    (found : separator value tokens = .done value' rest) : value' = value ∧
      (front tokens = some (.punct .parenRight) ∧ rest = tokens ∨
        ∃ comma, tokens = comma :: rest ∧ comma.kind = .punct .comma) := by
  rw [separator, peekThen] at found
  split at found
  · rename_i closes
    cases found
    exact ⟨rfl, .inl ⟨closes, rfl⟩⟩
  · obtain ⟨comma, _, mark, finished⟩ := bindDone.mp found
    obtain ⟨rfl, kind⟩ := expectDone.mp mark
    cases finished
    exact ⟨rfl, .inr ⟨comma, rfl, kind⟩⟩

theorem separatorFailed {value : α} {tokens expected rest}
    (failed : separator value tokens = .failed expected rest) :
    expected = [.punct .comma] ∧ rest = tokens := by
  rw [separator, peekThen] at failed
  split at failed
  · contradiction
  · rw [Production.bindApply] at failed
    cases mark : expect (.punct .comma) tokens with
    | done comma more =>
      rw [mark] at failed
      contradiction
    | failed expected' rest' =>
      rw [mark] at failed
      cases failed
      obtain ⟨same, split, _⟩ := oneOfFailed mark
      exact ⟨same, split⟩

theorem separatedItem (leads : Leads limit starts takesAll p)
    (other : Kind.punct .parenRight ∉ starts) :
    Item limit (some (.punct .parenRight)) (separated p) := by
  have ended (value : α) : (separator value []).rest = [] := rfl
  change Item limit (some (.punct .parenRight)) (p >>= separator)
  refine ⟨?_, ?_, bindEnded leads.steady.ended ended⟩
  · intro tokens value rest found
    obtain ⟨middle, _, begun, finished⟩ := bindDone.mp found
    obtain ⟨taken, rfl, enough, again⟩ := leads.steady.kept begun
    have filled : taken ≠ [] := List.length_pos_iff.mp enough
    obtain ⟨rfl, ⟨closes, rfl⟩ | ⟨comma, rfl, kind⟩⟩ := separatorDone finished
    · refine ⟨taken, rfl, filled, ?_⟩
      rintro between behind t rfl other short same
      refine bindKept (again rfl other short) (.inl (separatorFound.1 ?_)) ended
      cases between with
      | nil => exact same rfl closes
      | cons u more => exact closes
    · refine ⟨taken ++ [comma], by simp, by simp, ?_⟩
      rintro between behind t rfl other short _
      rw [List.append_assoc] at short ⊢
      refine bindKept (@again (comma :: between) behind t rfl other short) ?_ ended
      exact .inl (separatorFound.2 comma _ rfl kind)
  · intro tokens expected rest short failed
    rw [Production.bindApply] at failed
    cases begun : p tokens with
    | failed expected' rest' =>
      rw [begun] at failed
      cases failed
      obtain ⟨taken, split, assign, again⟩ := leads.steady.viable short begun
      refine ⟨taken, split, assign, ?_⟩
      intro t listed short'
      refine ⟨?_, ?_⟩
      · rintro rfl same
        have whole : tokens = rest := split
        subst whole
        obtain ⟨rfl, _⟩ := leads.opens short begun
        exact other (Option.some.inj same ▸ listed)
      · rcases again listed short' with none | ⟨impossible, _⟩
        · exact .inl (bindEnded none ended)
        · exact impossible.elim
    | done middle rest' =>
      rw [begun] at failed
      obtain ⟨taken, rfl, enough, again⟩ := leads.steady.kept begun
      obtain ⟨rfl, rfl⟩ := separatorFailed failed
      refine ⟨taken, rfl, by decide, ?_⟩
      intro t listed short'
      have kind : t.kind = .punct .comma := List.mem_singleton.mp listed
      refine ⟨?_, .inl ?_⟩
      · rintro rfl
        contradiction
      · rcases @again [] rest t rfl (by simp [kind]) short' with found | none
        · rw [Production.bindApply]
          rw [List.nil_append] at found
          rw [found]
          exact congrArg Outcome.rest (separatorFound.2 t [] rfl kind)
        · exact bindEnded none ended

section Lists
variable {stop : Option Kind} {b : Nat}

theorem manyEnded : (many stop p b []).rest = [] := by
  cases b <;> rfl

theorem manyGoes {tokens : List Token} (filled : tokens ≠ []) (other : front tokens ≠ stop) :
    many stop p (b + 1) tokens =
      (p >>= fun first => many stop p b >>= fun others => pure (first :: others)) tokens := by
  refine (peekThen (f := _)).trans ?_
  have goes : ¬ (front tokens = none ∨ front tokens = stop) := by
    rintro (none | same)
    · cases tokens with
      | nil => exact filled rfl
      | cons t more => contradiction
    · exact other same
  rw [if_neg goes]

theorem manyStops {tokens : List Token} (ends : front tokens = none ∨ front tokens = stop) :
    many stop p (b + 1) tokens = .done [] tokens := by
  refine (peekThen (f := _)).trans ?_
  rw [if_pos ends]
  rfl

theorem manyRestEnded (first : α) : ((many stop p b >>= fun others =>
    pure (first :: others) : Production (List α)) []).rest = [] :=
  bindEnded manyEnded fun _ => rfl

theorem manyFrontNe {tokens : List Token}
    (goes : ¬ (front tokens = none ∨ front tokens = stop)) : tokens ≠ [] ∧ front tokens ≠ stop := by
  refine ⟨?_, fun same => goes (.inr same)⟩
  rintro rfl
  exact goes (.inl rfl)

theorem manyKept (item : Item limit stop p) {tokens values rest}
    (found : many stop p b tokens = .done values rest) :
    ∃ taken, tokens = taken ++ rest ∧
      ∀ ⦃between behind t⦄, rest = between ++ behind → t.kind ≠ .punct .assign →
        (taken ++ (between ++ [t])).length < limit → (taken ++ (between ++ [t])).length < b →
          (between = [] → some t.kind = stop) →
            Holds values (between ++ [t]) (many stop p b (taken ++ (between ++ [t]))) := by
  induction b generalizing tokens values with
  | zero => cases found
  | succ b ih =>
    by_cases ends : front tokens = none ∨ front tokens = stop
    · rw [manyStops ends] at found
      cases found
      refine ⟨[], rfl, ?_⟩
      rintro between behind t rfl other short enough last
      refine .inl (manyStops (.inr ?_))
      cases between with
      | nil => exact last rfl
      | cons u more =>
        rcases ends with none | same
        · contradiction
        · exact same
    · obtain ⟨some', next⟩ := manyFrontNe ends
      rw [manyGoes some' next] at found
      obtain ⟨first, _, begun, found⟩ := bindDone.mp found
      obtain ⟨others, _, more, finished⟩ := bindDone.mp found
      cases finished
      obtain ⟨taken, rfl, filled, again⟩ := item.kept begun
      obtain ⟨later, rfl, again'⟩ := ih more
      refine ⟨taken ++ later, (List.append_assoc ..).symm, ?_⟩
      rintro between behind t rfl other short enough closes
      have positive : 0 < taken.length := List.length_pos_iff.mpr filled
      have fewer : (later ++ (between ++ [t])).length < limit ∧
          (later ++ (between ++ [t])).length < b := by
        simp only [List.length_append] at short enough ⊢
        omega
      have closes' : later ++ between = [] → front behind = stop → some t.kind = stop :=
        fun none _ => closes (List.append_eq_nil_iff.mp none).2
      rw [frontAppend filled, ← frontAppend filled (later ++ (between ++ [t]))] at next
      rw [List.append_assoc] at short ⊢
      rw [manyGoes (List.append_ne_nil_of_left_ne_nil filled _) next]
      rw [← List.append_assoc later] at short ⊢
      refine bindKept (again (List.append_assoc ..).symm other short closes') ?_ manyRestEnded
      rw [List.append_assoc]
      exact bindKept (again' rfl other fewer.1 fewer.2 closes) (.inl rfl) fun _ => rfl

theorem manyRefuses {tokens expected} (failed : many stop p b tokens = .failed expected tokens) :
    expected = [] ∨ front tokens ≠ stop := by
  cases b with
  | zero =>
    cases failed
    exact .inl rfl
  | succ b =>
    refine .inr fun same => ?_
    rw [manyStops (.inr same)] at failed
    contradiction

theorem manyViable (item : Item limit stop p) {tokens expected rest}
    (short : tokens.length < limit) (failed : many stop p b tokens = .failed expected rest) :
    ∃ taken, tokens = taken ++ rest ∧ Kind.punct .assign ∉ expected ∧
      ∀ ⦃t⦄, t.kind ∈ expected → (taken ++ [t]).length < limit → (taken ++ [t]).length < b →
        (many stop p b (taken ++ [t])).rest = [] := by
  induction b generalizing tokens with
  | zero =>
    cases failed
    exact ⟨[], rfl, List.not_mem_nil, fun _ listed => absurd listed List.not_mem_nil⟩
  | succ b ih =>
    by_cases ends : front tokens = none ∨ front tokens = stop
    · rw [manyStops ends] at failed
      contradiction
    obtain ⟨some', next⟩ := manyFrontNe ends
    rw [manyGoes some' next, Production.bindApply] at failed
    cases begun : p tokens with
    | failed expected' rest' =>
      rw [begun] at failed
      cases failed
      obtain ⟨taken, rfl, assign, again⟩ := item.viable short begun
      refine ⟨taken, rfl, assign, ?_⟩
      intro t listed short enough
      obtain ⟨alone, ends⟩ := again listed short
      have next' : front (taken ++ [t]) ≠ stop := by
        cases taken with
        | nil => exact alone rfl
        | cons u more => exact next
      rw [manyGoes (by simp) next']
      rcases ends with none | ⟨⟨other, taken'⟩, value, found⟩
      · exact bindEnded none manyRestEnded
      · -- All but the new token is the item, and the new token is the next one.
        rw [List.length_append, List.length_singleton] at enough
        obtain ⟨b, rfl⟩ := budgetLeft (by omega : 0 < b)
        rw [Production.bindApply, found]
        refine bindEnded ?_ fun _ => rfl
        rw [manyGoes (List.cons_ne_nil _ _) other]
        exact bindEnded taken' manyRestEnded
    | done first rest' =>
      rw [begun] at failed
      obtain ⟨taken, rfl, filled, again⟩ := item.kept begun
      have positive : 0 < taken.length := List.length_pos_iff.mpr filled
      have fewer : rest'.length < limit := by
        rw [List.length_append] at short
        omega
      have more : many stop p b rest' = .failed expected rest := by
        cases found : many stop p b rest' with
        | done others last =>
          simp only [Production.bindApply, found] at failed
          contradiction
        | failed expected' last =>
          simp only [Production.bindApply, found] at failed
          exact failed
      obtain ⟨later, rfl, assign, again'⟩ := ih fewer more
      refine ⟨taken ++ later, (List.append_assoc ..).symm, assign, ?_⟩
      intro t listed short enough
      have different : t.kind ≠ .punct .assign := fun same => assign (same ▸ listed)
      have closes : later = [] → front rest = stop → some t.kind = stop := by
        rintro rfl same
        rcases manyRefuses more with rfl | other
        · exact absurd listed List.not_mem_nil
        · exact absurd same other
      have fewer : (later ++ [t]).length < limit ∧ (later ++ [t]).length < b := by
        simp only [List.length_append] at short enough ⊢
        omega
      rw [frontAppend filled, ← frontAppend filled (later ++ [t])] at next
      rw [List.append_assoc] at short ⊢
      rw [manyGoes (List.append_ne_nil_of_left_ne_nil filled _) next]
      rcases again rfl different short closes with found | none
      · rw [Production.bindApply, found]
        exact bindEnded (again' listed fewer.1 fewer.2) fun _ => rfl
      · exact bindEnded none manyRestEnded

end Lists

theorem leadsEnclosed {open' close : Punct} {b : Nat} (item : Item limit (some (.punct close)) p)
    (within : limit ≤ b) (other : open' ≠ .assign) (other' : close ≠ .assign) :
    Leads (limit + 1) [.punct open'] takesAll (enclosed open' close p b) := by
  have marks {mark : Punct} (other : mark ≠ .assign) : Kind.punct mark ≠ .punct .assign :=
    fun same => other (Kind.punct.inj same)
  refine leadsAfter (leadsExpect (marks other)) fun opening => ?_
  have ended (items : List α) : ((expect (.punct close) >>= fun closing =>
      pure (opening.span.through closing.span, items) : Production (Span × List α)) []).rest = [] :=
    rfl
  refine ⟨?_, ?_, bindEnded manyEnded ended⟩
  · intro tokens value rest found
    obtain ⟨items, _, list, found⟩ := bindDone.mp found
    obtain ⟨closing, _, last, finished⟩ := bindDone.mp found
    obtain ⟨rfl, closes⟩ := expectDone.mp last
    cases finished
    obtain ⟨taken, rfl, again⟩ := manyKept item list
    refine ⟨taken ++ [closing], by simp, Nat.zero_le _, ?_⟩
    rintro between behind t rfl different short
    rw [List.append_assoc] at short ⊢
    have list' := @again (closing :: between) behind t rfl different short
      (Nat.lt_of_lt_of_le short within) (fun impossible => absurd impossible (List.cons_ne_nil _ _))
    exact bindKept list' (.inl (expectFound closes rfl)) ended
  · intro tokens expected rest short failed
    rw [Production.bindApply] at failed
    cases list : many (some (.punct close)) p b tokens with
    | failed expected' rest' =>
      rw [list] at failed
      cases failed
      obtain ⟨taken, split, assign, again⟩ := manyViable item short list
      refine ⟨taken, split, assign, ?_⟩
      intro t listed short'
      exact .inl (bindEnded (again listed short' (Nat.lt_of_lt_of_le short' within)) ended)
    | done items rest' =>
      rw [list] at failed
      obtain ⟨taken, rfl, again⟩ := manyKept item list
      cases last : expect (.punct close) rest' with
      | done closing rest'' =>
        simp only [Production.bindApply, last] at failed
        contradiction
      | failed expected' rest'' =>
        simp only [Production.bindApply, last] at failed
        cases failed
        obtain ⟨rfl, rfl, _⟩ := oneOfFailed last
        refine ⟨taken, rfl, fun among => marks other' (List.mem_singleton.mp among).symm, ?_⟩
        intro t listed short'
        have kind : t.kind = .punct close := List.mem_singleton.mp listed
        have list' := @again [] rest t rfl (kind ▸ marks other') short'
          (Nat.lt_of_lt_of_le short' within) (fun _ => congrArg some kind)
        have taken' : expect (.punct close) [t] = .done t [] := expectDone.mpr ⟨rfl, kind⟩
        refine bindViable list' (.inl ?_) ended
        rw [List.nil_append, Production.bindApply, taken']
        rfl

end ScriptTree.Grammar
