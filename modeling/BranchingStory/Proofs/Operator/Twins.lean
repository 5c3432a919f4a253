import BranchingStory.Proofs.Value.Twins

/-!
# Operators on twins

With one operand, an operator makes twins of twins or refuses both for the same reason. For a list
this rests on membership, which twins share, and for a map on what is found under each name after
entries are put or taken away. Applied to a value and itself, the same says that an exact value
stays exact.
-/

namespace BranchingStory

open Value (Twins Exact)

/-- Two results go together: they are the same error, or both are there and related. -/
inductive SameResult {ε α : Type} (R : α → α → Prop) : Except ε α → Except ε α → Prop
  | error (e : ε) : SameResult R (.error e) (.error e)
  | ok {a b : α} (h : R a b) : SameResult R (.ok a) (.ok b)

/-- Results that go together are one error, or both there and related. -/
theorem SameResult.cases {ε α : Type} {R : α → α → Prop} {r q : Except ε α}
    (h : SameResult R r q) :
    (∃ e, r = .error e ∧ q = .error e) ∨ ∃ a b, r = .ok a ∧ q = .ok b ∧ R a b := by
  cases h with
  | error e => exact .inl ⟨e, rfl, rfl⟩
  | ok h => exact .inr ⟨_, _, rfl, rfl, h⟩

/-- A result goes with itself if what is there is related to itself. -/
theorem SameResult.refl {ε α : Type} {R : α → α → Prop} {r : Except ε α}
    (h : ∀ a, r = .ok a → R a a) : SameResult R r r := by
  cases r with
  | error e => exact .error e
  | ok a => exact .ok (h a rfl)

namespace Value

variable {as bs more : Entries Value}

/-- Maps stay twins when twins are put under one name. -/
theorem Twins.put {v w : Value} (h : Twins (map as) (map bs)) (hv : Twins v w) (key : String) :
    Twins (map (Entries.put key v as)) (map (Entries.put key w bs)) := by
  rw [twins_map] at h ⊢
  refine ⟨h.1.put key v, h.2.1.put key w, fun other => ?_⟩
  by_cases hkey : key = other
  · subst hkey
    rw [Entries.value?_put_self, Entries.value?_put_self]
    exact .some hv
  · rw [Entries.value?_put_ne hkey, Entries.value?_put_ne hkey]
    exact h.2.2 other

/-- Maps stay twins when exact values are put, one after the other. -/
theorem Twins.putAll (h : Twins (map as) (map bs)) (hmore : ∀ e ∈ more, e.2.Exact) :
    Twins (map (Entries.putAll as more)) (map (Entries.putAll bs more)) := by
  induction more generalizing as bs with
  | nil => exact h
  | cons e more ih =>
    rw [List.forall_mem_cons] at hmore
    exact ih (h.put hmore.1.twins e.1) hmore.2

/-- Maps stay twins when entries are kept by their names. -/
theorem Twins.filter (h : Twins (map as) (map bs)) (kept : String → Bool) :
    Twins (map (as.filter fun e => kept e.1)) (map (bs.filter fun e => kept e.1)) := by
  rw [twins_map] at h ⊢
  have hdistinct : ∀ m : Entries Value, m.Distinct →
      Entries.Distinct (m.filter fun e => kept e.1) :=
    fun m hm => List.Nodup.sublist (List.filter_sublist.map _) hm
  refine ⟨hdistinct as h.1, hdistinct bs h.2.1, fun key => ?_⟩
  rw [Entries.value?_filter, Entries.value?_filter]
  split
  · exact h.2.2 key
  · exact .none

end Value

namespace Operator

variable {as bs more : List Value} {v w operand : Value} (key : String)

/-- Twins are in the same lists, and so are lists that have twins at each place. -/
theorem contains_eq_of_twins (h : List.Forall₂ Twins as bs) (hv : Twins v w) :
    as.contains v = bs.contains w := by
  induction h with
  | nil => rfl
  | cons hab _ ih => rw [List.contains_cons, List.contains_cons, ih, hv.beq_eq hab]

/-- An exact item is appended to both of two twin lists or to neither. -/
theorem forall₂_addItem (h : List.Forall₂ Twins as bs) (hv : v.Exact) :
    List.Forall₂ Twins (addItem as v) (addItem bs v) := by
  unfold addItem
  rw [contains_eq_of_twins h hv.twins]
  split
  · exact h
  · exact List.rel_append h (.cons hv.twins .nil)

/-- Lists with twins at each place are so after they are united with the same exact items. -/
theorem forall₂_unite (h : List.Forall₂ Twins as bs) (hmore : ∀ v ∈ more, v.Exact) :
    List.Forall₂ Twins (unite as more) (unite bs more) := by
  induction more generalizing as bs with
  | nil => exact h
  | cons v more ih =>
    rw [List.forall_mem_cons] at hmore
    exact ih (forall₂_addItem h hmore.1) hmore.2

/-- Lists with twins at each place are so after the same exact items are taken away. -/
theorem forall₂_without (h : List.Forall₂ Twins as bs) (hmore : ∀ v ∈ more, v.Exact) :
    List.Forall₂ Twins (without as more) (without bs more) := by
  have hmore : List.Forall₂ Twins more more :=
    List.forall₂_same.2 fun v hv => (hmore v hv).twins
  refine List.rel_filter (fun v w hvw => ?_) h
  dsimp only
  rw [contains_eq_of_twins hmore hvw]

/-- The items that an exact operand brings are exact. -/
theorem exact_of_mem_operandItems (h : operand.Exact) : ∀ v ∈ operandItems operand, v.Exact := by
  cases operand with
  | list items => exact Value.exact_list.1 h
  | _ => exact List.forall_mem_singleton.2 h

/-- An integer result is exact. -/
theorem exact_of_intResult {i : Int} {next : Value} (h : intResult key i = .ok next) :
    next.Exact := by
  unfold intResult at h
  split at h <;> cases h
  exact (Value.exact_iff_of_isScalar rfl).2 (by simp [Value.type])

/-- The sum of a scalar and an exact operand is exact. -/
theorem exact_sum (hv : v.Exact) (hscalar : v.isScalar = true) {next : Value}
    (h : sum key v operand = .ok next) : next.Exact := by
  cases v with
  | int a =>
    cases operand <;> simp only [sum, reduceCtorEq] at h
    exact exact_of_intResult key h
  | text a =>
    cases operand <;> cases h
    exact (Value.exact_iff_of_isScalar rfl).2 (by simp [Value.type])
  | float x => exact absurd rfl ((Value.exact_iff_of_isScalar rfl).1 hv)
  | list _ | map _ => cases hscalar
  | null | bool _ | ref _ => cases operand <;> cases h

/-- The difference of a scalar and an exact operand is exact. -/
theorem exact_difference (hv : v.Exact) (hscalar : v.isScalar = true) {next : Value}
    (h : difference key v operand = .ok next) : next.Exact := by
  cases v with
  | int a =>
    cases operand <;> simp only [difference, reduceCtorEq] at h
    exact exact_of_intResult key h
  | float x => exact absurd rfl ((Value.exact_iff_of_isScalar rfl).1 hv)
  | list _ | map _ => cases hscalar
  | null | bool _ | text _ | ref _ => cases operand <;> cases h

/-- The sums of twins and one operand go together. -/
theorem sameResult_sum (h : Twins v w) (ho : operand.Exact) :
    SameResult Twins (sum key v operand) (sum key w operand) := by
  rcases h.cases with ⟨rfl, hscalar⟩ | ⟨as, bs, rfl, rfl, hitems⟩ | ⟨as, bs, rfl, rfl, hmap⟩
  · exact .refl fun next hnext => (exact_sum key h.left hscalar hnext).twins
  · exact .ok (Value.twins_list.2 (forall₂_unite hitems (exact_of_mem_operandItems ho)))
  · cases operand with
    | map more => exact .ok (hmap.putAll (Value.exact_map.1 ho).2)
    | _ => exact .error _

/-- The differences of twins and one operand go together. -/
theorem sameResult_difference (h : Twins v w) (ho : operand.Exact) :
    SameResult Twins (difference key v operand) (difference key w operand) := by
  rcases h.cases with ⟨rfl, hscalar⟩ | ⟨as, bs, rfl, rfl, hitems⟩ | ⟨as, bs, rfl, rfl, hmap⟩
  · exact .refl fun next hnext => (exact_difference key h.left hscalar hnext).twins
  · exact .ok (Value.twins_list.2 (forall₂_without hitems (exact_of_mem_operandItems ho)))
  · cases operand with
    | text name => exact .ok (hmap.filter (· != name))
    | list keys =>
      simp only [difference]
      cases keyTexts keys with
      | ok names => exact .ok (hmap.filter fun name => !names.contains name)
      | error found => exact .error _
    | _ => exact .error _

/-- An attribute that is absent or null on one of two sides is so on the other. -/
theorem rel_present? {current other : Option Value} (h : Option.Rel Twins current other) :
    Option.Rel Twins (present? current) (present? other) := by
  cases h with
  | none => exact .none
  | @some v w h =>
    have hnull : v.isNull = w.isNull := by
      rcases h.cases with ⟨rfl, -⟩ | ⟨as, bs, rfl, rfl, -⟩ | ⟨as, bs, rfl, rfl, -⟩ <;> rfl
    rw [present?, present?, hnull]
    split
    · exact .none
    · exact .some h

/-- The next values of attributes that have twins go together. -/
theorem sameResult_apply (op : Operator) {current other : Option Value}
    (h : Option.Rel Twins current other) (ho : operand.Exact) :
    SameResult (Option.Rel Twins) (op.apply key current operand) (op.apply key other operand) := by
  have hpresent := rel_present? h
  unfold apply
  generalize present? current = before, present? other = otherBefore at hpresent ⊢
  cases op with
  | equal => exact .ok (.some ho.twins)
  | add =>
    cases hpresent with
    | none => exact .ok (.some ho.twins)
    | some h =>
      rcases (sameResult_sum key h ho).cases with ⟨e, hv, hw⟩ | ⟨a, b, hv, hw, hnext⟩ <;>
        simp only [hv, hw]
      · exact .error e
      · exact .ok (.some hnext)
  | subtract =>
    cases hpresent with
    | none => exact .ok .none
    | some h =>
      rcases (sameResult_difference key h ho).cases with ⟨e, hv, hw⟩ | ⟨a, b, hv, hw, hnext⟩ <;>
        simp only [hv, hw]
      · exact .error e
      · exact .ok (.some hnext)

end Operator

end BranchingStory
