import BranchingStory.Operation.Wire
import BranchingStory.Proofs.Value.Equality

/-!
# What is read is well formed

Reading an object puts its fields one after the other, so each map of a value that is read has
distinct names at every depth. Operations that come from documents are well formed for that reason.
-/

namespace BranchingStory

namespace Value

/-- A map whose entries are put one after the other is well formed. -/
theorem wellFormed_ofList {pairs : List (String × Value)} (h : WellFormedEntries pairs) :
    (map (Entries.ofList pairs)).WellFormed := by
  rw [WellFormed, wellFormedEntries_iff]
  refine ⟨Entries.distinct_ofList pairs, fun e he => ?_⟩
  rcases Entries.mem_putAll he with he | he
  · cases he
  · exact (wellFormedEntries_iff pairs).1 h e he

mutual

/-- A value that is read is well formed. -/
theorem wellFormed_of_ofJson? : ∀ {j : Json} {v : Value}, ofJson? j = some v → v.WellFormed
  | .null, _, h => by
    cases h
    trivial
  | .bool _, _, h => by
    cases h
    trivial
  | .number n, _, h => by
    cases h
    unfold ofNumber
    split
    · split <;> trivial
    · trivial
  | .string _, _, h => by
    cases h
    trivial
  | .array items, _, h => by
    rw [ofJson?, Option.map_eq_some_iff] at h
    obtain ⟨vs, hvs, rfl⟩ := h
    rw [WellFormed]
    exact wellFormedItems_of_ofItems? hvs
  | .object fields, _, h => by
    rw [ofJson?] at h
    split at h
    · cases h
      trivial
    · rw [Option.map_eq_some_iff] at h
      obtain ⟨pairs, hpairs, rfl⟩ := h
      exact wellFormed_ofList (wellFormedEntries_of_ofFields? hpairs)
  | .unreadable, _, h => by cases h

/-- Items that are read are well formed. -/
theorem wellFormedItems_of_ofItems? : ∀ {items : List Json} {vs : List Value},
    ofItems? items = some vs → WellFormedItems vs
  | [], _, h => by
    cases h
    trivial
  | j :: rest, _, h => by
    rw [ofItems?] at h
    split at h
    · next hv hvs =>
      cases h
      rw [WellFormedItems]
      exact ⟨wellFormed_of_ofJson? hv, wellFormedItems_of_ofItems? hvs⟩
    · cases h

/-- Fields that are read are well formed. -/
theorem wellFormedEntries_of_ofFields? : ∀ {fields : List (String × Json)}
    {pairs : List (String × Value)}, ofFields? fields = some pairs → WellFormedEntries pairs
  | [], _, h => by
    cases h
    trivial
  | (key, j) :: rest, _, h => by
    rw [ofFields?] at h
    split at h
    · next hv hpairs =>
      cases h
      rw [WellFormedEntries]
      exact ⟨wellFormed_of_ofJson? hv, wellFormedEntries_of_ofFields? hpairs⟩
    · cases h

end

end Value

namespace Operation

/-- A creation that is read is well formed. -/
private theorem wellFormed_of_createOf? {body : Json} {op : Operation}
    (h : createOf? body = some op) : op.WellFormed := by
  unfold createOf? at h
  split at h
  · next kind id attributes _ =>
    simp only [Option.bind_eq_bind, Option.bind_eq_some_iff, Option.pure_def,
      Option.some.injEq] at h
    obtain ⟨target, -, entries, hentries, rfl⟩ := h
    cases attributes with
    | none =>
      cases hentries
      have hnil : Value.WellFormedEntries [] := trivial
      exact Value.wellFormed_ofList hnil
    | some j =>
      rw [Json.withDefault?, Value.entriesOf?, Option.map_eq_some_iff] at hentries
      obtain ⟨pairs, hpairs, rfl⟩ := hentries
      obtain ⟨fields, -, hfields⟩ := Option.bind_eq_some_iff.1 hpairs
      exact Value.wellFormed_ofList (Value.wellFormedEntries_of_ofFields? hfields)
  · cases h

/-- A modification that is read is well formed. -/
private theorem wellFormed_of_modifyOf? {body : Json} {op : Operation}
    (h : modifyOf? body = some op) : op.WellFormed := by
  unfold modifyOf? at h
  split at h
  · next kind id key op value _ =>
    simp only [Option.bind_eq_bind, Option.bind_eq_some_iff, Option.pure_def,
      Option.some.injEq] at h
    obtain ⟨target, -, key, -, op, -, v, hv, rfl⟩ := h
    cases value with
    | none =>
      cases hv
      trivial
    | some j => exact Value.wellFormed_of_ofJson? hv
  · cases h

/-- A deletion that is read is well formed. -/
private theorem wellFormed_of_deleteOf? {body : Json} {op : Operation}
    (h : deleteOf? body = some op) : op.WellFormed := by
  unfold deleteOf? at h
  split at h
  · obtain ⟨target, -, rfl⟩ := Option.map_eq_some_iff.1 h
    trivial
  · cases h

/-- An operation of any tag that is read is well formed. -/
private theorem wellFormed_of_ofTagged? {tag : String} {body : Json} {op : Operation}
    (h : ofTagged? tag body = some op) : op.WellFormed := by
  unfold ofTagged? at h
  split at h
  · exact wellFormed_of_createOf? h
  · split at h
    · exact wellFormed_of_modifyOf? h
    · split at h
      · exact wellFormed_of_deleteOf? h
      · cases h

/-- An operation that is read is well formed. -/
theorem wellFormed_of_ofJson? {j : Json} {op : Operation} (h : ofJson? j = some op) :
    op.WellFormed := by
  unfold ofJson? at h
  split at h
  · cases h
  · split at h
    · split at h
      · exact wellFormed_of_ofTagged? h
      · cases h
    · exact wellFormed_of_ofTagged? h
    · cases h

end Operation

end BranchingStory
