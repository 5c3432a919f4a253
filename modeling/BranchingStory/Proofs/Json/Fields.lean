import BranchingStory.Json.Record
import BranchingStory.Proofs.Json.RoundTrip

/-!
# Fields are found by name

A reader asks for fields by name, so their order does not matter to it, nor do fields of other
names, nor any that are taken away unless it asks for them. What has a lasting text is readable.
-/

namespace BranchingStory

namespace Json

mutual

/-- A document of which nothing is lost in its text is readable. -/
theorem Lasting.readable : ∀ {j : Json}, j.Lasting → j.readable = true
  | .null, _ => rfl
  | .bool _, _ => rfl
  | .number _, _ => rfl
  | .string _, _ => rfl
  | .array items, h => by
    rw [Lasting] at h
    rw [Json.readable]
    exact readableItems_of_lasting h
  | .object fields, h => by
    rw [Lasting] at h
    rw [Json.readable]
    exact readableFields_of_lasting h

/-- Items of which nothing is lost are readable. -/
theorem readableItems_of_lasting : ∀ {items : List Json}, LastingItems items →
    readableItems items = true
  | [], _ => rfl
  | j :: items, h => by
    rw [LastingItems] at h
    rw [readableItems, h.1.readable, readableItems_of_lasting h.2, Bool.and_self]

/-- Fields of which nothing is lost are readable. -/
theorem readableFields_of_lasting : ∀ {fields : List (String × Json)}, LastingFields fields →
    readableFields fields = true
  | [], _ => rfl
  | (key, j) :: fields, h => by
    rw [LastingFields] at h
    rw [readableFields, h.1.readable, readableFields_of_lasting h.2, Bool.and_self]

end

variable {fields : List (String × Json)} {f : String × Json}

/-- A field that is found is the only one of its name. -/
theorem filter_name_of_mem (h : (fields.map Prod.fst).Nodup) (hf : f ∈ fields) :
    fields.filter (fun g => g.1 == f.1) = [f] := by
  have hfound := field?_of_mem h hf
  have hmem : f ∈ fields.filter fun g => g.1 == f.1 := List.mem_filter.2 ⟨hf, beq_self_eq_true _⟩
  unfold field? at hfound
  split at hfound
  · cases hfound
  · next g hg =>
    rw [hg, List.mem_singleton] at hmem
    rw [hg, hmem]
  · cases hfound

/-- Fields of another name may be taken away before a field is asked for. -/
theorem field?_filter_ne {name other : String} (h : name ≠ other) :
    field? (fields.filter fun g => g.1 != other) name = field? fields name := by
  have hsame : (fields.filter fun g => g.1 != other).filter (fun g => g.1 == name) =
      fields.filter fun g => g.1 == name := by
    rw [List.filter_filter]
    refine List.filter_congr fun g _ => ?_
    by_cases hg : g.1 = name
    · simp [hg, h]
    · simp [hg]
  rw [field?, field?, hsame]

/-- Fields that are, with some left out, given ones of distinct names among others in any order,
hold a given field unless it is one of those left out. -/
theorem field?_of_perm {given left other : List (String × Json)}
    (hperm : (fields ++ left).Perm (given ++ other)) (hgiven : (given.map Prod.fst).Nodup)
    (hf : f ∈ given) (hother : ∀ g ∈ other, g.1 ≠ f.1) :
    field? fields f.1 = some (some f.2) ∨ field? fields f.1 = some none ∧ f ∈ left := by
  have hnone : other.filter (fun g => g.1 == f.1) = [] :=
    List.filter_eq_nil_iff.2 fun g hg => by simpa using hother g hg
  have hone : fields.filter (fun g => g.1 == f.1) ++ left.filter (fun g => g.1 == f.1) = [f] := by
    have hfiltered := hperm.filter fun g => g.1 == f.1
    rw [List.filter_append, List.filter_append, filter_name_of_mem hgiven hf, hnone,
      List.append_nil] at hfiltered
    exact List.perm_singleton.1 hfiltered
  rcases List.append_eq_singleton_iff.1 hone with ⟨hfields, hleft⟩ | ⟨hfields, -⟩
  · refine .inr ⟨by rw [field?, hfields], ?_⟩
    have hmem : f ∈ left.filter fun g => g.1 == f.1 := hleft ▸ List.mem_singleton_self f
    exact (List.mem_filter.1 hmem).1
  · exact .inl (by rw [field?, hfields])

end Json

end BranchingStory
