import BranchingStory.Json.Basic

/-!
# Records in documents

A record with named parts is written as an object, in any order of its fields, or as an array of its
parts in their own order with parts missing at the end. No part may be given twice. A closed record
refuses fields of other names and an open one skips them, whatever they hold.
-/

namespace BranchingStory.Json

/-- The field of the given name: absent, or its document. `none` when it is given more than once. -/
def field? (fields : List (String × Json)) (name : String) : Option (Option Json) :=
  match fields.filter fun f => f.1 == name with
  | [] => some none
  | [f] => some (some f.2)
  | _ => none

/-- The fields of the given names, one for each name. -/
def fieldsOf? (fields : List (String × Json)) : List String → Option (List (Option Json))
  | [] => some []
  | name :: rest =>
    match field? fields name, fieldsOf? fields rest with
    | some part, some parts => some (part :: parts)
    | _, _ => none

/-- The parts of an array record, one for each name; those that it leaves out are absent. -/
def itemsOf? : List Json → List String → Option (List (Option Json))
  | [], names => some (names.map fun _ => none)
  | _ :: _, [] => none
  | j :: items, _ :: names => (itemsOf? items names).map (some j :: ·)

/-- The parts of a record of the given names. -/
def parts? (closed : Bool) (names : List String) : Json → Option (List (Option Json))
  | .object fields =>
    if closed && fields.any fun f => !names.contains f.1 then none else fieldsOf? fields names
  | .array items => itemsOf? items names
  | _ => none

/-- In an object with distinct names, a field is found by its name. -/
theorem field?_of_mem {fields : List (String × Json)} (h : (fields.map Prod.fst).Nodup)
    {f : String × Json} (hf : f ∈ fields) : field? fields f.1 = some (some f.2) := by
  induction fields with
  | nil => cases hf
  | cons g fields ih =>
    rw [List.map_cons, List.nodup_cons] at h
    have hother : ∀ f ∈ fields, g.1 ≠ f.1 := fun f hf he => h.1 (he ▸ List.mem_map_of_mem hf)
    unfold field?
    rcases List.mem_cons.1 hf with rfl | hf
    · have hnone : fields.filter (fun g => g.1 == f.1) = [] :=
        List.filter_eq_nil_iff.2 fun g hg => by simpa using (hother g hg).symm
      rw [List.filter_cons, if_pos (beq_self_eq_true f.1), hnone]
    · have hne : ¬ (g.1 == f.1) = true := by simpa using hother f hf
      rw [List.filter_cons, if_neg hne]
      exact ih h.2 hf

/-- The fields of an object with distinct names, asked for by these names, are what they hold. -/
theorem fieldsOf?_names {fields : List (String × Json)} (h : (fields.map Prod.fst).Nodup) :
    fieldsOf? fields (fields.map Prod.fst) = some (fields.map fun f => some f.2) := by
  have hall : ∀ asked : List (String × Json), (∀ f ∈ asked, f ∈ fields) →
      fieldsOf? fields (asked.map Prod.fst) = some (asked.map fun f => some f.2) := by
    intro asked
    induction asked with
    | nil => exact fun _ => rfl
    | cons f asked ih =>
      intro hasked
      rw [List.forall_mem_cons] at hasked
      rw [List.map_cons, fieldsOf?, field?_of_mem h hasked.1, ih hasked.2, List.map_cons]
  exact hall fields fun _ hf => hf

/-- An object with all fields of a record, in order and no others, has them for its parts. -/
theorem parts?_object (closed : Bool) (j : Json) (names : List String)
    {fields : List (String × Json)} (hj : j = .object fields)
    (hnames : fields.map Prod.fst = names) (h : names.Nodup) :
    parts? closed names j = some (fields.map fun f => some f.2) := by
  subst hj hnames
  have hknown : (fields.any fun f => !(fields.map Prod.fst).contains f.1) = false := by
    rw [List.any_eq_false]
    intro f hf
    simpa using ⟨f.2, hf⟩
  rw [parts?, hknown, Bool.and_false, if_neg Bool.false_ne_true, fieldsOf?_names h]

/-- The part that stands for a known value when it is absent. -/
def withDefault? {α : Type} (value : α) (read : Json → Option α) : Option Json → Option α
  | some j => read j
  | none => some value

end BranchingStory.Json
