import BranchingStory.Table
import Mathlib.Data.List.Forall2

/-!
# Related tables

Two tables have related values at each place if and only if they have related values under each
name, where a value is related to a value only. A comparison of the lists goes by place, and what is
known of tables goes by name.
-/

namespace BranchingStory

variable {α : Type} {R : α → α → Prop} {o p : Option α}

/-- What is related to something is something. -/
theorem exists_of_rel_some {a : α} (h : Option.Rel R (some a) p) : ∃ b, p = some b ∧ R a b := by
  cases h with
  | some h => exact ⟨_, rfl, h⟩

/-- What is related is there on both sides or on neither. -/
theorem isSome_eq_of_rel (h : Option.Rel R o p) : o.isSome = p.isSome := by
  cases h <;> rfl

namespace Table

/-- Lists with related values at each place have related values under each name. -/
theorem rel_find? {l m : List (String × α)}
    (h : List.Forall₂ (fun a b => a.1 = b.1 ∧ R a.2 b.2) l m) (key : String) :
    Option.Rel R (find? key l) (find? key m) := by
  induction h with
  | nil => exact .none
  | cons hab _ ih =>
    rw [find?, find?, hab.1]
    split
    · exact .some hab.2
    · exact ih

/-- Lists with the same distinct names in the same order have related values at each place if they
have related values under each name. -/
theorem forall₂_of_find? {l m : List (String × α)} (hkeys : l.map Prod.fst = m.map Prod.fst)
    (hnodup : (l.map Prod.fst).Nodup) (h : ∀ key, Option.Rel R (find? key l) (find? key m)) :
    List.Forall₂ (fun a b => a.1 = b.1 ∧ R a.2 b.2) l m := by
  induction l generalizing m with
  | nil =>
    obtain rfl := List.map_eq_nil_iff.1 hkeys.symm
    exact .nil
  | cons a l ih =>
    cases m with
    | nil => cases hkeys
    | cons b m =>
      rw [List.map_cons, List.map_cons, List.cons.injEq] at hkeys
      rw [List.map_cons, List.nodup_cons] at hnodup
      refine .cons ⟨hkeys.1, ?_⟩ (ih hkeys.2 hnodup.2 fun key => ?_)
      · have hfirst := h a.1
        rw [find?, find?, if_pos rfl, if_pos hkeys.1.symm] at hfirst
        cases hfirst with
        | some hfirst => exact hfirst
      · by_cases hkey : a.1 = key
        · have hl : find? key l = none := find?_eq_none_of_notMem (hkey ▸ hnodup.1)
          have hm : find? key m = none := find?_eq_none_of_notMem (hkey ▸ hkeys.2 ▸ hnodup.1)
          rw [hl, hm]
          exact .none
        · have hrest := h key
          rwa [find?, find?, if_neg hkey, if_neg (hkeys.1 ▸ hkey)] at hrest

/-- Tables have related values at each place if and only if they have related values under each
name. -/
theorem forall₂_entries_iff {t u : Table α} :
    List.Forall₂ (fun a b => a.1 = b.1 ∧ R a.2 b.2) t.entries u.entries ↔
      ∀ key, Option.Rel R (t.get? key) (u.get? key) := by
  refine ⟨rel_find?, fun h => forall₂_of_find? ?_ t.nodup_keys h⟩
  exact keys_eq_of_isSome fun key => isSome_eq_of_rel (h key)

end Table

end BranchingStory
