import BranchingStory.Proofs.Operator.Sequence
import BranchingStory.Proofs.Value.Equality
import Mathlib.Data.List.Induction

/-!
# Lists as sets

To a list, addition appends what is not there and subtraction leaves what is not taken away, where
an item is there if the same one is. Everything follows from one fact: an item is in the union if it
is in the list or among the items that are added. It holds because two items that are the same as a
third one are the same, so it does not matter with which of them a skipped item was compared.
-/

namespace BranchingStory

/-- Items are well formed when each of them is. -/
theorem Value.wellFormedItems_iff (items : List Value) :
    WellFormedItems items ↔ ∀ v ∈ items, v.WellFormed := by
  induction items with
  | nil => simp [WellFormedItems]
  | cons v items ih => rw [WellFormedItems, ih, List.forall_mem_cons]

namespace Operator

variable {items more : List Value} {v : Value}

/-- An item is not in a list when it is the same as none of its items. -/
theorem contains_eq_false_iff : items.contains v = false ↔ ∀ w ∈ items, (v == w) = false := by
  rw [List.contains_eq_any_beq, List.any_eq_false]
  simp only [Bool.not_eq_true]

/-- An item is in a list with one more item if it is in the list or the same as that one. -/
theorem contains_addItem (items : List Value) (w v : Value) :
    (addItem items w).contains v = (items ++ [w]).contains v := by
  unfold addItem
  split
  · next hw =>
    rw [List.contains_append]
    cases hv : items.contains v with
    | true => rfl
    | false =>
      -- Whatever is the same as the skipped item is the same as the item it was skipped for.
      obtain ⟨u, hu, hwu⟩ := List.contains_iff_exists_mem_beq.1 hw
      have hne : (v == w) = false := by
        cases hvw : v == w with
        | false => rfl
        | true =>
          have hvu : (v == u) = true := Value.same_trans hvw hwu
          rw [contains_eq_false_iff.1 hv u hu] at hvu
          cases hvu
      simp [hne]
  · rfl

/-- An item is in the union if it is in the list or among the items that are added. -/
theorem contains_unite (items more : List Value) (v : Value) :
    (unite items more).contains v = (items ++ more).contains v := by
  induction more generalizing items with
  | nil => rw [List.append_nil]; rfl
  | cons w more ih =>
    have hsplit : items ++ w :: more = (items ++ [w]) ++ more := by simp
    rw [hsplit, List.contains_append, ← contains_addItem, ← List.contains_append]
    exact ih (addItem items w)

/-- The items of a list that are the same as none of another one and as none before them. -/
def newItems (items more : List Value) : List Value :=
  (more.zipIdx.filter fun e : Value × Nat =>
    decide (∀ w ∈ items ++ more.take e.2, (e.1 == w) = false)).map Prod.fst

/-- One more item at the end is new if it is the same as none of the others. -/
theorem newItems_concat (items more : List Value) (v : Value) :
    newItems items (more ++ [v]) =
      newItems items more ++ if (items ++ more).contains v then [] else [v] := by
  unfold newItems
  rw [List.zipIdx_append, List.filter_append, List.map_append]
  congr 1
  · refine congrArg _ (List.filter_congr fun e he => ?_)
    rw [List.take_append_of_le_length (by have := (List.mem_zipIdx he).2.1; omega)]
  · rw [List.zipIdx_singleton, Nat.zero_add, List.filter_singleton]
    simp only [List.take_left, ← contains_eq_false_iff]
    cases (items ++ more).contains v <;> rfl

/-- The union is the list and then the new items in order. -/
theorem unite_eq (items more : List Value) : unite items more = items ++ newItems items more := by
  -- The induction takes items away from the end, where new ones are appended.
  induction more using List.reverseRecOn with
  | nil => exact (List.append_nil items).symm
  | append_singleton more v ih =>
    have hlast : unite items (more ++ [v]) = addItem (unite items more) v := List.foldl_concat ..
    rw [hlast, addItem, contains_unite, newItems_concat, ih]
    split
    · rw [List.append_nil]
    · rw [List.append_assoc]

/-- What is new is among the items that are added. -/
theorem mem_of_mem_newItems (h : v ∈ newItems items more) : v ∈ more := by
  obtain ⟨e, he, rfl⟩ := List.mem_map.1 h
  exact List.mem_of_getElem? (List.mem_zipIdx_iff_getElem?.1 (List.mem_filter.1 he).1)

/-- Items that are all there add nothing. -/
theorem unite_eq_self (h : ∀ v ∈ more, items.contains v = true) : unite items more = items := by
  induction more with
  | nil => rfl
  | cons v more ih =>
    rw [List.forall_mem_cons] at h
    have hfirst : addItem items v = items := if_pos h.1
    rw [unite, List.foldl_cons, hfirst]
    exact ih h.2

/-- An item that is the same as itself is in each list that has it. -/
theorem contains_of_mem (hv : v ∈ items) (hself : (v == v) = true) : items.contains v = true :=
  List.contains_iff_exists_mem_beq.2 ⟨v, hv, hself⟩

/-- Items that are the same as themselves add nothing when they are added again. -/
theorem unite_unite (items : List Value) (hself : ∀ v ∈ more, (v == v) = true) :
    unite (unite items more) more = unite items more := by
  refine unite_eq_self fun v hv => ?_
  rw [contains_unite, List.contains_append, contains_of_mem hv (hself v hv), Bool.or_true]

/-- Taking the same items away again changes nothing. -/
theorem without_without (items removed : List Value) :
    without (without items removed) removed = without items removed := by
  simp only [without, List.filter_filter, Bool.and_self]

/-- Taking items away that are the same as themselves leaves nothing of what their addition
brought. -/
theorem without_unite (items : List Value) (hself : ∀ v ∈ more, (v == v) = true) :
    without (unite items more) more = without items more := by
  have hnew : without (newItems items more) more = [] :=
    List.filter_eq_nil_iff.2 fun v hv => by
      have hmem := mem_of_mem_newItems hv
      simp [contains_of_mem hmem (hself v hmem)]
  rw [unite_eq, without, List.filter_append]
  exact (congrArg _ hnew).trans (List.append_nil _)

/-- No two items at different places are the same. -/
def AllDifferent (items : List Value) : Prop :=
  items.Pairwise fun v w => (v == w) = false ∧ (w == v) = false

/-- Values that are not the same are so in both orders. -/
theorem not_same_comm {w : Value} (hv : v.WellFormed) (hw : w.WellFormed)
    (h : (v == w) = false) : (w == v) = false := by
  cases hwv : w == v with
  | false => rfl
  | true =>
    have hvw : (v == w) = true := Value.same_symm hw hv hwv
    rw [h] at hvw
    cases hvw

/-- Adding an item to well-formed items that are all different leaves such items. -/
theorem AllDifferent.addItem (h : AllDifferent items) (hitems : ∀ w ∈ items, w.WellFormed)
    (hv : v.WellFormed) :
    AllDifferent (Operator.addItem items v) ∧ ∀ w ∈ Operator.addItem items v, w.WellFormed := by
  unfold Operator.addItem
  split
  · exact ⟨h, hitems⟩
  · next hnew =>
    have hnone := contains_eq_false_iff.1 (by simpa using hnew)
    refine ⟨List.pairwise_append.2 ⟨h, List.pairwise_singleton _ _, fun w hw u hu => ?_⟩,
      List.forall_mem_append.2 ⟨hitems, List.forall_mem_singleton.2 hv⟩⟩
    obtain rfl := List.mem_singleton.1 hu
    exact ⟨not_same_comm hv (hitems w hw) (hnone w hw), hnone w hw⟩

/-- Uniting well-formed items that are all different with others leaves such items. -/
theorem AllDifferent.unite (h : AllDifferent items) (hitems : ∀ w ∈ items, w.WellFormed)
    (hmore : ∀ w ∈ more, w.WellFormed) :
    AllDifferent (Operator.unite items more) ∧ ∀ w ∈ Operator.unite items more, w.WellFormed := by
  induction more generalizing items with
  | nil => exact ⟨h, hitems⟩
  | cons v more ih =>
    rw [List.forall_mem_cons] at hmore
    obtain ⟨hnext, hnextItems⟩ := h.addItem hitems hmore.1
    exact ih hnext hnextItems hmore.2

/-- What an operand brings to a list: its items in order if it is a list, and otherwise the operand
alone. -/
inductive Brings : Value → List Value → Prop
  | list (items : List Value) : Brings (.list items) items
  | single {v : Value} (h : ∀ items, v ≠ .list items) : Brings v [v]

/-- Each operand brings one list of items. -/
theorem brings_iff {operand : Value} : Brings operand more ↔ more = operandItems operand := by
  constructor
  · rintro (_ | hsingle)
    · rfl
    · cases operand with
      | list items => exact absurd rfl (hsingle items)
      | _ => rfl
  · rintro rfl
    cases operand with
    | list items => exact .list items
    | _ => exact .single nofun

/-- The items that an operand brings to a list operator are well formed if the operand is. -/
theorem wellFormed_of_mem_operandItems {operand : Value} (h : operand.WellFormed)
    (hv : v ∈ operandItems operand) : v.WellFormed := by
  cases operand with
  | list items =>
    rw [Value.WellFormed] at h
    exact (Value.wellFormedItems_iff items).1 h v hv
  | _ =>
    obtain rfl := List.mem_singleton.1 hv
    exact h

/-- Adding to a list unites it with the items of the operand. -/
theorem apply_add_list (key : String) (items : List Value) (operand : Value) :
    apply .add key (some (.list items)) operand =
      .ok (some (.list (unite items (operandItems operand)))) := rfl

/-- Subtracting from a list takes the items of the operand away. -/
theorem apply_subtract_list (key : String) (items : List Value) (operand : Value) :
    apply .subtract key (some (.list items)) operand =
      .ok (some (.list (without items (operandItems operand)))) := rfl

/-- Additions and subtractions, however many, leave a list whose items are all different if they
were. -/
theorem AllDifferent.applyAll (h : AllDifferent items) (hitems : ∀ w ∈ items, w.WellFormed)
    (key : String) {changes : List (Operator × Value)}
    (hchanges : ∀ c ∈ changes, c.1 ≠ .equal ∧ c.2.WellFormed) :
    ∃ last, Operator.applyAll key (some (.list items)) changes = .ok (some (.list last)) ∧
      AllDifferent last := by
  induction changes generalizing items with
  | nil => exact ⟨items, rfl, h⟩
  | cons change changes ih =>
    obtain ⟨op, operand⟩ := change
    rw [List.forall_mem_cons] at hchanges
    obtain ⟨⟨hop, hoperand⟩, hrest⟩ := hchanges
    cases op with
    | equal => exact absurd rfl hop
    | add =>
      rw [applyAll_cons (apply_add_list key items operand)]
      obtain ⟨hnext, hnextItems⟩ :=
        h.unite hitems fun w hw => wellFormed_of_mem_operandItems hoperand hw
      exact ih hnext hnextItems hrest
    | subtract =>
      rw [applyAll_cons (apply_subtract_list key items operand)]
      exact ih (h.filter _) (fun w hw => hitems w (List.mem_filter.1 hw).1) hrest

/-- Addition appends those items that the operand brings, in order, that are the same as none of the
list and none before them, and subtraction leaves those items of the list, in order, that are the
same as none of them. Repeating either changes nothing further, and an addition before a subtraction
of the same makes no difference, if the items of the operand are the same as themselves. A list
whose items are all different keeps such items through all additions and subtractions. -/
theorem list_laws (key : String) (items : List Value) {operand : Value} {more : List Value}
    (hmore : Brings operand more) (hself : ∀ v ∈ more, (v == v) = true) :
    let current := some (Value.list items)
    apply .add key current operand = .ok (some (.list (items ++ newItems items more))) ∧
      apply .subtract key current operand =
        .ok (some (.list (items.filter fun v => decide (∀ w ∈ more, (v == w) = false)))) ∧
      (∀ op, op ≠ .equal → ∀ n, applyAll key current (List.replicate (n + 1) (op, operand)) =
        applyAll key current [(op, operand)]) ∧
      applyAll key current [(.add, operand), (.subtract, operand)] =
        applyAll key current [(.subtract, operand)] ∧
      ((Value.list items).WellFormed → AllDifferent items →
        ∀ changes, (∀ c ∈ changes, c.1 ≠ .equal ∧ c.2.WellFormed) →
          ∃ last, applyAll key current changes = .ok (some (.list last)) ∧ AllDifferent last) := by
  intro current
  obtain rfl := brings_iff.1 hmore
  have hadd := apply_add_list key items operand
  have hsubtract := apply_subtract_list key items operand
  refine ⟨?_, ?_, fun op hop n => ?_, ?_, fun hitems hdifferent changes hchanges => ?_⟩
  · rw [← unite_eq]
    exact hadd
  · have hfilter : (items.filter fun v =>
        decide (∀ w ∈ operandItems operand, (v == w) = false)) =
          without items (operandItems operand) := by
      refine List.filter_congr fun v _ => ?_
      simp only [← contains_eq_false_iff]
      cases (operandItems operand).contains v <;> rfl
    rw [hfilter]
    exact hsubtract
  · cases op with
    | equal => exact absurd rfl hop
    | add =>
      have hagain := apply_add_list key (unite items (operandItems operand)) operand
      rw [unite_unite items hself] at hagain
      rw [applyAll_replicate hadd hagain, applyAll_cons hadd]
      rfl
    | subtract =>
      have hagain := apply_subtract_list key (without items (operandItems operand)) operand
      rw [without_without] at hagain
      rw [applyAll_replicate hsubtract hagain, applyAll_cons hsubtract]
      rfl
  · have hboth := apply_subtract_list key (unite items (operandItems operand)) operand
    rw [without_unite items hself] at hboth
    rw [applyAll_cons hadd, applyAll_cons hboth, applyAll_cons hsubtract]
  · rw [Value.WellFormed, Value.wellFormedItems_iff] at hitems
    exact hdifferent.applyAll hitems key hchanges

/-- Of the items of a list that are added, one is there with its entries in another order, and one
is a zero of the other sign than an earlier one. A text alone is added once and taken away again. A
map alone that is there with its entries in another order is not added, and it is taken away. -/
theorem list_laws_nested :
    let pair : Value := .map [("a", .int 1), ("b", .list [.null])]
    let turned : Value := .map [("b", .list [.null]), ("a", .int 1)]
    let items : List Value := [pair, .text "x"]
    let operand : Value := .list [.float (.zero false), turned, .float (.zero true), .text "y",
      .text "x"]
    let current := some (Value.list items)
    let united := some (Value.list (items ++ [.float (.zero false), .text "y"]))
    Brings (.text "y") [.text "y"] ∧
      apply .add "tags" current (.text "y") = .ok (some (.list [pair, .text "x", .text "y"])) ∧
      applyAll "tags" current (List.replicate 2 (.add, .text "y")) =
        .ok (some (.list [pair, .text "x", .text "y"])) ∧
      applyAll "tags" current [(.add, .text "y"), (.subtract, .text "y")] = .ok current ∧
      Brings turned [turned] ∧
      apply .add "tags" current turned = .ok current ∧
      apply .subtract "tags" current turned = .ok (some (.list [.text "x"])) ∧
      Brings operand [.float (.zero false), turned, .float (.zero true), .text "y", .text "x"] ∧
      apply .add "tags" current operand = .ok united ∧
      apply .subtract "tags" current operand = .ok (some (.list [])) ∧
      applyAll "tags" current (List.replicate 3 (.add, operand)) = .ok united ∧
      applyAll "tags" current [(.add, operand), (.subtract, operand)] = .ok (some (.list [])) ∧
      ∃ last, applyAll "tags" current [(.add, operand), (.subtract, .text "x"), (.add, .int 1)] =
        .ok (some (.list last)) ∧ AllDifferent last := by
  intro pair turned items operand current united
  have htext : Brings (.text "y") [.text "y"] := .single nofun
  have hturned : Brings turned [turned] := .single nofun
  have hoperand : Brings operand _ := .list _
  obtain ⟨haddText, hsubtractText, hrepeatText, hbothText, -⟩ :=
    list_laws "tags" items htext (by decide +kernel)
  obtain ⟨haddTurned, hsubtractTurned, -⟩ := list_laws "tags" items hturned (by decide +kernel)
  obtain ⟨hadd, hsubtract, hrepeat, hboth, hdifferent⟩ :=
    list_laws "tags" items hoperand (by decide +kernel)
  refine ⟨htext, haddText, (hrepeatText .add (by decide) 1).trans ?_, hbothText.trans ?_, hturned,
    haddTurned, hsubtractTurned, hoperand, hadd, hsubtract, (hrepeat .add (by decide) 2).trans ?_,
    hboth.trans ?_, hdifferent ?_ ?_ _ ?_⟩
  · exact applyAll_cons haddText []
  · exact applyAll_cons hsubtractText []
  · exact applyAll_cons hadd []
  · exact applyAll_cons hsubtract []
  · simp [items, pair, Value.WellFormed, Value.WellFormedItems, Value.WellFormedEntries,
      Entries.Distinct, Entries.keys]
  · unfold AllDifferent
    decide +kernel
  · simp [operand, turned, Value.WellFormed, Value.WellFormedItems, Value.WellFormedEntries,
      Entries.Distinct, Entries.keys]

end Operator

end BranchingStory
