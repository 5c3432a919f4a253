import BranchingStory.Operation.Basic
import Mathlib.Data.List.Perm.Subperm

/-!
# Value equality is an equivalence

On values without NaN whose maps have distinct names, being the same is reflexive and symmetric, and
it is transitive on all values. The order of a map's entries does not count, so for symmetry one map
must be known to have no names beyond those of the other: it has as many, and all are distinct.
Operations inherit the three laws from the values that they carry.
-/

namespace BranchingStory

namespace Value

mutual

/-- No part of the value is NaN. -/
def NaNFree : Value → Prop
  | float x => x.isNaN = false
  | list items => NaNFreeItems items
  | map entries => NaNFreeEntries entries
  | _ => True

/-- No part of any item is NaN. -/
def NaNFreeItems : List Value → Prop
  | [] => True
  | v :: rest => NaNFree v ∧ NaNFreeItems rest

/-- No part of any value by name is NaN. -/
def NaNFreeEntries : List (String × Value) → Prop
  | [] => True
  | (_, v) :: rest => NaNFree v ∧ NaNFreeEntries rest

end

/-- Every entry of the first list has the same value in the second. -/
theorem sameEntries_iff (as bs : Entries Value) :
    sameEntries as bs = true ↔
      ∀ e ∈ as, ∃ b, Entries.value? e.1 bs = some b ∧ same e.2 b = true := by
  induction as with
  | nil => simp [sameEntries]
  | cons e as ih =>
    rw [sameEntries, Bool.and_eq_true, ih, List.forall_mem_cons]
    refine and_congr_left fun _ => ?_
    cases Entries.value? e.1 bs <;> simp

/-- A map of the same size whose names all occur in another has all the names of the other. -/
theorem keys_subset_of_length_le {as bs : Entries Value} (ha : as.Distinct)
    (hsub : as.keys ⊆ bs.keys) (hlength : bs.length ≤ as.length) : bs.keys ⊆ as.keys := by
  have hkeys : bs.keys.length ≤ as.keys.length := by simpa [Entries.keys] using hlength
  exact ((List.subperm_of_subset ha hsub).perm_of_length_le hkeys).symm.subset

mutual

/-- A value without NaN is the same as itself. -/
theorem same_refl : ∀ {v : Value}, v.WellFormed → v.NaNFree → v.same v = true
  | null, _, _ => rfl
  | bool b, _, _ => by simp [same]
  | int i, _, _ => by simp [same]
  | float x, _, hn => by
    rw [NaNFree] at hn
    rw [same, Binary64.equals_self, hn, Bool.not_false]
  | text s, _, _ => by simp [same]
  | list items, hw, hn => by
    rw [WellFormed] at hw
    rw [NaNFree] at hn
    rw [same]
    exact sameItems_refl hw hn
  | ref target, _, _ => by simp [same]
  | map entries, hw, hn => by
    rw [WellFormed] at hw
    rw [NaNFree] at hn
    rw [same, beq_self_eq_true, Bool.true_and, sameEntries_iff]
    exact fun e he => ⟨e.2, hw.1.value?_of_mem he, same_refl_of_mem hw.2 hn e he⟩

/-- A list without NaN is the same as itself. -/
theorem sameItems_refl : ∀ {items : List Value}, WellFormedItems items → NaNFreeItems items →
    sameItems items items = true
  | [], _, _ => rfl
  | v :: rest, hw, hn => by
    rw [WellFormedItems] at hw
    rw [NaNFreeItems] at hn
    rw [sameItems, same_refl hw.1 hn.1, sameItems_refl hw.2 hn.2, Bool.and_self]

/-- Each value of a map without NaN is the same as itself. -/
theorem same_refl_of_mem : ∀ {entries : List (String × Value)}, WellFormedEntries entries →
    NaNFreeEntries entries → ∀ e ∈ entries, e.2.same e.2 = true
  | [], _, _ => by simp
  | (key, v) :: rest, hw, hn => by
    rw [WellFormedEntries] at hw
    rw [NaNFreeEntries] at hn
    rw [List.forall_mem_cons]
    exact ⟨same_refl hw.1 hn.1, same_refl_of_mem hw.2 hn.2⟩

end

/-- Entries are well formed when each of their values is. -/
theorem wellFormedEntries_iff (entries : Entries Value) :
    WellFormedEntries entries ↔ ∀ e ∈ entries, e.2.WellFormed := by
  induction entries with
  | nil => simp [WellFormedEntries]
  | cons e entries ih => rw [WellFormedEntries, ih, List.forall_mem_cons]

mutual

/-- Sameness does not depend on the order of the two values. -/
theorem same_symm : ∀ {v w : Value}, v.WellFormed → w.WellFormed → v.same w = true →
    w.same v = true
  | null, w, _, _, h => by cases w <;> simp_all [same]
  | bool b, w, _, _, h => by cases w <;> simp_all [same]
  | int i, w, _, _, h => by cases w <;> simp_all [same]
  | float x, w, _, _, h => by
    cases w <;> simp only [same, Bool.false_eq_true] at h ⊢
    rw [Binary64.equals_comm]
    exact h
  | text s, w, _, _, h => by cases w <;> simp_all [same]
  | list items, w, hv, hw, h => by
    cases w <;> simp only [same, Bool.false_eq_true] at h ⊢
    rw [WellFormed] at hv hw
    exact sameItems_symm hv hw h
  | ref target, w, _, _, h => by cases w <;> simp_all [same]
  | map as, w, hv, hw, h => by
    cases w with
    | map bs =>
      rw [WellFormed] at hv hw
      rw [same, Bool.and_eq_true, beq_iff_eq, sameEntries_iff] at h ⊢
      obtain ⟨hlength, hsame⟩ := h
      have hsub : Entries.keys as ⊆ Entries.keys bs := by
        intro key hk
        obtain ⟨e, he, rfl⟩ := List.mem_map.1 hk
        obtain ⟨b, hb, _⟩ := hsame e he
        exact (Entries.mem_keys_iff e.1 bs).2 (by rw [hb]; rfl)
      refine ⟨hlength.symm, fun f hf => ?_⟩
      have hkey : f.1 ∈ Entries.keys as :=
        keys_subset_of_length_le hv.1 hsub (Nat.le_of_eq hlength.symm) (List.mem_map_of_mem hf)
      obtain ⟨a, ha⟩ := Option.isSome_iff_exists.1 ((Entries.mem_keys_iff f.1 as).1 hkey)
      have hmem := Entries.mem_of_value? ha
      obtain ⟨b, hb, hab⟩ := hsame _ hmem
      rw [hw.1.value?_of_mem hf] at hb
      cases hb
      exact ⟨a, ha, same_symm_of_mem hv.2 _ hmem _ ((wellFormedEntries_iff bs).1 hw.2 f hf) hab⟩
    | _ => simp [same] at h

/-- Sameness does not depend on the order of the two lists. -/
theorem sameItems_symm : ∀ {as bs : List Value}, WellFormedItems as → WellFormedItems bs →
    sameItems as bs = true → sameItems bs as = true
  | [], [], _, _, _ => rfl
  | [], _ :: _, _, _, h => by simp [sameItems] at h
  | _ :: _, [], _, _, h => by simp [sameItems] at h
  | a :: as, b :: bs, ha, hb, h => by
    rw [WellFormedItems] at ha hb
    rw [sameItems, Bool.and_eq_true] at h
    rw [sameItems, same_symm ha.1 hb.1 h.1, sameItems_symm ha.2 hb.2 h.2, Bool.and_self]

/-- A value that is the same as one of a map's has that one the same as itself. -/
theorem same_symm_of_mem : ∀ {entries : List (String × Value)}, WellFormedEntries entries →
    ∀ e ∈ entries, ∀ w : Value, w.WellFormed → e.2.same w = true → w.same e.2 = true
  | [], _ => by simp
  | (key, v) :: rest, hv => by
    rw [WellFormedEntries] at hv
    rw [List.forall_mem_cons]
    exact ⟨fun w hw h => same_symm hv.1 hw h, same_symm_of_mem hv.2⟩

end

mutual

/-- Two values that are the same as a third one are the same. -/
theorem same_trans : ∀ {u v w : Value}, u.same v = true → v.same w = true → u.same w = true
  | null, v, w, h, k => by cases v <;> cases w <;> simp_all [same]
  | bool b, v, w, h, k => by cases v <;> cases w <;> simp_all [same]
  | int i, v, w, h, k => by cases v <;> cases w <;> simp_all [same]
  | float x, v, w, h, k => by
    cases v <;> cases w <;> simp only [same, Bool.false_eq_true] at h k ⊢
    exact Binary64.equals_trans h k
  | text s, v, w, h, k => by cases v <;> cases w <;> simp_all [same]
  | list items, v, w, h, k => by
    cases v <;> cases w <;> simp only [same, Bool.false_eq_true] at h k ⊢
    exact sameItems_trans h k
  | ref target, v, w, h, k => by cases v <;> cases w <;> simp_all [same]
  | map as, v, w, h, k => by
    cases v <;> cases w <;> simp only [same, Bool.false_eq_true] at h k ⊢
    rw [Bool.and_eq_true, beq_iff_eq, sameEntries_iff] at h k ⊢
    refine ⟨h.1.trans k.1, fun e he => ?_⟩
    obtain ⟨b, hb, hab⟩ := h.2 e he
    obtain ⟨c, hc, hbc⟩ := k.2 _ (Entries.mem_of_value? hb)
    exact ⟨c, hc, same_trans_of_mem e he _ _ hab hbc⟩

/-- Two lists that are the same as a third one are the same. -/
theorem sameItems_trans : ∀ {as bs cs : List Value}, sameItems as bs = true →
    sameItems bs cs = true → sameItems as cs = true
  | [], bs, cs, h, k => by cases bs <;> cases cs <;> simp_all [sameItems]
  | a :: as, bs, cs, h, k => by
    cases bs <;> cases cs <;> simp only [sameItems, Bool.false_eq_true] at h k ⊢
    rw [Bool.and_eq_true] at h k ⊢
    exact ⟨same_trans h.1 k.1, sameItems_trans h.2 k.2⟩

/-- What is the same as a value of a map is so to what is the same as it. -/
theorem same_trans_of_mem : ∀ {entries : List (String × Value)}, ∀ e ∈ entries,
    ∀ v w : Value, e.2.same v = true → v.same w = true → e.2.same w = true
  | [], _, he, _, _, _, _ => by cases he
  | (key, u) :: rest, e, he, v, w, h, k => by
    rcases List.mem_cons.1 he with rfl | he
    · exact same_trans h k
    · exact same_trans_of_mem e he v w h k

end

end Value

namespace Operation

/-- The names of the initial attributes, and within each map of a value, are distinct. -/
def WellFormed : Operation → Prop
  | create _ attributes => (Value.map attributes).WellFormed
  | modify _ _ _ value => value.WellFormed
  | delete _ => True

/-- No value of the operation has a part that is NaN. -/
def NaNFree : Operation → Prop
  | create _ attributes => (Value.map attributes).NaNFree
  | modify _ _ _ value => value.NaNFree
  | delete _ => True

/-- Moving an operation keeps it well formed. -/
theorem WellFormed.retarget {op : Operation} (h : op.WellFormed) (id : String) :
    (op.retarget id).WellFormed := by
  cases op <;> exact h

/-- Moving an operation brings in no NaN. -/
theorem NaNFree.retarget {op : Operation} (h : op.NaNFree) (id : String) :
    (op.retarget id).NaNFree := by
  cases op <;> exact h

/-- The operation can be compared: it is well formed and free of NaN. -/
def Comparable (op : Operation) : Prop := op.WellFormed ∧ op.NaNFree

/-- Moving an operation keeps it comparable. -/
theorem Comparable.retarget {op : Operation} (h : op.Comparable) (id : String) :
    (op.retarget id).Comparable :=
  ⟨h.1.retarget id, h.2.retarget id⟩

/-- Operations that are the same do the same kind of thing to the same target. -/
theorem same_iff (a b : Operation) :
    (a == b) = true ↔
      match a, b with
      | create s v, create t w => s = t ∧ (Value.map v).same (.map w) = true
      | modify s j o v, modify t k p w => s = t ∧ j = k ∧ o = p ∧ v.same w = true
      | delete s, delete t => s = t
      | _, _ => False := by
  change Operation.same a b = true ↔ _
  cases a <;> cases b <;>
    simp [Operation.same, Value.same, Value.sameMap, and_assoc]

/-- A comparable operation is the same as itself. -/
theorem Comparable.refl {a : Operation} (h : a.Comparable) : (a == a) = true := by
  rw [same_iff]
  cases a with
  | create target attributes => exact ⟨rfl, Value.same_refl h.1 h.2⟩
  | modify target key op value => exact ⟨rfl, rfl, rfl, Value.same_refl h.1 h.2⟩
  | delete target => rfl

/-- Sameness of operations does not depend on their order. -/
theorem Comparable.symm {a b : Operation} (ha : a.Comparable) (hb : b.Comparable)
    (h : (a == b) = true) : (b == a) = true := by
  rw [same_iff] at h ⊢
  cases a <;> cases b <;> simp only at h ⊢
  · exact ⟨h.1.symm, Value.same_symm ha.1 hb.1 h.2⟩
  · exact ⟨h.1.symm, h.2.1.symm, h.2.2.1.symm, Value.same_symm ha.1 hb.1 h.2.2.2⟩
  · exact h.symm

/-- Two operations that are the same as a third one are the same. -/
theorem same_trans {a b c : Operation} (h : (a == b) = true) (k : (b == c) = true) :
    (a == c) = true := by
  rw [same_iff] at h k ⊢
  cases a <;> cases b <;> simp only at h <;> cases c <;> simp only at k ⊢
  · exact ⟨h.1.trans k.1, Value.same_trans h.2 k.2⟩
  · exact ⟨h.1.trans k.1, h.2.1.trans k.2.1, h.2.2.1.trans k.2.2.1,
      Value.same_trans h.2.2.2 k.2.2.2⟩
  · exact h.trans k

end Operation

end BranchingStory
