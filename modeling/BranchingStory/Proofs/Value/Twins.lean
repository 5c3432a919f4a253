import BranchingStory.Proofs.Operator.Lists
import BranchingStory.Proofs.Table
import BranchingStory.Proofs.Value.RoundTrip

/-!
# Twin values

Values without floating point numbers that are the same are twins: they differ at most in the order
of the entries of their maps. Twin lists have twins at each place and twin maps have twins under
each name, and every other value is its only twin. What is made of twins in the same way can
therefore be compared part by part.
-/

namespace BranchingStory.Value

/-- No part of the value is a floating point number. -/
def FloatFree (v : Value) : Prop := ∀ w ∈ v.parts, w.type ≠ .float

instance (v : Value) : Decidable v.FloatFree :=
  inferInstanceAs (Decidable (∀ w ∈ v.parts, w.type ≠ .float))

/-- The value holds no floating point number, and within each of its maps the names are distinct. -/
structure Exact (v : Value) : Prop where
  wellFormed : v.WellFormed
  floatFree : v.FloatFree

mutual

/-- Without floating point numbers there is no NaN. -/
theorem FloatFree.nanFree : ∀ {v : Value}, v.FloatFree → v.NaNFree
  | null, _ | bool _, _ | int _, _ | text _, _ | ref _, _ => trivial
  | float x, h => absurd rfl (h (float x) List.mem_cons_self)
  | list _, h => nanFreeItems (forall_parts_list.1 h).2
  | map _, h => nanFreeEntries (forall_parts_map.1 h).2

/-- Among items without floating point numbers there is no NaN. -/
theorem nanFreeItems : ∀ {items : List Value}, (∀ v ∈ items, v.FloatFree) → NaNFreeItems items
  | [], _ => trivial
  | v :: items, h => by
    rw [List.forall_mem_cons] at h
    exact ⟨h.1.nanFree, nanFreeItems h.2⟩

/-- Among entries without floating point numbers there is no NaN. -/
theorem nanFreeEntries : ∀ {entries : List (String × Value)}, (∀ e ∈ entries, e.2.FloatFree) →
    NaNFreeEntries entries
  | [], _ => trivial
  | (_, v) :: entries, h => by
    rw [List.forall_mem_cons] at h
    exact ⟨h.1.nanFree, nanFreeEntries h.2⟩

end

/-- A list is exact when its items are. -/
theorem exact_list {items : List Value} : (list items).Exact ↔ ∀ v ∈ items, v.Exact := by
  have hfloats : (list items).FloatFree ↔ ∀ v ∈ items, v.FloatFree :=
    forall_parts_list.trans (and_iff_right (by simp [type]))
  constructor
  · rintro ⟨hwell, hfree⟩ v hv
    rw [WellFormed, wellFormedItems_iff] at hwell
    exact ⟨hwell v hv, hfloats.1 hfree v hv⟩
  · intro h
    refine ⟨?_, hfloats.2 fun v hv => (h v hv).floatFree⟩
    rw [WellFormed, wellFormedItems_iff]
    exact fun v hv => (h v hv).wellFormed

/-- A map is exact when its names are distinct and its values are exact. -/
theorem exact_map {entries : Entries Value} :
    (map entries).Exact ↔ entries.Distinct ∧ ∀ e ∈ entries, e.2.Exact := by
  have hfloats : (map entries).FloatFree ↔ ∀ e ∈ entries, e.2.FloatFree :=
    forall_parts_map.trans (and_iff_right (by simp [type]))
  constructor
  · rintro ⟨hwell, hfree⟩
    rw [WellFormed, wellFormedEntries_iff] at hwell
    exact ⟨hwell.1, fun e he => ⟨hwell.2 e he, hfloats.1 hfree e he⟩⟩
  · rintro ⟨hdistinct, h⟩
    refine ⟨?_, hfloats.2 fun e he => (h e he).floatFree⟩
    rw [WellFormed, wellFormedEntries_iff]
    exact ⟨hdistinct, fun e he => (h e he).wellFormed⟩

/-- The values that are no lists and no maps. -/
def isScalar : Value → Bool
  | list _ | map _ => false
  | _ => true

/-- A scalar is exact unless it is a floating point number. -/
theorem exact_iff_of_isScalar {v : Value} (h : v.isScalar = true) : v.Exact ↔ v.type ≠ .float := by
  constructor
  · intro hv
    cases v <;> exact hv.floatFree _ List.mem_cons_self
  · intro hfloat
    cases v with
    | float x => exact absurd rfl hfloat
    | list _ | map _ => cases h
    | _ => exact ⟨trivial, by simp [FloatFree, parts, type]⟩

/-- The two values are the same, and both are exact. -/
structure Twins (v w : Value) : Prop where
  left : v.Exact
  right : w.Exact
  same : v.same w = true

variable {u v w : Value}

/-- An exact value is its own twin. -/
theorem Exact.twins (h : v.Exact) : Twins v v :=
  ⟨h, h, same_refl h.wellFormed h.floatFree.nanFree⟩

/-- Twins are so in either order. -/
theorem Twins.symm (h : Twins v w) : Twins w v :=
  ⟨h.right, h.left, same_symm h.left.wellFormed h.right.wellFormed h.same⟩

/-- Twins of one value are twins. -/
theorem Twins.trans (h : Twins u v) (k : Twins v w) : Twins u w :=
  ⟨h.left, k.right, same_trans h.same k.same⟩

/-- Twins are the same as the same values. -/
theorem Twins.beq_eq {a b : Value} (h : Twins v w) (k : Twins a b) : (v == a) = (w == b) := by
  have hiff : v.same a = true ↔ w.same b = true :=
    ⟨fun hva => (h.symm.trans ⟨h.left, k.left, hva⟩ |>.trans k).same,
      fun hwb => (h.trans ⟨h.right, k.right, hwb⟩ |>.trans k.symm).same⟩
  exact Bool.eq_iff_iff.2 hiff

/-- Two lists have twins at each place when their items are exact and the lists are the same. -/
theorem forall₂_twins {as bs : List Value} : List.Forall₂ Twins as bs ↔
    (∀ v ∈ as, v.Exact) ∧ (∀ v ∈ bs, v.Exact) ∧ sameItems as bs = true := by
  induction as generalizing bs with
  | nil => cases bs <;> simp [sameItems]
  | cons a as ih =>
    cases bs with
    | nil => simp [sameItems]
    | cons b bs =>
      rw [List.forall₂_cons, ih, List.forall_mem_cons, List.forall_mem_cons, sameItems,
        Bool.and_eq_true]
      constructor
      · rintro ⟨⟨ha, hb, hab⟩, has, hbs, hsame⟩
        exact ⟨⟨ha, has⟩, ⟨hb, hbs⟩, hab, hsame⟩
      · rintro ⟨⟨ha, has⟩, ⟨hb, hbs⟩, hab, hsame⟩
        exact ⟨⟨ha, hb, hab⟩, has, hbs, hsame⟩

/-- Lists are twins when they have twins at each place. -/
theorem twins_list {as bs : List Value} :
    Twins (list as) (list bs) ↔ List.Forall₂ Twins as bs := by
  rw [forall₂_twins, ← exact_list, ← exact_list]
  exact ⟨fun h => ⟨h.left, h.right, by simpa only [Value.same] using h.same⟩,
    fun h => ⟨h.1, h.2.1, by simpa only [Value.same] using h.2.2⟩⟩

/-- The value of a name in an exact map is exact. -/
theorem exact_of_value? {m : Entries Value} {key : String} (h : (map m).Exact)
    (hv : Entries.value? key m = some v) : v.Exact :=
  (exact_map.1 h).2 _ (Entries.mem_of_value? hv)

/-- Maps with distinct names that have values under the same names are of one size. -/
theorem length_eq_of_rel {R : Value → Value → Prop} {as bs : Entries Value} (has : as.Distinct)
    (hbs : bs.Distinct)
    (h : ∀ key, Option.Rel R (Entries.value? key as) (Entries.value? key bs)) :
    as.length = bs.length := by
  have hkeys : ∀ key, key ∈ Entries.keys as ↔ key ∈ Entries.keys bs := by
    intro key
    rw [Entries.mem_keys_iff, Entries.mem_keys_iff, isSome_eq_of_rel (h key)]
  have hperm : (Entries.keys as).Perm (Entries.keys bs) :=
    (List.perm_ext_iff_of_nodup has hbs).2 hkeys
  simpa [Entries.keys] using hperm.length_eq

/-- Maps with distinct names are twins when they have twins under each name. -/
theorem twins_map {as bs : Entries Value} : Twins (map as) (map bs) ↔ as.Distinct ∧ bs.Distinct ∧
    ∀ key, Option.Rel Twins (Entries.value? key as) (Entries.value? key bs) := by
  constructor
  · intro h
    have hsame := h.same
    rw [Value.same, Bool.and_eq_true, beq_iff_eq, sameEntries_iff] at hsame
    obtain ⟨hlength, hsame⟩ := hsame
    have hsub : Entries.keys as ⊆ Entries.keys bs := by
      intro key hkey
      obtain ⟨e, he, rfl⟩ := List.mem_map.1 hkey
      obtain ⟨b, hb, -⟩ := hsame e he
      exact (Entries.mem_keys_iff e.1 bs).2 (by rw [hb]; rfl)
    refine ⟨(exact_map.1 h.left).1, (exact_map.1 h.right).1, fun key => ?_⟩
    cases ha : Entries.value? key as with
    | some a =>
      obtain ⟨b, hb, hab⟩ := hsame _ (Entries.mem_of_value? ha)
      rw [hb]
      exact .some ⟨exact_of_value? h.left ha, exact_of_value? h.right hb, hab⟩
    | none =>
      cases hb : Entries.value? key bs with
      | none => exact .none
      | some b =>
        -- The second map has as many names as the first one, so it has no others.
        have hback := keys_subset_of_length_le (exact_map.1 h.left).1 hsub hlength.ge
        have hkey := hback ((Entries.mem_keys_iff key bs).2 (by rw [hb]; rfl))
        rw [Entries.mem_keys_iff, ha] at hkey
        cases hkey
  · rintro ⟨has, hbs, hrel⟩
    have hleft : ∀ e ∈ as, ∃ b, Entries.value? e.1 bs = some b ∧ Twins e.2 b := by
      intro e he
      have h := hrel e.1
      rw [has.value?_of_mem he] at h
      exact exists_of_rel_some h
    have hright : ∀ f ∈ bs, f.2.Exact := by
      intro f hf
      have hkey := isSome_eq_of_rel (hrel f.1)
      rw [hbs.value?_of_mem hf] at hkey
      obtain ⟨a, ha⟩ := Option.isSome_iff_exists.1 hkey
      obtain ⟨b, hb, h⟩ := hleft _ (Entries.mem_of_value? ha)
      rw [hbs.value?_of_mem hf, Option.some.injEq] at hb
      exact hb ▸ h.right
    refine ⟨exact_map.2 ⟨has, fun e he => ?_⟩, exact_map.2 ⟨hbs, hright⟩, ?_⟩
    · obtain ⟨b, -, h⟩ := hleft e he
      exact h.left
    · rw [Value.same, Bool.and_eq_true, beq_iff_eq, sameEntries_iff]
      refine ⟨length_eq_of_rel has hbs hrel, fun e he => ?_⟩
      obtain ⟨b, hb, h⟩ := hleft e he
      exact ⟨b, hb, h.same⟩

/-- Twins are one scalar, two lists or two maps. -/
theorem Twins.cases (h : Twins v w) : v = w ∧ v.isScalar = true ∨
    (∃ as bs, v = list as ∧ w = list bs ∧ List.Forall₂ Twins as bs) ∨
    ∃ as bs, v = map as ∧ w = map bs ∧ Twins (map as) (map bs) := by
  have hsame := h.same
  cases v with
  | float x => exact absurd rfl (h.left.floatFree (float x) List.mem_cons_self)
  | list as =>
    cases w <;> simp only [Value.same, Bool.false_eq_true] at hsame
    exact .inr (.inl ⟨as, _, rfl, rfl, twins_list.1 h⟩)
  | map as =>
    cases w <;> simp only [Value.same, Bool.false_eq_true] at hsame
    exact .inr (.inr ⟨as, _, rfl, rfl, h⟩)
  | _ => cases w <;> simp_all [Value.same, isScalar]

end BranchingStory.Value
