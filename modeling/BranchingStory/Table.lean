/-!
# Tables in the order of their names

Values by name, listed in strictly increasing order of the names. Names are compared by code points,
which is also the order of their bytes in UTF-8. Two tables with the same value at every name are
equal, so a table can be reasoned about through `get?` alone.
-/

namespace BranchingStory

/-- Values by name, in increasing order of the names. -/
structure Table (α : Type) where
  /-- The names with their values. -/
  entries : List (String × α)
  /-- The names increase strictly. -/
  sorted : entries.Pairwise fun a b => a.1 < b.1

namespace Table

variable {α : Type}

/-- The table without names. -/
def empty : Table α := ⟨[], List.Pairwise.nil⟩

instance : Inhabited (Table α) := ⟨empty⟩

instance [Repr α] : Repr (Table α) := ⟨fun t n => reprPrec t.entries n⟩

/-- The value of a name in a list. -/
def find? (key : String) : List (String × α) → Option α
  | [] => none
  | (k, v) :: rest => if k = key then some v else find? key rest

/-- The value of a name. -/
def get? (t : Table α) (key : String) : Option α := find? key t.entries

/-- The name has a value. -/
def has (t : Table α) (key : String) : Bool := (t.get? key).isSome

/-- The names in order. -/
def keys (t : Table α) : List String := t.entries.map Prod.fst

/-- The values in the order of their names. -/
def values (t : Table α) : List α := t.entries.map Prod.snd

/-- How many names there are. -/
def size (t : Table α) : Nat := t.entries.length

/-- Give a name a value in an increasing list. -/
def place (key : String) (v : α) : List (String × α) → List (String × α)
  | [] => [(key, v)]
  | (k, w) :: rest =>
    if key < k then (key, v) :: (k, w) :: rest
    else if key = k then (key, v) :: rest
    else (k, w) :: place key v rest

private theorem mem_place {key : String} {v : α} {e : String × α} {l : List (String × α)}
    (h : e ∈ place key v l) : e = (key, v) ∨ e ∈ l := by
  induction l with
  | nil => simp_all [place]
  | cons f l ih =>
    simp only [place] at h
    split at h
    · simpa using h
    · split at h
      · rcases List.mem_cons.1 h with h | h <;> simp [h]
      · rcases List.mem_cons.1 h with h | h
        · simp [h]
        · rcases ih h with h | h <;> simp [h]

private theorem lt_of_not_lt_of_ne {a b : String} (h : ¬ a < b) (hne : a ≠ b) : b < a := by
  rcases Std.Trichotomous.rel_or_eq_or_rel_swap (r := fun a b : String => a < b) (a := a) (b := b)
    with h' | h' | h'
  · exact absurd h' h
  · exact absurd h' hne
  · exact h'

/-- Placing a name keeps a list increasing. -/
theorem sorted_place (key : String) (v : α) {l : List (String × α)}
    (h : l.Pairwise fun a b => a.1 < b.1) : (place key v l).Pairwise fun a b => a.1 < b.1 := by
  induction l with
  | nil => simp [place]
  | cons e l ih =>
    rw [List.pairwise_cons] at h
    simp only [place]
    split
    · next hlt =>
      refine List.pairwise_cons.2 ⟨fun f hf => ?_, List.pairwise_cons.2 h⟩
      rcases List.mem_cons.1 hf with rfl | hf
      · exact hlt
      · exact String.lt_trans hlt (h.1 f hf)
    · next hlt =>
      split
      · next heq => exact List.pairwise_cons.2 ⟨fun f hf => heq ▸ h.1 f hf, h.2⟩
      · next hne =>
        refine List.pairwise_cons.2 ⟨fun f hf => ?_, ih h.2⟩
        rcases mem_place hf with rfl | hf
        · exact lt_of_not_lt_of_ne hlt hne
        · exact h.1 f hf

/-- Give a name a value, in place of the one that it had. -/
def insert (t : Table α) (key : String) (v : α) : Table α :=
  ⟨place key v t.entries, sorted_place key v t.sorted⟩

/-- The pairs inserted one after the other, so that the last value of a name counts. -/
def ofList (pairs : List (String × α)) : Table α :=
  pairs.foldl (fun t e => t.insert e.1 e.2) empty

@[simp] theorem get?_empty (key : String) : (empty : Table α).get? key = none := rfl

private theorem find?_place_self (key : String) (v : α) (l : List (String × α)) :
    find? key (place key v l) = some v := by
  induction l with
  | nil => simp [place, find?]
  | cons e l ih =>
    simp only [place]
    split
    · simp [find?]
    · split
      · simp [find?]
      · next hne =>
        have hne' : e.1 ≠ key := fun he => hne he.symm
        simp [find?, hne', ih]

private theorem find?_place_ne {key other : String} (h : key ≠ other) (v : α)
    (l : List (String × α)) : find? other (place key v l) = find? other l := by
  induction l with
  | nil => simp [place, find?, h]
  | cons e l ih =>
    simp only [place]
    split
    · simp [find?, h]
    · split
      · next heq =>
        have hne' : e.1 ≠ other := fun he => h (heq.trans he)
        simp [find?, h, hne']
      · by_cases ho : e.1 = other <;> simp [find?, ho, ih]

/-- What was inserted is found. -/
@[simp] theorem get?_insert_self (t : Table α) (key : String) (v : α) :
    (t.insert key v).get? key = some v :=
  find?_place_self key v t.entries

/-- Inserting one name leaves the others alone. -/
theorem get?_insert_ne (t : Table α) {key other : String} (h : key ≠ other) (v : α) :
    (t.insert key v).get? other = t.get? other :=
  find?_place_ne h v t.entries

private theorem find?_eq_none_of_lt {key : String} {l : List (String × α)}
    (h : ∀ e ∈ l, key < e.1) : find? key l = none := by
  induction l with
  | nil => rfl
  | cons e l ih =>
    have hne : e.1 ≠ key := fun he =>
      String.lt_irrefl key (by simpa [he] using h e List.mem_cons_self)
    simpa [find?, hne] using ih fun f hf => h f (List.mem_cons_of_mem _ hf)

private theorem mem_iff_find? {key : String} {v : α} {l : List (String × α)}
    (hl : l.Pairwise fun a b => a.1 < b.1) : (key, v) ∈ l ↔ find? key l = some v := by
  induction l with
  | nil => simp [find?]
  | cons e l ih =>
    obtain ⟨k, w⟩ := e
    rw [List.pairwise_cons] at hl
    by_cases hk : k = key
    · subst hk
      have hn : (k, v) ∉ l := fun hm => String.lt_irrefl k (hl.1 _ hm)
      simp [find?, hn, eq_comm]
    · simp [find?, hk, Ne.symm hk, ih hl.2]

private theorem eq_of_find? {l m : List (String × α)} (hl : l.Pairwise fun a b => a.1 < b.1)
    (hm : m.Pairwise fun a b => a.1 < b.1) (h : ∀ key, find? key l = find? key m) : l = m := by
  induction l generalizing m with
  | nil =>
    cases m with
    | nil => rfl
    | cons f m => simpa [find?] using h f.1
  | cons e l ih =>
    cases m with
    | nil => simpa [find?] using h e.1
    | cons f m =>
      rw [List.pairwise_cons] at hl hm
      have hef : e.1 = f.1 := by
        rcases Std.Trichotomous.rel_or_eq_or_rel_swap (r := fun a b : String => a < b)
          (a := e.1) (b := f.1) with hlt | heq | hlt
        · have hn : find? e.1 (f :: m) = none :=
            find?_eq_none_of_lt fun g hg => by
              rcases List.mem_cons.1 hg with rfl | hg
              · exact hlt
              · exact String.lt_trans hlt (hm.1 g hg)
          have := h e.1
          rw [hn] at this
          simp [find?] at this
        · exact heq
        · have hn : find? f.1 (e :: l) = none :=
            find?_eq_none_of_lt fun g hg => by
              rcases List.mem_cons.1 hg with rfl | hg
              · exact hlt
              · exact String.lt_trans hlt (hl.1 g hg)
          have := h f.1
          rw [hn] at this
          simp [find?] at this
      have hv : e.2 = f.2 := by simpa [find?, hef] using h e.1
      have hlm : l = m := by
        refine ih hl.2 hm.2 fun key => ?_
        by_cases hk : e.1 = key
        · subst hk
          rw [find?_eq_none_of_lt hl.1, find?_eq_none_of_lt fun g hg => hef ▸ hm.1 g hg]
        · have hk' : f.1 ≠ key := fun he => hk (hef.trans he)
          simpa [find?, hk, hk'] using h key
      rw [hlm, Prod.ext hef hv]

/-- A pair is listed exactly when its name has its value. -/
theorem mem_entries_iff {t : Table α} {key : String} {v : α} :
    (key, v) ∈ t.entries ↔ t.get? key = some v :=
  mem_iff_find? t.sorted

/-- The names of a table are distinct. -/
theorem nodup_keys (t : Table α) : (t.entries.map Prod.fst).Nodup :=
  List.pairwise_map.2 (t.sorted.imp fun {a b} h (he : a.1 = b.1) => String.lt_irrefl b.1 (he ▸ h))

private theorem get?_foldl_insert_of_not_mem {pairs : List (String × α)} {key : String}
    (h : key ∉ pairs.map Prod.fst) (t : Table α) :
    (pairs.foldl (fun t e => t.insert e.1 e.2) t).get? key = t.get? key := by
  induction pairs generalizing t with
  | nil => rfl
  | cons e pairs ih =>
    rw [List.map_cons, List.mem_cons, not_or] at h
    rw [List.foldl_cons, ih h.2, get?_insert_ne t (Ne.symm h.1)]

private theorem get?_foldl_insert_of_mem {pairs : List (String × α)} {key : String} {v : α}
    (hn : (pairs.map Prod.fst).Nodup) (h : (key, v) ∈ pairs) (t : Table α) :
    (pairs.foldl (fun t e => t.insert e.1 e.2) t).get? key = some v := by
  induction pairs generalizing t with
  | nil => cases h
  | cons e pairs ih =>
    rw [List.map_cons, List.nodup_cons] at hn
    rw [List.foldl_cons]
    rcases List.mem_cons.1 h with rfl | h
    · rw [get?_foldl_insert_of_not_mem hn.1, get?_insert_self]
    · exact ih hn.2 h _

/-- Tables with the same entries are equal. -/
theorem ext_entries {t u : Table α} (h : t.entries = u.entries) : t = u := by
  cases t
  cases u
  cases h
  rfl

/-- Tables with the same value at every name are equal. -/
theorem ext_get? {t u : Table α} (h : ∀ key, t.get? key = u.get? key) : t = u :=
  ext_entries (eq_of_find? t.sorted u.sorted h)

/-- Pairs in the order of their names are the table that they make. -/
theorem ofList_of_sorted {pairs : List (String × α)}
    (h : pairs.Pairwise fun a b => a.1 < b.1) : ofList pairs = ⟨pairs, h⟩ := by
  have hnodup : (pairs.map Prod.fst).Nodup := nodup_keys ⟨pairs, h⟩
  refine ext_get? fun key => ?_
  cases hv : get? ⟨pairs, h⟩ key with
  | some v => exact get?_foldl_insert_of_mem hnodup ((mem_iff_find? h).2 hv) empty
  | none =>
    refine get?_foldl_insert_of_not_mem (fun hm => ?_) empty
    obtain ⟨e, he, rfl⟩ := List.mem_map.1 hm
    have hfound : get? ⟨pairs, h⟩ e.1 = some e.2 := (mem_iff_find? h).1 he
    rw [hv] at hfound
    cases hfound

/-- A table made from the pairs of another one with changed values lists them in the same order. -/
theorem entries_ofList_map {β : Type} (t : Table α) (f : α → β) :
    (ofList (t.entries.map fun e => (e.1, f e.2))).entries =
      t.entries.map fun e => (e.1, f e.2) := by
  have hsorted : (t.entries.map fun e => (e.1, f e.2)).Pairwise fun a b => a.1 < b.1 :=
    List.pairwise_map.2 t.sorted
  rw [ofList_of_sorted hsorted]

/-- Where the values of a list are changed, the changed value is found. -/
theorem find?_map {β : Type} (l : List (String × α)) (f : α → β) (key : String) :
    find? key (l.map fun e => (e.1, f e.2)) = (find? key l).map f := by
  induction l with
  | nil => rfl
  | cons e l ih => by_cases h : e.1 = key <;> simp [find?, h, ih]

/-- The table without its values. -/
def bare (t : Table α) : Table Unit :=
  ⟨t.entries.map fun e => (e.1, ()), List.pairwise_map.2 t.sorted⟩

/-- Tables that have values under the same names have these names in the same order. -/
theorem keys_eq_of_isSome {t u : Table α} (h : ∀ key, (t.get? key).isSome = (u.get? key).isSome) :
    t.keys = u.keys := by
  have hget : ∀ (t : Table α) key, t.bare.get? key = (t.get? key).map fun _ => () :=
    fun t key => find?_map t.entries (fun _ => ()) key
  have hbare : t.bare = u.bare := by
    refine ext_get? fun key => ?_
    have hkey := h key
    rw [hget, hget]
    cases ht : t.get? key <;> cases hu : u.get? key <;> simp_all
  have hkeys : ∀ t : Table α, t.bare.keys = t.keys := by simp [bare, keys]
  rw [← hkeys t, hbare, hkeys u]

/-- A name that is not listed has no value. -/
theorem find?_eq_none_of_notMem {key : String} {l : List (String × α)}
    (h : key ∉ l.map Prod.fst) : find? key l = none := by
  induction l with
  | nil => rfl
  | cons e l ih =>
    rw [List.map_cons, List.mem_cons, not_or] at h
    rw [find?, if_neg (Ne.symm h.1), ih h.2]

end Table

end BranchingStory
