/-!
# Entries in the order of their arrival

Values by name, in the order in which the names were first put. Putting a name again keeps its place
and removing one keeps the others in order. What an entry list says is seen through `value?`, and
putting and removing change it at one name only. The order of the names is that of `keys`.

Two entries of different names can be put in either order as long as one of the names is there
already, because only new names are appended. From this it follows that putting an entry last is the
same as putting it into the list that is added, and so that additions are associative, the order of
entries included.
-/

namespace BranchingStory

/-- Values by name, oldest name first. -/
abbrev Entries (α : Type) := List (String × α)

namespace Entries

variable {α : Type}

/-- The names in order. -/
def keys (m : Entries α) : List String := m.map Prod.fst

/-- No name occurs twice. -/
def Distinct (m : Entries α) : Prop := m.keys.Nodup

/-- The value of a name. -/
def value? (key : String) : Entries α → Option α
  | [] => none
  | (k, v) :: rest => if k = key then some v else value? key rest

/-- The name has a value. -/
def has (m : Entries α) (key : String) : Bool := (value? key m).isSome

/-- Give a name a value, in its place if it has one and at the end if not. -/
def put (key : String) (v : α) : Entries α → Entries α
  | [] => [(key, v)]
  | (k, w) :: rest => if k = key then (k, v) :: rest else (k, w) :: put key v rest

/-- Put all entries of a list, in its order. -/
def putAll (m more : Entries α) : Entries α := more.foldl (fun m e => put e.1 e.2 m) m

/-- The entries put one after the other: each name stands where it came first and has its last
value. -/
def ofList (pairs : List (String × α)) : Entries α := putAll [] pairs

/-- Take a name and its value away. -/
def remove (key : String) (m : Entries α) : Entries α := m.filter fun e => e.1 != key

/-- Take several names away. -/
def removeAll (names : List String) (m : Entries α) : Entries α :=
  m.filter fun e => !names.contains e.1

@[simp] theorem value?_nil (key : String) : value? key ([] : Entries α) = none := rfl

@[simp] theorem value?_cons (key : String) (e : String × α) (m : Entries α) :
    value? key (e :: m) = if e.1 = key then some e.2 else value? key m := rfl

/-- What was put is found. -/
theorem value?_put_self (key : String) (v : α) (m : Entries α) :
    value? key (put key v m) = some v := by
  induction m with
  | nil => simp [put]
  | cons e m ih => by_cases h : e.1 = key <;> simp [put, h, ih]

/-- Putting one name leaves the others alone. -/
theorem value?_put_ne {key other : String} (h : key ≠ other) (v : α) (m : Entries α) :
    value? other (put key v m) = value? other m := by
  induction m with
  | nil => simp [put, h]
  | cons e m ih =>
    by_cases hk : e.1 = key
    · simp [put, hk, h]
    · simp [put, hk, ih]

/-- A name put again keeps its place, and a new one comes last. -/
theorem keys_put (key : String) (v : α) (m : Entries α) :
    keys (put key v m) = if key ∈ keys m then keys m else keys m ++ [key] := by
  induction m with
  | nil => simp [put, keys]
  | cons e m ih =>
    by_cases h : e.1 = key
    · simp [put, h, keys]
    · have h' : key ≠ e.1 := fun he => h he.symm
      simp only [keys] at ih
      by_cases hm : key ∈ List.map Prod.fst m <;> simp_all [put, keys]

/-- A name is listed exactly when it has a value. -/
theorem mem_keys_iff (key : String) (m : Entries α) :
    key ∈ keys m ↔ (value? key m).isSome = true := by
  induction m with
  | nil => simp [keys]
  | cons e m ih =>
    simp only [keys] at ih
    by_cases h : e.1 = key
    · simp [keys, h]
    · have h' : key ≠ e.1 := fun he => h he.symm
      simp [keys, h, h', ih]

/-- The value found under a name is listed with it. -/
theorem mem_of_value? {key : String} {v : α} {m : Entries α} (h : value? key m = some v) :
    (key, v) ∈ m := by
  induction m with
  | nil => cases h
  | cons e m ih =>
    rw [value?_cons] at h
    split at h
    · next hk =>
      cases h
      exact hk ▸ List.mem_cons_self
    · exact List.mem_cons_of_mem _ (ih h)

/-- With distinct names, the value listed with a name is found under it. -/
theorem Distinct.value?_of_mem {m : Entries α} (h : Distinct m) {e : String × α} (he : e ∈ m) :
    value? e.1 m = some e.2 := by
  induction m with
  | nil => cases he
  | cons f m ih =>
    rw [Distinct, keys, List.map_cons, List.nodup_cons] at h
    rw [value?_cons]
    rcases List.mem_cons.1 he with rfl | he
    · simp
    · have hne : f.1 ≠ e.1 := fun hk => h.1 (hk ▸ List.mem_map_of_mem he)
      rw [if_neg hne]
      exact ih h.2 he

/-- Putting brings in no entry but the one that is put. -/
theorem mem_put {key : String} {v : α} {m : Entries α} {e : String × α} (h : e ∈ put key v m) :
    e = (key, v) ∨ e ∈ m := by
  induction m with
  | nil => exact .inl (List.mem_singleton.1 h)
  | cons f m ih =>
    by_cases hk : f.1 = key
    · rw [put, if_pos hk, List.mem_cons] at h
      rcases h with h | h
      · exact .inl (hk ▸ h)
      · exact .inr (List.mem_cons_of_mem f h)
    · rw [put, if_neg hk, List.mem_cons] at h
      rcases h with rfl | h
      · exact .inr List.mem_cons_self
      · exact (ih h).imp_right (List.mem_cons_of_mem f)

/-- Putting one after the other brings in only what is put. -/
theorem mem_putAll {m more : Entries α} {e : String × α} (h : e ∈ putAll m more) :
    e ∈ m ∨ e ∈ more := by
  induction more generalizing m with
  | nil => exact .inl h
  | cons f more ih =>
    rcases ih h with h | h
    · rcases mem_put h with rfl | h
      · exact .inr List.mem_cons_self
      · exact .inl h
    · exact .inr (List.mem_cons_of_mem f h)

/-- Putting keeps the names distinct. -/
theorem Distinct.put {m : Entries α} (h : Distinct m) (key : String) (v : α) :
    Distinct (Entries.put key v m) := by
  unfold Distinct at *
  rw [keys_put]
  by_cases hk : key ∈ keys m
  · simpa [hk] using h
  · simpa [hk, List.nodup_append] using ⟨h, fun a ha hak => hk (hak ▸ ha)⟩

/-- Putting many keeps the names distinct. -/
theorem Distinct.putAll {m : Entries α} (h : Distinct m) (more : Entries α) :
    Distinct (Entries.putAll m more) := by
  induction more generalizing m with
  | nil => exact h
  | cons e more ih => exact ih (h.put e.1 e.2)

/-- An entry list built by putting has distinct names. -/
theorem distinct_ofList (pairs : List (String × α)) : Distinct (ofList pairs) :=
  Distinct.putAll (by simp [Distinct, keys]) pairs

/-- A new name is put at the end. -/
theorem put_of_not_mem {key : String} {m : Entries α} (h : key ∉ keys m) (v : α) :
    put key v m = m ++ [(key, v)] := by
  induction m with
  | nil => rfl
  | cons e m ih =>
    rw [keys, List.map_cons, List.mem_cons, not_or] at h
    rw [put, if_neg (Ne.symm h.1), ih h.2, List.cons_append]

/-- Entries with distinct names, put one after the other, are themselves. -/
theorem Distinct.ofList_eq {m : Entries α} (h : Distinct m) : ofList m = m := by
  have hall : ∀ more before : Entries α, Distinct (before ++ more) →
      Entries.putAll before more = before ++ more := by
    intro more
    induction more with
    | nil => exact fun before _ => (List.append_nil before).symm
    | cons e more ih =>
      intro before hbefore
      have hnew : e.1 ∉ keys before := by
        rw [Distinct, keys, List.map_append, List.map_cons, List.nodup_append] at hbefore
        exact fun hmem => hbefore.2.2 e.1 hmem e.1 List.mem_cons_self rfl
      have hmoved : (before ++ [e]) ++ more = before ++ e :: more := List.append_assoc ..
      rw [← hmoved] at hbefore ⊢
      rw [← ih _ hbefore, ← put_of_not_mem hnew]
      rfl
  exact hall m [] h

/-- Removing keeps the names distinct. -/
theorem Distinct.remove {m : Entries α} (h : Distinct m) (key : String) :
    Distinct (Entries.remove key m) :=
  List.Nodup.sublist (List.Sublist.map _ List.filter_sublist) h

/-- A removed name is gone and the others are as before. -/
theorem value?_remove (key other : String) (m : Entries α) :
    value? other (remove key m) = if other = key then none else value? other m := by
  induction m with
  | nil => simp [remove]
  | cons e m ih =>
    simp only [remove] at ih
    by_cases hk : e.1 = key
    · by_cases ho : other = key
      · subst ho
        simpa [remove, hk] using ih
      · have hko : key ≠ other := fun he => ho he.symm
        simp [remove, hk, ih, ho, hko]
    · by_cases ho : e.1 = other
      · have hok : other ≠ key := fun he => hk (ho.trans he)
        simp [remove, ho, hok]
      · simp [remove, hk, ho, ih]

/-- Among entries that are kept by their names, a name has its value if it is one of those. -/
theorem value?_filter (kept : String → Bool) (key : String) (m : Entries α) :
    value? key (m.filter fun e => kept e.1) = if kept key then value? key m else none := by
  induction m with
  | nil => simp
  | cons e m ih =>
    by_cases hkey : e.1 = key
    · subst hkey
      cases hkept : kept e.1 <;> simp [hkept, ih]
    · cases hkept : kept e.1 <;> simp [hkept, hkey, ih]

variable {m n more : Entries α} {key other : String} {names others : List String}

/-- Of two values that are put under one name the last one stays. -/
theorem put_put (key : String) (v w : α) (m : Entries α) :
    put key v (put key w m) = put key v m := by
  induction m with
  | nil => simp [put]
  | cons e m ih => by_cases h : e.1 = key <;> simp [put, h, ih]

/-- Two different names can be put in either order if one of them is there already. -/
theorem put_comm (hne : key ≠ other) (hkey : key ∈ keys m) (v w : α) :
    put key v (put other w m) = put other w (put key v m) := by
  induction m with
  | nil => cases hkey
  | cons e m ih =>
    rw [keys, List.map_cons, List.mem_cons] at hkey
    by_cases hk : e.1 = key
    · have ho : e.1 ≠ other := fun ho => hne (hk.symm.trans ho)
      simp [put, hk, hne]
    · have hmem : key ∈ keys m := hkey.resolve_left (Ne.symm hk)
      by_cases ho : e.1 = other
      · simp [put, ho, Ne.symm hne]
      · simp [put, hk, ho, ih hmem]

/-- A name that is there already can be put before or after entries of other names. -/
theorem put_putAll (hkey : key ∈ keys m) (hmore : key ∉ keys more) (v : α) :
    put key v (putAll m more) = putAll (put key v m) more := by
  induction more generalizing m with
  | nil => rfl
  | cons e more ih =>
    rw [keys, List.map_cons, List.mem_cons, not_or] at hmore
    have hnext : key ∈ keys (put e.1 e.2 m) := by
      rw [keys_put]
      split
      · exact hkey
      · exact List.mem_append_left _ hkey
    calc put key v (putAll (put e.1 e.2 m) more)
        = putAll (put key v (put e.1 e.2 m)) more := ih hnext hmore.2
      _ = putAll (put e.1 e.2 (put key v m)) more := by rw [put_comm hmore.1 hkey]

/-- A name is there after it was put. -/
theorem mem_keys_put (key : String) (v : α) (m : Entries α) : key ∈ keys (put key v m) := by
  rw [mem_keys_iff, value?_put_self, Option.isSome_some]

/-- To add a map with one more entry is to add the map and then to put the entry. -/
theorem putAll_put (hn : Distinct n) (m : Entries α) (key : String) (v : α) :
    putAll m (put key v n) = put key v (putAll m n) := by
  induction n generalizing m with
  | nil => rfl
  | cons e n ih =>
    rw [Distinct, keys, List.map_cons, List.nodup_cons] at hn
    by_cases hk : e.1 = key
    · -- The entry takes its value in place, before the later ones instead of after them.
      subst hk
      calc putAll m (put e.1 v (e :: n))
          = putAll (put e.1 v m) n := by rw [put, if_pos rfl]; rfl
        _ = putAll (put e.1 v (put e.1 e.2 m)) n := by rw [put_put]
        _ = put e.1 v (putAll (put e.1 e.2 m) n) := (put_putAll (mem_keys_put ..) hn.1 v).symm
    · calc putAll m (put key v (e :: n))
          = putAll (put e.1 e.2 m) (put key v n) := by rw [put, if_neg hk]; rfl
        _ = put key v (putAll (put e.1 e.2 m) n) := ih hn.2 _

/-- Additions of maps are associative. -/
theorem putAll_assoc (hn : Distinct n) (m p : Entries α) :
    putAll (putAll m n) p = putAll m (putAll n p) := by
  induction p generalizing n with
  | nil => rfl
  | cons e p ih =>
    calc putAll (put e.1 e.2 (putAll m n)) p
        = putAll (putAll m (put e.1 e.2 n)) p := by rw [putAll_put hn]
      _ = putAll m (putAll (put e.1 e.2 n) p) := ih (hn.put e.1 e.2)

/-- A name that is there takes its value in place. -/
theorem Distinct.put_eq_map (h : Distinct m) (hkey : key ∈ keys m) (v : α) :
    Entries.put key v m = m.map fun e => if e.1 = key then (e.1, v) else e := by
  induction m with
  | nil => cases hkey
  | cons e m ih =>
    rw [Distinct, keys, List.map_cons, List.nodup_cons] at h
    rw [keys, List.map_cons, List.mem_cons] at hkey
    rw [List.map_cons]
    by_cases hk : e.1 = key
    · have hrest : (m.map fun f => if f.1 = key then (f.1, v) else f) = m := by
        refine (List.map_congr_left fun f hf => ?_).trans (List.map_id m)
        exact if_neg fun hf' => h.1 (List.mem_map.2 ⟨f, hf, hf'.trans hk.symm⟩)
      rw [hrest, Entries.put, if_pos hk, if_pos hk]
    · rw [Entries.put, if_neg hk, if_neg hk, ih h.2 (hkey.resolve_left (Ne.symm hk))]

/-- A name without a value is not there. -/
theorem value?_eq_none (h : key ∉ keys m) : value? key m = none := by
  rw [mem_keys_iff] at h
  simpa using h

/-- The sum of two maps has the entries of the first one in place, with the values of the second one
where it has any, and then the entries of the second one with new names in order. -/
theorem putAll_eq (hm : Distinct m) (hmore : Distinct more) :
    putAll m more = m.map (fun e => (e.1, (value? e.1 more).getD e.2)) ++
      more.filter fun e => decide (e.1 ∉ keys m) := by
  induction more generalizing m with
  | nil => simp [putAll]
  | cons e more ih =>
    rw [Distinct, keys, List.map_cons, List.nodup_cons] at hmore
    obtain ⟨hnew, hmore⟩ := hmore
    have hnone : value? e.1 more = none := value?_eq_none hnew
    have hstep : putAll m (e :: more) = putAll (put e.1 e.2 m) more := rfl
    rw [hstep, ih (hm.put e.1 e.2) hmore, keys_put]
    by_cases hk : e.1 ∈ keys m
    · rw [if_pos hk, hm.put_eq_map hk, List.map_map, List.filter_cons_of_neg (by simpa using hk)]
      congr 1
      refine List.map_congr_left fun d _ => ?_
      by_cases hd : d.1 = e.1
      · simp [hd, hnone]
      · simp [hd, Ne.symm hd]
    · rw [if_neg hk, put_of_not_mem hk, List.map_append,
        List.filter_cons_of_pos (by simpa using hk), List.append_assoc]
      congr 1
      · refine List.map_congr_left fun d hd => ?_
        have hne : e.1 ≠ d.1 := fun he => hk (he ▸ List.mem_map_of_mem hd)
        rw [value?_cons, if_neg hne]
      · have hfilter : (more.filter fun d => decide (d.1 ∉ keys m ++ [e.1])) =
            more.filter fun d => decide (d.1 ∉ keys m) := by
          refine List.filter_congr fun d hd => ?_
          have hne : d.1 ≠ e.1 := fun he => hnew (he ▸ List.mem_map_of_mem hd)
          simp [hne]
        rw [hfilter, List.map_singleton, hnone, Option.getD_none, List.singleton_append]

/-- A map that is added to itself is itself. -/
theorem putAll_self (hn : Distinct n) : putAll n n = n := by
  have hmap : (n.map fun e => (e.1, (value? e.1 n).getD e.2)) = n := by
    refine (List.map_congr_left fun e he => ?_).trans (List.map_id n)
    rw [hn.value?_of_mem he, Option.getD_some]
    rfl
  have hnone : (n.filter fun e => decide (e.1 ∉ keys n)) = [] :=
    List.filter_eq_nil_iff.2 fun e he => by
      have hkey : e.1 ∈ keys n := List.mem_map_of_mem he
      simp [hkey]
  rw [putAll_eq hn hn, hmap, hnone, List.append_nil]

/-- What is put under a name that is taken away leaves nothing. -/
theorem removeAll_put (hkey : key ∈ names) (v : α) (m : Entries α) :
    removeAll names (put key v m) = removeAll names m := by
  induction m with
  | nil => simp [put, removeAll, hkey]
  | cons e m ih =>
    unfold removeAll at ih ⊢
    by_cases hk : e.1 = key
    · simp [put, hk, hkey]
    · rw [put, if_neg hk, List.filter_cons, List.filter_cons, ih]

/-- What is put under names that are taken away leaves nothing. -/
theorem removeAll_putAll (hmore : ∀ e ∈ more, e.1 ∈ names) (m : Entries α) :
    removeAll names (putAll m more) = removeAll names m := by
  induction more generalizing m with
  | nil => rfl
  | cons e more ih =>
    rw [List.forall_mem_cons] at hmore
    exact (ih hmore.2 _).trans (removeAll_put hmore.1 e.2 m)

/-- Neither the order of the names that are taken away nor their repetition counts. -/
theorem removeAll_congr (h : ∀ name, name ∈ names ↔ name ∈ others) (m : Entries α) :
    removeAll names m = removeAll others m := by
  refine List.filter_congr fun e _ => ?_
  rw [Bool.eq_iff_iff]
  simp [h]

end Entries

end BranchingStory
