import BranchingStory.Proofs.Merge.Conflicts
import BranchingStory.Proofs.World.Agreement

/-!
# Modifications of one attribute under two spellings

An entity finds its mark of destruction under every letter case of its key, while conflicts are
found by comparing the keys as they are written. So of the pairs of operations that modify one
attribute exactly those go unnoticed that spell the mark of destruction differently. All other pairs
are reported, whatever values they hold, and both operations are listed.
-/

namespace BranchingStory

/-- The keys name one attribute: they are equal, or both name the mark of destruction in some letter
case. -/
def CoreAttribute.SameKeys (j k : String) : Prop :=
  j = k ∨ Text.sameLetters destroyed.key j = true ∧ Text.sameLetters destroyed.key k = true

/-- A modification leaves the same entity under each key of the attribute. -/
theorem CoreAttribute.SameKeys.toOption_modifyAttribute {j k : String}
    (h : CoreAttribute.SameKeys j k) (e : Entity) (o : Operator) (v : Value) :
    (e.modifyAttribute j o v).toOption = (e.modifyAttribute k o v).toOption := by
  rcases h with rfl | ⟨hj, hk⟩
  · rfl
  · have hj := CoreAttribute.ofKey?_eq_destroyed_iff.2 hj
    have hk := CoreAttribute.ofKey?_eq_destroyed_iff.2 hk
    simp only [Entity.modifyAttribute, Entity.setAttribute, hj, hk, Option.isSome_some, if_true]
    split
    · cases v <;> rfl
    · rfl

namespace Operation

/-- Both operations modify one attribute of one entity. -/
def SameAttribute (a b : Operation) : Prop :=
  a.target = b.target ∧ ∃ j k, a.modifyKey? = some j ∧ b.modifyKey? = some k ∧
    CoreAttribute.SameKeys j k

/-- The operation modifies the mark of destruction, in some letter case of its key. -/
def ModifiesMark (op : Operation) : Prop :=
  ∃ key, op.modifyKey? = some key ∧ Text.sameLetters CoreAttribute.destroyed.key key = true

/-- Operations that modify one attribute do so under one key, or both modify the mark of
destruction, which has several. -/
theorem SameAttribute.sameKey_or {a b : Operation} (h : a.SameAttribute b) :
    a.sameKey b = true ∨ a.modifyKey? ≠ b.modifyKey? ∧ a.ModifiesMark ∧ b.ModifiesMark := by
  obtain ⟨ht, j, k, hj, hk, hkeys⟩ := h
  by_cases hjk : j = k
  · subst hjk
    exact .inl ((sameKey_iff a b).2 ⟨ht, j, hj, hk⟩)
  · obtain ⟨hmj, hmk⟩ := hkeys.resolve_left hjk
    refine .inr ⟨fun heq => hjk ?_, ⟨j, hj, hmj⟩, k, hk, hmk⟩
    exact Option.some.inj (hj.symm.trans (heq.trans hk))

/-- Two operations have a key in common when they modify one attribute under one key. -/
theorem sameKey_iff_sameAttribute {a b : Operation} :
    a.sameKey b = true ↔ a.SameAttribute b ∧ a.modifyKey? = b.modifyKey? := by
  rw [sameKey_iff]
  constructor
  · rintro ⟨ht, key, ha, hb⟩
    exact ⟨⟨ht, key, key, ha, hb, .inl rfl⟩, ha.trans hb.symm⟩
  · rintro ⟨⟨ht, j, k, ha, hb, -⟩, hkey⟩
    exact ⟨ht, j, ha, hkey.symm.trans ha⟩

end Operation

namespace Merge

variable {op g e : Operation} {found : Conflict} {generated edited : List Operation}

/-- The operation is listed: it is there, or one that is the same. -/
def Listed (op : Operation) (list : List Operation) : Prop :=
  ∃ other ∈ list, other = op ∨ (op == other) = true

/-- Appending an operation keeps what is listed. -/
theorem Listed.addOnce {list : List Operation} (h : Listed op list) (other : Operation) :
    Listed op (addOnce list other) := by
  obtain ⟨same, hmem, hsame⟩ := h
  refine ⟨same, ?_, hsame⟩
  unfold Merge.addOnce
  split
  · exact hmem
  · exact List.mem_append_left _ hmem

/-- An operation that is appended is listed. -/
theorem listed_addOnce (list : List Operation) (op : Operation) : Listed op (addOnce list op) := by
  unfold addOnce
  split
  · next h =>
    obtain ⟨same, hmem, hsame⟩ := List.contains_iff_exists_mem_beq.1 h
    exact ⟨same, hmem, .inr hsame⟩
  · exact ⟨op, List.mem_append_right _ (List.mem_singleton_self op), .inl rfl⟩

/-- An operation of the generator's and one of the user's are both among those found. -/
def Conflict.Lists (g e : Operation) (found : Conflict) : Prop :=
  Listed g found.generated ∧ Listed e found.edited

/-- What is found remains when two more operations meet. -/
theorem Conflict.Lists.meet (h : found.Lists g e) (user own : Operation) :
    (Conflict.meet user found own).Lists g e := by
  unfold Conflict.meet
  split
  · exact ⟨h.1.addOnce own, h.2.addOnce user⟩
  · exact h

/-- What is found remains when a user operation meets several of the generator's. -/
theorem Conflict.Lists.foldl_meet (h : found.Lists g e) (user : Operation)
    (batch : List Operation) : (batch.foldl (Conflict.meet user) found).Lists g e :=
  List.foldlRecOn batch _ h fun _ hfound own _ => hfound.meet user own

/-- A user operation finds itself and each operation with which it has a key in common. -/
theorem Conflict.lists_scan (found : Conflict) (hg : g ∈ generated) (h : g.sameKey e = true) :
    (Conflict.scan (TargetIndex.ofBatch generated) found e).Lists g e := by
  have hmem : g ∈ generated.filter fun own => own.target = e.target :=
    List.mem_filter.2 ⟨hg, decide_eq_true (Operation.target_eq_of_sameKey h)⟩
  obtain ⟨before, after, hsplit⟩ := List.append_of_mem hmem
  rw [Conflict.scan, TargetIndex.on_ofBatch, hsplit, List.foldl_append, List.foldl_cons]
  refine Conflict.Lists.foldl_meet ?_ e after
  rw [Conflict.meet, Operation.isBlocking_eq_sameKey, if_pos h]
  exact ⟨listed_addOnce _ g, listed_addOnce _ e⟩

/-- Operations of both sides that have a key in common are found. -/
theorem Conflict.lists_foldl_scan (found : Conflict) (hg : g ∈ generated) (he : e ∈ edited)
    (h : g.sameKey e = true) :
    (edited.foldl (Conflict.scan (TargetIndex.ofBatch generated)) found).Lists g e := by
  obtain ⟨before, after, rfl⟩ := List.append_of_mem he
  rw [List.foldl_append, List.foldl_cons]
  exact List.foldlRecOn after _ (Conflict.lists_scan _ hg h)
    fun _ hfound user _ => hfound.foldl_meet user _

/-- Operations of both sides that have a key in common are reported, NaN or not. -/
theorem exists_conflict_of_sameKey (hg : g ∈ generated) (he : e ∈ edited)
    (h : g.sameKey e = true) :
    ∃ c, conflict? (TargetIndex.ofBatch generated) generated edited = some c ∧ c.Lists g e := by
  obtain ⟨hown, huser⟩ := Conflict.lists_foldl_scan ⟨[], []⟩ hg he h
  rw [conflict?, if_neg]
  · obtain ⟨same, hmem, hsame⟩ := hown
    exact ⟨_, rfl, ⟨same, List.mem_mergeSort.2 hmem, hsame⟩, huser⟩
  · obtain ⟨same, hmem, -⟩ := huser
    exact fun hnil => List.not_mem_nil (List.isEmpty_iff.1 hnil ▸ hmem)

/-- Without a key in common nothing is found. -/
theorem conflict?_eq_none (h : ∀ g ∈ generated, ∀ e ∈ edited, g.sameKey e = false) :
    conflict? (TargetIndex.ofBatch generated) generated edited = none := by
  have hfound : edited.foldl (Conflict.scan (TargetIndex.ofBatch generated)) ⟨[], []⟩ =
      ⟨[], []⟩ := by
    refine List.foldlRecOn (motive := fun found : Conflict => found = ⟨[], []⟩) edited _ rfl
      fun found hfound e he => ?_
    rw [Conflict.scan, TargetIndex.on_ofBatch]
    refine List.foldlRecOn (motive := fun found : Conflict => found = ⟨[], []⟩) _ _ hfound
      fun met hmet g hg => ?_
    rw [Conflict.meet, Operation.isBlocking_eq_sameKey, h g (List.mem_filter.1 hg).1 e he]
    exact hmet
  rw [conflict?, hfound]
  rfl

/-- In any two batches, with or without NaN, operations of both sides that modify one attribute of
one entity are reported and listed, unless they spell the mark of destruction differently. Nothing
blocks exactly when all that modify one attribute do so under different keys. -/
theorem detect_same_attribute {Memory : Type} (renamer : Renamer Memory) (world : World)
    (generated edited : List Operation) (memory : Memory) :
    let report := (detect renamer world generated edited memory).1
    (∀ g ∈ generated, ∀ e ∈ report.edited, g.SameAttribute e →
      (∃ c, report.conflict = some c ∧ Listed g c.generated ∧ Listed e c.edited) ∨
        g.modifyKey? ≠ e.modifyKey? ∧ g.ModifiesMark ∧ e.ModifiesMark) ∧
    (report.conflict = none ↔ ∀ g ∈ generated, ∀ e ∈ report.edited, g.SameAttribute e →
      g.modifyKey? ≠ e.modifyKey?) := by
  intro report
  refine ⟨fun g hg e he h => h.sameKey_or.imp_left (exists_conflict_of_sameKey hg he), ?_⟩
  constructor
  · intro hnone g hg e he h hkey
    have hsame := Operation.sameKey_iff_sameAttribute.2 ⟨h, hkey⟩
    rw [sameKey_eq_false hnone hg he] at hsame
    cases hsame
  · intro hkeys
    refine conflict?_eq_none fun g hg e he => Bool.eq_false_iff.2 fun hsame => ?_
    obtain ⟨h, hkey⟩ := Operation.sameKey_iff_sameAttribute.1 hsame
    exact hkeys g hg e he h hkey

/-- A value that is not the same as itself is listed, and a second spelling does not hide it. -/
theorem detect_same_attribute_nan :
    let set (key : String) (v : Value) : Operation := .modify ⟨.character, "hero"⟩ key .equal v
    let generated := [set "IsDestroyed" (.bool true), set "hp" (.float .nan)]
    let edited := [set "isdestroyed" (.bool false), set "hp" (.int 2)]
    let report := (detect (.sequential "_") World.empty generated edited 1).1
    ∃ c, report.conflict = some c ∧ Listed (set "hp" (.float .nan)) c.generated ∧
      Listed (set "hp" (.int 2)) c.edited := by
  intro set generated edited report
  obtain ⟨hlisted, -⟩ := detect_same_attribute (.sequential "_") World.empty generated edited 1
  have hedited : set "hp" (.int 2) ∈ report.edited := by
    have heq : report.edited = edited := by
      subst report edited generated set
      rfl
    rw [heq]
    exact List.mem_cons_of_mem _ (List.mem_singleton_self _)
  refine (hlisted _ (List.mem_cons_of_mem _ (List.mem_singleton_self _)) _ hedited
    ⟨rfl, "hp", "hp", rfl, rfl, .inl rfl⟩).resolve_right fun hother => hother.1 rfl

/-- The generator marks the hero as destroyed, and the user, in another spelling, as not destroyed.
Nothing blocks, and in the merged batch the user's operation fails. -/
theorem detect_same_attribute_unnoticed :
    let hero : EntityId := ⟨.character, "hero"⟩
    let kill : Operation := .modify hero "IsDestroyed" .equal (.bool true)
    let spare : Operation := .modify hero "isdestroyed" .equal (.bool false)
    let world := (World.empty.apply [.create hero []]).1
    let report := (detect (.sequential "_user_created_") world [kill] [spare] 1).1
    kill.SameAttribute spare ∧ kill ∈ report.generated ∧ spare ∈ report.edited ∧
      (world.apply [kill]).2 = [⟨kill, none⟩] ∧ (world.apply [spare]).2 = [⟨spare, none⟩] ∧
      report.conflict = none ∧
      (world.apply report.merged).2 = [⟨kill, none⟩, ⟨spare, some (.notFound hero)⟩] := by
  intro hero kill spare world report
  refine ⟨⟨rfl, "IsDestroyed", "isdestroyed", rfl, rfl, .inr (by decide)⟩,
    List.mem_singleton_self _, List.mem_singleton_self _, ?_, ?_, ?_, ?_⟩ <;>
    subst report world spare kill hero <;> rfl

end Merge

end BranchingStory
