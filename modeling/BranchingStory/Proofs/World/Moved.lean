import BranchingStory.Proofs.World.Replay

/-!
# Batches moved to another name

What operations do to an entity does not depend on its name. So a batch that succeeds under one name
succeeds under another when every operation is moved there, and leaves the same entity but for the
name. What the slots hold that is not live does not matter as soon as an operation creates the
entity anew.
-/

namespace BranchingStory

namespace Entity

/-- The entity under another name. -/
def rename (name : EntityId) (e : Entity) : Entity := { e with name }

/-- Giving an attribute a value does not depend on the name. -/
theorem setAttribute_rename (name : EntityId) (e : Entity) (key : String) (v : Value) :
    (e.rename name).setAttribute key v = (e.setAttribute key v).map (rename name) := by
  unfold setAttribute
  split
  · rfl
  · rfl
  · split <;> rfl
  · rfl

/-- Giving several attributes their values does not depend on the name. -/
theorem setAttributes_rename (name : EntityId) (e : Entity) (attributes : Entries Value) :
    (e.rename name).setAttributes attributes = (e.setAttributes attributes).map (rename name) := by
  induction attributes generalizing e with
  | nil => rfl
  | cons entry attributes ih =>
    unfold setAttributes
    rw [setAttribute_rename]
    cases e.setAttribute entry.1 entry.2 with
    | ok next => exact ih next
    | error error => rfl

/-- Changing an attribute does not depend on the name. -/
theorem modifyAttribute_rename (name : EntityId) (e : Entity) (key : String) (op : Operator)
    (operand : Value) :
    (e.rename name).modifyAttribute key op operand =
      (e.modifyAttribute key op operand).map (rename name) := by
  unfold modifyAttribute
  split
  · split
    · exact setAttribute_rename name e key operand
    · rfl
  · have hvalue : (e.rename name).attribute? key = e.attribute? key := rfl
    rw [hvalue]
    split <;> rfl

end Entity

namespace Slot

variable {slot other next last : Slot} {name : EntityId} {op : Operation} {ops : List Operation}

/-- The live entity of a slot under another name. -/
theorem live?_map_rename (name : EntityId) (slot : Slot) :
    live? (slot.map (Entity.rename name)) = (live? slot).map (Entity.rename name) := by
  cases slot with
  | none => rfl
  | some e =>
    rw [Option.map_some, live?_some, live?_some]
    cases h : e.destroyed <;> simp [Entity.rename, h]

/-- A deleted entity is not live. -/
theorem live?_map_destroy (slot : Slot) :
    live? (slot.map fun e => { e with destroyed := true }) = none := by
  cases slot <;> rfl

/-- A new entity under another name. -/
private theorem setAttributes_new {target name : EntityId} {attributes : Entries Value}
    {e : Entity} (h : (Entity.new target).setAttributes attributes = .ok e) :
    (Entity.new name).setAttributes attributes = .ok (e.rename name) := by
  have hnew : Entity.new name = (Entity.new target).rename name := rfl
  rw [hnew, Entity.setAttributes_rename, h]
  rfl

/-- Under another name an operation that succeeds does the same. -/
theorem step_retarget (h : step slot op = .ok next)
    (hname : { op.target with id := name.id } = name) :
    step (slot.map (Entity.rename name)) (op.retarget name.id) =
      .ok (next.map (Entity.rename name)) := by
  rcases step_cases h with ⟨target, attributes, e, rfl, hlive, he, rfl⟩ |
    ⟨target, key, o, v, e, changed, rfl, rfl, hd, hb, hn, hm, rfl⟩ | ⟨target, rfl, rfl⟩
  · rw [Operation.target] at hname
    have hmoved : live? (slot.map (Entity.rename name)) = none := by
      rw [live?_map_rename, hlive, Option.map_none]
    simp only [Operation.retarget, step, hname, hmoved, setAttributes_new he]
    rfl
  · have hmoved : (e.rename name).modifyAttribute key o v = .ok (changed.rename name) := by
      rw [Entity.modifyAttribute_rename, hm]
      rfl
    have hlive : live? (some (e.rename name)) = some (e.rename name) := by
      rw [live?_some]
      exact if_neg (by simp [Entity.rename, hd])
    simp only [Operation.retarget, step, Option.map_some, hlive, hb, hn, hmoved]
    rfl
  · cases slot <;> rfl

/-- Where nothing is live, an operation that succeeds is a creation, which does the same under
another name, or a deletion, which leaves nothing live. -/
theorem step_retarget_of_dead (h : step slot op = .ok next) (hslot : live? slot = none)
    (hother : live? other = none) (hname : { op.target with id := name.id } = name) :
    ∃ moved, step other (op.retarget name.id) = .ok moved ∧
      (moved = next.map (Entity.rename name) ∨
        op.isCreate = false ∧ live? next = none ∧ live? moved = none) := by
  rcases step_cases h with ⟨target, attributes, e, rfl, hlive, he, rfl⟩ |
    ⟨target, key, o, v, e, changed, rfl, rfl, hd, hb, hn, hm, rfl⟩ | ⟨target, rfl, rfl⟩
  · rw [Operation.target] at hname
    refine ⟨_, ?_, .inl rfl⟩
    simp only [Operation.retarget, step, hname, hother, setAttributes_new he]
    rfl
  · rw [live?_some, hd] at hslot
    cases hslot
  · exact ⟨_, rfl, .inr ⟨rfl, live?_map_destroy slot, live?_map_destroy other⟩⟩

/-- Under another name a batch that succeeds does the same. -/
theorem Leads.retarget (h : Leads slot ops last)
    (hname : ∀ op ∈ ops, { op.target with id := name.id } = name) :
    Leads (slot.map (Entity.rename name)) (ops.map (Operation.retarget name.id))
      (last.map (Entity.rename name)) := by
  induction ops generalizing slot with
  | nil =>
    rw [leads_nil_iff] at h
    rw [h, List.map_nil, leads_nil_iff]
  | cons op ops ih =>
    rw [List.forall_mem_cons] at hname
    obtain ⟨next, hstep, hrest⟩ := leads_cons_iff.1 h
    exact leads_cons_iff.2 ⟨_, step_retarget hstep hname.1, ih hrest hname.2⟩

/-- Where nothing is live, a batch that succeeds and creates the entity leaves the same under
another name. -/
theorem Leads.retarget_of_dead (h : Leads slot ops last) (hslot : live? slot = none)
    (hother : live? other = none) (hname : ∀ op ∈ ops, { op.target with id := name.id } = name)
    (hcreate : ∃ op ∈ ops, op.isCreate = true) :
    Leads other (ops.map (Operation.retarget name.id)) (last.map (Entity.rename name)) := by
  induction ops generalizing slot other with
  | nil =>
    obtain ⟨op, hop, -⟩ := hcreate
    cases hop
  | cons op ops ih =>
    rw [List.forall_mem_cons] at hname
    obtain ⟨next, hstep, hrest⟩ := leads_cons_iff.1 h
    obtain ⟨moved, hmoved, hcases⟩ := step_retarget_of_dead hstep hslot hother hname.1
    refine leads_cons_iff.2 ⟨moved, hmoved, ?_⟩
    rcases hcases with rfl | ⟨hop, hnext, hdead⟩
    · exact hrest.retarget hname.2
    -- Still nothing is live in either slot, and the creation is yet to come.
    · obtain ⟨creation, hmem, hc⟩ := hcreate
      rcases List.mem_cons.1 hmem with rfl | hmem
      · rw [hc] at hop
        cases hop
      · exact ih hrest hnext hdead hname.2 ⟨creation, hmem, hc⟩

/-- A creation that succeeds has found nothing live. -/
theorem live?_eq_none_of_isCreate (h : step slot op = .ok next) (hop : op.isCreate = true) :
    live? slot = none := by
  rcases step_cases h with ⟨_, _, _, -, hlive, -, -⟩ | ⟨_, _, _, _, _, _, rfl, -⟩ | ⟨_, rfl, -⟩
  · exact hlive
  · cases hop
  · cases hop

/-- Where nothing is live, operations that create nothing leave nothing live. -/
theorem live?_apply_of_dead (hslot : live? slot = none)
    (hcreate : ∀ op ∈ ops, op.isCreate = false) : live? (apply slot ops).1 = none := by
  induction ops generalizing slot with
  | nil => exact hslot
  | cons op ops ih =>
    rw [List.forall_mem_cons] at hcreate
    rw [apply_cons]
    refine ih ?_ hcreate.2
    cases op with
    | create target attributes => cases hcreate.1
    | modify target key o v => simp only [applyOne, step, hslot]
    | delete target => exact live?_map_destroy slot

/-- Where nothing is live, operations that create nothing leave nothing live under another id
either. -/
theorem live?_apply_retarget_of_dead (hother : live? other = none)
    (hcreate : ∀ op ∈ ops, op.isCreate = false) (id : String) :
    live? (apply other (ops.map (Operation.retarget id))).1 = none := by
  refine live?_apply_of_dead hother fun moved hmoved => ?_
  obtain ⟨op, hop, rfl⟩ := List.mem_map.1 hmoved
  rw [Operation.isCreate_retarget, hcreate op hop]

/-- Operations that succeed and create the entity leave the same under another name where nothing is
live. Those before the first creation may fail there, but they leave nothing live either. -/
theorem Leads.fst_apply_retarget (h : Leads slot ops last) (hother : live? other = none)
    (hname : ∀ op ∈ ops, { op.target with id := name.id } = name)
    (hcreate : ∃ op ∈ ops, op.isCreate = true) :
    (apply other (ops.map (Operation.retarget name.id))).1 = last.map (Entity.rename name) := by
  induction ops generalizing slot other with
  | nil =>
    obtain ⟨op, hop, -⟩ := hcreate
    cases hop
  | cons op ops ih =>
    rw [List.forall_mem_cons] at hname
    obtain ⟨next, hstep, hrest⟩ := leads_cons_iff.1 h
    rw [List.map_cons, apply_cons]
    cases hc : op.isCreate with
    | true =>
      obtain ⟨moved, hmoved, rfl | ⟨hnot, -, -⟩⟩ :=
        step_retarget_of_dead hstep (live?_eq_none_of_isCreate hstep hc) hother hname.1
      · have hlast := hrest.retarget hname.2
        rw [applyOne, hmoved]
        exact congrArg Prod.fst hlast
      · rw [hc] at hnot
        cases hnot
    | false =>
      obtain ⟨creation, hmem, hcreation⟩ := hcreate
      have hrest' : creation ∈ ops := (List.mem_cons.1 hmem).resolve_left fun he => by
        rw [he, hc] at hcreation
        cases hcreation
      refine ih hrest ?_ hname.2 ⟨creation, hrest', hcreation⟩
      have hdead : live? (apply other [op.retarget name.id]).1 = none :=
        live?_apply_of_dead hother
          (List.forall_mem_singleton.2 ((op.isCreate_retarget name.id).trans hc))
      exact hdead

/-- An operation that succeeds after others on its target does so after them under another id where
nothing is live, if it is no modification or one of the others creates the entity. -/
theorem Leads.applyOne_retarget (h : Leads slot ops next) (hstep : step next op = .ok last)
    (hother : live? other = none) (hops : ∀ before ∈ ops, before.target = op.target)
    (hop : op.modifyKey? = none ∨ ∃ before ∈ ops, before.isCreate = true) (id : String) :
    (applyOne (apply other (ops.map (Operation.retarget id))).1 (op.retarget id)).2 =
      ⟨op.retarget id, none⟩ := by
  let name : EntityId := { op.target with id }
  have hname : { op.target with id := name.id } = name := rfl
  obtain ⟨moved, hmoved⟩ : ∃ moved, step (apply other (ops.map (Operation.retarget name.id))).1
      (op.retarget name.id) = .ok moved := by
    by_cases hcreate : ∃ before ∈ ops, before.isCreate = true
    · have hnames : ∀ before ∈ ops, { before.target with id := name.id } = name :=
        fun before hbefore => by rw [hops before hbefore]
      rw [h.fst_apply_retarget hother hnames hcreate]
      exact ⟨_, step_retarget hstep hname⟩
    -- Nothing is live yet, so the operation has to be a creation or a deletion.
    · have hdead := live?_apply_retarget_of_dead hother (fun before hbefore =>
        Bool.eq_false_iff.2 fun hc => hcreate ⟨before, hbefore, hc⟩) name.id
      cases op with
      | create target attributes =>
        have hnext := live?_eq_none_of_isCreate hstep rfl
        obtain ⟨moved, hmoved, -⟩ := step_retarget_of_dead hstep hnext hdead hname
        exact ⟨moved, hmoved⟩
      | modify target key o v => exact absurd (hop.resolve_right hcreate) (Option.some_ne_none key)
      | delete target => exact ⟨_, rfl⟩
  rw [applyOne, hmoved]

/-- A modification that succeeds after others that create nothing has found its entity live before
them. Under another id where nothing is live it fails. -/
theorem Leads.applyOne_retarget_of_modify (h : Leads slot ops next)
    (hstep : step next op = .ok last) (hother : live? other = none) (hop : op.modifyKey? ≠ none)
    (hcreate : ∀ before ∈ ops, before.isCreate = false) (id : String) :
    (applyOne (apply other (ops.map (Operation.retarget id))).1 (op.retarget id)).2 =
        ⟨op.retarget id, some (.notFound { op.target with id })⟩ ∧
      (live? slot).isSome = true := by
  cases op with
  | create target attributes => exact absurd rfl hop
  | delete target => exact absurd rfl hop
  | modify target key o v =>
    constructor
    · have hdead := live?_apply_retarget_of_dead hother hcreate id
      simp only [Operation.retarget, applyOne, step, hdead, Operation.target]
    · rw [← Option.ne_none_iff_isSome]
      intro hslot
      have hnext := live?_apply_of_dead hslot hcreate
      rw [congrArg Prod.fst h] at hnext
      rw [step, hnext] at hstep
      cases hstep

end Slot

end BranchingStory
