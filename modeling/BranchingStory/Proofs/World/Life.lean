import BranchingStory.Proofs.World.Agreement

/-!
# Life and death of entities

An entity is destroyed in three ways: by a deletion, by a modification of the mark of destruction,
and by a creation whose initial attributes set the mark. Only a creation brings one to life. So what
the last of these operations did decides whether an entity is live after a batch, and an entity that
is destroyed stays as it is until it is created anew.
-/

namespace BranchingStory

namespace Entity

variable {e next : Entity} {key : String} {v : Value}

/-- Giving an attribute a value changes the mark of destruction if the key names it, and then the
value is a truth value. -/
theorem destroyed_setAttribute (h : e.setAttribute key v = .ok next) :
    Value.bool next.destroyed =
      if Text.sameLetters CoreAttribute.destroyed.key key then v else .bool e.destroyed := by
  unfold setAttribute at h
  split at h
  · cases h
  · cases h
  · next hk =>
    rw [if_pos (CoreAttribute.ofKey?_eq_destroyed_iff.1 hk)]
    split at h <;> cases h
    rfl
  · next hk =>
    have hmark : ¬Text.sameLetters CoreAttribute.destroyed.key key = true := fun hs => by
      rw [CoreAttribute.ofKey?_eq_destroyed_iff.2 hs] at hk
      cases hk
    cases h
    rw [if_neg hmark]

/-- Changing an attribute changes the mark of destruction if the key names it, and then the mark is
replaced by a truth value. -/
theorem destroyed_modifyAttribute {op : Operator} (h : e.modifyAttribute key op v = .ok next) :
    if Text.sameLetters CoreAttribute.destroyed.key key then
      op = .equal ∧ v = .bool next.destroyed
    else next.destroyed = e.destroyed := by
  unfold modifyAttribute at h
  split at h
  · split at h
    · next hop =>
      have hset := destroyed_setAttribute h
      split
      · next hs =>
        rw [if_pos hs] at hset
        exact ⟨hop, hset.symm⟩
      · next hs =>
        rw [if_neg hs] at hset
        exact Value.bool.inj hset
    · cases h
  · next hcore =>
    have hmark : ¬Text.sameLetters CoreAttribute.destroyed.key key = true := fun hs =>
      hcore (by rw [CoreAttribute.ofKey?_eq_destroyed_iff.2 hs]; rfl)
    rw [if_neg hmark]
    split at h <;> cases h <;> rfl

/-- The value of the last initial attribute whose key names the mark of destruction. -/
def lastMark? (attributes : Entries Value) : Option Value :=
  (attributes.filter fun a => Text.sameLetters CoreAttribute.destroyed.key a.1).getLast?.map
    Prod.snd

/-- The first initial attribute names the mark last if no later one names it. -/
theorem lastMark?_cons (a : String × Value) (attributes : Entries Value) :
    lastMark? (a :: attributes) = (lastMark? attributes).or
      (if Text.sameLetters CoreAttribute.destroyed.key a.1 then some a.2 else none) := by
  unfold lastMark?
  rw [List.filter_cons]
  split
  · rw [← List.singleton_append, List.getLast?_append, Option.map_or, List.getLast?_singleton,
      Option.map_some]
  · rw [Option.or_none]

/-- Of several initial attributes the last one that names the mark of destruction sets it. -/
theorem destroyed_setAttributes {attributes : Entries Value}
    (h : e.setAttributes attributes = .ok next) :
    Value.bool next.destroyed = (lastMark? attributes).getD (.bool e.destroyed) := by
  induction attributes generalizing e with
  | nil =>
    cases h
    rfl
  | cons a attributes ih =>
    unfold setAttributes at h
    split at h
    · next first hfirst =>
      rw [ih h, destroyed_setAttribute hfirst, lastMark?_cons, Option.getD_or]
      split <;> rfl
    · cases h

end Entity

namespace Operation

/-- When the operation succeeds, it settles whether its target is live: it creates or deletes the
target, or it sets the mark of destruction. -/
def settlesLife : Operation → Bool
  | create _ _ => true
  | modify _ key op value =>
    Text.sameLetters CoreAttribute.destroyed.key key && decide (op = .equal) &&
      value.bool? == some true
  | delete _ => true

/-- The operation creates its target live: the last initial attribute that names the mark of
destruction is false, if there is one. -/
def CreatesLive : Operation → Prop
  | create _ attributes => ∀ v, Entity.lastMark? attributes = some v → v = .bool false
  | _ => False

/-- Who creates a live entity settles its life. -/
theorem CreatesLive.settlesLife {op : Operation} (h : op.CreatesLive) : op.settlesLife = true := by
  cases op with
  | create => rfl
  | modify => exact h.elim
  | delete => exact h.elim

end Operation

namespace Slot

variable {slot next last : Slot} {op : Operation} {ops : List Operation}

/-- An operation that settles the life of its entity leaves it live if it creates it so, and any
other leaves it live if it was. -/
theorem isSome_live?_step (h : step slot op = .ok next) :
    (live? next).isSome = true ↔
      op.CreatesLive ∨ op.settlesLife = false ∧ (live? slot).isSome = true := by
  have hlive : ∀ e : Entity, (live? (some e)).isSome = true ↔ e.destroyed = false := by
    intro e
    rw [live?_some]
    cases e.destroyed <;> simp
  rcases step_cases h with ⟨target, attributes, e, rfl, -, he, rfl⟩ |
    ⟨target, key, o, v, e, changed, rfl, rfl, hd, -, -, hm, rfl⟩ | ⟨target, rfl, rfl⟩
  · have hmark := Entity.destroyed_setAttributes he
    simp only [hlive, Operation.settlesLife, Bool.true_eq_false, false_and, or_false,
      Operation.CreatesLive]
    cases hlast : Entity.lastMark? attributes with
    | none =>
      rw [hlast, Option.getD_none] at hmark
      simp [Value.bool.inj hmark, Entity.new]
    | some v =>
      rw [hlast, Option.getD_some] at hmark
      simp [← hmark]
  · have hmark := Entity.destroyed_modifyAttribute hm
    simp only [hlive, hd, Operation.settlesLife, Operation.CreatesLive, false_or, and_true]
    split at hmark
    · next hs =>
      obtain ⟨rfl, rfl⟩ := hmark
      simp [hs, Value.bool?]
    · next hs => simp [hs, hmark, hd]
  · cases slot <;> simp [live?, Operation.settlesLife, Operation.CreatesLive]

/-- After operations that succeed an entity is live if the last of those that settle its life
creates it so, or if there is none and it was live before. -/
theorem Leads.isSome_live?_iff (h : Leads slot ops last) :
    (live? last).isSome = true ↔
      (∃ op, (ops.filter Operation.settlesLife).getLast? = some op ∧ op.CreatesLive) ∨
        ops.filter Operation.settlesLife = [] ∧ (live? slot).isSome = true := by
  induction ops generalizing slot with
  | nil =>
    obtain rfl := leads_nil_iff.1 h
    simp
  | cons op ops ih =>
    obtain ⟨next, hstep, hrest⟩ := leads_cons_iff.1 h
    rw [ih hrest, isSome_live?_step hstep]
    cases hs : op.settlesLife with
    | true =>
      rw [List.filter_cons_of_pos hs]
      cases ops.filter Operation.settlesLife <;> simp
    | false =>
      have hnot : ¬op.CreatesLive := fun hc => by
        rw [hc.settlesLife] at hs
        cases hs
      rw [List.filter_cons_of_neg (by simp [hs])]
      simp [hnot]

/-- Where an entity is destroyed, operations that succeed and do not create it leave it as it
is. -/
theorem Leads.eq_of_destroyed {e : Entity} (h : Leads (some e) ops last)
    (hd : e.destroyed = true) (hcreate : ∀ op ∈ ops, op.isCreate = false) : last = some e := by
  induction ops with
  | nil => exact (leads_nil_iff.1 h).symm
  | cons op ops ih =>
    rw [List.forall_mem_cons] at hcreate
    obtain ⟨next, hstep, hrest⟩ := leads_cons_iff.1 h
    rcases step_cases hstep with ⟨target, attributes, f, rfl, -, -, -⟩ |
      ⟨target, key, o, v, f, changed, rfl, hf, hlive, -, -, -, -⟩ | ⟨target, rfl, rfl⟩
    · cases hcreate.1
    · obtain rfl := Option.some.inj hf
      rw [hd] at hlive
      cases hlive
    · have hsame : { e with destroyed := true } = e := by rw [← hd]
      rw [Option.map_some, hsame] at hrest
      exact ih hrest hcreate.2

end Slot

namespace World

/-- Whatever a batch does and wherever it fails, an entity is live afterwards exactly when the last
operation on it that succeeded and settles its life created it live, or when there was none and it
was live before. One that is stored destroyed stays completely as it is unless an operation creates
it anew, and every modification of it fails. -/
theorem life_follows_last_settling (w : World) (ops : List Operation) (target : EntityId) :
    let done := (Outcome.successful (w.apply ops).2).filter fun op => op.target = target
    let settling := done.filter Operation.settlesLife
    ((w.apply ops).1.contains target = true ↔
      (∃ op, settling.getLast? = some op ∧ op.CreatesLive) ∨
        settling = [] ∧ w.contains target = true) ∧
    ∀ e, w.stored? target = some e → e.destroyed = true →
      ((∀ op ∈ done, op.isCreate = false) → (w.apply ops).1.stored? target = some e) ∧
      ∀ key op value, w.applyOne (.modify target key op value) =
        (w, ⟨.modify target key op value, some (.notFound target)⟩) := by
  intro done settling
  have hleads : Slot.Leads (w.stored? target) done ((w.apply ops).1.stored? target) :=
    (leads_successful w ops).slot target
  refine ⟨hleads.isSome_live?_iff, fun e he hd => ⟨fun hcreate => ?_, fun key op value => ?_⟩⟩
  · rw [he] at hleads
    exact hleads.eq_of_destroyed hd hcreate
  · have hlive : w.live? target = none := by simp [live?, he, hd]
    simp [applyOne, step, hlive]

/-- The hero is destroyed, missed and created anew with one mark that says so and a later one that
does not; the cup was destroyed before and stays as it was. -/
theorem life_follows_last_settling_recreated :
    let hero : EntityId := ⟨.character, "hero"⟩
    let cup : EntityId := ⟨.item, "cup"⟩
    let world := (World.empty.apply [.create hero [("hp", .int 3)],
      .create cup [("full", .bool true)], .delete cup]).1
    let destroy : Operation := .modify hero "isDESTROYED" .equal (.bool true)
    let recreate : Operation := .create hero
      [("IsDestroyed", .bool true), ("title", .text "Sir"), ("isdestroyed", .bool false)]
    let spare : Operation := .modify hero "IsDestroyed" .equal (.bool false)
    let ops : List Operation := [destroy, .modify hero "hp" .add (.int 1), recreate,
      .modify cup "full" .equal (.bool false), spare, .delete cup]
    let last := (world.apply ops).1
    let done := (Outcome.successful (world.apply ops).2).filter fun op => op.target = hero
    done = [destroy, recreate, spare] ∧ done.filter Operation.settlesLife = [destroy, recreate] ∧
      recreate.CreatesLive ∧ last.contains hero = true ∧
      world.stored? cup = some ⟨cup, [("full", .bool true)], true⟩ ∧
      last.stored? cup = some ⟨cup, [("full", .bool true)], true⟩ ∧
      world.applyOne (.modify cup "full" .equal (.bool false)) =
        (world, ⟨.modify cup "full" .equal (.bool false), some (.notFound cup)⟩) := by
  intro hero cup world destroy recreate spare ops last done
  have hdone : done = [destroy, recreate, spare] := by
    subst done last ops spare recreate destroy world cup hero
    rfl
  have hsettling : done.filter Operation.settlesLife = [destroy, recreate] := by
    rw [hdone]
    subst done last ops spare recreate destroy world cup hero
    rfl
  have hlive : recreate.CreatesLive := by
    rintro v hv
    subst done last ops spare recreate destroy world cup hero
    exact (Option.some.inj hv).symm
  have hcup : world.stored? cup = some ⟨cup, [("full", .bool true)], true⟩ := by
    subst done last ops spare recreate destroy world cup hero
    rfl
  have hdelete : (Outcome.successful (world.apply ops).2).filter (fun op => op.target = cup) =
      [.delete cup] := by
    subst done last ops spare recreate destroy world cup hero
    rfl
  obtain ⟨hhero, -⟩ := life_follows_last_settling world ops hero
  obtain ⟨-, hfrozen⟩ := life_follows_last_settling world ops cup
  obtain ⟨hsame, hfails⟩ := hfrozen _ hcup rfl
  refine ⟨hdone, hsettling, hlive, hhero.2 (.inl ⟨recreate, ?_, hlive⟩), hcup, hsame ?_,
    hfails "full" .equal (.bool false)⟩
  · exact congrArg List.getLast? hsettling
  · rw [hdelete]
    exact List.forall_mem_singleton.2 rfl

end World

end BranchingStory
