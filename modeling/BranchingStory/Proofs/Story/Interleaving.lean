import BranchingStory.Proofs.Merge.Steady
import BranchingStory.Proofs.Story.History

/-!
# Independent blocks

A call looks at the block that it is about, at nothing else of the registry, and changes no other
block. The memory of the renamer is all that calls on different blocks share. With a steady renamer
a run that registers no blocks therefore falls apart into one run for each block, and the order of
the calls on different blocks cannot be told from what comes of them.
-/

namespace BranchingStory

variable {Memory : Type}

/-- The id of the child that a call creates. -/
def Call.newborn? : Call → Option BlockId
  | .createChild _ id _ _ => some id
  | _ => none

/-- A steady renamer completes a block in the same way from every memory. -/
theorem Block.complete?_eq_of_steady {renamer : Renamer Memory} (h : renamer.Steady) (b : Block)
    (d : Delivery) (m n : Memory) :
    (b.complete? renamer m d).map (fun r => (r.1, r.2.1)) =
      (b.complete? renamer n d).map fun r => (r.1, r.2.1) := by
  unfold complete?
  split
  · split
    · simp only [Merge.fst_detect_eq h _ _ _ m n]
      split <;> rfl
    · rfl
  · rfl

namespace Story

variable {s t : Story Memory} {call : Call} {key : BlockId}

/-- A call that creates no child is about the same block in every story. -/
theorem subject_eq (h : call.newborn? = none) (s t : Story Memory) :
    s.subject call = t.subject call := by
  cases call with
  | createChild parent id time params => cases h
  | _ => rfl

/-- A call changes the memory of the renamer at most. -/
theorem renamer_after (s : Story Memory) (call : Call) : (s.after call).renamer = s.renamer := by
  rcases s.after_cases call with ht | ⟨b, next, answer, memory, -, -, ht⟩ |
    ⟨b, parent, current, id, time, params, -, -, -, -, ht⟩ <;> rw [ht] <;> rfl

/-- A call leaves the place of an id as it is unless it is about that block or creates it. -/
theorem get_after_of_ne {P : Block → Prop} (hs : s.Holds P) (hsubject : s.subject call ≠ key)
    (hnew : call.newborn? ≠ some key) : (s.after call).get key = s.get key := by
  rcases s.after_cases call with ht | ⟨b, next, answer, memory, hb, hstep, ht⟩ |
    ⟨b, parent, current, child, time, params, rfl, hb, -, -, ht⟩
  · rw [ht]
  · have hid : next.id = s.subject call := hstep.keeps.id_eq.trans (hs _ b hb).1
    have hget : (s.after call).get key = (s.put next).get key := by
      rw [ht]
      rfl
    rw [hget, get_put, if_neg (hid ▸ hsubject)]
  · have hparent : (b.attach child params).id ≠ key :=
      fun hid => hsubject ((hs _ b hb).1.symm.trans hid)
    have hchild : (b.child current child time params).id ≠ key :=
      fun hid => hnew (congrArg some hid)
    rw [ht, get_put, get_put, if_neg hparent, if_neg hchild]

/-- A registered block stays as it is unless the call is about it. -/
theorem get_after_of_get {P : Block → Prop} (hs : s.Holds P) (hsubject : s.subject call ≠ key)
    {b : Block} (hb : s.get key = .ok b) : (s.after call).get key = .ok b := by
  by_cases hnew : call.newborn? = some key
  · -- A child is created under a free id only, so this call is refused.
    rcases s.after_cases call with ht | ⟨c, next, answer, memory, -, hstep, -⟩ |
      ⟨c, parent, current, child, time, params, rfl, -, -, hfree, -⟩
    · rw [ht, hb]
    · cases hstep <;> cases hnew
    · obtain rfl : child = key := Option.some.inj hnew
      rw [Table.has, get_eq_ok_iff.1 hb] at hfree
      cases hfree
  · rw [get_after_of_ne hs hsubject hnew, hb]

/-- Two stories with one renamer have the same block under an id, or both have none. -/
structure AgreeAt (key : BlockId) (s t : Story Memory) : Prop where
  /-- They have the same renamer. -/
  renamer_eq : s.renamer = t.renamer
  /-- They have the same block. -/
  get_eq : s.get key = t.get key

namespace AgreeAt

/-- A story agrees with itself. -/
theorem refl (key : BlockId) (s : Story Memory) : AgreeAt key s s := ⟨rfl, rfl⟩

/-- Stories that agree with the same one agree. -/
theorem trans_symm {u : Story Memory} (h : AgreeAt key s u) (h' : AgreeAt key t u) :
    AgreeAt key s t :=
  ⟨h.renamer_eq.trans h'.renamer_eq.symm, h.get_eq.trans h'.get_eq.symm⟩

/-- Stories that agree at an id have the same block registered there, or none. -/
theorem get?_eq (h : AgreeAt key s t) : s.blocks.get? key = t.blocks.get? key := by
  rw [get?_eq_toOption, get?_eq_toOption, h.get_eq]

/-- The same block put in its place on both sides keeps the agreement. -/
theorem put (h : AgreeAt key s t) (b : Block) (m n : Memory) :
    AgreeAt key { s.put b with memory := m } { t.put b with memory := n } where
  renamer_eq := h.renamer_eq
  get_eq := by
    change (s.put b).get key = (t.put b).get key
    rw [get_put, get_put, h.get_eq]

/-- A call on another block on one side keeps the agreement. -/
theorem other {P : Block → Prop} (hs : s.Holds P) (h : AgreeAt key s t)
    (hsubject : s.subject call ≠ key) (hnew : call.newborn? = none) :
    AgreeAt key (s.after call) t where
  renamer_eq := (s.renamer_after call).trans h.renamer_eq
  get_eq := (get_after_of_ne hs hsubject (by simp [hnew])).trans h.get_eq

/-- A call on the block on which two stories agree has the same result but for the other blocks. -/
theorem perform (hsteady : s.renamer.Steady) (h : AgreeAt key s t) (hsubject : s.subject call = key)
    (hnew : call.newborn? = none) :
    Matches (AgreeAt key) id (s.perform call) (t.perform call) := by
  subst hsubject
  have hget := h.get_eq
  cases call with
  | createChild parent child time params => cases hnew
  | submit key ops =>
    simp only [Story.perform, submit, subject] at hget ⊢
    rw [← hget]
    cases s.get key with
    | error e => exact .refused e
    | ok b =>
      dsimp only
      cases b.submit? ops with
      | none => exact .answered h rfl
      | some r => exact .answered (h.put r.1 s.memory t.memory) rfl
  | complete key d =>
    simp only [Story.perform, complete, subject] at hget ⊢
    rw [← hget, ← h.renamer_eq]
    cases s.get key with
    | error e => exact .refused e
    | ok b =>
      have hsame := b.complete?_eq_of_steady hsteady d s.memory t.memory
      dsimp only
      cases hs : b.complete? s.renamer s.memory d with
      | none =>
        rw [hs, Option.map_none, eq_comm, Option.map_eq_none_iff] at hsame
        rw [hsame]
        exact .answered h rfl
      | some r =>
        rw [hs, Option.map_some, eq_comm, Option.map_eq_some_iff] at hsame
        obtain ⟨⟨next, outcomes, n⟩, ht, hnext⟩ := hsame
        cases hnext
        rw [ht]
        exact .answered (h.put r.1 r.2.2 n) rfl
  | resolve key batch =>
    simp only [Story.perform, resolve, subject] at hget ⊢
    rw [← hget]
    cases s.get key with
    | error e => exact .refused e
    | ok b =>
      dsimp only
      cases b.resolve? batch with
      | none => exact .answered h rfl
      | some r => exact .answered (h.put r.1 s.memory t.memory) rfl
  | updateDetails key content metadata =>
    simp only [Story.perform, updateDetails, subject] at hget ⊢
    rw [← hget]
    cases s.get key with
    | error e => exact .refused e
    | ok b =>
      dsimp only
      split
      · exact .answered (h.put _ s.memory t.memory) rfl
      · exact .refused _
  | updateGameState key settings =>
    simp only [Story.perform, updateGameState, subject] at hget ⊢
    rw [← hget]
    cases s.get key with
    | error e => exact .refused e
    | ok b => exact .answered (h.put _ s.memory t.memory) rfl
  | selectChild key index =>
    simp only [Story.perform, selectChild, subject] at hget ⊢
    rw [← hget]
    cases s.get key with
    | error e => exact .refused e
    | ok b =>
      dsimp only
      cases b.select? index with
      | none => exact .refused _
      | some next => exact .answered (h.put next s.memory t.memory) rfl

/-- A call on the block on which two stories agree is answered alike, and keeps the agreement. -/
theorem own (hsteady : s.renamer.Steady) (h : AgreeAt key s t) (hsubject : s.subject call = key)
    (hnew : call.newborn? = none) :
    s.exchange call = t.exchange call ∧ AgreeAt key (s.after call) (t.after call) := by
  obtain ⟨hresult, hnext⟩ := (h.perform hsteady hsubject hnew).step h
  rw [Except.map_id] at hresult
  exact ⟨congrArg (Exchange.mk call) hresult, hnext⟩

end AgreeAt

/-- The calls about a block, in their order. -/
def callsOn (s : Story Memory) (id : BlockId) (calls : List Call) : List Call :=
  calls.filter fun call => s.subject call = id

/-- The exchanges about a block, in their order. -/
def exchangesOn (s : Story Memory) (id : BlockId) (log : List Exchange) : List Exchange :=
  log.filter fun e => s.subject e.call = id

/-- With a steady renamer, a run that creates no child leads on each block to what the calls on it
alone lead to, and these are answered as if they were alone. -/
theorem Reachable.agreeAt_afterAll (hs : s.Reachable) (hsteady : s.renamer.Steady)
    (h : AgreeAt key s t) (u : Story Memory) {calls : List Call}
    (hnew : ∀ call ∈ calls, call.newborn? = none) :
    AgreeAt key (s.afterAll calls) (t.afterAll (u.callsOn key calls)) ∧
      u.exchangesOn key (s.log calls) = t.log (u.callsOn key calls) := by
  induction calls generalizing s t with
  | nil => exact ⟨h, rfl⟩
  | cons call calls ih =>
    have hcall : call.newborn? = none := hnew call List.mem_cons_self
    have hrest : ∀ call ∈ calls, call.newborn? = none :=
      fun call hmem => hnew call (List.mem_cons_of_mem _ hmem)
    have hsubject : s.subject call = u.subject call := subject_eq hcall s u
    have hsteady' : (s.after call).renamer.Steady := (s.renamer_after call).symm ▸ hsteady
    by_cases hid : u.subject call = key
    · obtain ⟨hexchange, hnext⟩ := h.own hsteady (hsubject.trans hid) hcall
      obtain ⟨hlast, hlog⟩ := ih (hs.call call) hsteady' hnext hrest
      have hcalls : u.callsOn key (call :: calls) = call :: u.callsOn key calls :=
        List.filter_cons_of_pos (decide_eq_true hid)
      have hexchanges : u.exchangesOn key (s.log (call :: calls)) =
          s.exchange call :: u.exchangesOn key ((s.after call).log calls) :=
        List.filter_cons_of_pos (decide_eq_true hid)
      rw [hcalls, hexchanges, hexchange, hlog]
      exact ⟨hlast, rfl⟩
    · have hnext := h.other hs.coherent (hsubject ▸ hid) hcall
      have hcalls : u.callsOn key (call :: calls) = u.callsOn key calls :=
        List.filter_cons_of_neg fun h => hid (of_decide_eq_true h)
      have hexchanges : u.exchangesOn key (s.log (call :: calls)) =
          u.exchangesOn key ((s.after call).log calls) :=
        List.filter_cons_of_neg fun h => hid (of_decide_eq_true h)
      rw [hcalls, hexchanges]
      exact ih (hs.call call) hsteady' hnext hrest

/-- In every run, a call leaves each registered block that it is not about as it is, and every other
place as well unless it creates the block there. With a steady renamer, two runs from one story that
create no child and have the same calls in the same order on each block end with the same blocks,
and the calls on each block are answered alike. -/
theorem Reachable.independent (h : s.Reachable) :
    (∀ call id, s.subject call ≠ id →
      (∀ b, s.get id = .ok b → (s.after call).get id = .ok b) ∧
      (call.newborn? ≠ some id → (s.after call).get id = s.get id)) ∧
    (s.renamer.Steady → ∀ first second : List Call,
      (∀ call ∈ first ++ second, call.newborn? = none) →
      (∀ id, s.callsOn id first = s.callsOn id second) →
      (s.afterAll first).blocks = (s.afterAll second).blocks ∧
      ∀ id, s.exchangesOn id (s.log first) = s.exchangesOn id (s.log second)) := by
  refine ⟨fun call id hsubject => ⟨fun b hb => get_after_of_get h.coherent hsubject hb,
    get_after_of_ne h.coherent hsubject⟩, fun hsteady first second hnew horder => ?_⟩
  rw [List.forall_mem_append] at hnew
  -- On each block both runs are compared with the calls on that block alone.
  have hrun : ∀ id, AgreeAt id (s.afterAll first) (s.afterAll second) ∧
      s.exchangesOn id (s.log first) = s.exchangesOn id (s.log second) := by
    intro id
    obtain ⟨hfirst, hlog⟩ := h.agreeAt_afterAll hsteady (.refl id s) s hnew.1
    obtain ⟨hsecond, hlog'⟩ := h.agreeAt_afterAll hsteady (.refl id s) s hnew.2
    rw [horder id] at hfirst hlog
    exact ⟨hfirst.trans_symm hsecond, hlog.trans hlog'.symm⟩
  exact ⟨Table.ext_get? fun id => (hrun id).1.get?_eq, fun id => (hrun id).2⟩

/-- Two blocks that are edited and completed in turns, each with a sword of its own that both sides
create: first the one is ahead, then the other. -/
theorem Reachable.independent_swords :
    let sword : Operation := .create ⟨.item, "sword"⟩ []
    let renamer : Renamer Nat := ⟨"primed", fun target n => (target.id ++ "'", n + 1)⟩
    let s := ((Story.new Config.default renamer 0).after (.createChild none "a" "now" [])).after
      (.createChild none "b" "now" [])
    let edit (id : BlockId) : Call := .submit id [sword]
    let finish (id : BlockId) : Call := .complete id ⟨true, "text", [sword], []⟩
    let first := [edit "a", edit "b", finish "a", finish "b", .selectChild Config.default.rootId 0]
    let second := [edit "b", .selectChild Config.default.rootId 0, finish "b", edit "a", finish "a"]
    s.Reachable ∧ (∃ b, s.get "b" = .ok b ∧ (s.after (finish "a")).get "b" = .ok b) ∧
      s.renamer.Steady ∧ (∀ call ∈ first ++ second, call.newborn? = none) ∧
      (∀ id, s.callsOn id first = s.callsOn id second) ∧
      (s.afterAll first).blocks = (s.afterAll second).blocks ∧
      ∀ id, s.exchangesOn id (s.log first) = s.exchangesOn id (s.log second) := by
  intro sword renamer s edit finish first second
  have hs : s.Reachable := ((Reachable.new _ _ _).call _).call _
  have hsteady : s.renamer.Steady := fun target m n => rfl
  have hnew : ∀ call ∈ first ++ second, call.newborn? = none := by
    simp [first, second, edit, finish, Call.newborn?]
  have horder : ∀ id, s.callsOn id first = s.callsOn id second := by
    intro id
    by_cases ha : "a" = id
    · subst ha
      rfl
    by_cases hb : "b" = id
    · subst hb
      rfl
    by_cases hroot : Config.default.rootId = id
    · subst hroot
      rfl
    · simp [callsOn, first, second, edit, finish, subject, ha, hb, hroot]
  obtain ⟨hframe, hruns⟩ := hs.independent
  obtain ⟨hblocks, hlogs⟩ := hruns hsteady first second hnew horder
  obtain ⟨b, hb⟩ : ∃ b, s.get "b" = .ok b := ⟨_, rfl⟩
  have hkept : (s.after (finish "a")).get "b" = .ok b := (hframe (finish "a") "b" (by decide)).1 b hb
  exact ⟨hs, ⟨b, hb, hkept⟩, hsteady, hnew, horder, hblocks, hlogs⟩

end Story

end BranchingStory
