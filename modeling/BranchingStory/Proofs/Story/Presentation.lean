import BranchingStory.Proofs.Story.History

/-!
# Presentation stays out of the simulation

Besides its worlds and operations a block carries text, metadata, settings and the child that the
story follows. All of that is copied along on every call and into every child, but nothing of it
ever decides about a phase, a world or an outcome. To see this, it is erased: from blocks, from calls
and from answers. Erasing commutes with every call that is left, and what the other calls do is
erased altogether. So two runs that are the same once erased cannot be told apart by the simulation.
-/

namespace BranchingStory

namespace Block

/-- The block without its text, metadata and settings and without the child that it follows. Left
are its links, its input world and its phase with all worlds, the queue and the conflict. -/
def bare (b : Block) : Block :=
  { b with
    selected := none
    gameState := .empty
    content := ""
    metadata := []
    childParams := [] }

/-- What the generator delivers to the simulation. -/
def Delivery.bare (d : Delivery) : Delivery := { d with content := "", output := [] }

/-- The two results are the same but for the presentation of the block. -/
def AlikeResult {α : Type} (r r' : Block × α) : Prop := r.1.bare = r'.1.bare ∧ r.2 = r'.2

variable {b c : Block}

/-- A block that is alike is the same block with another presentation. -/
theorem exists_eq_of_bare (h : b.bare = c.bare) :
    ∃ selected gameState content metadata childParams,
      c = { b with selected, gameState, content, metadata, childParams } := by
  obtain ⟨hid, hparent, hchildren, hinput, hphase⟩ : b.id = c.id ∧ b.parent = c.parent ∧
      b.children = c.children ∧ b.input = c.input ∧ b.phase = c.phase := by simpa [bare] using h
  refine ⟨c.selected, c.gameState, c.content, c.metadata, c.childParams, ?_⟩
  rw [hid, hparent, hchildren, hinput, hphase]

/-- Blocks that are alike commit alike, whatever their text. -/
theorem alikeResult_commit (h : b.bare = c.bare) (content content' : String)
    (batch : List Operation) : AlikeResult (b.commit content batch) (c.commit content' batch) := by
  obtain ⟨_, _, _, _, _, rfl⟩ := exists_eq_of_bare h
  unfold commit
  dsimp only
  split <;> exact ⟨rfl, rfl⟩

/-- Blocks that are alike take operations of the user alike. -/
theorem rel_submit? (h : b.bare = c.bare) (ops : List Operation) :
    Option.Rel AlikeResult (b.submit? ops) (c.submit? ops) := by
  obtain ⟨_, _, _, _, _, rfl⟩ := exists_eq_of_bare h
  unfold submit?
  dsimp only
  split
  · exact .some ⟨rfl, rfl⟩
  · exact .some ⟨rfl, rfl⟩
  · exact .none

/-- Blocks that are alike are completed alike, whatever text and variables are delivered. -/
theorem rel_complete? {Memory : Type} (h : b.bare = c.bare) (renamer : Renamer Memory)
    (memory : Memory) (d : Delivery) :
    Option.Rel AlikeResult (b.complete? renamer memory d) (c.complete? renamer memory d.bare) := by
  obtain ⟨_, _, _, _, _, rfl⟩ := exists_eq_of_bare h
  obtain ⟨success, content, operations, output⟩ := d
  unfold complete? Delivery.bare
  dsimp only
  split
  · split
    · split
      · refine .some ⟨(alikeResult_commit ?_ _ _ _).1, Prod.ext (alikeResult_commit ?_ _ _ _).2 rfl⟩
        · rfl
        · rfl
      · exact .some ⟨rfl, rfl⟩
    · exact .some ⟨rfl, rfl⟩
  · exact .none

/-- Blocks that are alike are resolved alike. -/
theorem rel_resolve? (h : b.bare = c.bare) (batch : List Operation) :
    Option.Rel AlikeResult (b.resolve? batch) (c.resolve? batch) := by
  obtain ⟨_, _, _, _, _, rfl⟩ := exists_eq_of_bare h
  unfold resolve?
  dsimp only
  split
  · exact .some (alikeResult_commit h _ _ batch)
  · exact .none

/-- Under blocks that are alike new children are alike, whatever they are made with. -/
theorem bare_child (h : b.bare = c.bare) (current : World) (id : BlockId) (time time' : String)
    (params params' : Entries Value) :
    (b.child current id time params).bare = (c.child current id time' params').bare := by
  obtain ⟨_, _, _, _, _, rfl⟩ := exists_eq_of_bare h
  rfl

/-- Blocks that are alike get a new child alike. -/
theorem bare_attach (h : b.bare = c.bare) (id : BlockId) (params params' : Entries Value) :
    (b.attach id params).bare = (c.attach id params').bare := by
  obtain ⟨_, _, _, _, _, rfl⟩ := exists_eq_of_bare h
  rfl

end Block

/-- The call without what is for presentation only; nothing is left of a call that is for presentation
only. -/
def Call.bare? : Call → Option Call
  | .createChild parent id _ _ => some (.createChild parent id "" [])
  | .submit id ops => some (.submit id ops)
  | .complete id d => some (.complete id d.bare)
  | .resolve id batch => some (.resolve id batch)
  | .updateDetails _ _ _ | .updateGameState _ _ | .selectChild _ _ => none

/-- The answer without the presentation of a new child. -/
def Answer.bare : Answer → Answer
  | .child b => .child b.bare
  | answer => answer

/-- The exchange without presentation. -/
def Exchange.bare? (e : Exchange) : Option Exchange :=
  e.call.bare?.map fun call => ⟨call, e.result.map Answer.bare⟩

namespace Story

variable {Memory : Type}

/-- The two stories are the same but for presentation. -/
structure Alike (s t : Story Memory) : Prop where
  /-- They have the same root. -/
  rootId_eq : s.rootId = t.rootId
  /-- They have the same renamer. -/
  renamer_eq : s.renamer = t.renamer
  /-- The renamer remembers the same. -/
  memory_eq : s.memory = t.memory
  /-- They have the same blocks but for their presentation. -/
  get_eq : ∀ id, (s.get id).map Block.bare = (t.get id).map Block.bare

namespace Alike

variable {s t u : Story Memory} {b c : Block} {id : BlockId} {call bare : Call}

/-- A story is like itself. -/
theorem refl (s : Story Memory) : Alike s s := ⟨rfl, rfl, rfl, fun _ => rfl⟩

/-- Stories are alike in both directions. -/
theorem symm (h : Alike s t) : Alike t s :=
  ⟨h.rootId_eq.symm, h.renamer_eq.symm, h.memory_eq.symm, fun id => (h.get_eq id).symm⟩

/-- Stories that are like the same one are alike. -/
theorem trans (h : Alike s t) (h' : Alike t u) : Alike s u :=
  ⟨h.rootId_eq.trans h'.rootId_eq, h.renamer_eq.trans h'.renamer_eq,
    h.memory_eq.trans h'.memory_eq, fun id => (h.get_eq id).trans (h'.get_eq id)⟩

/-- Under an id there is a block in both stories, which is alike, or in neither. -/
theorem get_cases (h : Alike s t) (id : BlockId) :
    (∃ e, s.get id = .error e ∧ t.get id = .error e) ∨
      ∃ b c, s.get id = .ok b ∧ t.get id = .ok c ∧ b.bare = c.bare := by
  have hget := h.get_eq id
  cases hs : s.get id with
  | error e =>
    cases ht : t.get id with
    | error e' =>
      rw [hs, ht] at hget
      cases hget
      exact .inl ⟨e, rfl, rfl⟩
    | ok c =>
      rw [hs, ht] at hget
      cases hget
  | ok b =>
    cases ht : t.get id with
    | error e =>
      rw [hs, ht] at hget
      cases hget
    | ok c =>
      rw [hs, ht] at hget
      exact .inr ⟨b, c, rfl, rfl, Except.ok.inj hget⟩

/-- Stories that are alike have the same ids. -/
theorem has_eq (h : Alike s t) (id : BlockId) : s.blocks.has id = t.blocks.has id := by
  rw [Table.has, Table.has, get?_eq_toOption, get?_eq_toOption]
  rcases h.get_cases id with ⟨e, hs, ht⟩ | ⟨b, c, hs, ht, -⟩
  · rw [hs, ht]
  · rw [hs, ht]
    rfl

/-- Alike blocks put in their places leave stories alike. -/
theorem put (h : Alike s t) (hbare : b.bare = c.bare) : Alike (s.put b) (t.put c) where
  rootId_eq := h.rootId_eq
  renamer_eq := h.renamer_eq
  memory_eq := h.memory_eq
  get_eq id := by
    have hid : b.id = c.id := (congrArg Block.id hbare :)
    rw [get_put, get_put, hid]
    split
    · exact congrArg Except.ok hbare
    · exact h.get_eq id

/-- Alike stories whose renamer remembers the same from now on are alike. -/
theorem remember (h : Alike s t) (memory : Memory) :
    Alike { s with memory } { t with memory } :=
  ⟨h.rootId_eq, h.renamer_eq, rfl, h.get_eq⟩

/-- A block with another presentation put in its place leaves a story alike. -/
theorem put_self (hb : s.get id = .ok b) (hid : b.id = id) (hbare : c.bare = b.bare) :
    Alike (s.put c) s where
  rootId_eq := rfl
  renamer_eq := rfl
  memory_eq := rfl
  get_eq key := by
    have hc : c.id = id := (congrArg Block.id hbare :).trans hid
    rw [get_put, hc]
    split
    · next hkey =>
      rw [← hkey, hb]
      exact congrArg Except.ok hbare
    · rfl

/-- A call that is for presentation only leaves a story alike. -/
theorem of_presentation {P : Block → Prop} (hs : s.Holds P) (hcall : call.bare? = none) :
    Alike (s.after call) s := by
  cases call with
  | updateDetails id content metadata =>
    simp only [after, perform, updateDetails]
    cases hb : s.get id with
    | error e => exact .refl s
    | ok b =>
      by_cases hidle : b.status = .idle
      · simp only [hidle, if_true]
        exact put_self hb (hs id b hb).1 rfl
      · simp only [hidle, if_false]
        exact .refl s
  | updateGameState id settings =>
    simp only [after, perform, updateGameState]
    cases hb : s.get id with
    | error e => exact .refl s
    | ok b => exact put_self hb (hs id b hb).1 rfl
  | selectChild id index =>
    simp only [after, perform, selectChild]
    cases hb : s.get id with
    | error e => exact .refl s
    | ok b =>
      dsimp only
      cases hselect : b.select? index with
      | none => exact .refl s
      | some next =>
        obtain ⟨-, rfl⟩ := Block.select?_cases hselect
        exact put_self hb (hs id b hb).1 rfl
  | createChild parent id time params => cases hcall
  | submit id ops => cases hcall
  | complete id d => cases hcall
  | resolve id batch => cases hcall

end Alike

variable {s t : Story Memory} {call bare : Call}

/-- Alike stories answer a call alike, whatever the presentation in it. -/
theorem Alike.perform (h : Alike s t) (hcall : call.bare? = some bare) :
    Matches Alike Answer.bare (s.perform call) (t.perform bare) := by
  cases call with
  | createChild parent id time params =>
    obtain rfl := Option.some.inj hcall
    simp only [Story.perform, createChild, h.rootId_eq, h.has_eq id]
    rcases h.get_cases (parent.getD t.rootId) with ⟨e, hs, ht⟩ | ⟨b, c, hs, ht, hbare⟩
    · rw [hs, ht]
      exact .refused e
    · have hphase : b.phase = c.phase := (congrArg Block.phase hbare :)
      rw [hs, ht]
      dsimp only
      rw [hphase]
      cases c.phase with
      | idle merged current =>
        have hchild := Block.bare_child hbare current id time "" params []
        dsimp only
        split
        · exact .refused _
        · exact .answered ((h.put hchild).put (Block.bare_attach hbare id params []))
            (congrArg Answer.child hchild)
      | _ => exact .refused _
  | submit id ops =>
    obtain rfl := Option.some.inj hcall
    simp only [Story.perform, submit]
    rcases h.get_cases id with ⟨e, hs, ht⟩ | ⟨b, c, hs, ht, hbare⟩
    · rw [hs, ht]
      exact .refused e
    · have hstatus : b.status = c.status := (congrArg Block.status hbare :)
      have hrel := Block.rel_submit? hbare ops
      rw [hs, ht]
      dsimp only
      rw [hstatus]
      generalize b.submit? ops = r at hrel
      generalize c.submit? ops = r' at hrel
      cases hrel with
      | none => exact .answered h rfl
      | some hresult =>
        obtain ⟨hnext, houtcomes⟩ := hresult
        exact .answered (h.put hnext) (by rw [houtcomes])
  | complete id d =>
    obtain rfl := Option.some.inj hcall
    simp only [Story.perform, complete, h.renamer_eq, h.memory_eq]
    rcases h.get_cases id with ⟨e, hs, ht⟩ | ⟨b, c, hs, ht, hbare⟩
    · rw [hs, ht]
      exact .refused e
    · have hstatus : b.status = c.status := (congrArg Block.status hbare :)
      have hrel := Block.rel_complete? hbare t.renamer t.memory d
      rw [hs, ht]
      dsimp only
      rw [hstatus]
      generalize b.complete? t.renamer t.memory d = r at hrel
      generalize c.complete? t.renamer t.memory d.bare = r' at hrel
      cases hrel with
      | none => exact .answered h rfl
      | @some r r' hresult =>
        obtain ⟨next, outcomes, memory⟩ := r
        obtain ⟨next', outcomes', memory'⟩ := r'
        obtain ⟨hnext, hrest⟩ := hresult
        cases hrest
        have hgoal : next.status = next'.status := (congrArg Block.status hnext :)
        dsimp only
        rw [hgoal]
        exact .answered ((h.put hnext).remember memory) rfl
  | resolve id batch =>
    obtain rfl := Option.some.inj hcall
    simp only [Story.perform, resolve]
    rcases h.get_cases id with ⟨e, hs, ht⟩ | ⟨b, c, hs, ht, hbare⟩
    · rw [hs, ht]
      exact .refused e
    · have hstatus : b.status = c.status := (congrArg Block.status hbare :)
      have hrel := Block.rel_resolve? hbare batch
      rw [hs, ht]
      dsimp only
      rw [hstatus]
      generalize b.resolve? batch = r at hrel
      generalize c.resolve? batch = r' at hrel
      cases hrel with
      | none => exact .answered h rfl
      | @some r r' hresult =>
        obtain ⟨next, outcomes⟩ := r
        obtain ⟨next', outcomes'⟩ := r'
        obtain ⟨hnext, houtcomes⟩ := hresult
        cases houtcomes
        have hgoal : next.status = next'.status := (congrArg Block.status hnext :)
        dsimp only
        rw [hgoal]
        exact .answered (h.put hnext) rfl
  | updateDetails id content metadata => cases hcall
  | updateGameState id settings => cases hcall
  | selectChild id index => cases hcall

/-- Alike stories log a call alike and are alike after it. -/
theorem Alike.step (h : Alike s t) (hcall : call.bare? = some bare) :
    (s.exchange call).bare? = (t.exchange bare).bare? ∧ Alike (s.after call) (t.after bare) := by
  have hbare : bare.bare? = some bare := by
    cases call <;> cases hcall <;> rfl
  obtain ⟨hresult, hnext⟩ := (h.perform hcall).step h
  refine ⟨?_, hnext⟩
  change call.bare?.map _ = bare.bare?.map _
  rw [hcall, hbare, hresult]

/-- A run on one story and its bare calls alone on an alike one lead to alike stories and are logged
alike. -/
theorem Reachable.alike_afterAll (hs : s.Reachable) (h : Alike s t) (calls : List Call) :
    Alike (s.afterAll calls) (t.afterAll (calls.filterMap Call.bare?)) ∧
      (s.log calls).filterMap Exchange.bare? =
        (t.log (calls.filterMap Call.bare?)).filterMap Exchange.bare? := by
  induction calls generalizing s t with
  | nil => exact ⟨h, rfl⟩
  | cons call calls ih =>
    cases hcall : call.bare? with
    | none =>
      have hnone : (s.exchange call).bare? = none := by simp [exchange, Exchange.bare?, hcall]
      rw [List.filterMap_cons_none hcall, log, List.filterMap_cons_none hnone]
      exact ih (hs.call call) ((Alike.of_presentation hs.coherent hcall).trans h)
    | some bare =>
      obtain ⟨hexchange, hnext⟩ := h.step hcall
      obtain ⟨hlast, hlog⟩ := ih (hs.call call) hnext
      rw [List.filterMap_cons_some hcall]
      refine ⟨hlast, ?_⟩
      rw [log, log, List.filterMap_cons, List.filterMap_cons, hexchange, hlog]

/-- In every run, take two continuations that are the same without presentation: without all changes
of text, metadata, settings and selection, and without the parameters and times of new children and
the text and variables of completions. Both lead to the same blocks with the same links, the same
input worlds and the same phases with all that they hold, and every other call is answered alike. -/
theorem Reachable.presentation_irrelevant (h : s.Reachable) {first second : List Call}
    (hsame : first.filterMap Call.bare? = second.filterMap Call.bare?) :
    (∀ id, ((s.afterAll first).get id).map Block.bare =
      ((s.afterAll second).get id).map Block.bare) ∧
    (s.log first).filterMap Exchange.bare? = (s.log second).filterMap Exchange.bare? := by
  obtain ⟨hfirst, hlog⟩ := h.alike_afterAll (.refl s) first
  obtain ⟨hsecond, hlog'⟩ := h.alike_afterAll (.refl s) second
  rw [hsame] at hfirst hlog
  exact ⟨(hfirst.trans hsecond.symm).get_eq, hlog.trans hlog'.symm⟩

/-- Two runs that tell the same story in different words and with different settings. -/
theorem Reachable.presentation_irrelevant_retold :
    let root := Config.default.rootId
    let hero : EntityId := ⟨.character, "hero"⟩
    let wound : Operation := .modify hero "hp" .subtract (.int 2)
    let name : Operation := .modify hero "title" .equal (.text "Sir")
    let s := (Story.new Config.default Config.default.sequentialRenamer 1).after
      (.submit root [.create hero [("hp", .int 7)]])
    let first : List Call := [.createChild none "b" "noon" [("seed", .int 1)], .submit "b" [name],
      .updateGameState "b" [("mood", .text "grim")], .complete "b" ⟨true, "A duel.", [wound], []⟩]
    let second : List Call := [.updateDetails root (some "Prologue") [],
      .createChild none "b" "midnight" [], .selectChild root 0, .submit "b" [name],
      .complete "b" ⟨true, "A fight.", [wound], [("winner", .text "hero")]⟩]
    s.Reachable ∧ first.filterMap Call.bare? = second.filterMap Call.bare? ∧
      ((s.afterAll first).get "b").map (fun b => (b.content, b.status)) = .ok ("A duel.", .idle) ∧
      ((s.afterAll second).get "b").map (fun b => (b.content, b.status)) = .ok ("A fight.", .idle) ∧
      (∀ id, ((s.afterAll first).get id).map Block.bare =
        ((s.afterAll second).get id).map Block.bare) ∧
      (s.log first).filterMap Exchange.bare? = (s.log second).filterMap Exchange.bare? := by
  intro root hero wound name s first second
  have hs : s.Reachable := (Reachable.new _ _ _).call _
  have hsame : first.filterMap Call.bare? = second.filterMap Call.bare? := rfl
  have hfirst : ((s.afterAll first).get "b").map (fun b => (b.content, b.status)) =
      .ok ("A duel.", .idle) := by
    subst first s wound name hero root
    rfl
  have hsecond : ((s.afterAll second).get "b").map (fun b => (b.content, b.status)) =
      .ok ("A fight.", .idle) := by
    subst second s wound name hero root
    rfl
  exact ⟨hs, hsame, hfirst, hsecond, hs.presentation_irrelevant hsame⟩

end Story

end BranchingStory
