import BranchingStory.Proofs.Operation.Texts
import BranchingStory.Proofs.Story.Queue

/-!
# Finalization

A block is settled for good in one of two ways: the generator delivers and nothing blocks, or the
user resolves what blocked. Both end in one commit, on the input world and on what the block holds
besides its phase. So the scratch world that the user has seen has no say in it, and the two ways
cannot be told apart by the block that they leave.
-/

namespace BranchingStory

/-- How a failed operation is listed: by its text and by what is said about its error. -/
inductive Outcome.ListedAs : Outcome → Value → Prop
  | failed {op : Operation} {error : OperationError} {shown said : String}
    (hop : op.ShownAs shown) (herror : error.SaidAs said) :
    ListedAs ⟨op, some error⟩ (.map [("operation", .text shown), ("error", .text said)])

/-- The phase with another scratch world. -/
def Phase.withScratch (w : World) : Phase → Phase
  | .loading _ queue => .loading w queue
  | .resolving _ queue generated edited conflict => .resolving w queue generated edited conflict
  | phase => phase

namespace Block

/-- The block with another scratch world. -/
def withScratch (b : Block) (w : World) : Block := { b with phase := b.phase.withScratch w }

/-- The two blocks hold the same but for their phases. -/
def SameData (a b : Block) : Prop := { a with phase := b.phase } = b

/-- What is known of a block that a batch has settled for good. -/
structure Finalized (base : Block) (batch : List Operation) (next : Block)
    (outcomes : List Outcome) : Prop where
  /-- The outcomes are those of the batch on the input world. -/
  outcomes_eq : outcomes = (base.input.apply batch).2
  /-- There is one outcome for each operation, in order. -/
  operations_eq : outcomes.map Outcome.operation = batch
  /-- The block is idle if and only if every operation succeeds. -/
  idle_iff : next.status = .idle ↔ ∀ o ∈ outcomes, o.isSuccess = true
  /-- An idle block has the world that the batch leads to, as merged and as current. -/
  worlds : next.status = .idle →
    next.phase = .idle (some (base.input.apply batch).1) (base.input.apply batch).1 ∧
      next.merged? = some (base.input.apply batch).1 ∧
      next.settled? = some (base.input.apply batch).1 ∧
      next.current? = some (base.input.apply batch).1
  /-- Any other block has failed and has no world. -/
  failed : next.status ≠ .idle →
    next.phase = .failed .operationsFailed ∧ next.status = .error ∧ next.merged? = none ∧
      next.settled? = none ∧ next.scratch? = none
  /-- The metadata of a failed block list the failed operations and no others, in order, with what
  they are shown as and what is said about them. -/
  failures : next.status ≠ .idle →
    ∃ entries, Entries.value? "Error" next.metadata = some (.list entries) ∧
      List.Forall₂ Outcome.ListedAs (outcomes.filter fun o => o.error.isSome) entries
  /-- Nothing waits to be merged. -/
  queue_eq : next.queue = []

/-- What lists a failed operation is its entry and nothing else. -/
theorem listedAs_iff {op : Operation} {error : OperationError} {entry : Value} :
    Outcome.ListedAs ⟨op, some error⟩ entry ↔ entry = failureEntry ⟨op, some error⟩ := by
  constructor
  · rintro ⟨hop, herror⟩
    obtain rfl := Operation.shownAs_iff.1 hop
    obtain rfl := OperationError.saidAs_iff.1 herror
    rfl
  · rintro rfl
    exact .failed (Operation.shownAs_iff.2 rfl) (OperationError.saidAs_iff.2 rfl)

/-- The failed operations of a batch are listed by their entries in order and by no other list. -/
theorem forall₂_listedAs_iff {outcomes : List Outcome} {entries : List Value} :
    List.Forall₂ Outcome.ListedAs (outcomes.filter fun o => o.error.isSome) entries ↔
      entries = (Outcome.failures outcomes).map failureEntry := by
  induction outcomes generalizing entries with
  | nil => exact List.forall₂_nil_left_iff
  | cons o outcomes ih =>
    obtain ⟨op, _ | error⟩ := o
    · exact ih
    · have hfailures : Outcome.failures (⟨op, some error⟩ :: outcomes) =
          ⟨op, some error⟩ :: Outcome.failures outcomes := rfl
      rw [List.filter_cons_of_pos rfl, List.forall₂_cons_left_iff, hfailures, List.map_cons]
      constructor
      · rintro ⟨entry, rest, hentry, hrest, rfl⟩
        rw [listedAs_iff.1 hentry, ih.1 hrest]
      · rintro rfl
        exact ⟨_, _, listedAs_iff.2 rfl, ih.2 rfl, rfl⟩

/-- A commit settles a block for good. -/
theorem finalized_commit (b : Block) (batch : List Operation) :
    b.Finalized batch (b.commit b.content batch).1 (b.commit b.content batch).2 := by
  have hall (outcomes : List Outcome) :
      Outcome.allSucceeded outcomes = true ↔ ∀ o ∈ outcomes, o.isSuccess = true :=
    List.all_eq_true
  rcases b.commit_cases b.content batch with ⟨w, hw, hcommit⟩ | ⟨hfailed, hcommit⟩
  · obtain ⟨hs, hworld⟩ := World.leads_iff.1 hw
    rw [hcommit]
    refine ⟨(congrArg Prod.snd hw).symm, ?_, ?_, fun _ => ?_, fun h => absurd rfl h,
      fun h => absurd rfl h, rfl⟩
    · rw [← congrArg Prod.snd hw]
      exact World.map_operation_apply _ _
    · exact iff_of_true rfl ((hall _).1 (Outcome.allSucceeded_successes batch))
    · rw [hworld]
      exact ⟨rfl, rfl, rfl, rfl⟩
  · rw [hcommit]
    have hstatus : Status.error ≠ .idle := by decide
    refine ⟨rfl, World.map_operation_apply _ _, ?_, fun h => absurd h hstatus,
      fun _ => ⟨rfl, rfl, rfl, rfl, rfl⟩, fun _ => ?_, rfl⟩
    · refine iff_of_false hstatus fun h => ?_
      rw [(hall _).2 h] at hfailed
      cases hfailed
    · exact ⟨_, Entries.value?_put_self .., forall₂_listedAs_iff.2 rfl⟩

/-- A commit keeps the id of a block. -/
@[simp] theorem id_commit (b : Block) (content : String) (batch : List Operation) :
    (b.commit content batch).1.id = b.id :=
  (keeps_of_commit rfl).id_eq

/-- A commit does not look at the phase. -/
theorem SameData.commit_eq {a b : Block} (h : a.SameData b) (content : String)
    (batch : List Operation) : a.commit content batch = b.commit content batch := by
  rw [← h]
  rfl

/-- Another scratch world leaves everything else as it is. -/
theorem sameData_withScratch (b : Block) (w : World) : b.SameData (b.withScratch w) := rfl

/-- A block with another scratch world has the same phase by name. -/
@[simp] theorem status_withScratch (b : Block) (w : World) :
    (b.withScratch w).status = b.status := by
  unfold status withScratch
  cases b.phase <;> rfl

/-- A block with another scratch world has the same queue. -/
@[simp] theorem queue_withScratch (b : Block) (w : World) :
    (b.withScratch w).queue = b.queue := by
  unfold queue withScratch
  cases b.phase <;> rfl

/-- The block that the generator's delivery is committed to. -/
def delivered (b : Block) (d : Delivery) : Block :=
  { b with
    metadata := Entries.put MetadataKey.outputVariables.name (.map d.output) b.metadata
    content := d.content }

/-- The delivery to a loading block is committed if nothing blocks. -/
theorem complete?_of_apart {Memory : Type} {renamer : Renamer Memory} {memory : Memory} {b : Block}
    {d : Delivery} {report : Merge.Report} {last : Memory} (hloading : b.status = .loading)
    (hsuccess : d.success = true)
    (hreport : Merge.detect renamer b.input d.operations b.queue memory = (report, last))
    (hconflict : report.conflict = none) :
    b.complete? renamer memory d =
      some (((b.delivered d).commit d.content report.merged).1,
        ((b.delivered d).commit d.content report.merged).2, last) := by
  unfold complete?
  cases hphase : b.phase with
  | loading scratch queue =>
    rw [Block.queue, hphase] at hreport
    simp only [hsuccess, if_true, hreport, hconflict]
    rfl
  | _ =>
    rw [status, hphase] at hloading
    cases hloading

/-- The resolution of a conflict is committed. -/
theorem resolve?_of_resolving {b : Block} (hresolving : b.status = .resolvingConflict)
    (batch : List Operation) : b.resolve? batch = some (b.commit b.content batch) := by
  unfold resolve?
  cases hphase : b.phase with
  | resolving scratch queue generated edited conflict => rfl
  | _ =>
    rw [status, hphase] at hresolving
    cases hresolving

end Block

namespace Story

variable {Memory : Type} {s : Story Memory} {id : BlockId} {call : Call} {base : Block}
  {batch : List Operation} {last : Memory}

/-- The call settles the block of an id for good: it commits the batch to the block as it then is,
and leaves the renamer with a memory. -/
inductive Finalizes (s : Story Memory) (id : BlockId) :
    Call → Block → List Operation → Memory → Prop
  /-- The generator delivers to a loading block, and nothing blocks. The batch is the generator's,
  followed by the queue, renamed. -/
  | delivery {b : Block} {d : Block.Delivery} {report : Merge.Report} {last : Memory}
    (hb : s.get id = .ok b) (hloading : b.status = .loading) (hsuccess : d.success = true)
    (hreport : Merge.detect s.renamer b.input d.operations b.queue s.memory = (report, last))
    (hconflict : report.conflict = none) :
    Finalizes s id (.complete id d) (b.delivered d)
      (d.operations ++ b.queue.map (Merge.follow report.renamed)) last
  /-- The user resolves a conflict. The batch is the user's. -/
  | resolution {b : Block} (hb : s.get id = .ok b) (hresolving : b.status = .resolvingConflict)
    (batch : List Operation) :
    Finalizes s id (.resolve id batch) b batch s.memory

/-- A call that settles a block puts it back as the commit leaves it. -/
theorem Finalizes.perform_eq (h : s.Finalizes id call base batch last) :
    s.perform call = .ok ({ s.put (base.commit base.content batch).1 with memory := last },
      .advance (.moved ⟨id, base.status, (base.commit base.content batch).1.status,
        (base.commit base.content batch).2⟩)) := by
  cases h with
  | @delivery b d report _ hb hloading hsuccess hreport hconflict =>
    have hmerged : report.merged = d.operations ++ b.queue.map (Merge.follow report.renamed) := by
      obtain rfl := congrArg Prod.fst hreport
      rfl
    have hcomplete := Block.complete?_of_apart hloading hsuccess hreport hconflict
    rw [hmerged] at hcomplete
    simp only [perform, complete, hb, hcomplete]
    rfl
  | @resolution b hb hresolving batch =>
    simp only [perform, resolve, hb, Block.resolve?_of_resolving hresolving]
    rfl

/-- A call that settles a block is about a registered one of the same id. -/
theorem Finalizes.exists_get (h : s.Finalizes id call base batch last) :
    ∃ b, s.get id = .ok b ∧ b.id = base.id := by
  cases h with
  | @delivery b d _ _ hb => exact ⟨b, hb, rfl⟩
  | resolution hb => exact ⟨_, hb, rfl⟩

/-- What is put in the place of a block replaces what was put there before. -/
theorem put_put (s : Story Memory) {b next : Block} (h : b.id = next.id) :
    (s.put b).put next = s.put next := by
  have hblocks : ((s.put b).put next).blocks = (s.put next).blocks := by
    refine Table.ext_get? fun key => ?_
    rw [get?_eq_toOption, get?_eq_toOption, get_put, get_put, get_put, h]
    split <;> rfl
  exact congrArg (fun blocks => { s with blocks }) hblocks

/-- A call that settles a block settles it with another scratch world as well, with the same
batch. -/
theorem Finalizes.withScratch (h : s.Finalizes id call base batch last) {b : Block}
    (hb : s.get id = .ok b) (hid : b.id = id) (w : World) :
    (s.put (b.withScratch w)).Finalizes id call (base.withScratch w) batch last := by
  have hput : (s.put (b.withScratch w)).get id = .ok (b.withScratch w) :=
    (get_put s _ id).trans (if_pos hid)
  cases h with
  | @delivery b' d report _ hb' hloading hsuccess hreport hconflict =>
    obtain rfl := Except.ok.inj (hb.symm.trans hb')
    have hqueue := b.queue_withScratch w
    rw [← hqueue] at hreport ⊢
    exact .delivery hput ((b.status_withScratch w).trans hloading) hsuccess hreport hconflict
  | resolution hb' hresolving =>
    obtain rfl := Except.ok.inj (hb.symm.trans hb')
    exact .resolution hput ((b.status_withScratch w).trans hresolving) batch

/-- With another scratch world, a call that settles a block does the same. -/
theorem Finalizes.perform_withScratch (h : s.Finalizes id call base batch last) {b : Block}
    (hb : s.get id = .ok b) (hid : b.id = id) (w : World) :
    (s.put (b.withScratch w)).perform call = s.perform call := by
  have hcommit : (base.withScratch w).commit (base.withScratch w).content batch =
      base.commit base.content batch :=
    ((base.sameData_withScratch w).commit_eq base.content batch).symm
  obtain ⟨b', hb', hbase⟩ := h.exists_get
  obtain rfl := Except.ok.inj (hb.symm.trans hb')
  have hput := congrArg (fun t : Story Memory => { t with memory := last })
    (put_put s (b := b.withScratch w) (hbase.trans (base.id_commit base.content batch).symm))
  rw [(h.withScratch hb hid w).perform_eq, h.perform_eq, hcommit, Block.status_withScratch]
  exact congrArg (fun t => Except.ok (t, _)) hput

/-- In every run, a call that settles a block for good commits its batch to the block, on the input
world. The scratch world has no influence, and any other call that commits the same batch to the
same data leaves the same block and has the same outcomes, whichever of the two ways each goes. -/
theorem Reachable.finalizes (h : s.Reachable) (hf : s.Finalizes id call base batch last) :
    ∃ t next outcomes, base.Finalized batch next outcomes ∧
      s.perform call = .ok (t, .advance (.moved ⟨id, base.status, next.status, outcomes⟩)) ∧
      t.get id = .ok next ∧
      (∀ b w, s.get id = .ok b → (s.put (b.withScratch w)).perform call = s.perform call) ∧
      ∀ (s' : Story Memory) call' base' last', s'.Finalizes id call' base' batch last' →
        base.SameData base' →
        ∃ t', s'.perform call' = .ok (t', .advance (.moved ⟨id, base'.status, next.status,
            outcomes⟩)) ∧
          t'.get id = .ok next := by
  obtain ⟨b, hb, hbase⟩ := hf.exists_get
  have hid : b.id = id := (h.explained id b hb).1
  have hfinal : ((base.commit base.content batch).1).id = id := by
    rw [Block.id_commit, ← hbase, hid]
  refine ⟨_, _, _, base.finalized_commit batch, hf.perform_eq, ?_, ?_, ?_⟩
  · exact (get_put s _ id).trans (if_pos hfinal)
  · intro b' w hb'
    exact hf.perform_withScratch hb' (h.explained id b' hb').1 w
  · intro s' call' base' last' hf' hsame
    have hcommit := hsame.commit_eq base.content batch
    have hcontent : base.content = base'.content := by rw [← hsame]
    rw [hf'.perform_eq, ← hcontent, ← hcommit]
    exact ⟨_, rfl, (get_put s' _ id).trans (if_pos hfinal)⟩

/-- The user forges a sword, which the generator sharpens: what the user sees allows for that, but
the input world does not. The generator also creates a hero who is there, changes what is fixed, and
leaves out keys and values, so the block fails for one reason of each kind. It fails in the same way
when the user resolves another conflict with these operations. -/
theorem Reachable.finalizes_sword :
    let root := Config.default.rootId
    let hero : EntityId := ⟨.character, "hero"⟩
    let sword : EntityId := ⟨.item, "sword"⟩
    let cave : EntityId := ⟨.place, "cave"⟩
    let forge : Operation := .create sword []
    let sharpen : Operation := .modify sword "dmg" .equal (.int (-2))
    let batch : List Operation := [sharpen, .create hero [], .delete cave,
      .modify hero " " .equal (.bool true), .modify hero "hp" .equal .null,
      .modify hero "EntityType" .equal (.text "Item"), .modify hero "entityid" .add (.text "x"),
      .create cave [("IsDestroyed", .int 7)],
      .modify hero "hp" .subtract (.list [.int 1, .ref cave]),
      .modify hero "hp" .add (.map [("a", .null), ("b", .int 2)]),
      .modify hero "hp" .add (.int 9223372036854775807)]
    let errors : List OperationError := [.notFound sword, .alreadyExists hero, .missingKey hero,
      .missingValue hero, .refused hero (.readOnly "EntityType"),
      .refused hero (.coreOperator "entityid" .add),
      .refused cave (.typeMismatch "IsDestroyed" .bool .int),
      .refused hero (.unsupported "hp" .subtract .int .list),
      .refused hero (.unsupported "hp" .add .int .map), .refused hero (.overflow "hp")]
    let texts : List (String × String) := [
      ("modify Item:sword.dmg = -2", "Item:sword not found"),
      ("create Character:hero", "Character:hero already exists"),
      ("modify Character:hero.  = true", "invalid modify on Character:hero: missing attribute key"),
      ("modify Character:hero.hp = null", "invalid modify on Character:hero: missing value"),
      ("modify Character:hero.EntityType = \"Item\"",
        "Character:hero: attribute 'EntityType' is read-only"),
      ("modify Character:hero.entityid += \"x\"",
        "Character:hero: core attribute 'entityid' does not support operator '+='"),
      ("create Place:cave", "Place:cave: attribute 'IsDestroyed' expects bool, got int"),
      ("modify Character:hero.hp -= [1, @Place:cave]",
        "Character:hero: operator '-=' unsupported for int and list on 'hp'"),
      ("modify Character:hero.hp += \x7ba: null, b: 2\x7d",
        "Character:hero: operator '+=' unsupported for int and map on 'hp'"),
      ("modify Character:hero.hp += 9223372036854775807",
        "Character:hero: integer overflow on 'hp'")]
    let start := ((Story.new Config.default Config.default.sequentialRenamer 1).after
      (.submit root [.create hero [("hp", .int 3)]])).after (.createChild none "b" "now" [])
    let s := start.after (.submit "b" [forge])
    let s' := (start.after (.submit "b" [.modify hero "hp" .equal (.int 4)])).after
      (.complete "b" ⟨true, "text", [.modify hero "hp" .equal (.int 5)], []⟩)
    s.Reachable ∧ s'.Reachable ∧
      (∃ b, s.get "b" = .ok b ∧ b.scratch?.map (fun w => w.contains sword) = some true ∧
        b.scratch?.map (fun w => (w.applyOne sharpen).2.isSuccess) = some true) ∧
      ∃ t t' next outcomes, outcomes.map Outcome.operation = batch ++ [forge] ∧
        outcomes.filterMap Outcome.error = errors ∧
        s.perform (.complete "b" ⟨true, "text", batch, []⟩) =
          .ok (t, .advance (.moved ⟨"b", .loading, .error, outcomes⟩)) ∧
        s'.perform (.resolve "b" (batch ++ [forge])) =
          .ok (t', .advance (.moved ⟨"b", .resolvingConflict, .error, outcomes⟩)) ∧
        t.get "b" = .ok next ∧ t'.get "b" = .ok next ∧
        next.phase = .failed .operationsFailed ∧
        Entries.value? "Error" next.metadata = some (.list (texts.map fun e =>
          .map [("operation", .text e.1), ("error", .text e.2)])) := by
  intro root hero sword cave forge sharpen batch errors texts start s s'
  have hstart : start.Reachable := ((Reachable.new _ _ _).call _).call _
  have hs : s.Reachable := hstart.call _
  have hs' : s'.Reachable := (hstart.call _).call _
  let w := (World.empty.apply [.create hero [("hp", .int 3)]]).1
  let b : Block := { (Block.root root).child w "b" "now" [] with
    phase := .loading (w.apply [forge]).1 [forge] }
  let d : Block.Delivery := ⟨true, "text", batch, []⟩
  have hb : s.get "b" = .ok b := by
    subst b w s start forge sword hero root
    rfl
  obtain ⟨b', hb', hview⟩ : ∃ b', s'.get "b" = .ok b' ∧
      ({ b' with phase := b.phase }, b'.status) = (b.delivered d, .resolvingConflict) :=
    exists_of_map_eq_ok (x := s'.get "b") (by
      subst d b w s' start forge sword hero root
      rfl)
  obtain ⟨hdata, hresolving⟩ := Prod.mk.inj hview
  have hsame : (b.delivered d).SameData b' := by
    rw [Block.SameData, ← hdata]
  have hreport : Merge.detect s.renamer b.input d.operations b.queue s.memory =
      (⟨batch, [forge], [], none⟩, s.memory) := by
    subst d b w s start batch sharpen forge cave sword hero root
    rfl
  have hdelivery := Finalizes.delivery (d := d) hb rfl rfl hreport rfl
  have hresolution := Finalizes.resolution hb' hresolving (batch ++ [forge])
  obtain ⟨t, next, outcomes, hfinalized, hperform, hget, -, hother⟩ := hs.finalizes hdelivery
  obtain ⟨t', hperform', hget'⟩ := hother s' _ b' _ hresolution hsame
  have herrors : outcomes.filterMap Outcome.error = errors := by
    rw [hfinalized.outcomes_eq]
    subst d b w errors batch sharpen forge cave sword hero root
    decide +kernel
  have hfailed : next.status ≠ .idle := by
    rw [Ne, hfinalized.idle_iff]
    intro hall
    have hnone : outcomes.filterMap Outcome.error = [] :=
      List.filterMap_eq_nil_iff.2 fun o ho => by simpa [Outcome.isSuccess] using hall o ho
    exact absurd (herrors.symm.trans hnone) (List.cons_ne_nil _ _)
  obtain ⟨hphase, hstatus, -⟩ := hfinalized.failed hfailed
  obtain ⟨entries, hentries, hlisted⟩ := hfinalized.failures hfailed
  obtain rfl := Block.forall₂_listedAs_iff.1 hlisted
  rw [hstatus] at hperform hperform'
  rw [hresolving] at hperform'
  refine ⟨hs, hs', ⟨b, hb, ?_, ?_⟩, t, t', next, outcomes, hfinalized.operations_eq, herrors,
    hperform, hperform', hget, hget', hphase, ?_⟩
  · subst b w sharpen forge sword hero root
    rfl
  · subst b w sharpen forge sword hero root
    rfl
  · have htexts : (Outcome.failures (b.input.apply (batch ++ [forge])).2).map
        (fun o => (o.operation.display, (o.error.map OperationError.message).getD "")) = texts := by
      subst b w texts batch sharpen forge cave sword hero root
      decide +kernel
    rw [hentries, hfinalized.outcomes_eq, ← htexts, List.map_map]
    rfl

end Story

end BranchingStory
