import BranchingStory.Proofs.Story.History
import BranchingStory.Proofs.Story.Queue

/-!
# The moment of completion

The user's operations reach a block in any number of submissions, some before the generator
completes it and some after. The early ones go through the scratch world, the queue and the merge,
the late ones straight to the current world. When both sides go together, the two ways end in the
same world, wherever the completion falls and however the operations are cut into submissions.
-/

namespace BranchingStory

/-- Operations that succeed take a phase that is open for them to the next one. -/
inductive Phase.Edits (ops : List Operation) : Phase → Phase → Prop
  /-- They change the current world of an idle block. -/
  | idle {v w : World} (merged : Option World) (h : v.Leads ops w) :
    Edits ops (.idle merged v) (.idle merged w)
  /-- They change the scratch world of a loading block and join its queue. -/
  | loading {v w : World} (queue : List Operation) (h : v.Leads ops w) :
    Edits ops (.loading v queue) (.loading w (queue ++ ops))

namespace Phase.Edits

variable {phase next last : Phase} {ops first second : List Operation}

/-- No operations leave a phase as it is. -/
theorem eq_of_nil (h : Edits [] phase next) : next = phase := by
  cases h with
  | idle merged h => rw [World.leads_nil_iff.1 h]
  | loading queue h => rw [World.leads_nil_iff.1 h, List.append_nil]

/-- Operations in two parts take a phase to the next one part by part. -/
theorem split (h : Edits (first ++ second) phase last) :
    ∃ next, Edits first phase next ∧ Edits second next last := by
  cases h with
  | idle merged h =>
    obtain ⟨v, hfirst, hsecond⟩ := World.leads_append_iff.1 h
    exact ⟨.idle merged v, .idle merged hfirst, .idle merged hsecond⟩
  | loading queue h =>
    obtain ⟨v, hfirst, hsecond⟩ := World.leads_append_iff.1 h
    rw [← List.append_assoc]
    exact ⟨.loading v (queue ++ first), .loading queue hfirst, .loading _ hsecond⟩

/-- Operations of the user leave a block in its phase. -/
theorem status_eq (h : Edits ops phase next) : next.status = phase.status := by cases h <;> rfl

/-- A block in an open phase takes the operations, and all of them succeed. -/
theorem submit?_eq {b : Block} (h : Edits ops b.phase next) :
    b.submit? ops = some ({ b with phase := next }, Outcome.successes ops) := by
  unfold Block.submit?
  generalize b.phase = phase at h
  cases h with
  | idle merged h =>
    simp only
    rw [h]
  | loading queue h =>
    simp only
    rw [h, Outcome.successful_successes]

end Phase.Edits

namespace Story

variable {Memory : Type} {s : Story Memory}

/-- Submissions of operations that succeed one after the other leave the block as one submission of
all of them does. -/
theorem afterAll_submissions {id : BlockId} {b : Block} {cuts : List (List Operation)}
    {last : Phase} (hb : s.get id = .ok b) (hid : b.id = id)
    (hedits : b.phase.Edits cuts.flatten last) :
    (s.afterAll (cuts.map (.submit id))).get id = .ok { b with phase := last } ∧
      (s.log (cuts.map (.submit id))).map Exchange.result = cuts.map fun ops =>
        .ok (.submission (.applied b.status (Outcome.successes ops))) := by
  induction cuts generalizing s b with
  | nil =>
    rw [hedits.eq_of_nil]
    exact ⟨hb, rfl⟩
  | cons ops cuts ih =>
    obtain ⟨phase, hfirst, hrest⟩ := hedits.split
    have hperform : s.perform (.submit id ops) = .ok (s.put { b with phase },
        .submission (.applied b.status (Outcome.successes ops))) := by
      simp only [perform, submit, hb, hfirst.submit?_eq]
      rfl
    have hnext : (s.after (.submit id ops)).get id = .ok { b with phase } := by
      rw [after, hperform, get_put, if_pos hid]
    obtain ⟨hlast, hlog⟩ := ih hnext hid hrest
    refine ⟨hlast, ?_⟩
    have hstatus : Block.status { b with phase } = b.status := hfirst.status_eq
    rw [List.map_cons, log, List.map_cons, hlog, hstatus, exchange, hperform]
    rfl

/-- The completion of a loading block whose queue has nothing to do with the generator's operations
moves it to idle, on the world that these followed by the queue lead to. -/
theorem perform_complete_of_apart {id : BlockId} {b : Block} {d : Block.Delivery}
    {scratch w : World} {queue : List Operation} (hb : s.get id = .ok b) (hid : b.id = id)
    (hphase : b.phase = .loading scratch queue) (hsuccess : d.success = true)
    (hcreate : ∀ target, ¬Merge.BothCreate d.operations queue target)
    (hmodify : ∀ g ∈ d.operations, ∀ e ∈ queue, g.sameKey e = false)
    (hleads : b.input.Leads (d.operations ++ queue) w) :
    ∃ t next, s.perform (.complete id d) = .ok (t, .advance (.moved ⟨id, .loading, .idle,
        Outcome.successes (d.operations ++ queue)⟩)) ∧
      t.get id = .ok next ∧ next.phase = .idle (some w) w := by
  have hreport : Merge.detect s.renamer b.input d.operations queue s.memory =
      (⟨d.operations, queue, [], none⟩, s.memory) := by
    refine Merge.detect_of_apart _ _ _ hcreate fun g hg e he => ?_
    rw [Operation.isBlocking_eq_sameKey]
    exact hmodify g hg e he
  obtain ⟨t, next, hcomplete, hnext, hidle⟩ :=
    complete_of_leads hb hid hphase hsuccess (congrArg Prod.fst hreport) rfl hleads
  refine ⟨t, next, ?_, hnext, hidle⟩
  simp only [perform, hcomplete]
  rfl

/-- In every run, take a loading block with an empty queue, a batch of the generator and operations
of the user such that the latter succeed on the input world alone and after the generator's, no
entity is created by both sides and no key is modified by both. However the user's operations are
cut into submissions, and whichever of them come before the completion, the block becomes idle on
the world that the generator's operations followed by the user's lead to, and every submitted and
every merged operation succeeds. -/
theorem Reachable.any_moment (h : s.Reachable) {id : BlockId} {b : Block} (hb : s.get id = .ok b)
    (hloading : b.status = .loading) (hqueue : b.queue = []) {d : Block.Delivery}
    (hsuccess : d.success = true) {edited : List Operation} {early late : List (List Operation)}
    (hcuts : (early ++ late).flatten = edited)
    (hedited : Outcome.allSucceeded (b.input.apply edited).2 = true)
    (hmerged : Outcome.allSucceeded (b.input.apply (d.operations ++ edited)).2 = true)
    (hcreate : ∀ target, ¬Merge.BothCreate d.operations edited target)
    (hmodify : ∀ g ∈ d.operations, ∀ e ∈ edited, g.sameKey e = false) :
    let calls := early.map (.submit id) ++ .complete id d :: late.map (.submit id)
    (∃ last, (s.afterAll calls).get id = .ok last ∧ last.status = .idle ∧
      last.current? = some (b.input.apply (d.operations ++ edited)).1) ∧
    (s.log calls).map Exchange.result =
      early.map (fun ops => .ok (.submission (.applied .loading (Outcome.successes ops)))) ++
      .ok (.advance (.moved ⟨id, .loading, .idle,
        Outcome.successes (d.operations ++ early.flatten)⟩)) ::
      late.map fun ops => .ok (.submission (.applied .idle (Outcome.successes ops))) := by
  intro calls
  rw [List.flatten_append] at hcuts
  subst hcuts
  obtain ⟨hid, hexplained⟩ := h.explained id b hb
  obtain ⟨scratch, hphase⟩ : ∃ scratch, b.phase = .loading scratch [] := by
    cases hphase : b.phase <;> simp_all [Block.status, Phase.status, Block.queue]
  have hscratch : b.input = scratch := World.leads_nil_iff.1 (hexplained.fits hphase)
  subst hscratch
  obtain ⟨seen, hseen, -⟩ := World.leads_append_iff.1 (World.leads_iff.2 ⟨hedited, rfl⟩)
  have hboth := World.leads_iff.2 ⟨hmerged, rfl⟩
  generalize (b.input.apply (d.operations ++ (early.flatten ++ late.flatten))).1 = final at hboth ⊢
  rw [← List.append_assoc] at hboth
  obtain ⟨w, hw, hlate⟩ := World.leads_append_iff.1 hboth
  -- Until the completion the block is loading, and the queue is what has been submitted.
  let t := s.afterAll (early.map (.submit id))
  have hearly : b.phase.Edits early.flatten (.loading seen early.flatten) := by
    rw [hphase]
    exact .loading [] hseen
  obtain ⟨hget, hearlyLog⟩ := afterAll_submissions hb hid hearly
  obtain ⟨u, next, hperform, hnext, hidle⟩ : ∃ u next, t.perform (.complete id d) =
      .ok (u, .advance (.moved ⟨id, .loading, .idle,
        Outcome.successes (d.operations ++ early.flatten)⟩)) ∧
      u.get id = .ok next ∧ next.phase = .idle (some w) w := by
    refine perform_complete_of_apart hget hid rfl hsuccess ?_ ?_ hw
    · rintro target ⟨hg, e, he, hcreates⟩
      exact hcreate target ⟨hg, e, List.mem_append_left _ he, hcreates⟩
    · intro g hg e he
      exact hmodify g hg e (List.mem_append_left _ he)
  have hafter : t.after (.complete id d) = u := by rw [after, hperform]
  -- From then on it is idle, and the submissions change its current world.
  have hreachable : u.Reachable := hafter ▸ (h.afterAll _).call _
  have hnextId : next.id = id := (hreachable.explained id next hnext).1
  have hstatus : next.status = .idle := by rw [Block.status, hidle, Phase.status]
  have hlateEdits : next.phase.Edits late.flatten (.idle (some w) final) := by
    rw [hidle]
    exact .idle (some w) hlate
  obtain ⟨hlast, hlateLog⟩ := afterAll_submissions hnext hnextId hlateEdits
  refine ⟨⟨{ next with phase := .idle (some w) final }, ?_, rfl, rfl⟩, ?_⟩
  · rw [afterAll_append]
    change ((t.after (.complete id d)).afterAll (late.map (.submit id))).get id = _
    rw [hafter]
    exact hlast
  · rw [log_append, List.map_append, hearlyLog, hloading]
    change _ ++ (t.exchange (.complete id d)).result ::
      ((t.after (.complete id d)).log (late.map (.submit id))).map Exchange.result = _
    rw [hafter, hlateLog, hstatus, exchange, hperform]
    rfl

/-- The user takes a new sword and names the hero, whom the generator wounds: one edit comes before
the completion, an empty submission as well, and two come after it. -/
theorem Reachable.any_moment_sword :
    let root := Config.default.rootId
    let hero : EntityId := ⟨.character, "hero"⟩
    let sword : EntityId := ⟨.item, "sword"⟩
    let take : Operation := .create sword []
    let name : Operation := .modify hero "title" .equal (.text "Sir")
    let keep : Operation := .modify sword "owner" .equal (.text "hero")
    let wound : Operation := .modify hero "hp" .subtract (.int 2)
    let cave : Operation := .create ⟨.place, "cave"⟩ []
    let s := ((Story.new Config.default Config.default.sequentialRenamer 1).after
      (.submit root [.create hero [("hp", .int 7)]])).after (.createChild none "b" "now" [])
    let calls : List Call := [.submit "b" [take], .submit "b" [],
      .complete "b" ⟨true, "text", [wound, cave], []⟩, .submit "b" [name, keep]]
    s.Reachable ∧
      (∃ last, (s.afterAll calls).get "b" = .ok last ∧ last.status = .idle ∧
        (last.current?.bind fun w => w.stored? hero) =
          some ⟨hero, [("hp", .int 5), ("title", .text "Sir")], false⟩) ∧
      (s.log calls).map Exchange.result = [.ok (.submission (.applied .loading [⟨take, none⟩])),
        .ok (.submission (.applied .loading [])),
        .ok (.advance (.moved ⟨"b", .loading, .idle,
          [⟨wound, none⟩, ⟨cave, none⟩, ⟨take, none⟩]⟩)),
        .ok (.submission (.applied .idle [⟨name, none⟩, ⟨keep, none⟩]))] := by
  intro root hero sword take name keep wound cave s calls
  have hs : s.Reachable := ((Reachable.new _ _ _).call _).call _
  obtain ⟨b, hb, hview⟩ : ∃ b, s.get "b" = .ok b ∧ (b.status, b.queue, b.input) =
      (.loading, [], (World.empty.apply [.create hero [("hp", .int 7)]]).1) :=
    exists_of_map_eq_ok (x := s.get "b") (by subst s root hero; rfl)
  obtain ⟨hloading, hqueue, hinput⟩ : b.status = .loading ∧ b.queue = [] ∧ b.input = _ := by
    simpa only [Prod.mk.injEq] using hview
  have hcreate : ∀ target, ¬Merge.BothCreate [wound, cave] [take, name, keep] target := by
    rintro target ⟨⟨g, hg, hgc, rfl⟩, e, he, hec, ht⟩
    simp only [List.mem_cons, List.not_mem_nil, or_false] at hg he
    rcases hg with rfl | rfl
    · cases hgc
    · rcases he with rfl | rfl | rfl <;> cases ht
  have hmodify : ∀ g ∈ [wound, cave], ∀ e ∈ [take, name, keep], g.sameKey e = false := by
    subst wound cave take name keep hero sword
    decide
  have hedited : Outcome.allSucceeded (b.input.apply [take, name, keep]).2 = true := by
    rw [hinput]
    subst take name keep hero sword
    rfl
  have hmerged :
      Outcome.allSucceeded (b.input.apply ([wound, cave] ++ [take, name, keep])).2 = true := by
    rw [hinput]
    subst wound cave take name keep hero sword
    rfl
  have hcuts : ([[take], []] ++ [[name, keep]]).flatten = [take, name, keep] := rfl
  obtain ⟨⟨last, hlast, hidle, hcurrent⟩, hlog⟩ := hs.any_moment hb hloading hqueue
    (d := ⟨true, "text", [wound, cave], []⟩) rfl hcuts hedited hmerged hcreate hmodify
  refine ⟨hs, ⟨last, hlast, hidle, ?_⟩, hlog⟩
  rw [hcurrent, hinput]
  subst wound cave take name keep hero sword
  rfl

end Story

end BranchingStory
