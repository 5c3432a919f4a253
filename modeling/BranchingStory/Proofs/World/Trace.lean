import BranchingStory.Proofs.World.InPlace
import BranchingStory.Proofs.World.Replay
import Mathlib.Data.List.Basic
import Mathlib.Data.List.Induction

/-!
# The trace that a batch leaves

Whatever an operation has done before it fails, the world is then the one it found. So the trace of
a batch is that of its successes: they lead to the same world without the failures, and a name under
which the batch changed anything is among the targets announced for them.
-/

namespace BranchingStory

namespace Outcome

/-- The targets of the successful operations, with repetitions. -/
def targets (outcomes : List Outcome) : List EntityId :=
  (successful outcomes).map Operation.target

/-- A target that is appended is there, and nothing else is new. -/
theorem mem_addTarget {seen : List EntityId} {target other : EntityId} :
    other ∈ addTarget seen target ↔ other ∈ seen ∨ other = target := by
  unfold addTarget
  split
  · next hseen => exact ⟨.inl, Or.rec id fun h => h ▸ hseen⟩
  · rw [List.mem_append, List.mem_singleton]

/-- Targets that are collected one after the other are those that there are. -/
theorem mem_collect {all seen : List EntityId} {target : EntityId} :
    target ∈ all.foldl addTarget seen ↔ target ∈ seen ∨ target ∈ all := by
  induction all generalizing seen with
  | nil => simp
  | cons first all ih => rw [List.foldl_cons, ih, mem_addTarget, List.mem_cons, or_assoc]

/-- Targets that are collected one after the other stand in the order of their first occurrence. -/
theorem pairwise_collect (all : List EntityId) :
    (all.foldl addTarget []).Pairwise fun a b => all.idxOf a < all.idxOf b := by
  -- The induction takes targets away from the end, where new ones are appended.
  induction all using List.reverseRecOn with
  | nil => exact .nil
  | append_singleton all target ih =>
    have hall : ∀ {a}, a ∈ all.foldl addTarget [] → a ∈ all := fun ha =>
      (mem_collect.1 ha).resolve_left List.not_mem_nil
    have hbefore : (all.foldl addTarget []).Pairwise fun a b =>
        (all ++ [target]).idxOf a < (all ++ [target]).idxOf b := by
      refine ih.imp_of_mem fun {a b} ha hb hab => ?_
      rwa [List.idxOf_append_of_mem (hall ha), List.idxOf_append_of_mem (hall hb)]
    rw [List.foldl_append, List.foldl_cons, List.foldl_nil, addTarget]
    split
    · exact hbefore
    · next hnew =>
      refine List.pairwise_append.2 ⟨hbefore, List.pairwise_singleton _ _, fun a ha b hb => ?_⟩
      obtain rfl := List.mem_singleton.1 hb
      have hb' : b ∉ all := fun h => hnew (mem_collect.2 (.inr h))
      rw [List.idxOf_append_of_mem (hall ha), List.idxOf_append_of_notMem hb']
      exact Nat.lt_add_right _ (List.idxOf_lt_length_of_mem (hall ha))

/-- What is touched are the targets of the successful operations, collected one after the other. -/
theorem touched_eq (outcomes : List Outcome) :
    touched outcomes = (targets outcomes).foldl addTarget [] :=
  List.foldl_map.symm

/-- What is touched is the target of a successful operation. -/
theorem mem_touched_iff {outcomes : List Outcome} {target : EntityId} :
    target ∈ touched outcomes ↔ target ∈ targets outcomes := by
  rw [touched_eq, mem_collect, or_iff_right List.not_mem_nil]

/-- What is touched stands in the order of the first success. -/
theorem pairwise_touched (outcomes : List Outcome) : (touched outcomes).Pairwise fun a b =>
    (targets outcomes).idxOf a < (targets outcomes).idxOf b := by
  rw [touched_eq]
  exact pairwise_collect _

/-- Nothing is announced as touched twice. -/
theorem nodup_touched (outcomes : List Outcome) : (touched outcomes).Nodup :=
  (pairwise_touched outcomes).imp fun {a b} hab h => by
    rw [h] at hab
    exact Nat.lt_irrefl _ hab

end Outcome

namespace World

/-- A batch changes nothing under a name that it does not touch. -/
theorem stored?_of_notMem_touched {w : World} {ops : List Operation} {target : EntityId}
    (h : target ∉ Outcome.touched (w.apply ops).2) :
    (w.apply ops).1.stored? target = w.stored? target := by
  -- The operations that succeeded lead to the same world, and none of them is on this name.
  have hnone : (Outcome.successful (w.apply ops).2).filter (fun op => op.target = target) = [] :=
    List.filter_eq_nil_iff.2 fun op hop ht =>
      h (Outcome.mem_touched_iff.2 (List.mem_map.2 ⟨op, hop, of_decide_eq_true ht⟩))
  have hsame := stored?_apply w (Outcome.successful (w.apply ops).2) target
  rw [hnone, congrArg Prod.fst (leads_successful w ops)] at hsame
  exact hsame

/-- An operation that fails in place leaves the world that it found. -/
theorem run_attempt_of_failure {w : World} {op : Operation}
    (h : ((attempt op).run w).1.isSuccess = false) : ((attempt op).run w).2 = w := by
  rw [run_attempt] at h ⊢
  rcases applyOne_cases w op with ⟨hs, -⟩ | ⟨-, hw⟩
  · exact absurd (hs.symm.trans h) Bool.true_eq_false.mp
  · exact hw

/-- An operation of a batch in place has the outcome that it has in the world that the operations
before it leave. -/
theorem getElem?_attemptAll (w : World) (before : List Operation) (op : Operation)
    (after : List Operation) :
    ((attemptAll (before ++ op :: after)).run w).1[before.length]? =
      some ((attempt op).run ((attemptAll before).run w).2).1 := by
  rw [run_attemptAll, run_attemptAll, run_attempt]
  exact getElem?_apply w before op after

/-- A batch is applied in place to any world as it is to the world as a value. An operation that
fails, at whatever step, leaves the world that the operations before it left. So the operations that
succeeded do so again without the others and lead to the same world. What is stored under a name
differs only if the name is among those announced: these are the targets of the successful
operations, each of them once, in the order of the first success. -/
theorem failures_leave_no_trace (w : World) (ops : List Operation) :
    ∃ outcomes last, (attemptAll ops).run w = (outcomes, last) ∧ w.apply ops = (last, outcomes) ∧
      outcomes.map Outcome.operation = ops ∧
      (∀ before op after found, ops = before ++ op :: after →
        ((attemptAll before).run w).2 = found →
        ∃ outcome left, (attempt op).run found = (outcome, left) ∧
          outcomes[before.length]? = some outcome ∧ (outcome.isSuccess = false → left = found)) ∧
      (attemptAll (Outcome.successful outcomes)).run w =
        (Outcome.successes (Outcome.successful outcomes), last) ∧
      (∀ target, last.stored? target ≠ w.stored? target → target ∈ Outcome.touched outcomes) ∧
      (∀ target, target ∈ Outcome.touched outcomes ↔
        ∃ o ∈ outcomes, o.isSuccess = true ∧ o.operation.target = target) ∧
      (Outcome.touched outcomes).Nodup ∧
      (Outcome.touched outcomes).Pairwise fun a b =>
        (Outcome.targets outcomes).idxOf a < (Outcome.targets outcomes).idxOf b := by
  refine ⟨(w.apply ops).2, (w.apply ops).1, run_attemptAll ops w, rfl, map_operation_apply w ops,
    ?_, ?_, ?_, ?_, Outcome.nodup_touched _, Outcome.pairwise_touched _⟩
  · rintro before op after _ rfl rfl
    refine ⟨((attempt op).run ((attemptAll before).run w).2).1,
      ((attempt op).run ((attemptAll before).run w).2).2, rfl, ?_, run_attempt_of_failure⟩
    rw [← getElem?_attemptAll w before op after, run_attemptAll]
  · rw [run_attemptAll, leads_successful w ops]
  · intro target hne
    exact Classical.byContradiction fun h => hne (stored?_of_notMem_touched h)
  · intro target
    rw [Outcome.mem_touched_iff, Outcome.targets, Outcome.successful, List.map_map]
    simp only [List.mem_map, List.mem_filter, Function.comp_apply, and_assoc]

/-- A key is taken away before one that is no text, and a size is given before an attribute that is
fixed; of neither is there a trace. -/
theorem failures_leave_no_trace_halfway :
    let chest : EntityId := ⟨.item, "chest"⟩
    let cup : EntityId := ⟨.item, "cup"⟩
    let world := (World.empty.apply
      [.create chest [("content", .map [("coin", .int 3), ("ring", .int 1)])]]).1
    let take : Operation :=
      .modify chest "content" .subtract (.list [.text "coin", .bool true, .text "ring"])
    let make : Operation := .create cup [("size", .int 2), ("EntityId", .text "mug")]
    let ops : List Operation := [take, make, .create cup [],
      .modify chest "open" .equal (.bool true), .modify cup "size" .add (.int 1), make]
    ∃ outcomes last, (attemptAll ops).run world = (outcomes, last) ∧
      outcomes.map Outcome.isSuccess = [false, false, true, true, true, false] ∧
      (attempt take).run world =
        (⟨take, some (.refused chest (.typeMismatch "content" .textKey .bool))⟩, world) ∧
      last.stored? chest = some ⟨chest, [("content", .map [("coin", .int 3), ("ring", .int 1)]),
        ("open", .bool true)], false⟩ ∧
      last.stored? cup = some ⟨cup, [("size", .int 1)], false⟩ ∧
      (attemptAll (Outcome.successful outcomes)).run world =
        (Outcome.successes (Outcome.successful outcomes), last) ∧
      Outcome.touched outcomes = [cup, chest] := by
  intro chest cup world take make ops
  obtain ⟨outcomes, last, hrun, happly, -, hfail, hreplay, -⟩ := failures_leave_no_trace world ops
  obtain rfl : (world.apply ops).1 = last := congrArg Prod.fst happly
  obtain rfl : (world.apply ops).2 = outcomes := congrArg Prod.snd happly
  refine ⟨_, _, hrun, ?_, ?_, ?_, ?_, hreplay, ?_⟩
  · decide +kernel
  · obtain ⟨outcome, left, htake, hfirst, hleft⟩ := hfail [] take ops.tail world rfl rfl
    have herror : (world.apply ops).2[0]? =
        some ⟨take, some (.refused chest (.typeMismatch "content" .textKey .bool))⟩ := rfl
    obtain rfl := Option.some.inj (herror.symm.trans hfirst)
    rw [htake, hleft rfl]
  · subst ops make take world cup chest
    rfl
  · subst ops make take world cup chest
    rfl
  · decide +kernel

end World

end BranchingStory
