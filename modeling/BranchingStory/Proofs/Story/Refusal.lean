import BranchingStory.Proofs.Story.Access

/-!
# Refused calls

A call is refused by an error, or by the answer that the phase of the block does not allow it. What
keeps a block from taking a call is said here once for all calls, and a refused call leaves no trace:
not a block, not a half-made child, not even a proposal of the renamer.
-/

namespace BranchingStory

namespace Block

/-- Operations of the user are not taken by a block with a conflict or by one that failed. -/
theorem submit?_eq_none_iff (b : Block) (ops : List Operation) :
    b.submit? ops = none ↔ b.status = .resolvingConflict ∨ b.status = .error := by
  unfold submit? status
  cases b.phase <;> simp [Phase.status]

/-- All blocks but a loading one cannot be completed. -/
theorem complete?_eq_none_iff {Memory : Type} (b : Block) (renamer : Renamer Memory)
    (memory : Memory) (d : Delivery) : b.complete? renamer memory d = none ↔ b.status ≠ .loading := by
  refine ⟨fun hnone hloading => ?_, complete?_of_ne_loading renamer memory d⟩
  unfold complete? at hnone
  unfold status at hloading
  cases hphase : b.phase with
  | loading scratch queue =>
    simp only [hphase] at hnone
    split at hnone
    · split at hnone <;> cases hnone
    · cases hnone
  | _ =>
    rw [hphase] at hloading
    cases hloading

/-- All blocks but one with a conflict cannot be resolved. -/
theorem resolve?_eq_none_iff (b : Block) (batch : List Operation) :
    b.resolve? batch = none ↔ b.status ≠ .resolvingConflict := by
  unfold resolve? status
  cases b.phase <;> simp [Phase.status]

/-- A child is not followed when there is none at the position. -/
theorem select?_eq_none_iff (b : Block) (index : Nat) :
    b.select? index = none ↔ b.children.length ≤ index := by
  simp [select?]

end Block

/-- The call is refused: by an error, or because the phase of the block does not allow it. -/
def Refused : Except StoryError Answer → Prop
  | .error _ => True
  | .ok (.submission (.notApplied _)) => True
  | .ok (.advance (.notApplicable _)) => True
  | .ok _ => False

/-- The phase that the block is reported to be in as the call comes. -/
def reported? : Except StoryError Answer → Option Status
  | .error (.invalidState _ status _) => some status
  | .ok (.submission (.applied status _)) => some status
  | .ok (.submission (.notApplied status)) => some status
  | .ok (.advance (.moved transition)) => some transition.source
  | .ok (.advance (.notApplicable status)) => some status
  | .ok (.status status) => some status
  | _ => none

namespace Story

variable {Memory : Type}

/-- What keeps a block from taking a call. -/
def Barred (s : Story Memory) (b : Block) : Call → Prop
  | .createChild _ id _ _ => b.status ≠ .idle ∨ s.blocks.has id = true
  | .submit _ _ => b.status = .resolvingConflict ∨ b.status = .error
  | .complete _ _ => b.status ≠ .loading
  | .resolve _ _ => b.status ≠ .resolvingConflict
  | .updateDetails _ _ _ => b.status ≠ .idle
  | .updateGameState _ _ => False
  | .selectChild _ index => b.children.length ≤ index

variable {s : Story Memory} {call : Call} {b : Block}

/-- A refused call leads nowhere. -/
theorem after_eq_of_refused (h : Refused (s.exchange call).result) : s.after call = s := by
  unfold exchange at h
  unfold after
  cases hperform : s.perform call with
  | error e => rfl
  | ok r =>
    obtain ⟨t, answer⟩ := r
    rw [hperform] at h
    obtain ⟨b, -, ⟨rfl, -⟩ | ⟨next, memory, hstep, -⟩ | ⟨_, _, _, _, _, -, -, -, rfl, -⟩⟩ :=
      perform_cases hperform
    · rfl
    · cases hstep <;> cases h
    · cases h

/-- A call on a block that is not registered is refused as such. -/
theorem perform_of_get_eq_error {e : StoryError} (h : s.get (s.subject call) = .error e) :
    s.perform call = .error e := by
  cases call
  all_goals
    simp only [subject] at h
    simp only [perform, createChild, submit, complete, resolve, updateDetails, updateGameState,
      selectChild, h]
    rfl

/-- What is known of the result of a call on a registered block. -/
structure Verdict (s : Story Memory) (b : Block) (call : Call)
    (result : Except StoryError Answer) : Prop where
  /-- The call is refused exactly if something keeps the block from taking it. -/
  refused_iff : Refused result ↔ s.Barred b call
  /-- The block is not said to be missing. -/
  found : ∀ id, result ≠ .error (.notFound id)
  /-- Any phase reported is the one that the block is in. -/
  reported : ∀ status, reported? result = some status → status = b.status

/-- The result of a call on a registered block is settled by the phase of the block, by its children
and by the ids that are taken. -/
theorem verdict (hb : s.get (s.subject call) = .ok b) :
    s.Verdict b call (s.exchange call).result := by
  cases call with
  | createChild parent id time params =>
    simp only [subject] at hb
    simp only [exchange, perform, createChild, hb]
    cases hphase : b.phase with
    | idle merged current =>
      have hidle : b.status = .idle := by rw [Block.status, hphase, Phase.status]
      cases hnew : s.blocks.has id with
      | true => constructor <;> simp [Refused, reported?, Barred, Except.map, hnew]
      | false => constructor <;> simp [Refused, reported?, Barred, Except.map, hnew, hidle]
    | _ =>
      constructor <;>
        simp [Refused, reported?, Barred, Except.map, Block.status, hphase, Phase.status]
  | submit id ops =>
    simp only [subject] at hb
    simp only [exchange, perform, submit, hb]
    have hbarred := b.submit?_eq_none_iff ops
    cases hnext : b.submit? ops with
    | none => constructor <;> simp [Refused, reported?, Barred, Except.map, hbarred.1 hnext]
    | some r =>
      rw [hnext] at hbarred
      constructor <;> simp [Refused, reported?, Barred, Except.map, ← hbarred]
  | complete id d =>
    simp only [subject] at hb
    simp only [exchange, perform, complete, hb]
    have hbarred := b.complete?_eq_none_iff s.renamer s.memory d
    cases hnext : b.complete? s.renamer s.memory d with
    | none => constructor <;> simp [Refused, reported?, Barred, Except.map, hbarred.1 hnext]
    | some r =>
      rw [hnext] at hbarred
      constructor <;> simp [Refused, reported?, Barred, Except.map, ← hbarred]
  | resolve id batch =>
    simp only [subject] at hb
    simp only [exchange, perform, resolve, hb]
    have hbarred := b.resolve?_eq_none_iff batch
    cases hnext : b.resolve? batch with
    | none => constructor <;> simp [Refused, reported?, Barred, Except.map, hbarred.1 hnext]
    | some r =>
      rw [hnext] at hbarred
      constructor <;> simp [Refused, reported?, Barred, Except.map, ← hbarred]
  | updateDetails id content metadata =>
    simp only [subject] at hb
    simp only [exchange, perform, updateDetails, hb]
    by_cases hidle : b.status = .idle <;>
      constructor <;> simp [Refused, reported?, Barred, Except.map, hidle]
  | updateGameState id settings =>
    simp only [subject] at hb
    simp only [exchange, perform, updateGameState, hb]
    constructor <;> simp [Refused, reported?, Barred, Except.map]
  | selectChild id index =>
    simp only [subject] at hb
    simp only [exchange, perform, selectChild, hb]
    have hbarred := b.select?_eq_none_iff index
    cases hnext : b.select? index with
    | none => constructor <;> simp [Refused, reported?, Barred, Except.map, hbarred.1 hnext]
    | some next =>
      rw [hnext] at hbarred
      constructor <;> simp [Refused, reported?, Barred, Except.map, ← hbarred]

/-- A call on a story that is read and written in place does what the call on the story as a value
does. When it is refused, the story is left exactly as it was. It is refused for want of a block
exactly if its block is not registered. A registered block refuses it exactly if something keeps the
block from taking it, and any phase that is reported is the one that the block is in. -/
theorem refused_call_leaves_no_trace (s : Story Memory) (call : Call) :
    let r := InPlace.on s (Access.call call)
    r = ((s.exchange call).result, s.after call) ∧
    (Refused r.1 → r.2 = s) ∧
    (∀ id, r.1 = .error (.notFound id) ↔ id = s.subject call ∧ s.blocks.has id = false) ∧
    ∀ b, s.get (s.subject call) = .ok b →
      (Refused r.1 ↔ s.Barred b call) ∧
        ∀ status, reported? r.1 = some status → status = b.status := by
  intro r
  have hr : r = ((s.exchange call).result, s.after call) := Access.on_call s call
  rw [hr]
  refine ⟨rfl, after_eq_of_refused, fun id => ?_, fun b hb => ?_⟩
  · cases hb : s.blocks.get? (s.subject call) with
    | none =>
      have hget : s.get (s.subject call) = .error (.notFound (s.subject call)) := by rw [get, hb]
      have hmissing : s.blocks.has (s.subject call) = false := by rw [Table.has, hb]; rfl
      simp only [exchange, perform_of_get_eq_error hget, Except.map]
      constructor
      · intro hid
        obtain rfl : s.subject call = id := by simpa using hid
        exact ⟨rfl, hmissing⟩
      · rintro ⟨rfl, -⟩
        rfl
    | some b =>
      refine iff_of_false ((verdict (get_eq_ok_iff.2 hb)).found id) ?_
      rintro ⟨rfl, hmissing⟩
      rw [Table.has, hb] at hmissing
      cases hmissing
  · have hverdict := verdict hb
    exact ⟨hverdict.refused_iff, hverdict.reported⟩

/-- No child is made under a block that waits for the generator, and none under a taken id. -/
theorem refused_call_leaves_no_trace_twice :
    let s := (Story.new Config.default Config.default.sequentialRenamer 1).after
      (.createChild none "b" "now" [])
    let early : Call := .createChild (some "b") "c" "now" []
    let twice : Call := .createChild none "b" "now" []
    (InPlace.on s (Access.call early)).1 =
        .error (.invalidState "b" .loading .createChild) ∧
      (InPlace.on s (Access.call early)).2 = s ∧
      Refused (InPlace.on s (Access.call twice)).1 ∧ (InPlace.on s (Access.call twice)).2 = s ∧
      (InPlace.on s (Access.call (.selectChild "c" 0))).1 = .error (.notFound "c") := by
  intro s early twice
  obtain ⟨-, hearly, -, -⟩ := s.refused_call_leaves_no_trace early
  obtain ⟨-, htwice, -, hbarred⟩ := s.refused_call_leaves_no_trace twice
  obtain ⟨-, -, hmissing, -⟩ := s.refused_call_leaves_no_trace (.selectChild "c" 0)
  have hresult : (InPlace.on s (Access.call early)).1 =
      .error (.invalidState "b" .loading .createChild) := rfl
  obtain ⟨root, hroot⟩ : ∃ root, s.get (s.subject twice) = .ok root := ⟨_, rfl⟩
  have hrefused : Refused (InPlace.on s (Access.call twice)).1 :=
    (hbarred root hroot).1.2 (.inr rfl)
  refine ⟨hresult, hearly ?_, hrefused, htwice hrefused, (hmissing "c").2 ⟨rfl, rfl⟩⟩
  rw [hresult]
  trivial

end Story

end BranchingStory
