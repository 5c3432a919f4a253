import BranchingStory.Merge.Detection

/-!
# Steady renamers

All merges of a story share one renamer, which may remember what it has proposed. If its proposals
do not depend on that memory, then neither does what comes of a merge, so that the merges of one
block cannot be told from those of another.
-/

namespace BranchingStory

variable {Memory : Type}

/-- What is proposed for an entity does not depend on what the renamer remembers. -/
def Renamer.Steady (renamer : Renamer Memory) : Prop :=
  ∀ target m n, (renamer.propose target m).1 = (renamer.propose target n).1

namespace Merge

variable {renamer : Renamer Memory}

/-- A steady renamer runs through the same proposals from every memory. -/
theorem fst_tryProposals_eq (h : renamer.Steady) (taken : List EntityId) (target : EntityId)
    (more : Nat) (candidate : String) (m n : Memory) :
    (tryProposals renamer taken target more candidate m).1 =
      (tryProposals renamer taken target more candidate n).1 := by
  induction more generalizing candidate m n with
  | zero => rfl
  | succ more ih =>
    simp only [tryProposals]
    split
    · rw [h target m n]
      exact ih _ _ _
    · rfl

/-- A steady renamer gives a target the same new id from every memory. -/
theorem fst_freshId_eq (h : renamer.Steady) (taken : List EntityId) (target : EntityId)
    (m n : Memory) :
    (freshId renamer taken target m).1 = (freshId renamer taken target n).1 := by
  simp only [freshId]
  rw [h target m n]
  exact fst_tryProposals_eq h _ _ _ _ _ _

/-- The names of a renaming, without the memory of the renamer. -/
def Renaming.names (r : Renaming Memory) : List EntityId × List (EntityId × String) :=
  (r.taken, r.renamed)

/-- With a steady renamer an operation extends a renaming by the same names from every memory. -/
theorem Renaming.names_extend_eq (h : renamer.Steady) (index : TargetIndex) (op : Operation)
    {r r' : Renaming Memory} (hnames : r.names = r'.names) :
    (r.extend renamer index op).names = (r'.extend renamer index op).names := by
  obtain ⟨taken, renamed, m⟩ := r
  obtain ⟨taken', renamed', n⟩ := r'
  obtain ⟨rfl, rfl⟩ : taken = taken' ∧ renamed = renamed' := by simpa [names] using hnames
  simp only [extend]
  split
  · rfl
  · simp only [names, fst_freshId_eq h taken op.target m n]

/-- With a steady renamer a batch extends a renaming by the same names from every memory. -/
theorem Renaming.names_foldl_extend_eq (h : renamer.Steady) (index : TargetIndex)
    (edited : List Operation) {r r' : Renaming Memory} (hnames : r.names = r'.names) :
    (edited.foldl (extend renamer index) r).names =
      (edited.foldl (extend renamer index) r').names := by
  induction edited generalizing r r' with
  | nil => exact hnames
  | cons op edited ih => exact ih (names_extend_eq h index op hnames)

/-- With a steady renamer the same comes of two batches from every memory. -/
theorem fst_detect_eq (h : renamer.Steady) (world : World) (generated edited : List Operation)
    (m n : Memory) :
    (detect renamer world generated edited m).1 = (detect renamer world generated edited n).1 := by
  have hnames : (renameCollisions renamer world (.ofBatch generated) generated edited m).names =
      (renameCollisions renamer world (.ofBatch generated) generated edited n).names :=
    Renaming.names_foldl_extend_eq h _ edited rfl
  have hrenamed := congrArg Prod.snd hnames
  simp only [Renaming.names] at hrenamed
  simp only [detect, hrenamed]

end Merge

end BranchingStory
