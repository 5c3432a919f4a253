import BranchingStory.EntityId

/-!
# Renamers

A renamer proposes new ids for an entity, one at a time, and may remember what it has proposed. It
owes nothing about its proposals: they may be taken, or all alike. The memory is passed along
explicitly, so a renamer that draws from a random source is one whose memory tells what it will draw
next.
-/

namespace BranchingStory

/-- A source of new ids with a memory. -/
structure Renamer (Memory : Type) where
  /-- The name of the strategy. -/
  name : String
  /-- The next id proposed for an entity, and the memory after it. -/
  propose : EntityId → Memory → String × Memory

namespace Renamer

/-- What stands between an id and its suffix unless said otherwise. -/
def defaultInfix : String := "_user_created_"

/-- The length of a random suffix unless said otherwise. -/
def defaultSuffixLength : Nat := 6

/-- The length of a random suffix at most. -/
def maxSuffixLength : Nat := 32

/-- Suffixes have at least one and at most thirty-two digits. -/
def clampLength (length : Nat) : Nat := max 1 (min length maxSuffixLength)

/-- Numbers the proposals; the memory is the next number. -/
def sequential (separator : String) : Renamer Nat where
  name := "sequential"
  propose target n := (target.id ++ separator ++ toString n, n + 1)

/-- The first number of a sequence of proposals. -/
def firstNumber : Nat := 1

/-- Appends digits that are drawn anew for each proposal; the memory counts the draws and
`digits n` is what the `n`-th one yields. -/
def suffix (digits : Nat → String) (separator : String) (length : Nat) : Renamer Nat where
  name := "suffix"
  propose target n :=
    (target.id ++ separator ++ String.ofList ((digits n).toList.take (clampLength length)), n + 1)

/-- Suffix lengths stay within their limits. -/
theorem clampLength_bounds (length : Nat) :
    1 ≤ clampLength length ∧ clampLength length ≤ maxSuffixLength := by
  unfold clampLength maxSuffixLength
  omega

end Renamer

end BranchingStory
