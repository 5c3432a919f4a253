/-!
# Computations in place

A computation reads and writes a state as it goes on, and what it has written stays written when it
fails after that. So it has to be proved of each computation that its failure leaves no trace. It
does when it comes out as a function on the state as a value, which has nothing to undo.
-/

namespace BranchingStory

/-- A computation on a state that is read and written in place, also if it fails. -/
abbrev InPlace (σ ε : Type) := ExceptT ε (StateM σ)

namespace InPlace

variable {σ ε α β : Type}

/-- What comes of a computation on a state, and the state that it leaves. -/
def on (s : σ) (x : InPlace σ ε α) : Except ε α × σ := x.run.run s

/-- What a computation makes of a copy of a state, which is dropped if it fails. -/
def onCopy (s : σ) (x : InPlace σ ε α) : Except ε σ :=
  match on s x with
  | (.ok _, t) => .ok t
  | (.error e, _) => .error e

/-- A computation does what a function does to the state as a value, and leaves the state as it was
where the function fails. -/
def Performs (x : InPlace σ ε Unit) (f : σ → Except ε σ) : Prop :=
  ∀ s, on s x =
    match f s with
    | .ok t => (.ok (), t)
    | .error e => (.error e, s)

variable (s : σ)

@[simp] theorem on_pure (a : α) : on s (pure a : InPlace σ ε α) = (.ok a, s) := rfl

@[simp] theorem on_throw (e : ε) : on s (throw e : InPlace σ ε α) = (.error e, s) := rfl

@[simp] theorem on_get : on s (get : InPlace σ ε σ) = (.ok s, s) := rfl

@[simp] theorem on_set (t : σ) : on s (set t : InPlace σ ε Unit) = (.ok (), t) := rfl

@[simp] theorem on_modify (f : σ → σ) : on s (modify f : InPlace σ ε Unit) = (.ok (), f s) := rfl

/-- A computation goes on from the state that the one before it leaves, unless that one fails. -/
theorem on_bind (x : InPlace σ ε α) (f : α → InPlace σ ε β) :
    on s (x >>= f) =
      match on s x with
      | (.ok a, t) => on t (f a)
      | (.error e, t) => (.error e, t) := by
  unfold on
  rw [ExceptT.run_bind, StateT.run_bind]
  rcases x.run.run s with ⟨e | a, t⟩ <;> rfl

end InPlace

end BranchingStory
