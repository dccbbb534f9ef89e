import Mathlib.Data.List.Basic

/-!
# Changes that settle out of order

A list of pending changes of a family of cells, each change about the cell of its key, if it
has one.  A change that no earlier one shares its cell with is in turn: it may be carried
out first, and what the whole list makes of a cell is still the same (`InTurn.foldl`).
-/

namespace Foundation

variable {α κ σ : Type}

/-- No earlier change is about the cell of the `n`-th. -/
def InTurn (key : α → Option κ) (changes : List α) (n : Nat) : Prop :=
  ∀ change ∈ changes[n]?, ∀ k ∈ key change, ∀ earlier ∈ changes.take n, key earlier ≠ some k

instance [DecidableEq κ] (key : α → Option κ) (changes : List α) (n : Nat) :
    Decidable (InTurn key changes n) :=
  inferInstanceAs (Decidable (∀ change ∈ changes[n]?, ∀ k ∈ key change,
    ∀ earlier ∈ changes.take n, key earlier ≠ some k))

/-- Changes of other cells leave a cell as it is. -/
theorem foldl_elsewhere {key : α → Option κ} {k : κ} {apply : σ → α → σ}
    (apart : ∀ cell change, key change ≠ some k → apply cell change = cell)
    {changes : List α} (others : ∀ change ∈ changes, key change ≠ some k) (cell : σ) :
    changes.foldl apply cell = cell := by
  induction changes generalizing cell with
  | nil => rfl
  | cons change changes ih =>
      rw [List.foldl_cons, apart cell change (others change List.mem_cons_self)]
      exact ih (fun later inside => others later (List.mem_cons_of_mem _ inside)) cell

/-- A change in turn may be carried out first. -/
theorem InTurn.foldl {key : α → Option κ} {k : κ} {apply : σ → α → σ}
    (apart : ∀ cell change, key change ≠ some k → apply cell change = cell)
    {changes : List α} {n : Nat} {change : α} (inTurn : InTurn key changes n)
    (found : changes[n]? = some change) (cell : σ) :
    (changes.eraseIdx n).foldl apply (apply cell change) = changes.foldl apply cell := by
  obtain ⟨inside, rfl⟩ := List.getElem?_eq_some_iff.mp found
  have split : changes = changes.take n ++ changes[n] :: changes.drop (n + 1) := by
    rw [← List.drop_eq_getElem_cons inside, List.take_append_drop]
  rw [List.eraseIdx_eq_take_drop_succ, List.foldl_append]
  conv_rhs => rw [split, List.foldl_append, List.foldl_cons]
  by_cases about : key changes[n] = some k
  · have others : ∀ earlier ∈ changes.take n, key earlier ≠ some k :=
      inTurn _ found k about
    rw [foldl_elsewhere apart others, foldl_elsewhere apart others]
  · rw [apart _ _ about, apart _ _ about]

end Foundation
