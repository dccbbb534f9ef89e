import Mathlib.Data.List.Basic

/-!
# Ranks of the items a predicate keeps

Filtering a list moves the items it keeps to earlier positions.  `rank` is where an item
goes: how many of the items before it are kept.  On kept items it is strictly increasing,
and the filtered list has each of them at its rank.
-/

namespace Foundation

variable {α : Type} {p : α → Bool} {l : List α} {i j : Nat} {a b : α}

/-- How many of the first `i` items are kept. -/
def rank (p : α → Bool) (l : List α) (i : Nat) : Nat := (l.take i).countP p

@[simp] theorem rank_zero : rank p l 0 = 0 := by
  simp [rank]

theorem rank_succ (here : l[i]? = some a) :
    rank p l (i + 1) = rank p l i + if p a then 1 else 0 := by
  obtain ⟨inside, rfl⟩ := List.getElem?_eq_some_iff.mp here
  rw [rank, List.take_succ_eq_append_getElem inside, List.countP_append, List.countP_singleton]
  rfl

theorem rank_mono (before : i ≤ j) : rank p l i ≤ rank p l j :=
  (List.take_sublist_take_left before).countP_le

/-- A kept item has a lower rank than every later position. -/
theorem rank_lt (here : l[i]? = some a) (kept : p a = true) (before : i < j) :
    rank p l i < rank p l j := by
  have next := @rank_succ _ p _ _ _ here
  rw [if_pos kept] at next
  have later : rank p l (i + 1) ≤ rank p l j := rank_mono before
  omega

/-- Kept items have different ranks. -/
theorem rank_inj (here : l[i]? = some a) (kept : p a = true) (there : l[j]? = some b)
    (kept' : p b = true) (same : rank p l i = rank p l j) : i = j := by
  rcases Nat.lt_trichotomy i j with before | eq | after
  · exact absurd same (Nat.ne_of_lt (rank_lt here kept before))
  · exact eq
  · exact absurd same.symm (Nat.ne_of_lt (rank_lt there kept' after))

/-- The filtered list has a kept item at its rank. -/
theorem getElem?_filter_rank (here : l[i]? = some a) (kept : p a = true) :
    (l.filter p)[rank p l i]? = some a := by
  induction l generalizing i with
  | nil => cases here
  | cons b rest ih =>
      cases i with
      | zero =>
          obtain rfl : b = a := Option.some.inj here
          rw [rank_zero, List.filter_cons_of_pos kept]
          rfl
      | succ i =>
          have later := ih here
          by_cases first : p b = true
          · rw [rank, List.take_succ_cons, List.countP_cons_of_pos first,
              List.filter_cons_of_pos first]
            exact later
          · rw [rank, List.take_succ_cons, List.countP_cons_of_neg first,
              List.filter_cons_of_neg first]
            exact later

/-- A rank does not depend on what comes later. -/
theorem rank_append (l' : List α) (inside : i ≤ l.length) : rank p (l ++ l') i = rank p l i := by
  rw [rank, List.take_append_of_le_length inside]
  rfl

end Foundation
