import Mathlib.Data.List.Basic

/-!
# Replaying a log

A reader keeps its own state and folds a log into it (`replay`).  A machine `Follows` another
when what it added to its log leads every reader that copied the one to a copy of the other:
a reflexive and transitive relation, so that it is checked step by step and holds of whole
runs.
-/

namespace Foundation

variable {S E M : Type}

/-- Read a log, one entry after the other. -/
def replay (read : S → E → S) (s : S) (log : List E) : S := log.foldl read s

section Replay

variable {read : S → E → S}

@[simp] theorem replay_nil (s : S) : replay read s [] = s := rfl

@[simp] theorem replay_cons (s : S) (entry : E) (log : List E) :
    replay read s (entry :: log) = replay read (read s entry) log := rfl

theorem replay_append (s : S) (log log' : List E) :
    replay read s (log ++ log') = replay read (replay read s log) log' := List.foldl_append ..

/-- Entries that the reader skips. -/
theorem replay_of_skipped {log : List E} (skipped : ∀ entry ∈ log, ∀ s, read s entry = s) (s : S) :
    replay read s log = s := by
  induction log with
  | nil => rfl
  | cons entry log ih =>
      rw [replay_cons, skipped entry List.mem_cons_self]
      exact ih fun later inside => skipped later (List.mem_cons_of_mem _ inside)

end Replay

/-- What the second machine added to the log takes copies of the first to copies of it. -/
def Follows (read : S → E → S) (log : M → List E) (copies : S → M → Prop) (m m' : M) : Prop :=
  ∃ added, log m' = log m ++ added ∧ ∀ s, copies s m → copies (replay read s added) m'

namespace Follows

variable {read : S → E → S} {log : M → List E} {copies : S → M → Prop} {m m₁ m₂ m' : M}

theorem refl (m : M) : Follows read log copies m m :=
  ⟨[], (List.append_nil _).symm, fun _ copy => copy⟩

theorem trans (first : Follows read log copies m m₁) (second : Follows read log copies m₁ m') :
    Follows read log copies m m' := by
  obtain ⟨added, eq, leads⟩ := first
  obtain ⟨added', eq', leads'⟩ := second
  refine ⟨added ++ added', by rw [eq', eq, List.append_assoc], fun s copy => ?_⟩
  rw [replay_append]
  exact leads' _ (leads s copy)

/-- A machine that copies the same, behind entries that the reader skips. -/
theorem of_skipped {added : List E} (eq : log m' = log m ++ added)
    (skipped : ∀ entry ∈ added, ∀ s, read s entry = s) (same : ∀ s, copies s m → copies s m') :
    Follows read log copies m m' :=
  ⟨added, eq, fun s copy => (replay_of_skipped skipped s).symm ▸ same s copy⟩

theorem foldl {X : Type} {pass : M → X → M} (one : ∀ m x, Follows read log copies m (pass m x))
    (xs : List X) (m : M) : Follows read log copies m (xs.foldl pass m) := by
  induction xs generalizing m with
  | nil => exact refl m
  | cons x xs ih => exact (one m x).trans (ih (pass m x))

/-- A copy of the start, once it has read the whole log, is a copy of the end. -/
theorem replayed (follows : Follows read log copies m m') {s : S} (blank : log m = [])
    (copy : copies s m) : copies (replay read s (log m')) m' := by
  obtain ⟨added, eq, leads⟩ := follows
  rw [eq, blank]
  exact leads s copy

end Follows

end Foundation
