import Mathlib.Data.List.Induction

/-!
# Registers

A register holds what was last written to it.  `lastWrite` reads its value off the log of what
happened to it, and `lastWrite_cases` finds the entry that wrote it.
-/

namespace Foundation

variable {E W : Type}

/-- The value that a log leaves in a register. -/
def lastWrite (writes : E → Option W) (initial : W) (log : List E) : W :=
  log.foldl (fun held entry => (writes entry).getD held) initial

variable {writes : E → Option W}

theorem lastWrite_append (initial : W) (log log' : List E) :
    lastWrite writes initial (log ++ log') = lastWrite writes (lastWrite writes initial log) log' :=
  List.foldl_append ..

theorem lastWrite_snoc (initial : W) (log : List E) (entry : E) :
    lastWrite writes initial (log ++ [entry]) =
      (writes entry).getD (lastWrite writes initial log) :=
  lastWrite_append ..

/-- A register was never written, or one entry wrote it and none behind it did. -/
theorem lastWrite_cases (initial : W) (log : List E) :
    lastWrite writes initial log = initial ∧ (∀ entry ∈ log, writes entry = none) ∨
      ∃ before entry after, log = before ++ entry :: after ∧
        writes entry = some (lastWrite writes initial log) ∧
          ∀ later ∈ after, writes later = none := by
  induction log using List.reverseRecOn with
  | nil => exact .inl ⟨rfl, fun _ inside => absurd inside List.not_mem_nil⟩
  | append_singleton log last ih =>
      rw [lastWrite_snoc]
      cases written : writes last with
      | some w =>
          exact .inr ⟨log, last, [], rfl, written, fun _ inside => absurd inside List.not_mem_nil⟩
      | none =>
          rw [Option.getD_none]
          have behind : ∀ {after : List E}, (∀ later ∈ after, writes later = none) →
              ∀ later ∈ after ++ [last], writes later = none := fun quiet =>
            List.forall_mem_append.mpr ⟨quiet, List.forall_mem_singleton.mpr written⟩
          rcases ih with ⟨kept, quiet⟩ | ⟨before, entry, after, rfl, wrote, quiet⟩
          · exact .inl ⟨kept, behind quiet⟩
          · exact .inr ⟨before, entry, after ++ [last], by simp, wrote, behind quiet⟩

end Foundation
