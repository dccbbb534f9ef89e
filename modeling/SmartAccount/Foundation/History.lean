import Mathlib.Data.List.Basic

/-!
# Histories

A history is the list of what happened so far, oldest first.  `Guarded rule t` says that
the rule allowed every event of `t` in view of the events before it, so it turns an
invariant about the present into a statement about the whole past.
-/

namespace Foundation

variable {α : Type}

/-- Every event was allowed by what came before it. -/
def Guarded (rule : α → List α → Prop) (t : List α) : Prop :=
  ∀ past event later, t = past ++ event :: later → rule event past

namespace Guarded

variable {rule rule' : α → List α → Prop} {t t' : List α}

theorem nil : Guarded rule [] := fun past event later eq => by
  cases past <;> cases eq

theorem earlier (guarded : Guarded rule t') (shorter : t <+: t') : Guarded rule t := by
  rintro past event later rfl
  obtain ⟨more, rfl⟩ := shorter
  exact guarded past event (later ++ more) (by simp)

/-- One more event has to be allowed by the whole history before it. -/
theorem snoc {event : α} : Guarded rule (t ++ [event]) ↔ Guarded rule t ∧ rule event t := by
  constructor
  · exact fun guarded => ⟨guarded.earlier (List.prefix_append ..), guarded t event [] rfl⟩
  · rintro ⟨guarded, allowed⟩ past event' later eq
    rcases List.eq_nil_or_concat later with rfl | ⟨later', last, rfl⟩
    · obtain ⟨rfl, same⟩ := List.append_inj' eq rfl
      cases same
      exact allowed
    · rw [List.concat_eq_append, ← List.cons_append, ← List.append_assoc] at eq
      obtain ⟨same, -⟩ := List.append_inj' eq rfl
      exact guarded past event' later' same

theorem mono (guarded : Guarded rule t)
    (weaker : ∀ event past, event ∈ t → rule event past → rule' event past) :
    Guarded rule' t := by
  rintro past event later rfl
  exact weaker event past (by simp) (guarded past event later rfl)

/-- Events may be added that the rule allows after any part of the longer history. -/
theorem extend {events : List α} (guarded : Guarded rule t)
    (allowed : ∀ event ∈ events, ∀ past, past <+: t ++ events → rule event past) :
    Guarded rule (t ++ events) := by
  induction events generalizing t with
  | nil => rwa [List.append_nil]
  | cons event events ih =>
      rw [List.append_cons] at allowed ⊢
      refine ih (snoc.mpr ⟨guarded, ?_⟩) fun e inside => allowed e (List.mem_cons_of_mem _ inside)
      exact allowed event (List.mem_cons_self ..) t
        ((List.prefix_append t [event]).trans (List.prefix_append ..))

/-- Events the rule says nothing about may be added freely. -/
theorem append {events : List α} (guarded : Guarded rule t)
    (free : ∀ event ∈ events, ∀ past, rule event past) : Guarded rule (t ++ events) :=
  guarded.extend fun event inside past _ => free event inside past

/-- A rule that more history can only satisfy better, and that says nothing about the events
a filter drops, need only be checked on what the filter keeps. -/
theorem of_filter {keep : α → Bool} (guarded : Guarded rule (t.filter keep))
    (larger : ∀ event past, rule event (past.filter keep) → rule event past)
    (silent : ∀ event past, keep event = false → rule event past) : Guarded rule t := by
  rintro past event later rfl
  cases kept : keep event with
  | true =>
      refine larger event past (guarded _ event (later.filter keep) ?_)
      rw [List.filter_append, List.filter_cons_of_pos kept]
  | false => exact silent event past kept

end Guarded

end Foundation
