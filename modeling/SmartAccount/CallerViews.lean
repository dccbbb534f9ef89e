import SmartAccount.CallerWrites
import Mathlib.Data.List.Nodup
import Mathlib.Data.String.Basic

/-!
# What the simple sequencer shows a caller

`registered_steps_for` selects the entries under a caller's prefix and sorts them by creation
time and step id.  Where every step is stored under its own caller's key, the list has the
caller's steps and no others, so it is determined by what the caller finds step id by step id
(`registeredStepsFor_congr`), whatever else is in the map and in whatever order.
-/

namespace SmartAccount.SimpleSequencer

open Foundation

/-- What the views of the contract show of a registered step. -/
structure RegisteredStepView extends Step where
  createdAtMs : Nat

/-- `registered_step_view`. -/
def registeredStepView (yielded : RegisteredStep) : RegisteredStepView :=
  { yielded.call with createdAtMs := yielded.createdAtMs }

/-- The order of `registered_steps_for`: by creation time, then by step id. -/
def RegisteredStepView.notAfter (a b : RegisteredStepView) : Bool :=
  a.createdAtMs < b.createdAtMs || a.createdAtMs = b.createdAtMs && a.stepId ≤ b.stepId

namespace Sequencer

/-- The views of the entries under the caller's prefix, in the order of the map. -/
def stepsUnderPrefix (s : Sequencer) (callerId : AccountId) : List RegisteredStepView :=
  (s.contract.registeredSteps.entries.filter fun entry =>
    startsWith entry.1 (callerId.val ++ "#")).map fun entry => registeredStepView entry.2

/-- `registered_steps_for`. -/
def registeredStepsFor (s : Sequencer) (callerId : AccountId) : List RegisteredStepView :=
  (s.stepsUnderPrefix callerId).mergeSort RegisteredStepView.notAfter

end Sequencer

/-! ## The order -/

namespace RegisteredStepView

variable {a b c : RegisteredStepView}

theorem notAfter_iff : a.notAfter b = true ↔
    a.createdAtMs < b.createdAtMs ∨ a.createdAtMs = b.createdAtMs ∧ a.stepId ≤ b.stepId := by
  simp only [notAfter, Bool.or_eq_true, Bool.and_eq_true, decide_eq_true_eq]

theorem notAfter_trans (a b c : RegisteredStepView) (first : a.notAfter b = true)
    (second : b.notAfter c = true) : a.notAfter c = true := by
  rw [notAfter_iff] at first second ⊢
  rcases first with earlier | ⟨same, ordered⟩
  · rcases second with later | ⟨same, -⟩
    · exact .inl (Nat.lt_trans earlier later)
    · exact .inl (same ▸ earlier)
  · rcases second with later | ⟨same', ordered'⟩
    · exact .inl (same ▸ later)
    · exact .inr ⟨same.trans same', le_trans ordered ordered'⟩

theorem notAfter_total (a b : RegisteredStepView) : (a.notAfter b || b.notAfter a) = true := by
  rw [Bool.or_eq_true, notAfter_iff, notAfter_iff]
  rcases Nat.lt_trichotomy a.createdAtMs b.createdAtMs with earlier | same | later
  · exact .inl (.inl earlier)
  · rcases le_total a.stepId b.stepId with ordered | ordered
    · exact .inl (.inr ⟨same, ordered⟩)
    · exact .inr (.inr ⟨same.symm, ordered⟩)
  · exact .inr (.inl later)

/-- Two steps that may stand in either order have one id. -/
theorem stepId_eq (first : a.notAfter b = true) (second : b.notAfter a = true) :
    a.stepId = b.stepId := by
  rw [notAfter_iff] at first second
  rcases first with earlier | ⟨same, ordered⟩
  · rcases second with later | ⟨same, -⟩ <;> omega
  · rcases second with later | ⟨-, ordered'⟩
    · omega
    · exact le_antisymm ordered ordered'

end RegisteredStepView

/-! ## The list -/

namespace Owned

variable {all all' : List AccountId} {c : AccountId} {s t : Sequencer}

/-- A caller's step is stored under its own id. -/
theorem stepId_eq (owned : Owned all s) {stepId : String} {yielded : RegisteredStep}
    (registered : s.getStep c stepId = some yielded) : yielded.call.stepId = stepId := by
  obtain ⟨b, -, key⟩ := owned.steps _ _ registered
  exact (registeredStepKey_eq_iff.mp key).2.symm

/-- What the prefix selects is the caller's, under its own id. -/
theorem key_of_selected (owned : Owned all s) {entry : String × RegisteredStep}
    (inside : entry ∈ s.contract.registeredSteps.entries.filter fun entry =>
      startsWith entry.1 (c.val ++ "#")) :
    entry.1 = registeredStepKey c entry.2.call.stepId := by
  obtain ⟨stored, selected⟩ := List.mem_filter.mp inside
  obtain ⟨stepId, key⟩ := startsWith_iff.mp selected
  change entry.1 = registeredStepKey c stepId at key
  have registered : s.getStep c stepId = some entry.2 :=
    IterableMap.get_eq_some_iff.mpr (key ▸ stored)
  rw [owned.stepId_eq registered]
  exact key

/-- The prefix selects exactly the caller's steps. -/
theorem mem_stepsUnderPrefix (owned : Owned all s) {view : RegisteredStepView} :
    view ∈ s.stepsUnderPrefix c ↔
      (s.getStep c view.stepId).map registeredStepView = some view := by
  rw [Sequencer.stepsUnderPrefix, List.mem_map, Option.map_eq_some_iff]
  constructor
  · rintro ⟨entry, inside, rfl⟩
    have stored := (List.mem_filter.mp inside).1
    refine ⟨entry.2, IterableMap.get_eq_some_iff.mpr ?_, rfl⟩
    exact owned.key_of_selected inside ▸ stored
  · rintro ⟨yielded, registered, same⟩
    refine ⟨(_, yielded), List.mem_filter.mpr ⟨IterableMap.get_eq_some_iff.mp registered, ?_⟩, same⟩
    exact startsWith_iff.mpr ⟨view.stepId, rfl⟩

theorem nodup_stepsUnderPrefix (owned : Owned all s) (c : AccountId) :
    (s.stepsUnderPrefix c).Nodup := by
  refine List.Nodup.of_map (fun view => registeredStepKey c view.stepId) ?_
  rw [Sequencer.stepsUnderPrefix, List.map_map]
  have keys : ∀ entry ∈ s.contract.registeredSteps.entries.filter fun entry =>
      startsWith entry.1 (c.val ++ "#"),
      registeredStepKey c (registeredStepView entry.2).stepId = entry.1 :=
    fun entry inside => (owned.key_of_selected inside).symm
  refine (List.map_congr_left keys).symm ▸ ?_
  exact (List.filter_sublist.map Prod.fst).nodup s.contract.registeredSteps.nodup

/-- The list shows the same if the caller finds the same under each step id. -/
theorem registeredStepsFor_congr (owned : Owned all s) (owned' : Owned all' t)
    (same : ∀ stepId, (s.getStep c stepId).map registeredStepView =
      (t.getStep c stepId).map registeredStepView) :
    s.registeredStepsFor c = t.registeredStepsFor c := by
  have members : ∀ view, view ∈ s.stepsUnderPrefix c ↔ view ∈ t.stepsUnderPrefix c := by
    intro view
    rw [owned.mem_stepsUnderPrefix, owned'.mem_stepsUnderPrefix, same]
  have perm := (List.perm_ext_iff_of_nodup (owned.nodup_stepsUnderPrefix c)
    (owned'.nodup_stepsUnderPrefix c)).mpr members
  have sorted := fun views => List.pairwise_mergeSort RegisteredStepView.notAfter_trans
    RegisteredStepView.notAfter_total views
  refine List.Perm.eq_of_pairwise (fun a b inside inside' first second => ?_) (sorted _) (sorted _)
    ((List.mergeSort_perm _ _).trans (perm.trans (List.mergeSort_perm _ _).symm))
  -- Steps that the order does not tell apart have one id, and a caller has one step under it.
  have shown := owned.mem_stepsUnderPrefix.mp (List.mem_mergeSort.mp inside)
  have shown' := owned'.mem_stepsUnderPrefix.mp (List.mem_mergeSort.mp inside')
  rw [RegisteredStepView.stepId_eq first second, same] at shown
  exact Option.some.inj (shown.symm.trans shown')

end Owned

end SmartAccount.SimpleSequencer
