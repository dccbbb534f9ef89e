import Mathlib.Algebra.BigOperators.Ring.Finset
import Mathlib.Algebra.Order.BigOperators.Group.Finset
import SmartAccount.Foundation.Pool

/-!
# Potentials

A run comes to rest when every input that moves the state lowers a potential, and what the other
inputs add to it is accounted for.  The number of moves of a run is then bounded by what was fed
to it, however the inputs are chosen (`Pays.moved_add_le`), and from every state some moves lead
to rest (`Pays.exists_rest`).  The potential of a pool is the sum of the weights of its items.
-/

namespace Foundation

/-! ## Runs that come to rest -/

section Runs

variable {σ ι : Type} (step : σ → ι → σ) (moves : σ → ι → Bool)

/-- How many inputs of a run move the state. -/
def moved : σ → List ι → Nat
  | _, [] => 0
  | s, i :: inputs => (if moves s i then 1 else 0) + moved (step s i) inputs

/-- No input moves the state. -/
def AtRest (s : σ) : Prop := ∀ i, moves s i = false

/-- In states of this kind a move lowers the potential, and another input raises it by no more
than is fed. -/
structure Pays (kind : σ → Prop) (potential fed : σ → Nat) : Prop where
  kept : ∀ s i, kind s → kind (step s i)
  lower : ∀ s i, kind s → moves s i = true →
    potential (step s i) < potential s ∧ fed s ≤ fed (step s i)
  still : ∀ s i, kind s → moves s i = false →
    potential (step s i) + fed s ≤ potential s + fed (step s i)

namespace Pays

variable {step : σ → ι → σ} {moves : σ → ι → Bool} {kind : σ → Prop} {potential fed : σ → Nat}
  {s : σ}

/-- Every move is paid for. -/
theorem moved_add_le (pays : Pays step moves kind potential fed) (holds : kind s)
    (inputs : List ι) :
    moved step moves s inputs + potential (inputs.foldl step s) + fed s ≤
      potential s + fed (inputs.foldl step s) := by
  induction inputs generalizing s with
  | nil =>
      rw [moved, Nat.zero_add]
      exact Nat.le_refl _
  | cons i inputs ih =>
      have rest := ih (pays.kept s i holds)
      rw [moved, List.foldl_cons]
      cases moving : moves s i with
      | true =>
          obtain ⟨less, grows⟩ := pays.lower s i holds moving
          simp only [if_true]
          omega
      | false =>
          have paid := pays.still s i holds moving
          simp only [Bool.false_eq_true, if_false]
          omega

/-- Moving on for as long as anything moves ends at rest. -/
theorem exists_rest (pays : Pays step moves kind potential fed) (holds : kind s) :
    ∃ inputs : List ι, (∀ i ∈ inputs, ∃ s, moves s i = true) ∧
      AtRest moves (inputs.foldl step s) := by
  induction height : potential s using Nat.strong_induction_on generalizing s with
  | _ n ih =>
      by_cases rests : AtRest moves s
      · exact ⟨[], fun _ inside => absurd inside List.not_mem_nil, rests⟩
      · obtain ⟨i, rests⟩ := not_forall.mp rests
        have moving : moves s i = true := Bool.eq_true_of_not_eq_false rests
        have less := (pays.lower s i holds moving).1
        obtain ⟨inputs, all, ended⟩ := ih _ (height ▸ less) (pays.kept s i holds) rfl
        refine ⟨i :: inputs, fun j inside => ?_, ended⟩
        rcases List.mem_cons.mp inside with rfl | later
        · exact ⟨s, moving⟩
        · exact all j later

end Pays

end Runs

/-! ## The potential of a pool -/

namespace Pool

variable {α : Type} {weight weight' : α → Nat} {p q : Pool α}

/-- The weight of the item under an identifier, if there is one. -/
def weigh (weight : α → Nat) (p : Pool α) (id : Nat) : Nat := (p.get id).elim 0 weight

def total (weight : α → Nat) (p : Pool α) : Nat := ∑ id ∈ Finset.range p.next, p.weigh weight id

theorem weigh_of_get {id : Nat} {a : α} (stored : p.get id = some a) :
    p.weigh weight id = weight a := by
  rw [weigh, stored, Option.elim_some]

theorem weigh_of_absent {id : Nat} (absent : p.get id = none) : p.weigh weight id = 0 := by
  rw [weigh, absent, Option.elim_none]

theorem weigh_update {id : Nat} {a : α} (stored : p.get id = some a) (b : α) (id' : Nat) :
    (p.update id b).weigh weight id' = if id' = id then weight b else p.weigh weight id' := by
  rw [weigh, get_update, stored]
  split
  · rfl
  · rfl

theorem weigh_remove (p : Pool α) (id id' : Nat) :
    (p.remove id).weigh weight id' = if id' = id then 0 else p.weigh weight id' := by
  rw [weigh, get_remove]
  split
  · rfl
  · rfl

theorem total_lt (next : q.next = p.next) (below : ∀ id, q.weigh weight id ≤ p.weigh weight' id)
    {id : Nat} (less : q.weigh weight id < p.weigh weight' id) :
    q.total weight < p.total weight' := by
  have inside : id ∈ Finset.range p.next := by
    rw [Finset.mem_range]
    by_contra unused
    rw [weigh_of_absent (get_of_next_le (Nat.le_of_not_lt unused))] at less
    exact absurd less (Nat.not_lt_zero _)
  rw [total, total, next]
  exact Finset.sum_lt_sum (fun id _ => below id) ⟨id, inside, less⟩

theorem total_update_lt {id : Nat} {a b : α} (stored : p.get id = some a)
    (less : weight b < weight a) : (p.update id b).total weight < p.total weight := by
  have here : (p.update id b).weigh weight id < p.weigh weight id := by
    rw [weigh_update stored, if_pos rfl, weigh_of_get stored]
    exact less
  refine total_lt rfl (fun id' => ?_) here
  by_cases same : id' = id
  · subst same
    exact Nat.le_of_lt here
  · rw [weigh_update stored, if_neg same]

theorem total_create (p : Pool α) (a : α) :
    (p.create a).total weight = p.total weight + weight a := by
  rw [total, next_create, Finset.sum_range_succ, weigh_of_get (get_create_self p a)]
  refine congrArg (· + weight a) (Finset.sum_congr rfl fun id inside => ?_)
  rw [weigh, weigh, get_create, if_neg (Nat.ne_of_lt (Finset.mem_range.mp inside))]

theorem total_mono (next : q.next = p.next)
    (below : ∀ id, q.weigh weight id ≤ p.weigh weight' id) : q.total weight ≤ p.total weight' := by
  rw [total, total, next]
  exact Finset.sum_le_sum fun id _ => below id

theorem weigh_mono (below : ∀ id a, p.get id = some a → weight a ≤ weight' a) (id : Nat) :
    p.weigh weight id ≤ p.weigh weight' id := by
  cases stored : p.get id with
  | none =>
      rw [weigh_of_absent stored]
      exact Nat.zero_le _
  | some a =>
      rw [weigh_of_get stored, weigh_of_get stored]
      exact below id a stored

theorem le_total {id : Nat} {a : α} (stored : p.get id = some a) : weight a ≤ p.total weight := by
  have inside : id ∈ Finset.range p.next := Finset.mem_range.mpr (lt_next_of_get stored)
  rw [← @weigh_of_get _ weight _ _ _ stored, total]
  exact Finset.single_le_sum (f := p.weigh weight) (fun _ _ => Nat.zero_le _) inside

/-- Overwriting one item exchanges its weight for the new one's. -/
theorem total_update {id : Nat} {a : α} (stored : p.get id = some a) (b : α) :
    (p.update id b).total weight + weight a = p.total weight + weight b := by
  have inside : id ∈ Finset.range p.next := Finset.mem_range.mpr (lt_next_of_get stored)
  have rest : ∑ id' ∈ (Finset.range p.next).erase id, (p.update id b).weigh weight id' =
      ∑ id' ∈ (Finset.range p.next).erase id, p.weigh weight id' := by
    refine Finset.sum_congr rfl fun id' among => ?_
    rw [weigh_update stored, if_neg (Finset.ne_of_mem_erase among)]
  rw [total, total, next_update, ← Finset.add_sum_erase _ _ inside,
    ← Finset.add_sum_erase _ (p.weigh weight) inside, rest, weigh_update stored, if_pos rfl,
    weigh_of_get stored]
  omega

end Pool

end Foundation
