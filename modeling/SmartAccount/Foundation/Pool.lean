import SmartAccount.Foundation.IterableMap

/-!
# Pools of identified items

A pool hands out a fresh identifier for every item it creates and never reuses one:
`create` stores under `next`, and the field `fresh` keeps every stored identifier
below it.
-/

namespace Foundation

/-- Items under identifiers that were each handed out once. -/
structure Pool (α : Type) where
  items : IterableMap Nat α
  next : Nat
  fresh : ∀ id a, items.get id = some a → id < next

namespace Pool

variable {α : Type}

def empty : Pool α := ⟨.empty, 0, fun _ _ stored => by cases stored⟩

def get (p : Pool α) (id : Nat) : Option α := p.items.get id

/-- Store a new item under the next identifier. -/
def create (p : Pool α) (a : α) : Pool α where
  items := p.items.insert p.next a
  next := p.next + 1
  fresh id b stored := by
    rw [IterableMap.get_insert] at stored
    split at stored
    · rename_i same
      exact same ▸ Nat.lt_succ_self _
    · exact Nat.lt_succ_of_lt (p.fresh id b stored)

/-- Overwrite an item that is in the pool. -/
def update (p : Pool α) (id : Nat) (a : α) : Pool α where
  items := if (p.items.get id).isSome then p.items.insert id a else p.items
  next := p.next
  fresh id' b stored := by
    split at stored
    · rename_i present
      rw [IterableMap.get_insert] at stored
      split at stored
      · rename_i same
        obtain ⟨c, known⟩ := Option.isSome_iff_exists.mp present
        exact same ▸ p.fresh id c known
      · exact p.fresh id' b stored
    · exact p.fresh id' b stored

def remove (p : Pool α) (id : Nat) : Pool α where
  items := p.items.remove id
  next := p.next
  fresh id' b stored := p.fresh id' b (IterableMap.get_remove_eq_some stored).2

theorem lt_next_of_get {p : Pool α} {id : Nat} {a : α} (stored : p.get id = some a) :
    id < p.next := p.fresh id a stored

theorem get_of_next_le {p : Pool α} {id : Nat} (unused : p.next ≤ id) : p.get id = none := by
  cases stored : p.get id with
  | none => rfl
  | some a => exact absurd (lt_next_of_get stored) (Nat.not_lt.mpr unused)

theorem get_next (p : Pool α) : p.get p.next = none := get_of_next_le (Nat.le_refl _)

@[simp] theorem get_empty (id : Nat) : (empty : Pool α).get id = none := rfl

@[simp] theorem next_create (p : Pool α) (a : α) : (p.create a).next = p.next + 1 := rfl

@[simp] theorem next_update (p : Pool α) (id : Nat) (a : α) : (p.update id a).next = p.next := rfl

@[simp] theorem next_remove (p : Pool α) (id : Nat) : (p.remove id).next = p.next := rfl

theorem get_create (p : Pool α) (a : α) (id : Nat) :
    (p.create a).get id = if id = p.next then some a else p.get id :=
  IterableMap.get_insert _ _ _ _

@[simp] theorem get_create_self (p : Pool α) (a : α) : (p.create a).get p.next = some a := by
  rw [get_create, if_pos rfl]

theorem get_create_of_get {p : Pool α} {id : Nat} {a b : α} (stored : p.get id = some b) :
    (p.create a).get id = some b := by
  rw [get_create, if_neg (Nat.ne_of_lt (lt_next_of_get stored)), stored]

theorem get_update (p : Pool α) (id id' : Nat) (a : α) :
    (p.update id a).get id' = if id' = id then (p.get id).map fun _ => a else p.get id' := by
  show (if (p.items.get id).isSome then p.items.insert id a else p.items).get id' =
    if id' = id then (p.items.get id).map fun _ => a else p.items.get id'
  cases present : p.items.get id with
  | none =>
      simp only [Option.isSome_none, Bool.false_eq_true, if_false, Option.map_none]
      split
      · rename_i same
        rw [same, present]
      · rfl
  | some b =>
      simp only [Option.isSome_some, if_true, Option.map_some]
      exact IterableMap.get_insert _ _ _ _

theorem get_update_self {p : Pool α} {id : Nat} {a b : α} (stored : p.get id = some b) :
    (p.update id a).get id = some a := by
  rw [get_update, if_pos rfl, stored, Option.map_some]

theorem get_update_of_ne (p : Pool α) {id id' : Nat} (a : α) (other : id' ≠ id) :
    (p.update id a).get id' = p.get id' := by
  rw [get_update, if_neg other]

theorem get_remove (p : Pool α) (id id' : Nat) :
    (p.remove id).get id' = if id' = id then none else p.get id' :=
  IterableMap.get_remove _ _ _

end Pool

end Foundation
