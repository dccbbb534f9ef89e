import Mathlib.Data.List.Nodup
import Mathlib.Data.List.Basic

/-!
# Iterable maps with swap removal

A map that keeps its entries in a vector: a new key is appended, an existing key
keeps its position, and a removed key leaves its position to the last entry.
`IterableMap` carries the fact that no key occurs twice, so that a lookup is
membership (`get_eq_some_iff`) and every later fact about the map is one of the
`get_*` equations.
-/

namespace Foundation

/-- A vector of entries with pairwise distinct keys. -/
structure IterableMap (K V : Type) where
  entries : List (K × V)
  nodup : (entries.map Prod.fst).Nodup

namespace IterableMap

variable {K V : Type}

/-! ## Entry lists -/

/-- Overwrite the value stored under `k`, in place. -/
def replaceEntry [DecidableEq K] (k : K) (v : V) (l : List (K × V)) : List (K × V) :=
  l.map fun e => if e.1 = k then (k, v) else e

/-- Move `last` into the position of `k`. -/
def moveInto [DecidableEq K] (k : K) (last : K × V) (l : List (K × V)) : List (K × V) :=
  l.map fun e => if e.1 = k then last else e

theorem keys_replaceEntry [DecidableEq K] (k : K) (v : V) (l : List (K × V)) :
    (replaceEntry k v l).map Prod.fst = l.map Prod.fst := by
  rw [replaceEntry, List.map_map]
  refine List.map_congr_left fun e _ => ?_
  by_cases same : e.1 = k <;> simp [same]

theorem keys_moveInto_subset [DecidableEq K] {k x : K} {last : K × V} {l : List (K × V)}
    (member : x ∈ (moveInto k last l).map Prod.fst) :
    x = last.1 ∨ (x ∈ l.map Prod.fst ∧ x ≠ k) := by
  simp only [moveInto, List.map_map, List.mem_map, Function.comp_apply] at member
  obtain ⟨e, inside, rfl⟩ := member
  by_cases same : e.1 = k
  · exact Or.inl (by rw [if_pos same])
  · rw [if_neg same]
    exact Or.inr ⟨List.mem_map_of_mem inside, same⟩

theorem nodup_moveInto [DecidableEq K] {k : K} {last : K × V} :
    ∀ {l : List (K × V)}, (l.map Prod.fst).Nodup → last.1 ∉ l.map Prod.fst →
      ((moveInto k last l).map Prod.fst).Nodup
  | [], _, _ => List.nodup_nil
  | e :: l, distinct, fresh => by
      simp only [List.map_cons, List.nodup_cons] at distinct
      simp only [List.map_cons, List.mem_cons, not_or] at fresh
      have tail := nodup_moveInto (k := k) distinct.2 fresh.2
      rw [moveInto, List.map_cons, List.map_cons, List.nodup_cons]
      refine ⟨fun member => ?_, tail⟩
      by_cases same : e.1 = k
      · -- the hole of `k` sits at the head, so the tail is left as it was
        rw [if_pos same] at member
        rcases List.mem_map.mp member with ⟨d, inside, key⟩
        rcases List.mem_map.mp inside with ⟨d', inside', rfl⟩
        have other : d'.1 ≠ k := fun h =>
          distinct.1 (by rw [same, ← h]; exact List.mem_map_of_mem inside')
        rw [if_neg other] at key
        exact fresh.2 (key ▸ List.mem_map_of_mem inside')
      · rw [if_neg same] at member
        rcases keys_moveInto_subset member with eq | ⟨inside, _⟩
        · exact fresh.1 eq.symm
        · exact distinct.1 inside

/-! ## Operations -/

/-- The map with no entry. -/
def empty : IterableMap K V := ⟨[], List.nodup_nil⟩

instance : Inhabited (IterableMap K V) := ⟨empty⟩

/-- The keys, in iteration order. -/
def keys (m : IterableMap K V) : List K := m.entries.map Prod.fst

/-- The number of entries. -/
def len (m : IterableMap K V) : Nat := m.entries.length

theorem eq_of_mem_of_mem {m : IterableMap K V} {k : K} {v w : V}
    (left : (k, v) ∈ m.entries) (right : (k, w) ∈ m.entries) : v = w := by
  have pair := List.inj_on_of_nodup_map m.nodup left right rfl
  exact (Prod.mk.inj pair).2

variable [DecidableEq K]

/-- The value stored under `k`. -/
def get (m : IterableMap K V) (k : K) : Option V :=
  (m.entries.find? fun e => e.1 = k).map Prod.snd

/-- Store `v` under `k`: in place for a known key, at the end for a new one. -/
def insert (m : IterableMap K V) (k : K) (v : V) : IterableMap K V :=
  if known : k ∈ m.entries.map Prod.fst then
    ⟨replaceEntry k v m.entries, by rw [keys_replaceEntry]; exact m.nodup⟩
  else
    ⟨m.entries ++ [(k, v)], by
      rw [List.map_append, List.nodup_append]
      refine ⟨m.nodup, List.nodup_singleton _, fun a inside b last => ?_⟩
      simp only [List.map_cons, List.map_nil, List.mem_singleton] at last
      exact fun same => known (last ▸ same ▸ inside)⟩

/-- Remove `k`; the last entry takes its position. -/
def remove (m : IterableMap K V) (k : K) : IterableMap K V :=
  match split : m.entries.getLast? with
  | none => m
  | some last =>
      if last.1 = k then
        ⟨m.entries.dropLast,
          (List.Sublist.map Prod.fst (List.dropLast_sublist m.entries)).nodup m.nodup⟩
      else if k ∈ m.entries.map Prod.fst then
        ⟨moveInto k last m.entries.dropLast, by
          have shape := List.dropLast_append_getLast? last split
          have distinct := m.nodup
          rw [← shape, List.map_append, List.nodup_append] at distinct
          exact nodup_moveInto distinct.1 fun inside =>
            distinct.2.2 _ inside last.1 (by simp) rfl⟩
      else m

/-- Remove every key of a list, one after the other. -/
def removeAll (m : IterableMap K V) (ks : List K) : IterableMap K V :=
  ks.foldl remove m

/-- Edit the value stored under `k`, if there is one. -/
def adjust (m : IterableMap K V) (k : K) (edit : V → V) : IterableMap K V :=
  match m.get k with
  | some v => m.insert k (edit v)
  | none => m

/-! ## Lookup is membership -/

theorem get_eq_some_iff {m : IterableMap K V} {k : K} {v : V} :
    m.get k = some v ↔ (k, v) ∈ m.entries := by
  rw [get, Option.map_eq_some_iff]
  constructor
  · rintro ⟨⟨k', v'⟩, found, rfl⟩
    have key : k' = k := by simpa using List.find?_some found
    exact key ▸ List.mem_of_find?_eq_some found
  · intro inside
    cases found : m.entries.find? (fun e => e.1 = k) with
    | none =>
        have absent := List.find?_eq_none.mp found (k, v) inside
        simp at absent
    | some e =>
        have key : e.1 = k := by simpa using List.find?_some found
        have stored := List.mem_of_find?_eq_some found
        have here : (k, e.2) ∈ m.entries := key ▸ stored
        exact ⟨e, rfl, eq_of_mem_of_mem here inside⟩

theorem mem_keys_iff {m : IterableMap K V} {k : K} : k ∈ m.keys ↔ m.get k ≠ none := by
  rw [keys, List.mem_map, Option.ne_none_iff_exists']
  constructor
  · rintro ⟨⟨k', v⟩, inside, rfl⟩
    exact ⟨v, get_eq_some_iff.mpr inside⟩
  · rintro ⟨v, stored⟩
    exact ⟨(k, v), get_eq_some_iff.mp stored, rfl⟩

theorem get_congr_of_mem {m n : IterableMap K V} {k : K}
    (same : ∀ v, (k, v) ∈ m.entries ↔ (k, v) ∈ n.entries) : m.get k = n.get k := by
  apply Option.ext
  intro v
  rw [get_eq_some_iff, get_eq_some_iff]
  exact same v

/-! ## The `get` equations -/

@[simp] theorem get_empty (k : K) : (empty : IterableMap K V).get k = none := rfl

@[simp] theorem get_insert_self (m : IterableMap K V) (k : K) (v : V) :
    (m.insert k v).get k = some v := by
  rw [get_eq_some_iff, insert]
  split
  · rename_i known
    obtain ⟨e, inside, key⟩ := List.mem_map.mp known
    exact List.mem_map.mpr ⟨e, inside, by rw [if_pos key]⟩
  · exact List.mem_append_right _ (List.mem_singleton_self _)

theorem get_insert_of_ne (m : IterableMap K V) {k k' : K} (v : V) (other : k' ≠ k) :
    (m.insert k v).get k' = m.get k' := by
  apply get_congr_of_mem
  intro w
  rw [insert]
  split
  · simp only [replaceEntry, List.mem_map]
    constructor
    · rintro ⟨e, inside, eq⟩
      by_cases same : e.1 = k
      · rw [if_pos same] at eq
        exact absurd (Prod.mk.inj eq).1.symm other
      · rw [if_neg same] at eq
        exact eq ▸ inside
    · intro inside
      exact ⟨(k', w), inside, if_neg other⟩
  · simp only [List.mem_append, List.mem_singleton, Prod.mk.injEq, other, false_and, or_false]

theorem get_insert (m : IterableMap K V) (k k' : K) (v : V) :
    (m.insert k v).get k' = if k' = k then some v else m.get k' := by
  by_cases same : k' = k
  · rw [if_pos same, same, get_insert_self]
  · rw [if_neg same, get_insert_of_ne m v same]

theorem adjust_of_get {m : IterableMap K V} {k : K} {v : V} (stored : m.get k = some v)
    (edit : V → V) : m.adjust k edit = m.insert k (edit v) := by
  rw [adjust, stored]

theorem get_adjust (m : IterableMap K V) (k k' : K) (edit : V → V) :
    (m.adjust k edit).get k' = if k' = k then (m.get k).map edit else m.get k' := by
  unfold adjust
  split
  · rename_i v stored
    rw [get_insert, stored, Option.map_some]
  · rename_i absent
    split
    · rename_i same
      rw [same, absent, Option.map_none]
    · rfl

theorem mem_remove {m : IterableMap K V} {k k' : K} {v : V} :
    (k', v) ∈ (m.remove k).entries ↔ k' ≠ k ∧ (k', v) ∈ m.entries := by
  unfold remove
  split
  · rename_i split
    have none := List.getLast?_eq_none_iff.mp split
    simp [none]
  · rename_i last split
    have shape := List.dropLast_append_getLast? last split
    have distinct := m.nodup
    rw [← shape, List.map_append, List.nodup_append] at distinct
    have separate : ∀ e ∈ m.entries.dropLast, e.1 ≠ last.1 := fun e inside =>
      distinct.2.2 e.1 (List.mem_map_of_mem inside) last.1 (by simp)
    have member : (k', v) ∈ m.entries ↔ (k', v) ∈ m.entries.dropLast ∨ (k', v) = last := by
      conv_lhs => rw [← shape]
      simp
    split
    · rename_i isLast
      rw [member, ← isLast]
      constructor
      · exact fun inside => ⟨separate _ inside, Or.inl inside⟩
      · rintro ⟨other, inside | rfl⟩
        · exact inside
        · exact absurd rfl other
    · rename_i notLast
      split
      · rename_i known
        rw [member]
        simp only [moveInto, List.mem_map]
        constructor
        · rintro ⟨e, inside, eq⟩
          by_cases same : e.1 = k
          · rw [if_pos same] at eq
            exact ⟨fun h => notLast (by rw [eq]; exact h), Or.inr eq.symm⟩
          · rw [if_neg same] at eq
            subst eq
            exact ⟨same, Or.inl inside⟩
        · rintro ⟨other, inside | rfl⟩
          · exact ⟨(k', v), inside, if_neg other⟩
          · obtain ⟨e, inside, key⟩ := List.mem_map.mp known
            rw [← shape, List.mem_append, List.mem_singleton] at inside
            rcases inside with inside | rfl
            · exact ⟨e, inside, if_pos key⟩
            · exact absurd key notLast
      · rename_i unknown
        exact ⟨fun inside => ⟨fun same => unknown (same ▸ List.mem_map_of_mem inside), inside⟩,
          fun both => both.2⟩

@[simp] theorem get_remove_self (m : IterableMap K V) (k : K) : (m.remove k).get k = none := by
  apply Option.eq_none_iff_forall_ne_some.mpr
  intro v stored
  exact (mem_remove.mp (get_eq_some_iff.mp stored)).1 rfl

theorem get_remove_of_ne (m : IterableMap K V) {k k' : K} (other : k' ≠ k) :
    (m.remove k).get k' = m.get k' := by
  apply get_congr_of_mem
  intro v
  simp only [mem_remove, ne_eq, other, not_false_eq_true, true_and]

theorem get_remove (m : IterableMap K V) (k k' : K) :
    (m.remove k).get k' = if k' = k then none else m.get k' := by
  by_cases same : k' = k
  · rw [if_pos same, same, get_remove_self]
  · rw [if_neg same, get_remove_of_ne m same]

theorem get_removeAll (ks : List K) (m : IterableMap K V) (k : K) :
    (m.removeAll ks).get k = if k ∈ ks then none else m.get k := by
  induction ks generalizing m with
  | nil => simp [removeAll]
  | cons k' ks ih =>
      have step := ih (m.remove k')
      rw [removeAll] at step ⊢
      rw [List.foldl_cons, step, get_remove]
      by_cases tail : k ∈ ks <;> by_cases head : k = k' <;> simp [tail, head]

/-- Removing an absent key leaves the map as it was. -/
theorem remove_of_absent {m : IterableMap K V} {k : K} (absent : m.get k = none) :
    m.remove k = m := by
  have fresh : k ∉ m.entries.map Prod.fst := fun inside => mem_keys_iff.mp inside absent
  unfold remove
  split
  · rfl
  · rename_i last split
    have other : last.1 ≠ k := by
      rintro rfl
      exact fresh (List.mem_map_of_mem (List.mem_of_getLast? split))
    rw [if_neg other, if_neg fresh]

/-- A map with an entry removed keeps only entries it had. -/
theorem get_remove_eq_some {m : IterableMap K V} {k k' : K} {v : V}
    (stored : (m.remove k).get k' = some v) : k' ≠ k ∧ m.get k' = some v := by
  rw [get_eq_some_iff, mem_remove] at stored
  exact ⟨stored.1, get_eq_some_iff.mpr stored.2⟩

/-! ## Inclusion -/

/-- Every entry of the one map is stored in the other. -/
def Within (m n : IterableMap K V) : Prop := ∀ k v, m.get k = some v → n.get k = some v

namespace Within

variable {m n : IterableMap K V}

theorem empty (n : IterableMap K V) : Within .empty n := fun _ _ stored => by cases stored

theorem insert (within : Within m n) (k : K) (v : V) : Within (m.insert k v) (n.insert k v) := by
  intro k' v' stored
  rw [get_insert] at stored ⊢
  split
  · rename_i same
    rwa [if_pos same] at stored
  · rename_i other
    rw [if_neg other] at stored
    exact within k' v' stored

theorem remove (within : Within m n) (k : K) : Within (m.remove k) n :=
  fun k' v' stored => within k' v' (get_remove_eq_some stored).2

theorem adjust (within : Within m n) (k : K) (edit : V → V) :
    Within (m.adjust k edit) (n.adjust k edit) := by
  intro k' v' stored
  rw [get_adjust] at stored ⊢
  split at stored
  · rename_i same
    obtain ⟨v, here, rfl⟩ := Option.map_eq_some_iff.mp stored
    rw [if_pos same, within k v here, Option.map_some]
  · rename_i other
    rw [if_neg other]
    exact within k' v' stored

end Within

end IterableMap

end Foundation
