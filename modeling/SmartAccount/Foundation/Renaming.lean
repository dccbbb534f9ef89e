import SmartAccount.Foundation.IterableMap

/-!
# Maps under renamed keys

`Renames f g m n` says that `n` holds the entries of `m`, in the same order, under keys
renamed by `f` and with values translated by `g`.  Along an injective renaming the lookups
agree, and insertion and removal keep the two maps together, swap removal included.
-/

namespace Foundation

variable {K K' V V' : Type}

/-- The entries of `n` are those of `m`, renamed and translated. -/
def Renames (f : K → K') (g : V → V') (m : IterableMap K V) (n : IterableMap K' V') : Prop :=
  n.entries = m.entries.map fun e => (f e.1, g e.2)

namespace Renames

variable {f : K → K'} {g : V → V'} {m : IterableMap K V} {n : IterableMap K' V'}

theorem empty : Renames f g .empty .empty := rfl

theorem keys (renames : Renames f g m n) :
    n.entries.map Prod.fst = (m.entries.map Prod.fst).map f := by
  rw [renames, List.map_map, List.map_map]
  rfl

theorem mem_keys (renames : Renames f g m n) (injective : Function.Injective f) {k : K} :
    f k ∈ n.entries.map Prod.fst ↔ k ∈ m.entries.map Prod.fst := by
  rw [renames.keys, List.mem_map_of_injective injective]

variable [DecidableEq K] [DecidableEq K']

/-- A renamed key has the translated value. -/
theorem get (renames : Renames f g m n) (injective : Function.Injective f) (k : K) :
    n.get (f k) = (m.get k).map g := by
  apply Option.ext
  intro w
  rw [IterableMap.get_eq_some_iff, renames, List.mem_map, Option.map_eq_some_iff]
  constructor
  · rintro ⟨⟨k', v⟩, inside, eq⟩
    obtain ⟨same, rfl⟩ := Prod.mk.inj eq
    cases injective same
    exact ⟨v, IterableMap.get_eq_some_iff.mpr inside, rfl⟩
  · rintro ⟨v, stored, rfl⟩
    exact ⟨(k, v), IterableMap.get_eq_some_iff.mp stored, rfl⟩

theorem insert (renames : Renames f g m n) (injective : Function.Injective f) (k : K) (v : V) :
    Renames f g (m.insert k v) (n.insert (f k) (g v)) := by
  have entries : n.entries = _ := renames
  unfold Renames IterableMap.insert
  by_cases known : k ∈ m.entries.map Prod.fst
  · rw [dif_pos known, dif_pos ((renames.mem_keys injective).mpr known)]
    simp only [IterableMap.replaceEntry, entries, List.map_map]
    refine List.map_congr_left fun e _ => ?_
    by_cases same : e.1 = k
    · simp [same]
    · simp [same, injective.ne same]
  · rw [dif_neg known, dif_neg fun inside => known ((renames.mem_keys injective).mp inside)]
    simp only [entries, List.map_append, List.map_cons, List.map_nil]

theorem entries_remove {m : IterableMap K V} {last : K × V}
    (known : m.entries.getLast? = some last) (k : K) :
    (m.remove k).entries =
      if last.1 = k then m.entries.dropLast
      else if k ∈ m.entries.map Prod.fst then IterableMap.moveInto k last m.entries.dropLast
      else m.entries := by
  unfold IterableMap.remove
  split
  · rename_i empty
    cases empty.symm.trans known
  · rename_i last' known'
    cases known.symm.trans known'
    by_cases isLast : last.1 = k
    · rw [if_pos isLast, if_pos isLast]
    · rw [if_neg isLast, if_neg isLast]
      split <;> rfl

theorem entries_remove_of_empty {m : IterableMap K V} (empty : m.entries = []) (k : K) :
    (m.remove k).entries = [] := by
  unfold IterableMap.remove
  split
  · exact empty
  · rename_i last known
    rw [empty] at known
    cases known

theorem remove (renames : Renames f g m n) (injective : Function.Injective f) (k : K) :
    Renames f g (m.remove k) (n.remove (f k)) := by
  have entries : n.entries = _ := renames
  unfold Renames
  cases known : m.entries.getLast? with
  | none =>
      have empty := List.getLast?_eq_none_iff.mp known
      rw [empty, List.map_nil] at entries
      rw [entries_remove_of_empty empty, entries_remove_of_empty entries, List.map_nil]
  | some last =>
      have known' : n.entries.getLast? = some (f last.1, g last.2) := by
        rw [entries, List.getLast?_map, known, Option.map_some]
      rw [entries_remove known, entries_remove known', entries]
      simp only [← entries, renames.mem_keys injective, injective.eq_iff]
      split
      · rw [entries, List.map_dropLast]
      · split
        · simp only [entries, IterableMap.moveInto, ← List.map_dropLast, List.map_map]
          refine List.map_congr_left fun e _ => ?_
          by_cases same : e.1 = k
          · simp [same]
          · simp [same, injective.ne same]
        · exact entries

end Renames

end Foundation
