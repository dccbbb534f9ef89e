import Mathlib.Data.List.Dedup
import SmartAccount.Foundation.IterableMap

/-!
# Order under swap removal

An `IterableMap` lists its keys in the order they came in until a removal lets the last key
jump over others.  `Jumps` says when a removal does that to the keys of a listing; while none
does, the listing is that of the log of insertions (`InOrder`), each key at its latest one.
-/

namespace Foundation

namespace IterableMap

variable {K V : Type} [DecidableEq K]

/-! ## Keys -/

theorem decide_mem_keys (m : IterableMap K V) (k : K) :
    decide (k ∈ m.keys) = (m.get k).isSome := by
  rw [Bool.eq_iff_iff, decide_eq_true_iff, mem_keys_iff]
  exact Option.isSome_iff_ne_none.symm

theorem keys_insert_known {m : IterableMap K V} {k : K} (v : V) (known : k ∈ m.keys) :
    (m.insert k v).keys = m.keys := by
  have stored : k ∈ m.entries.map Prod.fst := known
  rw [keys, insert, dif_pos stored]
  exact keys_replaceEntry ..

/-- A new key comes last. -/
theorem keys_insert_new {m : IterableMap K V} {k : K} (v : V) (fresh : k ∉ m.keys) :
    (m.insert k v).keys = m.keys ++ [k] := by
  have absent : k ∉ m.entries.map Prod.fst := fresh
  rw [keys, insert, dif_neg absent]
  exact List.map_append

theorem keys_moveInto (k : K) (last : K × V) (l : List (K × V)) :
    (moveInto k last l).map Prod.fst =
      (l.map Prod.fst).map fun key => if key = k then last.1 else key := by
  rw [moveInto, List.map_map, List.map_map]
  refine List.map_congr_left fun e _ => ?_
  by_cases same : e.1 = k <;> simp [same]

theorem remove_of_not_mem {m : IterableMap K V} {k : K} (fresh : k ∉ m.keys) : m.remove k = m :=
  remove_of_absent (not_not.mp fun stored => fresh (mem_keys_iff.mpr stored))

theorem keys_remove_last {m : IterableMap K V} {k : K} {before : List K}
    (keys_eq : m.keys = before ++ [k]) : (m.remove k).keys = before := by
  have shape := congrArg List.getLast? keys_eq
  rw [keys, List.getLast?_map, List.getLast?_concat, Option.map_eq_some_iff] at shape
  obtain ⟨e, last, rfl⟩ := shape
  have front := congrArg List.dropLast keys_eq
  rw [keys, ← List.map_dropLast, List.dropLast_concat] at front
  unfold remove
  split
  · rename_i none
    rw [last] at none
    cases none
  · rename_i e' last'
    rw [last] at last'
    cases last'
    rw [if_pos rfl]
    exact front

/-- The last key takes the place of the removed one. -/
theorem keys_remove_middle {m : IterableMap K V} {k last : K} {before between : List K}
    (keys_eq : m.keys = before ++ k :: (between ++ [last])) :
    (m.remove k).keys = before ++ last :: between := by
  have split : m.keys = (before ++ k :: between) ++ [last] := by
    rw [keys_eq, List.append_assoc, List.cons_append]
  have distinct : ((before ++ k :: between) ++ [last]).Nodup := split ▸ m.nodup
  obtain ⟨distinct, -, apart⟩ := List.nodup_append.mp distinct
  have other : last ≠ k := fun same =>
    apart k (List.mem_append_right _ List.mem_cons_self) last List.mem_cons_self same.symm
  have absent : k ∉ before ∧ k ∉ between := by
    refine ⟨fun early => ?_, (List.nodup_cons.mp (List.nodup_append.mp distinct).2.1).1⟩
    exact List.disjoint_of_nodup_append distinct early List.mem_cons_self
  have shape := congrArg List.getLast? split
  rw [keys, List.getLast?_map, List.getLast?_concat, Option.map_eq_some_iff] at shape
  obtain ⟨e, last_eq, rfl⟩ := shape
  have front := congrArg List.dropLast split
  rw [keys, ← List.map_dropLast, List.dropLast_concat] at front
  have known : k ∈ m.entries.map Prod.fst := by
    show k ∈ m.keys
    rw [keys_eq]
    exact List.mem_append_right _ List.mem_cons_self
  have stays : ∀ l : List K, k ∉ l → (l.map fun key => if key = k then e.1 else key) = l := by
    intro l fresh
    refine (List.map_congr_left fun key inside => if_neg ?_).trans (List.map_id _)
    rintro rfl
    exact fresh inside
  unfold remove
  split
  · rename_i none
    rw [last_eq] at none
    cases none
  · rename_i e' last'
    rw [last_eq] at last'
    cases last'
    rw [if_neg other, if_pos known]
    show (moveInto k e m.entries.dropLast).map Prod.fst = _
    rw [keys_moveInto, front, List.map_append, List.map_cons, stays _ absent.1,
      stays _ absent.2, if_pos rfl]

/-! ## Jumps -/

/-- Removing `k` moves a listed key from the end over another one. -/
def Jumps (listed : K → Bool) (m : IterableMap K V) (k : K) : Prop :=
  ∃ before between last, m.keys = before ++ k :: (between ++ [last]) ∧ listed last = true ∧
    ∃ key ∈ between, listed key = true

/-- The removals make no listed key jump. -/
def JumpFree (listed : K → Bool) : IterableMap K V → List K → Prop
  | _, [] => True
  | m, k :: ks => ¬ Jumps listed m k ∧ JumpFree listed (m.remove k) ks

/-- Two listed keys or more follow `k`, the last one of them at the end. -/
def jumpsAfter (listed : K → Bool) (k : K) (keys : List K) : Bool :=
  match (keys.dropWhile fun key => key ≠ k).tail.reverse with
  | [] => false
  | last :: between => listed last && between.any listed

theorem jumps_iff {listed : K → Bool} {m : IterableMap K V} {k : K} :
    Jumps listed m k ↔ jumpsAfter listed k m.keys = true := by
  constructor
  · rintro ⟨before, between, last, keys_eq, shown, key, inside, listedKey⟩
    have distinct : (before ++ k :: (between ++ [last])).Nodup := keys_eq ▸ m.nodup
    have early : ∀ key ∈ before, decide (key ≠ k) = true := fun key inside =>
      decide_eq_true fun same =>
        List.disjoint_of_nodup_append distinct inside (same ▸ List.mem_cons_self)
    have rest : (m.keys.dropWhile fun key => key ≠ k) = k :: (between ++ [last]) := by
      rw [keys_eq, List.dropWhile_append_of_pos early, List.dropWhile_cons_of_neg (by simp)]
    rw [jumpsAfter, rest, List.tail_cons, List.reverse_concat]
    show (listed last && between.reverse.any listed) = true
    rw [shown, Bool.true_and, List.any_reverse, List.any_eq_true]
    exact ⟨key, inside, listedKey⟩
  · intro jumps
    unfold jumpsAfter at jumps
    split at jumps
    · cases jumps
    · rename_i last between tail
      obtain ⟨shown, key, inside, listedKey⟩ : listed last = true ∧ ∃ key ∈ between,
          listed key = true := by simpa using jumps
      have split := List.takeWhile_append_dropWhile (p := fun key => decide (key ≠ k)) (l := m.keys)
      rcases dropped : m.keys.dropWhile fun key => decide (key ≠ k) with _ | ⟨first, rest⟩
      · rw [dropped] at tail
        cases tail
      · have stops := List.head_dropWhile_not (fun key => decide (key ≠ k)) (l := m.keys)
          (by rw [dropped]; exact List.cons_ne_nil _ _)
        simp only [dropped, List.head_cons, decide_eq_false_iff_not, not_not] at stops
        rw [dropped, List.tail_cons, List.reverse_eq_cons_iff] at tail
        rw [dropped, stops, tail] at split
        exact ⟨_, between.reverse, last, split.symm, shown, key, List.mem_reverse.mpr inside,
          listedKey⟩

instance (listed : K → Bool) (m : IterableMap K V) (k : K) : Decidable (Jumps listed m k) :=
  decidable_of_iff _ jumps_iff.symm

instance decidableJumpFree (listed : K → Bool) :
    (m : IterableMap K V) → (ks : List K) → Decidable (JumpFree listed m ks)
  | _, [] => isTrue trivial
  | m, k :: ks =>
    have := decidableJumpFree listed (m.remove k) ks
    inferInstanceAs (Decidable (¬ Jumps listed m k ∧ JumpFree listed (m.remove k) ks))

theorem keys_remove_filter {listed : K → Bool} {m : IterableMap K V} {k : K}
    (steady : ¬ Jumps listed m k) :
    (m.remove k).keys.filter listed = (m.keys.filter listed).filter fun key => key ≠ k := by
  rw [List.filter_comm]
  by_cases known : k ∈ m.keys
  · obtain ⟨before, after, keys_eq⟩ := List.append_of_mem known
    have distinct : (before ++ k :: after).Nodup := keys_eq ▸ m.nodup
    have without : m.keys.filter (fun key => key ≠ k) = before ++ after := by
      have apart : ∀ l : List K, k ∉ l → l.filter (fun key => key ≠ k) = l := fun l fresh =>
        List.filter_eq_self.mpr fun key inside => decide_eq_true fun same => fresh (same ▸ inside)
      have early : k ∉ before := fun inside =>
        List.disjoint_of_nodup_append distinct inside List.mem_cons_self
      rw [keys_eq, List.filter_append, List.filter_cons_of_neg (by simp), apart _ early,
        apart _ (List.nodup_cons.mp (List.nodup_append.mp distinct).2.1).1]
    rw [without]
    rcases List.eq_nil_or_concat' after with rfl | ⟨between, last, rfl⟩
    · rw [keys_remove_last keys_eq, List.append_nil]
    · rw [keys_remove_middle keys_eq, List.filter_append, List.filter_append, List.filter_append,
        List.append_cancel_left_eq]
      cases shown : listed last with
      | false => simp [shown]
      | true =>
          have none : between.filter listed = [] :=
            List.filter_eq_nil_iff.mpr fun key inside listedKey =>
              steady ⟨before, between, last, keys_eq, shown, key, inside, listedKey⟩
          rw [List.filter_cons_of_pos shown, none, List.nil_append,
            List.filter_cons_of_pos shown, List.filter_nil]
  · rw [remove_of_not_mem known]
    refine congrArg _ (List.filter_eq_self.mpr fun key inside => decide_eq_true ?_).symm
    rintro rfl
    exact known inside

theorem keys_removeAll_filter {listed : K → Bool} {m : IterableMap K V} {ks : List K}
    (steady : JumpFree listed m ks) :
    (m.removeAll ks).keys.filter listed = (m.keys.filter listed).filter fun key => key ∉ ks := by
  induction ks generalizing m with
  | nil => simp [removeAll]
  | cons k ks ih =>
      obtain ⟨stays, steady⟩ := steady
      have rest := ih steady
      rw [keys_remove_filter stays, List.filter_filter] at rest
      refine rest.trans (List.filter_congr fun key _ => ?_)
      rw [← Bool.decide_and, decide_eq_decide, List.mem_cons, not_or]
      exact And.comm

theorem mem_keys_removeAll {m : IterableMap K V} {ks : List K} {key : K} :
    key ∈ (m.removeAll ks).keys ↔ key ∈ m.keys ∧ key ∉ ks := by
  rw [mem_keys_iff, get_removeAll, mem_keys_iff]
  by_cases removed : key ∈ ks <;> simp [removed]

/-! ## Listings in order -/

/-- A list with an element appended again names it only there. -/
theorem dedup_concat (l : List K) (a : K) :
    (l ++ [a]).dedup = (l.dedup.filter fun b => b ≠ a) ++ [a] := by
  induction l with
  | nil => rfl
  | cons b l ih =>
      rw [List.cons_append]
      by_cases later : b ∈ l
      · rw [List.dedup_cons_of_mem (List.mem_append_left _ later), ih, List.dedup_cons_of_mem later]
      · rw [List.dedup_cons_of_notMem later]
        by_cases same : b = a
        · have last : b ∈ l ++ [a] := List.mem_append_right _ (List.mem_singleton.mpr same)
          rw [List.dedup_cons_of_mem last, ih, List.filter_cons_of_neg (by simp [same])]
        · have only : b ∉ l ++ [a] := fun inside =>
            (List.mem_append.mp inside).elim later fun last => same (List.mem_singleton.mp last)
          rw [List.dedup_cons_of_notMem only, ih, List.filter_cons_of_pos (by simp [same]),
            List.cons_append]

/-- The listed keys stand in the order of the log, each at its latest entry. -/
def InOrder (listed : K → Bool) (log : List K) (m : IterableMap K V) : Prop :=
  m.keys.filter listed = (log.filter listed).dedup.filter fun key => key ∈ m.keys

variable {listed : K → Bool} {log : List K} {m : IterableMap K V}

theorem InOrder.empty : InOrder listed [] (empty : IterableMap K V) := rfl

theorem InOrder.of_keys {m' : IterableMap K V} (inOrder : InOrder listed log m)
    (same : m'.keys = m.keys) : InOrder listed log m' := by
  rw [InOrder, same]
  exact inOrder

/-- A new key goes to the end of its listing. -/
theorem InOrder.append {k : K} (inOrder : InOrder listed log m) (v : V) (fresh : k ∉ m.keys) :
    InOrder listed (log ++ [k]) (m.insert k v) := by
  rw [InOrder, keys_insert_new v fresh, List.filter_append, List.filter_append, inOrder]
  cases shown : listed k with
  | false =>
      rw [List.filter_cons_of_neg (by simp [shown]), List.filter_nil, List.append_nil,
        List.append_nil]
      refine List.filter_congr fun key inside => decide_eq_decide.mpr ?_
      rw [List.mem_append, List.mem_singleton]
      refine ⟨.inl, fun either => either.resolve_right ?_⟩
      rintro rfl
      have hidden := List.of_mem_filter (List.mem_dedup.mp inside)
      rw [shown] at hidden
      cases hidden
  | true =>
      rw [List.filter_cons_of_pos shown, List.filter_nil, dedup_concat, List.filter_append,
        List.filter_cons_of_pos (by simp), List.filter_nil, List.append_cancel_right_eq,
        List.filter_filter]
      refine List.filter_congr fun key _ => ?_
      rw [← Bool.decide_and, decide_eq_decide, List.mem_append, List.mem_singleton]
      constructor
      · exact fun inside => ⟨.inl inside, fun same => fresh (same ▸ inside)⟩
      · exact fun ⟨either, other⟩ => either.resolve_right other

/-- Removals that make no remaining key of the listing jump keep its order. -/
theorem InOrder.removeAll {ks : List K} (inOrder : InOrder listed log m)
    (steady : JumpFree (fun key => listed key && key ∉ ks) m ks) :
    InOrder listed log (m.removeAll ks) := by
  have remains : (m.removeAll ks).keys.filter listed =
      (m.removeAll ks).keys.filter fun key => listed key && key ∉ ks := by
    refine List.filter_congr fun key inside => ?_
    rw [decide_eq_true (mem_keys_removeAll.mp inside).2, Bool.and_true]
  have before : (m.keys.filter fun key => listed key && key ∉ ks) =
      (m.keys.filter listed).filter fun key => key ∉ ks := by
    rw [List.filter_filter]
    exact List.filter_congr fun key _ => Bool.and_comm ..
  rw [InOrder, remains, keys_removeAll_filter steady, before, inOrder, List.filter_filter,
    List.filter_filter]
  refine List.filter_congr fun key _ => ?_
  simp only [← Bool.decide_and, decide_eq_decide, mem_keys_removeAll]
  constructor
  · exact fun ⟨⟨gone, _⟩, inside⟩ => ⟨inside, gone⟩
  · exact fun ⟨inside, gone⟩ => ⟨⟨gone, gone⟩, inside⟩

end IterableMap

end Foundation
