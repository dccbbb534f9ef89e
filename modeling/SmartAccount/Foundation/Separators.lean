import Mathlib.Data.List.Basic

/-!
# Lists cut by separators

`separate` writes a list with a separator before the places that a test picks.  Where it picks
every `k`-th place behind a leading group, the separators are those between full groups of `k`
(`separate_groups`), and the groups are read back by splitting (`Cut.of_groups`).
-/

namespace Foundation

variable {α : Type} {sep : α} {k : Nat}

/-- The list from place `i` on, with the separator before each place that `cut` picks. -/
def separate (sep : α) (cut : Nat → Bool) : Nat → List α → List α
  | _, [] => []
  | i, a :: as =>
      if cut i then sep :: a :: separate sep cut (i + 1) as else a :: separate sep cut (i + 1) as

/-- The separators of `out` cut the list into full groups of `k` behind a nonempty leading
group of at most `k`. -/
structure Cut [DecidableEq α] (sep : α) (k : Nat) (whole out : List α) : Prop where
  whole : out.filter (· ≠ sep) = whole
  groups : ∃ lead groups, out.splitOn sep = lead :: groups ∧ 0 < lead.length ∧ lead.length ≤ k ∧
    ∀ group ∈ groups, group.length = k

variable {cut : Nat → Bool} {i : Nat} {as bs : List α}

theorem separate_append :
    separate sep cut i (as ++ bs) =
      separate sep cut i as ++ separate sep cut (i + as.length) bs := by
  induction as generalizing i with
  | nil => rfl
  | cons a as ih =>
      have shift : i + (a :: as).length = i + 1 + as.length := by
        rw [List.length_cons]
        omega
      rw [List.cons_append, separate, separate, ih, shift]
      split <;> rfl

theorem separate_uncut (uncut : ∀ j, i ≤ j → j < i + as.length → cut j = false) :
    separate sep cut i as = as := by
  induction as generalizing i with
  | nil => rfl
  | cons a as ih =>
      rw [List.length_cons] at uncut
      have later := @ih (i + 1) fun j after before => uncut j (by omega) (by omega)
      rw [separate, uncut i (Nat.le_refl i) (by omega), later]
      rfl

/-- A list with a cut only at its start. -/
theorem separate_group (nonempty : as ≠ []) (first : cut i = true)
    (uncut : ∀ j, i < j → j < i + as.length → cut j = false) :
    separate sep cut i as = sep :: as := by
  cases as with
  | nil => exact absurd rfl nonempty
  | cons a as =>
      rw [List.length_cons] at uncut
      have later := @separate_uncut _ sep cut (i + 1) as
        fun j after before => uncut j (by omega) (by omega)
      rw [separate, first, later]
      rfl

/-- Cuts at every `k`-th place stand before the groups of `k`. -/
theorem separate_groups {groups : List (List α)} (positive : 0 < k)
    (full : ∀ group ∈ groups, group.length = k)
    (cuts : ∀ j, j < groups.flatten.length → cut (i + j) = decide (k ∣ j)) :
    separate sep cut i groups.flatten = (groups.map (sep :: ·)).flatten := by
  induction groups generalizing i with
  | nil => rfl
  | cons group groups ih =>
      have size := full group List.mem_cons_self
      rw [List.flatten_cons, List.length_append, size] at cuts
      have head : separate sep cut i group = sep :: group := by
        refine separate_group (List.ne_nil_of_length_pos (size ▸ positive)) ?_ ?_
        · exact (cuts 0 (by omega)).trans (decide_eq_true (Nat.dvd_zero k))
        · intro j after before
          obtain ⟨d, rfl⟩ := Nat.exists_eq_add_of_lt after
          rw [Nat.add_assoc, cuts (d + 1) (by omega), decide_eq_false_iff_not]
          exact Nat.not_dvd_of_pos_of_lt (Nat.succ_pos d) (by omega)
      have tail := @ih (i + k) (fun other inside => full other (List.mem_cons_of_mem _ inside)) (by
        intro j before
        rw [Nat.add_assoc, cuts (k + j) (by omega), decide_eq_decide]
        exact Nat.dvd_add_right (Nat.dvd_refl k))
      rw [List.flatten_cons, separate_append, head, size, tail, List.map_cons, List.flatten_cons]

/-- A list of whole groups is their concatenation. -/
theorem exists_groups (whole : k ∣ as.length) :
    ∃ groups : List (List α), groups.flatten = as ∧ ∀ group ∈ groups, group.length = k := by
  obtain ⟨count, size⟩ := whole
  induction count generalizing as with
  | zero =>
      have empty : as = [] := List.length_eq_zero_iff.mp size
      exact ⟨[], empty.symm, fun _ inside => absurd inside List.not_mem_nil⟩
  | succ count ih =>
      rw [Nat.mul_succ] at size
      obtain ⟨groups, rest, full⟩ := @ih (as.drop k) (by rw [List.length_drop]; omega)
      refine ⟨as.take k :: groups, ?_, List.forall_mem_cons.mpr ⟨?_, full⟩⟩
      · rw [List.flatten_cons, rest, List.take_append_drop]
      · rw [List.length_take]
        omega

theorem intercalate_eq {lead : List α} {groups : List (List α)} :
    [sep].intercalate (lead :: groups) = lead ++ (groups.map (sep :: ·)).flatten := by
  induction groups generalizing lead with
  | nil => simp
  | cons group groups ih =>
      rw [List.intercalate_cons_cons, ih, List.map_cons, List.flatten_cons, List.append_assoc]
      rfl

theorem filter_intercalate [DecidableEq α] {groups : List (List α)}
    (absent : ∀ group ∈ groups, sep ∉ group) :
    ([sep].intercalate groups).filter (· ≠ sep) = groups.flatten := by
  have keep : ∀ group ∈ groups, group.filter (· ≠ sep) = group := fun group inside =>
    List.filter_eq_self.mpr fun a member =>
      decide_eq_true fun same => absent group inside (same ▸ member)
  induction groups with
  | nil => rfl
  | cons group groups ih =>
      have rest := ih (fun other inside => absent other (List.mem_cons_of_mem _ inside))
        (fun other inside => keep other (List.mem_cons_of_mem _ inside))
      cases groups with
      | nil =>
          rw [List.intercalate_singleton, keep group List.mem_cons_self, List.flatten_singleton]
      | cons next groups =>
          rw [List.intercalate_cons_cons, List.filter_append, List.filter_append, rest,
            keep group List.mem_cons_self, List.flatten_cons]
          simp

/-- Cuts at every `k`-th place behind a leading group cut the list. -/
theorem Cut.of_separate [DecidableEq α] {lead rest : List α} (absent : sep ∉ lead ++ rest)
    (nonempty : 0 < lead.length) (atMost : lead.length ≤ k) (whole : k ∣ rest.length)
    (uncut : ∀ j, j < lead.length → cut j = false)
    (cuts : ∀ j, j < rest.length → cut (lead.length + j) = decide (k ∣ j)) :
    Cut sep k (lead ++ rest) (separate sep cut 0 (lead ++ rest)) := by
  obtain ⟨groups, rfl, full⟩ := exists_groups whole
  have out : separate sep cut 0 (lead ++ groups.flatten) = [sep].intercalate (lead :: groups) := by
    have head : separate sep cut 0 lead = lead :=
      separate_uncut fun j _ before => uncut j (by omega)
    rw [separate_append, head, Nat.zero_add, separate_groups (by omega) full cuts, intercalate_eq]
  have absent' : ∀ group ∈ lead :: groups, sep ∉ group := fun group inside member =>
    absent (List.flatten_cons ▸ List.mem_flatten_of_mem inside member)
  rw [out]
  refine ⟨filter_intercalate absent', lead, groups, ?_, nonempty, atMost, full⟩
  exact List.splitOn_intercalate sep absent' (List.cons_ne_nil _ _)

end Foundation
