import SmartAccount.Foundation.Text

/-!
# Splicing text into holes

What `str::replace` does to a byte string, told by its *cut*: the bytes it keeps, with a hole
for each match it replaces.  A string with holes is a list of optional bytes, `none` a hole;
`fill` puts one text into all of them.
-/

namespace Foundation

/-! ## Filling holes -/

/-- A byte string with holes. -/
abbrev Holed := List (Option UInt8)

/-- The same text in every hole. -/
def fill (text : Bytes) (holed : Holed) : Bytes :=
  holed.flatMap fun part => part.elim text fun b => [b]

@[simp] theorem fill_nil (text : Bytes) : fill text [] = [] := rfl

@[simp] theorem fill_hole (text : Bytes) (holed : Holed) :
    fill text (none :: holed) = text ++ fill text holed := rfl

@[simp] theorem fill_byte (text : Bytes) (b : UInt8) (holed : Holed) :
    fill text (some b :: holed) = b :: fill text holed := rfl

theorem fill_append (text : Bytes) (xs ys : Holed) :
    fill text (xs ++ ys) = fill text xs ++ fill text ys :=
  List.flatMap_append

theorem fill_bytes (text bs : Bytes) : fill text (bs.map some) = bs := by
  induction bs with
  | nil => rfl
  | cons b bs ih => rw [List.map_cons, fill_byte, ih]

/-- How long a filled string is: its bytes, and one text for each hole. -/
theorem length_fill (text : Bytes) (holed : Holed) :
    (fill text holed).length = holed.countP Option.isSome + holed.count none * text.length := by
  induction holed with
  | nil => simp
  | cons part holed ih =>
      cases part with
      | none =>
          rw [fill_hole, List.length_append, ih, List.count_cons_self, Nat.add_mul,
            List.countP_cons_of_neg (by decide)]
          omega
      | some b =>
          rw [fill_byte, List.length_cons, ih]
          simp
          omega

/-- Where there is a hole, the filled string determines the text in it. -/
theorem fill_inj {text text' : Bytes} {holed : Holed} (hole : none ∈ holed)
    (same : fill text holed = fill text' holed) : text = text' := by
  have lengths : text.length = text'.length := by
    have lengths := congrArg List.length same
    rw [length_fill, length_fill] at lengths
    have positive : 0 < holed.count none := List.count_pos_iff.mpr hole
    exact Nat.eq_of_mul_eq_mul_left positive (Nat.add_left_cancel lengths)
  induction holed with
  | nil => cases hole
  | cons part holed ih =>
      cases part with
      | none => exact (List.append_inj same lengths).1
      | some b =>
          refine ih ?_ (List.cons.inj same).2
          rcases List.mem_cons.mp hole with eq | inside
          · cases eq
          · exact inside

/-! ## The cut of a pattern -/

/-- What `replaceFrom` keeps, with a hole for each match. -/
def cutFrom (pattern : Bytes) : Nat → Bytes → Holed
  | _, [] => []
  | skip + 1, _ :: bs => cutFrom pattern skip bs
  | 0, b :: bs =>
      if pattern.isPrefixOf (b :: bs) then none :: cutFrom pattern (pattern.length - 1) bs
      else some b :: cutFrom pattern 0 bs

def cut (pattern bs : Bytes) : Holed := cutFrom pattern 0 bs

theorem replaceFrom_eq_fill (pattern replacement : Bytes) (skip : Nat) (bs : Bytes) :
    replaceFrom pattern replacement skip bs = fill replacement (cutFrom pattern skip bs) := by
  fun_induction cutFrom pattern skip bs with
  | case1 => simp [replaceFrom]
  | case2 skip b bs ih => rw [replaceFrom, ih]
  | case3 b bs found ih => rw [replaceFrom, if_pos found, ih, fill_hole]
  | case4 b bs absent ih => rw [replaceFrom, if_neg absent, ih, fill_byte]

/-- Replacing a pattern fills its cut. -/
theorem replaceBytes_eq_fill (pattern replacement bs : Bytes) :
    replaceBytes pattern replacement bs = fill replacement (cut pattern bs) :=
  replaceFrom_eq_fill pattern replacement 0 bs

/-- A pattern found at the front, with something behind it. -/
theorem drop_of_isPrefixOf {pattern : Bytes} {b : UInt8} {bs : Bytes}
    (nonempty : pattern ≠ []) (found : pattern.isPrefixOf (b :: bs) = true) :
    pattern ++ bs.drop (pattern.length - 1) = b :: bs := by
  obtain ⟨rest, eq⟩ := List.isPrefixOf_iff_prefix.mp found
  cases pattern with
  | nil => exact absurd rfl nonempty
  | cons c pattern =>
      rw [List.cons_append, List.cons.injEq] at eq
      obtain ⟨rfl, rfl⟩ := eq
      simp

theorem fill_cutFrom {pattern : Bytes} (nonempty : pattern ≠ []) (skip : Nat) (bs : Bytes) :
    fill pattern (cutFrom pattern skip bs) = bs.drop skip := by
  fun_induction cutFrom pattern skip bs with
  | case1 => simp
  | case2 skip b bs ih => rw [ih, List.drop_succ_cons]
  | case3 b bs found ih => rw [fill_hole, ih, drop_of_isPrefixOf nonempty found, List.drop_zero]
  | case4 b bs absent ih => rw [fill_byte, ih, List.drop_zero, List.drop_zero]

/-- The pattern put back into its own cut gives the string. -/
theorem fill_cut {pattern : Bytes} (nonempty : pattern ≠ []) (bs : Bytes) :
    fill pattern (cut pattern bs) = bs :=
  fill_cutFrom nonempty 0 bs

/-- A string without a hole in its cut has the pattern nowhere. -/
theorem not_containsBytes_of_cut {pattern : Bytes} (nonempty : pattern ≠ []) (bs : Bytes)
    (whole : none ∉ cut pattern bs) : containsBytes pattern bs = false := by
  induction bs with
  | nil =>
      cases pattern with
      | nil => exact absurd rfl nonempty
      | cons b pattern => rfl
  | cons b bs ih =>
      have absent : ¬ pattern.isPrefixOf (b :: bs) = true := by
        intro found
        rw [cut, cutFrom, if_pos found] at whole
        exact whole (List.mem_cons_self ..)
      rw [cut, cutFrom, if_neg absent] at whole
      have later := ih fun inside => whole (List.mem_cons_of_mem _ inside)
      simpa [containsBytes, absent] using later

/-- The cut has a hole where the pattern occurs. -/
theorem hole_mem_cut {pattern bs : Bytes} (nonempty : pattern ≠ [])
    (found : containsBytes pattern bs = true) : none ∈ cut pattern bs := by
  by_contra whole
  rw [not_containsBytes_of_cut nonempty bs whole] at found
  cases found

/-! ## Holes that a pattern finds again -/

/-- The pattern in the holes starts at no byte between them. -/
def Aligned (pattern : Bytes) : Holed → Prop
  | [] => True
  | none :: holed => Aligned pattern holed
  | some b :: holed => ¬ pattern <+: b :: fill pattern holed ∧ Aligned pattern holed

instance decidableAligned (pattern : Bytes) : (holed : Holed) → Decidable (Aligned pattern holed)
  | [] => inferInstanceAs (Decidable True)
  | none :: holed => decidableAligned pattern holed
  | some b :: holed =>
      have := decidableAligned pattern holed
      inferInstanceAs (Decidable (¬ pattern <+: b :: fill pattern holed ∧ Aligned pattern holed))

theorem cutFrom_append {pattern : Bytes} (skipped bs : Bytes) :
    cutFrom pattern skipped.length (skipped ++ bs) = cut pattern bs := by
  induction skipped with
  | nil => rfl
  | cons b skipped ih => rw [List.length_cons, List.cons_append, cutFrom, ih]

/-- The cut of a string that starts with the pattern. -/
theorem cut_append {pattern : Bytes} (nonempty : pattern ≠ []) (bs : Bytes) :
    cut pattern (pattern ++ bs) = none :: cut pattern bs := by
  cases pattern with
  | nil => exact absurd rfl nonempty
  | cons b pattern =>
      have found : (b :: pattern).isPrefixOf (b :: pattern ++ bs) = true :=
        List.isPrefixOf_iff_prefix.mpr (List.prefix_append _ _)
      rw [cut, List.cons_append, cutFrom, ← List.cons_append, if_pos found]
      exact congrArg (none :: ·) (cutFrom_append pattern bs)

/-- The cut of a string is the one it was filled from exactly when the pattern starts at none
of the bytes between the holes. -/
theorem cut_fill_iff {pattern : Bytes} (nonempty : pattern ≠ []) (holed : Holed) :
    cut pattern (fill pattern holed) = holed ↔ Aligned pattern holed := by
  induction holed with
  | nil => exact iff_of_true rfl trivial
  | cons part holed ih =>
      cases part with
      | none => rw [fill_hole, cut_append nonempty, List.cons.injEq, Aligned, ih]; simp
      | some b =>
          rw [Aligned, ← ih, fill_byte, cut, cutFrom]
          split
          · rename_i found
            simp [List.isPrefixOf_iff_prefix.mp found]
          · rename_i absent
            rw [List.isPrefixOf_iff_prefix] at absent
            simp [absent, cut]

end Foundation
