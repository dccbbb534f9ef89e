import SmartAccount.Foundation.Checked
import SmartAccount.Foundation.Separators
import Mathlib.Data.UInt

/-!
# Thousands separators

`with_commas` of the observer prints a number with commas between its thousands.  It subtracts
the length of the leading group from every place but the first, also from a place within that
group, and the crate is built with overflow checks: a number with a leading group of two digits
stops it, every other one is printed as it should be (`withCommas_iff`).
-/

namespace SmartAccount

open Foundation

/-! ## Printing -/

/-- The first branch's test: `i > 0 && (i - first_group_len) % 3 == 0 && i != first_group_len`. -/
def startsGroup (firstGroupLen i : Nat) : Except (Stop Empty) Bool :=
  if 0 < i then do
    let past ← checkedSub i firstGroupLen
    .ok (past % 3 == 0 && i != firstGroupLen)
  else .ok false

/-- The second branch's test. -/
def endsFirstGroup (len firstGroupLen i : Nat) : Bool :=
  i == firstGroupLen && firstGroupLen != 0 && firstGroupLen != len

/-- One turn of the loop over the digits and their places. -/
def pushDigit (len firstGroupLen : Nat) (out : List Char) (digit : Char × Nat) :
    Except (Stop Empty) (List Char) := do
  if ← startsGroup firstGroupLen digit.2 then .ok (out ++ [',', digit.1])
  else if endsFirstGroup len firstGroupLen digit.2 then .ok (out ++ [',', digit.1])
  else .ok (out ++ [digit.1])

/-- `with_commas`; the first sum is the capacity it asks for. -/
def withCommas (n : UInt64) : Except (Stop Empty) String := do
  let bytes := (toString n.toNat).toList
  let _ ← checkedAdd 64 bytes.length (bytes.length / 3)
  let firstGroupLen := bytes.length % 3
  let out ← bytes.zipIdx.foldlM (pushDigit bytes.length firstGroupLen) []
  .ok (String.ofList out)

example : withCommas 1234567890 = .ok "1,234,567,890" := by decide
example : withCommas 99999 = .error (.overflow .sub) := by decide

/-! ## The loop -/

/-- The places that get a comma, where nothing overflows. -/
def commaAt (len firstGroupLen i : Nat) : Bool :=
  (decide (0 < i) && ((i - firstGroupLen) % 3 == 0 && i != firstGroupLen)) ||
    endsFirstGroup len firstGroupLen i

section Loop

variable {len first : Nat}

theorem startsGroup_eq {i : Nat} (fits : 0 < i → first ≤ i) :
    startsGroup first i = .ok (decide (0 < i) && ((i - first) % 3 == 0 && i != first)) := by
  unfold startsGroup
  split
  · rename_i positive
    rw [checkedSub_of_le (fits positive), decide_eq_true positive]
    rfl
  · rename_i zero
    rw [decide_eq_false zero]
    rfl

theorem pushDigit_eq {out : List Char} {c : Char} {i : Nat} (fits : 0 < i → first ≤ i) :
    pushDigit len first out (c, i) =
      .ok (out ++ if commaAt len first i then [',', c] else [c]) := by
  unfold pushDigit commaAt
  rw [startsGroup_eq fits]
  generalize (decide (0 < i) && ((i - first) % 3 == 0 && i != first)) = starts
  cases starts <;> cases endsFirstGroup len first i <;> rfl

/-- The loop separates the digits, where nothing overflows. -/
theorem pushDigits_eq {digits out : List Char} {i : Nat}
    (fits : ∀ j, i ≤ j → j < i + digits.length → 0 < j → first ≤ j) :
    (digits.zipIdx i).foldlM (pushDigit len first) out =
      .ok (out ++ separate ',' (commaAt len first) i digits) := by
  induction digits generalizing out i with
  | nil =>
      rw [separate, List.append_nil]
      rfl
  | cons c digits ih =>
      rw [List.length_cons] at fits
      have later := @ih (out ++ if commaAt len first i then [',', c] else [c]) (i + 1)
        fun j after before => fits j (by omega) (by omega)
      rw [List.zipIdx_cons, List.foldlM_cons, pushDigit_eq (fits i (Nat.le_refl i) (by omega)),
        separate]
      refine later.trans ?_
      rw [List.append_assoc]
      cases commaAt len first i <;> rfl

theorem startsGroup_overflow {i : Nat} (positive : 0 < i) (within : i < first) :
    startsGroup first i = .error (.overflow .sub) := by
  rw [startsGroup, if_pos positive, checkedSub_of_lt within]
  rfl

/-- The second digit of a leading group of two is within the group. -/
theorem pushDigits_overflow {c c' : Char} {digits : List Char} :
    ((c :: c' :: digits).zipIdx).foldlM (pushDigit len 2) [] = .error (.overflow .sub) := by
  have leading : pushDigit len 2 [] (c, 0) = .ok [c] := rfl
  have within : pushDigit len 2 [c] (c', 1) = .error (.overflow .sub) := by
    rw [pushDigit, startsGroup_overflow Nat.one_pos Nat.one_lt_two]
    rfl
  rw [List.zipIdx_cons, List.foldlM_cons, leading]
  show ((c' :: digits).zipIdx 1).foldlM (pushDigit len 2) [c] = _
  rw [List.zipIdx_cons, List.foldlM_cons, within]
  rfl

theorem commaAt_iff {i : Nat} : commaAt len first i = true ↔
    0 < i ∧ (i - first) % 3 = 0 ∧ i ≠ first ∨ i = first ∧ first ≠ 0 ∧ first ≠ len := by
  simp [commaAt, endsFirstGroup, and_assoc]

/-- The commas stand at every third place behind a leading group of one or three digits. -/
theorem commaAt_eq {lead rest i : Nat} (size : len = lead + rest) (thirds : 3 ∣ rest)
    (leads : lead = 1 ∧ first = 1 ∨ lead = 3 ∧ first = 0) :
    (i < lead → commaAt len first i = false) ∧
      (i < rest → commaAt len first (lead + i) = decide (3 ∣ i)) := by
  refine ⟨fun before => ?_, fun before => ?_⟩
  · rw [Bool.eq_false_iff, Ne, commaAt_iff]
    omega
  · rw [Bool.eq_iff_iff, commaAt_iff, decide_eq_true_iff]
    omega

end Loop

/-! ## The result -/

theorem withCommas_eq (n : UInt64) : withCommas n =
    (Nat.toDigits 10 n.toNat).zipIdx.foldlM (pushDigit (Nat.toDigits 10 n.toNat).length
      ((Nat.toDigits 10 n.toNat).length % 3)) [] >>= fun out => .ok (String.ofList out) := by
  have size : (Nat.toDigits 10 n.toNat).length ≤ 20 :=
    (Nat.length_toDigits_le_iff (by decide) (by decide)).mpr
      (Nat.lt_of_lt_of_le n.toNat_lt (by decide))
  have capacity : (Nat.toDigits 10 n.toNat).length + (Nat.toDigits 10 n.toNat).length / 3 <
      2 ^ 64 := by omega
  unfold withCommas
  rw [Nat.toString_eq_ofList_toDigits, String.toList_ofList]
  dsimp only
  rw [checkedAdd_of_lt capacity]
  rfl

theorem comma_absent (n : Nat) : ',' ∉ Nat.toDigits 10 n := fun inside =>
  absurd (Nat.isDigit_of_mem_toDigits (by decide) (by decide) inside) (by decide)

/-- A number is printed with its thousands cut by commas, if its leading group does not have
two digits. -/
theorem withCommas_iff (n : UInt64) :
    (∃ out, withCommas n = .ok out ∧ Cut ',' 3 (Nat.toDigits 10 n.toNat) out.toList) ↔
      (Nat.toDigits 10 n.toNat).length % 3 ≠ 2 := by
  rw [withCommas_eq]
  have absent := comma_absent n.toNat
  have nonempty := @Nat.length_toDigits_pos 10 n.toNat
  generalize Nat.toDigits 10 n.toNat = digits at absent nonempty ⊢
  constructor
  · rintro ⟨out, printed, -⟩ two
    rw [two] at printed
    match digits, two with
    | c :: c' :: digits, _ =>
        rw [pushDigits_overflow] at printed
        cases printed
  · intro notTwo
    obtain ⟨lead, leads, short, thirds⟩ : ∃ lead,
        (lead = 1 ∧ digits.length % 3 = 1 ∨ lead = 3 ∧ digits.length % 3 = 0) ∧
          lead ≤ digits.length ∧ 3 ∣ digits.length - lead := by
      rcases (by omega : digits.length % 3 = 0 ∨ digits.length % 3 = 1) with zero | one
      · exact ⟨3, .inr ⟨rfl, zero⟩, by omega, by omega⟩
      · exact ⟨1, .inl ⟨rfl, one⟩, by omega, by omega⟩
    have split := List.take_append_drop lead digits
    have front : (digits.take lead).length = lead := List.length_take_of_le short
    have back : (digits.drop lead).length = digits.length - lead := List.length_drop
    have places := fun i => @commaAt_eq digits.length (digits.length % 3) lead
      (digits.length - lead) i (by omega) thirds leads
    rw [pushDigits_eq (by omega), List.nil_append]
    refine ⟨_, rfl, ?_⟩
    rw [String.toList_ofList]
    have cut := @Cut.of_separate _ ',' 3 (commaAt digits.length (digits.length % 3)) _
      (digits.take lead) (digits.drop lead) (by rwa [split]) (by omega) (by omega)
      (by rwa [back]) (by rw [front]; exact fun i => (places i).1)
      (by rw [front, back]; exact fun i => (places i).2)
    rwa [split] at cut

/-- The leading group of 10 has two digits. -/
theorem withCommas_ten : ¬ ∀ n : UInt64,
    ∃ out, withCommas n = .ok out ∧ Cut ',' 3 (Nat.toDigits 10 n.toNat) out.toList := by
  intro printed
  obtain ⟨out, ten, -⟩ := printed 10
  have stopped : withCommas 10 = .error (.overflow .sub) := by decide
  rw [stopped] at ten
  cases ten

end SmartAccount
