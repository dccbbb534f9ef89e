import SmartAccount.Foundation.Text
import Mathlib.Data.List.TakeWhile
import Mathlib.Tactic.IntervalCases

/-!
# Decimal numerals

Strings of decimal digits and the numbers they denote (`Numeral`), what reading and printing
them gives, and how white space around a word is trimmed.  Digits are ASCII, so that a decoded
numeral comes from the same numeral in bytes (`fromUtf8_eq_ascii`).
-/

namespace Foundation

/-! ## Digits -/

def IsDigit (c : Nat) : Prop := 0x30 ≤ c ∧ c ≤ 0x39

/-- The number that the digits denote behind `n`. -/
def decimalFrom (n : Nat) (cs : List Nat) : Nat := cs.foldl (fun n c => n * 10 + (c - 0x30)) n

/-- A nonempty string of digits that denotes `n`. -/
structure Numeral (cs : List Nat) (n : Nat) : Prop where
  nonempty : cs ≠ []
  digits : ∀ c ∈ cs, IsDigit c
  value : decimalFrom 0 cs = n

theorem IsDigit.not_white {c : Nat} (digit : IsDigit c) : isWhiteSpace c = false := by
  obtain ⟨low, high⟩ := digit
  interval_cases c <;> decide

theorem digitValue_eq_some {c d : Nat} :
    digitValue c = some d ↔ IsDigit c ∧ c - 0x30 = d := by
  unfold digitValue IsDigit
  split <;> rename_i range <;> simp at range <;> simp [range]
  omega

theorem foldlM_digits {cs : List Nat} {n v : Nat} :
    cs.foldlM (fun n c => (digitValue c).map (n * 10 + ·)) n = some v ↔
      (∀ c ∈ cs, IsDigit c) ∧ decimalFrom n cs = v := by
  induction cs generalizing n with
  | nil => simp [decimalFrom]
  | cons c cs ih =>
      rw [List.foldlM_cons]
      constructor
      · intro read
        obtain ⟨m, first, later⟩ := Option.bind_eq_some_iff.mp read
        obtain ⟨d, digit, rfl⟩ := Option.map_eq_some_iff.mp first
        obtain ⟨isDigit, rfl⟩ := digitValue_eq_some.mp digit
        obtain ⟨digits, value⟩ := ih.mp later
        refine ⟨fun c' inside => ?_, value⟩
        rcases List.mem_cons.mp inside with rfl | inside
        · exact isDigit
        · exact digits c' inside
      · intro ⟨digits, value⟩
        have first := digitValue_eq_some.mpr ⟨digits c (List.mem_cons_self ..), rfl⟩
        refine Option.bind_eq_some_iff.mpr ⟨_, Option.map_eq_some_iff.mpr ⟨_, first, rfl⟩, ?_⟩
        exact ih.mpr ⟨fun c' inside => digits c' (List.mem_cons_of_mem _ inside), value⟩

/-- `readDigits` reads exactly the numerals. -/
theorem readDigits_eq_some {cs : List Nat} {n : Nat} :
    readDigits cs = some n ↔ Numeral cs n := by
  cases cs with
  | nil => exact ⟨fun read => (by cases read), fun numeral => absurd rfl numeral.nonempty⟩
  | cons c cs =>
      rw [readDigits, foldlM_digits]
      · exact ⟨fun ⟨digits, value⟩ => ⟨List.cons_ne_nil _ _, digits, value⟩,
          fun numeral => ⟨numeral.digits, numeral.value⟩⟩
      · exact List.cons_ne_nil _ _

/-! ## Printing -/

theorem decimalFrom_eq_ofDigitChars (chars : List Char) (n : Nat) :
    decimalFrom n (chars.map Char.toNat) = Nat.ofDigitChars 10 chars n := by
  induction chars generalizing n with
  | nil => rfl
  | cons c chars ih =>
      rw [List.map_cons, Nat.ofDigitChars_cons, ← ih]
      show decimalFrom (n * 10 + _) _ = _
      rw [Nat.mul_comm]
      rfl

/-- A number's decimal digits are a numeral for it. -/
theorem numeral_toDigits (n : Nat) : Numeral ((Nat.toDigits 10 n).map Char.toNat) n where
  nonempty := by simp [Nat.toDigits_ne_nil]
  digits := by
    intro c inside
    obtain ⟨char, member, rfl⟩ := List.mem_map.mp inside
    have digit := Nat.isDigit_of_mem_toDigits (by decide) (by decide) member
    simp only [Char.isDigit, Bool.and_eq_true, decide_eq_true_eq] at digit
    exact ⟨UInt32.le_iff_toNat_le.mp digit.1, UInt32.le_iff_toNat_le.mp digit.2⟩
  value := by rw [decimalFrom_eq_ofDigitChars, Nat.ofDigitChars_ten_toDigits]

/-! ## ASCII -/

theorem utf8Bytes_eq_flatMap (s : String) :
    utf8Bytes s = s.toList.flatMap String.utf8EncodeChar := by
  rw [utf8Bytes, ← String.utf8Encode_toList, List.utf8Encode]
  simp

/-- The bytes of an ASCII text are its code points. -/
theorem utf8Bytes_ascii {s : String} (ascii : ∀ c ∈ s.toList, c.toNat < 0x80) :
    (utf8Bytes s).map UInt8.toNat = s.toList.map Char.toNat := by
  rw [utf8Bytes_eq_flatMap]
  generalize s.toList = cs at ascii
  induction cs with
  | nil => rfl
  | cons c cs ih =>
      have small := ascii c (List.mem_cons_self ..)
      have one : String.utf8EncodeChar c = [c.val.toUInt8] := by
        exact if_pos (Nat.le_of_lt_succ small)
      have same : c.val.toUInt8.toNat = c.toNat := by
        rw [UInt32.toNat_toUInt8]
        exact Nat.mod_eq_of_lt (Nat.lt_trans small (by decide))
      rw [List.flatMap_cons, one, List.map_append, List.map_cons, same, List.map_cons,
        ih fun c' inside => ascii c' (List.mem_cons_of_mem _ inside)]
      rfl

theorem decodeWith_ascii {fuel : Nat} {bs : Bytes} (enough : bs.length ≤ fuel)
    (ascii : ∀ b ∈ bs, b.toNat < 0x80) : decodeWith fuel bs = some (bs.map UInt8.toNat) := by
  induction bs generalizing fuel with
  | nil => cases fuel <;> rfl
  | cons b bs ih =>
      cases fuel with
      | zero => cases enough
      | succ fuel =>
          have small : b < 0x80 := UInt8.lt_iff_toNat_lt.mpr (ascii b (List.mem_cons_self ..))
          have piece : firstPiece (b :: bs) = (true, 1) := by
            rw [firstPiece.eq_def]
            exact if_pos small
          have later := ih (Nat.le_of_succ_le_succ enough)
            fun b' inside => ascii b' (List.mem_cons_of_mem _ inside)
          simp only [decodeWith, piece, if_pos, List.drop_succ_cons, List.drop_zero, later]
          rfl

/-- The well-formed pieces of two, three and four bytes. -/
inductive LongPiece : Bytes → Nat → Prop
  | two {b b₁ : UInt8} {rest : Bytes} (lead : 0xC2 ≤ b) : LongPiece (b :: b₁ :: rest) 2
  | three {b b₁ b₂ : UInt8} {rest : Bytes} (lead : 0xE0 ≤ b) (second : secondOfThree b b₁ = true) :
      LongPiece (b :: b₁ :: b₂ :: rest) 3
  | four {b b₁ b₂ b₃ : UInt8} {rest : Bytes} (lead : 0xF0 ≤ b)
      (second : secondOfFour b b₁ = true) : LongPiece (b :: b₁ :: b₂ :: b₃ :: rest) 4

theorem longPiece_of_lead {b : UInt8} {bs : Bytes} {size : Nat}
    (formed : firstPiece (b :: bs) = (true, size)) (lead : ¬ b < 0x80) :
    LongPiece (b :: bs) size := by
  rw [firstPiece.eq_def] at formed
  dsimp only at formed
  rw [if_neg lead] at formed
  split at formed
  · rename_i two
    simp only [Bool.and_eq_true, decide_eq_true_eq] at two
    repeat' split at formed
    all_goals cases formed
    exact .two two.1
  · split at formed
    · rename_i three
      simp only [Bool.and_eq_true, decide_eq_true_eq] at three
      repeat' split at formed
      all_goals cases formed
      exact .three three.1 ‹_›
    · split at formed
      · rename_i four
        simp only [Bool.and_eq_true, decide_eq_true_eq] at four
        repeat' split at formed
        all_goals cases formed
        exact .four four.1 ‹_›
      · cases formed

/-- Well-formed pieces of more than one byte are not ASCII. -/
theorem LongPiece.codePoint_ge {bs : Bytes} {size : Nat} (piece : LongPiece bs size) :
    0x80 ≤ codePoint (bs.take size) := by
  cases piece with
  | @two b b₁ _ lead =>
      have lead : 194 ≤ b.toNat := UInt8.le_iff_toNat_le.mp lead
      show 0x80 ≤ (b.toNat - 0xC0) * 64 + (b₁.toNat - 0x80)
      omega
  | @three b b₁ b₂ _ lead second =>
      have lead : 224 ≤ b.toNat := UInt8.le_iff_toNat_le.mp lead
      show 0x80 ≤ (b.toNat - 0xE0) * 4096 + (b₁.toNat - 0x80) * 64 + (b₂.toNat - 0x80)
      by_cases least : b = 0xE0
      · rw [secondOfThree, if_pos least, Bool.and_eq_true, decide_eq_true_eq] at second
        have high : 160 ≤ b₁.toNat := UInt8.le_iff_toNat_le.mp second.1
        omega
      · have above : b.toNat ≠ 224 := fun same => least (UInt8.toNat_inj.mp same)
        omega
  | @four b b₁ b₂ b₃ _ lead second =>
      have lead : 240 ≤ b.toNat := UInt8.le_iff_toNat_le.mp lead
      show 0x80 ≤ (b.toNat - 0xF0) * 262144 + (b₁.toNat - 0x80) * 4096 + (b₂.toNat - 0x80) * 64 +
        (b₃.toNat - 0x80)
      by_cases least : b = 0xF0
      · rw [secondOfFour, if_pos least, Bool.and_eq_true, decide_eq_true_eq] at second
        have high : 144 ≤ b₁.toNat := UInt8.le_iff_toNat_le.mp second.1
        omega
      · have above : b.toNat ≠ 240 := fun same => least (UInt8.toNat_inj.mp same)
        omega

theorem ascii_of_decodeWith {fuel : Nat} {bs : Bytes} {cs : List Nat}
    (decoded : decodeWith fuel bs = some cs) (ascii : ∀ c ∈ cs, c < 0x80) :
    bs.map UInt8.toNat = cs := by
  induction fuel generalizing bs cs with
  | zero =>
      cases bs with
      | nil => exact Option.some.inj decoded
      | cons b bs => cases decoded
  | succ fuel ih =>
      cases bs with
      | nil => exact Option.some.inj decoded
      | cons b bs =>
          rw [decodeWith] at decoded
          cases shape : firstPiece (b :: bs) with
          | mk formed size =>
              rw [shape] at decoded
              dsimp only at decoded
              split at decoded
              · rename_i isFormed
                subst isFormed
                obtain ⟨later, rest, rfl⟩ := Option.map_eq_some_iff.mp decoded
                by_cases small : b < 0x80
                · have one : (true, 1) = (true, size) := by
                    rw [← shape, firstPiece.eq_def]
                    exact (if_pos small).symm
                  cases one
                  have tail := ih rest fun c inside => ascii c (List.mem_cons_of_mem _ inside)
                  exact congrArg (b.toNat :: ·) tail
                · have large := (longPiece_of_lead shape small).codePoint_ge
                  exact absurd (ascii _ (List.mem_cons_self ..)) (Nat.not_lt.mpr large)
              · cases decoded

/-- Decoding gives ASCII code points exactly for the same bytes. -/
theorem fromUtf8_eq_ascii {bs : Bytes} {cs : List Nat} (ascii : ∀ c ∈ cs, c < 0x80) :
    fromUtf8 bs = some cs ↔ bs.map UInt8.toNat = cs := by
  refine ⟨fun decoded => ascii_of_decodeWith decoded ascii, ?_⟩
  rintro rfl
  exact decodeWith_ascii (Nat.le_refl _) fun b inside => ascii _ (List.mem_map_of_mem inside)

/-! ## Trimming -/

def IsWhite (cs : List Nat) : Prop := ∀ c ∈ cs, isWhiteSpace c = true

/-- The word has no white space at its ends. -/
def Bare (cs : List Nat) : Prop :=
  (∀ c ∈ cs.head?, isWhiteSpace c = false) ∧ ∀ c ∈ cs.getLast?, isWhiteSpace c = false

/-- Trimming removes white space around a word. -/
theorem exists_trim (cs : List Nat) :
    ∃ left right, IsWhite left ∧ IsWhite right ∧ cs = left ++ trim cs ++ right := by
  have white : ∀ cs : List Nat, IsWhite (cs.takeWhile isWhiteSpace) := fun cs c inside =>
    List.mem_takeWhile_imp inside
  refine ⟨cs.takeWhile isWhiteSpace,
    ((cs.dropWhile isWhiteSpace).reverse.takeWhile isWhiteSpace).reverse, white cs, ?_, ?_⟩
  · intro c inside
    exact white _ c (List.mem_reverse.mp inside)
  · rw [trim, List.append_assoc, ← List.reverse_append, List.takeWhile_append_dropWhile,
      List.reverse_reverse, List.takeWhile_append_dropWhile]

theorem dropWhile_white_append {left cs : List Nat} (white : IsWhite left)
    (bare : ∀ c ∈ cs.head?, isWhiteSpace c = false) :
    (left ++ cs).dropWhile isWhiteSpace = cs := by
  rw [List.dropWhile_append_of_pos white]
  cases cs with
  | nil => rfl
  | cons c cs => exact List.dropWhile_cons_of_neg (by simp [bare c rfl])

/-- Trimming finds the word that the white space is around. -/
theorem trim_around {left word right : List Nat} (before : IsWhite left) (after : IsWhite right)
    (bare : Bare word) (nonempty : word ≠ []) : trim (left ++ word ++ right) = word := by
  obtain ⟨first, last⟩ := bare
  have front : ∀ c ∈ (word ++ right).head?, isWhiteSpace c = false := by
    rw [List.head?_append_of_ne_nil _ nonempty]
    exact first
  have back : ∀ c ∈ word.reverse.head?, isWhiteSpace c = false := by
    rw [List.head?_reverse]
    exact last
  have white : IsWhite right.reverse := fun c inside => after c (List.mem_reverse.mp inside)
  rw [trim, List.append_assoc, dropWhile_white_append before front, List.reverse_append,
    dropWhile_white_append white back, List.reverse_reverse]

end Foundation
