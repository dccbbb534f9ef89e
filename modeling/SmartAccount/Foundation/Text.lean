import Mathlib.Algebra.GroupWithZero.Nat
import Mathlib.Data.List.Basic

/-!
# Byte strings as text

Byte-level text functions: splitting a byte string into UTF-8 pieces, decoding it
strictly or lossily, trimming Unicode white space, reading decimal integers, and
searching and replacing substrings.  A byte string is a `List UInt8`; decoded text
is the list of its code points.
-/

namespace Foundation

abbrev Bytes := List UInt8

/-- The UTF-8 bytes of a string. -/
def utf8Bytes (s : String) : Bytes := s.toByteArray.data.toList

theorem utf8Bytes_append (s t : String) : utf8Bytes (s ++ t) = utf8Bytes s ++ utf8Bytes t := by
  simp [utf8Bytes]

/-! ## UTF-8 pieces -/

def isContinuation (b : UInt8) : Bool := 0x80 ≤ b && b ≤ 0xBF

/-- The second bytes allowed after a lead byte of a three-byte sequence. -/
def secondOfThree (lead b : UInt8) : Bool :=
  if lead = 0xE0 then 0xA0 ≤ b && b ≤ 0xBF
  else if lead = 0xED then 0x80 ≤ b && b ≤ 0x9F
  else isContinuation b

/-- The second bytes allowed after a lead byte of a four-byte sequence. -/
def secondOfFour (lead b : UInt8) : Bool :=
  if lead = 0xF0 then 0x90 ≤ b && b ≤ 0xBF
  else if lead = 0xF4 then 0x80 ≤ b && b ≤ 0x8F
  else isContinuation b

/-- The first piece of a nonempty byte string: whether it is a well-formed UTF-8
sequence, and how many bytes it has.  An ill-formed piece is the longest prefix that
could still have started a sequence. -/
def firstPiece : Bytes → Bool × Nat
  | [] => (true, 0)
  | b :: rest =>
      if b < 0x80 then (true, 1)
      else if 0xC2 ≤ b && b ≤ 0xDF then
        match rest with
        | b₁ :: _ => if isContinuation b₁ then (true, 2) else (false, 1)
        | [] => (false, 1)
      else if 0xE0 ≤ b && b ≤ 0xEF then
        match rest with
        | b₁ :: b₂ :: _ =>
            if secondOfThree b b₁ then
              if isContinuation b₂ then (true, 3) else (false, 2)
            else (false, 1)
        | [b₁] => if secondOfThree b b₁ then (false, 2) else (false, 1)
        | [] => (false, 1)
      else if 0xF0 ≤ b && b ≤ 0xF4 then
        match rest with
        | b₁ :: b₂ :: b₃ :: _ =>
            if secondOfFour b b₁ then
              if isContinuation b₂ then
                if isContinuation b₃ then (true, 4) else (false, 3)
              else (false, 2)
            else (false, 1)
        | [b₁, b₂] =>
            if secondOfFour b b₁ then
              if isContinuation b₂ then (false, 3) else (false, 2)
            else (false, 1)
        | [b₁] => if secondOfFour b b₁ then (false, 2) else (false, 1)
        | [] => (false, 1)
      else (false, 1)

/-- The code point of a well-formed piece. -/
def codePoint : Bytes → Nat
  | [b] => b.toNat
  | [b, b₁] => (b.toNat - 0xC0) * 64 + (b₁.toNat - 0x80)
  | [b, b₁, b₂] => (b.toNat - 0xE0) * 4096 + (b₁.toNat - 0x80) * 64 + (b₂.toNat - 0x80)
  | [b, b₁, b₂, b₃] =>
      (b.toNat - 0xF0) * 262144 + (b₁.toNat - 0x80) * 4096 + (b₂.toNat - 0x80) * 64 +
        (b₃.toNat - 0x80)
  | _ => 0

/-- Decode with at most `fuel` pieces; `none` at the first ill-formed one. -/
def decodeWith : Nat → Bytes → Option (List Nat)
  | _, [] => some []
  | 0, _ :: _ => none
  | fuel + 1, b :: bs =>
      let piece := firstPiece (b :: bs)
      if piece.1 then
        (decodeWith fuel ((b :: bs).drop piece.2)).map
          (codePoint ((b :: bs).take piece.2) :: ·)
      else none

/-- `str::from_utf8`: the code points of a byte string that is valid UTF-8. -/
def fromUtf8 (bs : Bytes) : Option (List Nat) := decodeWith bs.length bs

/-- The UTF-8 bytes of the replacement character. -/
def replacementCharacter : Bytes := [0xEF, 0xBF, 0xBD]

def lossyWith : Nat → Bytes → Bytes
  | _, [] => []
  | 0, _ :: _ => []
  | fuel + 1, b :: bs =>
      let piece := firstPiece (b :: bs)
      (if piece.1 then (b :: bs).take piece.2 else replacementCharacter) ++
        lossyWith fuel ((b :: bs).drop piece.2)

/-- `String::from_utf8_lossy`, as bytes: every ill-formed piece becomes one
replacement character. -/
def fromUtf8Lossy (bs : Bytes) : Bytes := lossyWith bs.length bs

/-! ## What lossy decoding keeps -/

/-- An ill-formed piece is not the replacement character itself. -/
theorem firstPiece_replacementCharacter (bs : Bytes) :
    firstPiece (replacementCharacter ++ bs) = (true, 3) := by
  simp [replacementCharacter, firstPiece, secondOfThree, isContinuation]

theorem firstPiece_pos (b : UInt8) (bs : Bytes) : 0 < (firstPiece (b :: bs)).2 := by
  simp only [firstPiece]
  repeat' split
  all_goals decide

theorem lossyWith_eq_iff (fuel : Nat) (bs : Bytes) (enough : bs.length ≤ fuel) :
    lossyWith fuel bs = bs ↔ (decodeWith fuel bs).isSome = true := by
  induction fuel generalizing bs with
  | zero =>
      obtain rfl := List.length_eq_zero_iff.mp (Nat.le_zero.mp enough)
      simp [lossyWith, decodeWith]
  | succ fuel ih =>
      cases bs with
      | nil => simp [lossyWith, decodeWith]
      | cons b bs =>
          have positive := firstPiece_pos b bs
          have fewer : ((b :: bs).drop (firstPiece (b :: bs)).2).length ≤ fuel := by
            rw [List.length_drop]
            omega
          simp only [lossyWith, decodeWith]
          by_cases formed : (firstPiece (b :: bs)).1 = true
          · rw [if_pos formed, if_pos formed, Option.isSome_map, ← ih _ fewer]
            conv_lhs => rhs; rw [← List.take_append_drop (firstPiece (b :: bs)).2 (b :: bs)]
            exact List.append_right_inj _
          · rw [if_neg formed, if_neg formed]
            refine iff_of_false (fun same => ?_) (by simp)
            have piece := firstPiece_replacementCharacter
              (lossyWith fuel ((b :: bs).drop (firstPiece (b :: bs)).2))
            rw [same] at piece
            rw [piece] at formed
            exact formed rfl

/-- Lossy decoding keeps exactly the byte strings that are valid UTF-8. -/
theorem fromUtf8Lossy_eq_iff (bs : Bytes) :
    fromUtf8Lossy bs = bs ↔ (fromUtf8 bs).isSome = true :=
  lossyWith_eq_iff bs.length bs (Nat.le_refl _)
/-! ## Decimal integers -/

/-- The code points with the Unicode `White_Space` property. -/
def isWhiteSpace (c : Nat) : Bool :=
  (0x09 ≤ c && c ≤ 0x0D) || c == 0x20 || c == 0x85 || c == 0xA0 || c == 0x1680 ||
    (0x2000 ≤ c && c ≤ 0x200A) || c == 0x2028 || c == 0x2029 || c == 0x202F || c == 0x205F ||
    c == 0x3000

/-- `str::trim`. -/
def trim (cs : List Nat) : List Nat :=
  ((cs.dropWhile isWhiteSpace).reverse.dropWhile isWhiteSpace).reverse

def digitValue (c : Nat) : Option Nat :=
  if 0x30 ≤ c && c ≤ 0x39 then some (c - 0x30) else none

/-- The value of a nonempty string of decimal digits. -/
def readDigits : List Nat → Option Nat
  | [] => none
  | cs => cs.foldlM (fun n c => (digitValue c).map (n * 10 + ·)) 0

/-- `u128::from_str`, a leading plus sign included. -/
def readU128 (cs : List Nat) : Option Nat :=
  let digits := match cs with
    | 0x2B :: rest => rest
    | cs => cs
  (readDigits digits).filter (· < 2 ^ 128)

/-- `i128::from_str`, a leading sign included. -/
def readI128 (cs : List Nat) : Option Int :=
  match cs with
  | 0x2D :: rest => ((readDigits rest).filter (· ≤ 2 ^ 127)).map fun n => -(n : Int)
  | 0x2B :: rest => ((readDigits rest).filter (· < 2 ^ 127)).map fun n => (n : Int)
  | cs => ((readDigits cs).filter (· < 2 ^ 127)).map fun n => (n : Int)

/-! ## Substrings -/

/-- `str::contains`. -/
def containsBytes (pattern bs : Bytes) : Bool := bs.tails.any pattern.isPrefixOf

/-- Replace from left to right, after skipping `skip` bytes of a match. -/
def replaceFrom (pattern replacement : Bytes) : Nat → Bytes → Bytes
  | _, [] => []
  | skip + 1, _ :: bs => replaceFrom pattern replacement skip bs
  | 0, b :: bs =>
      if pattern.isPrefixOf (b :: bs) then
        replacement ++ replaceFrom pattern replacement (pattern.length - 1) bs
      else b :: replaceFrom pattern replacement 0 bs

/-- `str::replace` for a nonempty pattern: leftmost matches, never overlapping. -/
def replaceBytes (pattern replacement bs : Bytes) : Bytes :=
  replaceFrom pattern replacement 0 bs

/-- `str::starts_with`. -/
def startsWith (s pattern : String) : Bool := pattern.toList.isPrefixOf s.toList

theorem startsWith_iff {s pattern : String} :
    startsWith s pattern = true ↔ ∃ rest : String, s = pattern ++ rest := by
  rw [startsWith, List.isPrefixOf_iff_prefix]
  constructor
  · rintro ⟨rest, eq⟩
    refine ⟨String.ofList rest, String.toList_inj.mp ?_⟩
    rw [String.toList_append, String.toList_ofList, eq]
  · rintro ⟨rest, rfl⟩
    exact ⟨rest.toList, String.toList_append.symm⟩

/-! ## Splitting at a delimiter -/

/-- Two ways to split a list at a delimiter: the same, or one left part goes on past the
other and the delimiter. -/
theorem append_cons_eq_append_cons {α : Type} {xs xs' ys ys' : List α} {d : α}
    (eq : xs ++ d :: ys = xs' ++ d :: ys') :
    xs = xs' ∨ (∃ zs, xs' = xs ++ d :: zs) ∨ ∃ zs, xs = xs' ++ d :: zs := by
  rcases List.append_eq_append_iff.mp eq with ⟨as, rfl, tail⟩ | ⟨as, rfl, tail⟩
  · cases as with
    | nil => exact .inl (List.append_nil _).symm
    | cons a as =>
        obtain ⟨rfl, -⟩ := List.cons.inj tail
        exact .inr (.inl ⟨as, rfl⟩)
  · cases as with
    | nil => exact .inl (List.append_nil _)
    | cons a as =>
        obtain ⟨rfl, -⟩ := List.cons.inj tail
        exact .inr (.inr ⟨as, rfl⟩)

/-- A delimiter that occurs in neither left part splits a list in one way. -/
theorem append_cons_inj_of_notMem_left {α : Type} {xs xs' ys ys' : List α} {d : α}
    (absent : d ∉ xs) (absent' : d ∉ xs') (eq : xs ++ d :: ys = xs' ++ d :: ys') :
    xs = xs' ∧ ys = ys' := by
  rcases List.append_eq_append_iff.mp eq with ⟨as, rfl, tail⟩ | ⟨as, rfl, tail⟩
  · cases as with
    | nil => exact ⟨(List.append_nil _).symm, (List.cons.inj tail).2⟩
    | cons a as =>
        have head := (List.cons.inj tail).1
        exact absurd (List.mem_append_right xs (head ▸ List.mem_cons_self ..)) absent'
  · cases as with
    | nil => exact ⟨List.append_nil _, (List.cons.inj tail).2.symm⟩
    | cons a as =>
        have head := (List.cons.inj tail).1
        exact absurd (List.mem_append_right xs' (head ▸ List.mem_cons_self ..)) absent

/-- A delimiter that occurs in neither right part splits a list in one way. -/
theorem append_cons_inj_of_notMem_right {α : Type} {xs xs' ys ys' : List α} {d : α}
    (absent : d ∉ ys) (absent' : d ∉ ys') (eq : xs ++ d :: ys = xs' ++ d :: ys') :
    xs = xs' ∧ ys = ys' := by
  rcases List.append_eq_append_iff.mp eq with ⟨as, rfl, tail⟩ | ⟨as, rfl, tail⟩
  · cases as with
    | nil => exact ⟨(List.append_nil _).symm, (List.cons.inj tail).2⟩
    | cons a as =>
        have rest := (List.cons.inj tail).2
        exact absurd (rest ▸ List.mem_append_right as (List.mem_cons_self ..)) absent
  · cases as with
    | nil => exact ⟨List.append_nil _, (List.cons.inj tail).2.symm⟩
    | cons a as =>
        have rest := (List.cons.inj tail).2
        exact absurd (rest ▸ List.mem_append_right as (List.mem_cons_self ..)) absent'

end Foundation
