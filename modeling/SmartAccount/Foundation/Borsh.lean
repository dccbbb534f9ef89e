import SmartAccount.Foundation.Text
import Mathlib.Algebra.Order.Group.Nat

/-!
# Borsh

Codecs that write a value so that it can be read off the front of any bytes, and read nothing
that they do not write.  Numbers are little-endian, lists of bytes carry their length, an
option starts with a tag byte, and a record is its fields one after the other.  A record that
has one more field than another never reads what the other writes (`decodeAll_shorter`).
-/

namespace Foundation

/-- Writing values, and reading one back from the front of some bytes. -/
structure Codec (α : Type) where
  encode : α → Bytes
  decode : Bytes → Option (α × Bytes)
  decode_encode : ∀ a rest, decode (encode a ++ rest) = some (a, rest)
  encode_of_decode : ∀ bytes a rest, decode bytes = some (a, rest) → bytes = encode a ++ rest

namespace Codec

variable {α β : Type}

/-! ## Whole values -/

/-- Read a value that takes all the bytes. -/
def decodeAll (c : Codec α) (bytes : Bytes) : Option α :=
  match c.decode bytes with
  | some (a, []) => some a
  | _ => none

theorem decodeAll_eq_some {c : Codec α} {bytes : Bytes} {a : α} :
    c.decodeAll bytes = some a ↔ bytes = c.encode a := by
  constructor
  · intro read
    unfold decodeAll at read
    split at read
    · rename_i b decoded
      cases read
      exact (c.encode_of_decode bytes a [] decoded).trans (List.append_nil _)
    · cases read
  · rintro rfl
    have decoded := c.decode_encode a []
    rw [List.append_nil] at decoded
    rw [decodeAll, decoded]

/-- What is read off the front is determined. -/
theorem encode_append_inj {c : Codec α} {a b : α} {rest rest' : Bytes}
    (same : c.encode a ++ rest = c.encode b ++ rest') : a = b ∧ rest = rest' := by
  have read := c.decode_encode a rest
  rw [same, c.decode_encode] at read
  cases read
  exact ⟨rfl, rfl⟩

/-! ## Records -/

/-- One value after the other. -/
def pair (c : Codec α) (d : Codec β) : Codec (α × β) where
  encode ab := c.encode ab.1 ++ d.encode ab.2
  decode bytes := do
    let (a, rest) ← c.decode bytes
    let (b, rest) ← d.decode rest
    some ((a, b), rest)
  decode_encode ab rest := by
    simp [List.append_assoc, c.decode_encode, d.decode_encode]
  encode_of_decode bytes ab rest decoded := by
    simp only [Option.bind_eq_bind, Option.bind_eq_some_iff] at decoded
    obtain ⟨⟨a, rest₁⟩, first, ⟨b, rest₂⟩, second, eq⟩ := decoded
    cases eq
    have back := d.encode_of_decode rest₁ b rest₂ second
    rw [c.encode_of_decode bytes a rest₁ first, back, List.append_assoc]

/-- The values of a type that another type is read as, where it is one. -/
def refine (c : Codec α) (read : α → Option β) (write : β → α)
    (read_write : ∀ b, read (write b) = some b) (write_read : ∀ a b, read a = some b → a = write b) :
    Codec β where
  encode b := c.encode (write b)
  decode bytes := do
    let (a, rest) ← c.decode bytes
    let b ← read a
    some (b, rest)
  decode_encode b rest := by
    simp [c.decode_encode, read_write]
  encode_of_decode bytes b rest decoded := by
    simp only [Option.bind_eq_bind, Option.bind_eq_some_iff] at decoded
    obtain ⟨⟨a, rest'⟩, front, b', known, eq⟩ := decoded
    cases eq
    rw [← write_read a b known]
    exact c.encode_of_decode bytes a _ front

/-- A record with one more field does not read what the shorter record writes. -/
theorem decodeAll_shorter {c : Codec α} {d : Codec β} (written : ∀ b, d.encode b ≠ []) (a : α) :
    (c.pair d).decodeAll (c.encode a) = none := by
  cases read : (c.pair d).decodeAll (c.encode a) with
  | none => rfl
  | some ab =>
      have same : c.encode a ++ [] = c.encode ab.1 ++ d.encode ab.2 :=
        (List.append_nil _).trans (decodeAll_eq_some.mp read)
      exact absurd (encode_append_inj same).2.symm (written ab.2)

/-- A refined value is read as what it refines. -/
theorem decodeAll_refine_of_none {c : Codec α} {read : α → Option β} {write : β → α}
    {read_write : ∀ b, read (write b) = some b} {write_read : ∀ a b, read a = some b → a = write b}
    {bytes : Bytes} (unread : c.decodeAll bytes = none) :
    (c.refine read write read_write write_read).decodeAll bytes = none := by
  cases refined : (c.refine read write read_write write_read).decodeAll bytes with
  | none => rfl
  | some b =>
      have written := decodeAll_eq_some.mp refined
      change bytes = c.encode (write b) at written
      rw [decodeAll_eq_some.mpr written] at unread
      cases unread

/-! ## Options -/

def encodeOption (c : Codec α) : Option α → Bytes
  | none => [0]
  | some a => 1 :: c.encode a

def decodeOption (c : Codec α) : Bytes → Option (Option α × Bytes)
  | [] => none
  | tag :: bytes =>
      if tag = 0 then some (none, bytes)
      else if tag = 1 then (c.decode bytes).map fun (a, rest) => (some a, rest)
      else none

/-- A tag byte, and the value if there is one. -/
def option (c : Codec α) : Codec (Option α) where
  encode := c.encodeOption
  decode := c.decodeOption
  decode_encode a rest := by
    cases a with
    | none => rfl
    | some a =>
        show (c.decode (c.encode a ++ rest)).map (fun (a, rest) => (some a, rest)) = _
        rw [c.decode_encode]
        rfl
  encode_of_decode bytes a rest decoded := by
    unfold decodeOption at decoded
    split at decoded
    · cases decoded
    · rename_i tag bytes
      split at decoded
      · rename_i absent
        cases decoded
        rw [absent]
        rfl
      · split at decoded
        · rename_i present
          obtain ⟨⟨b, rest'⟩, read, eq⟩ := Option.map_eq_some_iff.mp decoded
          cases eq
          rw [present, c.encode_of_decode bytes b _ read]
          rfl
        · cases decoded

/-! ## Numbers and byte strings -/

def encodeLE : Nat → Nat → Bytes
  | 0, _ => []
  | width + 1, n => UInt8.ofNat n :: encodeLE width (n / 256)

def decodeLE : Nat → Bytes → Option (Nat × Bytes)
  | 0, bytes => some (0, bytes)
  | _ + 1, [] => none
  | width + 1, b :: bytes =>
      (decodeLE width bytes).map fun (n, rest) => (b.toNat + 256 * n, rest)

theorem decodeLE_encodeLE {width n : Nat} (small : n < 256 ^ width) (rest : Bytes) :
    decodeLE width (encodeLE width n ++ rest) = some (n, rest) := by
  induction width generalizing n with
  | zero =>
      obtain rfl : n = 0 := by simpa using small
      rfl
  | succ width ih =>
      have high : n / 256 < 256 ^ width := by
        rw [Nat.pow_succ] at small
        omega
      show (decodeLE width (encodeLE width (n / 256) ++ rest)).map _ = _
      rw [ih high]
      simp only [Option.map_some, UInt8.toNat_ofNat', Option.some.injEq, Prod.mk.injEq, and_true]
      omega

theorem encodeLE_of_decodeLE {width n : Nat} {bytes rest : Bytes}
    (decoded : decodeLE width bytes = some (n, rest)) :
    n < 256 ^ width ∧ bytes = encodeLE width n ++ rest := by
  induction width generalizing n bytes with
  | zero =>
      cases decoded
      exact ⟨by simp, rfl⟩
  | succ width ih =>
      cases bytes with
      | nil => cases decoded
      | cons b bytes =>
          obtain ⟨⟨m, rest'⟩, later, eq⟩ := Option.map_eq_some_iff.mp decoded
          cases eq
          obtain ⟨small, rfl⟩ := ih later
          have digit := b.toNat_lt
          have front : (b.toNat + 256 * m) / 256 = m := by omega
          refine ⟨by rw [Nat.pow_succ]; omega, ?_⟩
          show b :: _ = UInt8.ofNat (b.toNat + 256 * m) :: _
          have low : UInt8.ofNat (b.toNat + 256 * m) = b := by
            rw [← UInt8.toNat_inj, UInt8.toNat_ofNat']
            omega
          rw [front, low]
          rfl

/-- A number of `width` bytes. -/
def littleEndian (width : Nat) : Codec {n : Nat // n < 256 ^ width} where
  encode n := encodeLE width n.val
  decode bytes := do
    let (n, rest) ← decodeLE width bytes
    if small : n < 256 ^ width then some (⟨n, small⟩, rest) else none
  decode_encode n rest := by
    rw [decodeLE_encodeLE n.property]
    simp only [Option.bind_eq_bind, Option.bind_some, dif_pos n.property]
  encode_of_decode bytes n rest decoded := by
    simp only [Option.bind_eq_bind, Option.bind_eq_some_iff] at decoded
    obtain ⟨⟨n', rest'⟩, number, fits⟩ := decoded
    obtain ⟨small, rfl⟩ := encodeLE_of_decodeLE number
    dsimp only at fits
    rw [dif_pos small] at fits
    cases fits
    rfl

/-- A list of bytes behind its length, a `u32`. -/
def byteString : Codec {bytes : Bytes // bytes.length < 256 ^ 4} where
  encode bytes := encodeLE 4 bytes.val.length ++ bytes.val
  decode bytes := do
    let (n, rest) ← decodeLE 4 bytes
    if enough : n ≤ rest.length ∧ n < 256 ^ 4 then
      some (⟨rest.take n, by rw [List.length_take]; omega⟩, rest.drop n)
    else none
  decode_encode bytes rest := by
    have enough : bytes.val.length ≤ (bytes.val ++ rest).length ∧ bytes.val.length < 256 ^ 4 :=
      ⟨by rw [List.length_append]; omega, bytes.property⟩
    rw [List.append_assoc, decodeLE_encodeLE bytes.property]
    simp only [Option.bind_eq_bind, Option.bind_some, dif_pos enough, List.take_left',
      List.drop_left']
  encode_of_decode bytes a rest decoded := by
    simp only [Option.bind_eq_bind, Option.bind_eq_some_iff] at decoded
    obtain ⟨⟨n, rest'⟩, number, split⟩ := decoded
    obtain ⟨small, rfl⟩ := encodeLE_of_decodeLE number
    dsimp only at split
    split at split
    · rename_i enough
      cases split
      simp [enough.1]
    · cases split

/-- Exactly `width` bytes, as they are. -/
def fixed (width : Nat) : Codec {bytes : Bytes // bytes.length = width} where
  encode bytes := bytes.val
  decode bytes :=
    if enough : width ≤ bytes.length then
      some (⟨bytes.take width, List.length_take_of_le enough⟩, bytes.drop width)
    else none
  decode_encode bytes rest := by
    have enough : width ≤ (bytes.val ++ rest).length := by
      rw [List.length_append, bytes.property]
      exact Nat.le_add_right ..
    rw [dif_pos enough]
    simp only [List.take_left' bytes.property, List.drop_left' bytes.property]
  encode_of_decode bytes a rest decoded := by
    split at decoded
    · cases decoded
      exact (List.take_append_drop width bytes).symm
    · cases decoded

theorem length_utf8Bytes_le (s : String) : (utf8Bytes s).length ≤ 4 * s.toList.length := by
  have chars : utf8Bytes s = s.toList.flatMap String.utf8EncodeChar := by
    rw [utf8Bytes, ← String.utf8Encode_toList, List.utf8Encode]
    simp
  rw [chars]
  generalize s.toList = cs
  induction cs with
  | nil => simp
  | cons c cs ih =>
    have one := c.utf8Size_le_four
    rw [List.flatMap_cons, List.length_append, String.length_utf8EncodeChar, List.length_cons]
    omega

/-- The text that the bytes are the UTF-8 of. -/
def readText (bytes : {bytes : Bytes // bytes.length < 256 ^ 4}) :
    Option {s : String // (utf8Bytes s).length < 256 ^ 4} :=
  match String.fromUTF8? ⟨bytes.val.toArray⟩ with
  | some s => if small : (utf8Bytes s).length < 256 ^ 4 then some ⟨s, small⟩ else none
  | none => none

/-- A string behind the length of its UTF-8. -/
def text : Codec {s : String // (utf8Bytes s).length < 256 ^ 4} :=
  byteString.refine readText (fun s => ⟨utf8Bytes s.val, s.property⟩)
    (by
      intro s
      have whole : (⟨(utf8Bytes s.val).toArray⟩ : ByteArray) = s.val.toByteArray := by
        simp [utf8Bytes]
      rw [readText, whole, String.fromUTF8?, dif_pos s.val.isValidUTF8]
      exact dif_pos s.property)
    (by
      intro bytes s read
      unfold readText at read
      split at read
      · rename_i t decoded
        split at read
        · cases read
          unfold String.fromUTF8? at decoded
          split at decoded
          · cases decoded
            exact Subtype.ext (by simp [utf8Bytes, String.fromUTF8])
          · cases decoded
        · cases read
      · cases read)

end Codec

end Foundation
