import SmartAccount.Foundation.Text

/-!
# JSON values and their text

JSON values with natural numbers, their compact text, and base64 strings.  `size` counts the
bytes of the text: that of an object is the sum of its fields' (`size_obj`), and base64 turns
every three bytes, begun or full, into four characters (`size_base64`).
-/

namespace Foundation

/-! ## Values -/

inductive Json where
  | null
  | bool (b : Bool)
  | num (n : Nat)
  | str (s : String)
  | arr (items : List Json)
  | obj (fields : List (String × Json))

namespace Json

/-- A field of an object; null where there is none. -/
def get (j : Json) (key : String) : Json :=
  match j with
  | obj fields => ((fields.find? fun field => field.1 = key).map Prod.snd).getD null
  | _ => null

def asStr : Json → Option String
  | str s => some s
  | _ => none

def asNum : Json → Option Nat
  | num n => some n
  | _ => none

/-- `a ?? b`. -/
def coalesce : Json → Json → Json
  | null, b => b
  | a, _ => a

/-- Whether JavaScript takes a value for true. -/
def truthy : Json → Bool
  | null => false
  | bool b => b
  | num n => n ≠ 0
  | str s => s ≠ ""
  | _ => true

/-- Null, or the value. -/
def ofOption {α : Type} (toJson : α → Json) : Option α → Json
  | none => null
  | some a => toJson a

@[simp] theorem ofOption_some {α : Type} (toJson : α → Json) (a : α) :
    ofOption toJson (some a) = toJson a := rfl

/-! ## Text -/

/-- A character inside a JSON string. -/
def escapeChar (c : Char) : String :=
  match c.toNat with
  | 0x22 => "\\\""
  | 0x5C => "\\\\"
  | 0x08 => "\\b"
  | 0x09 => "\\t"
  | 0x0A => "\\n"
  | 0x0C => "\\f"
  | 0x0D => "\\r"
  | n =>
      if n < 0x20 then "\\u00" ++ String.ofList [Nat.digitChar (n / 16), Nat.digitChar (n % 16)]
      else String.singleton c

def escape : List Char → String
  | [] => ""
  | c :: cs => escapeChar c ++ escape cs

def quote (s : String) : String := "\"" ++ escape s.toList ++ "\""

mutual

/-- The compact text of a value. -/
def render : Json → String
  | null => "null"
  | bool b => if b then "true" else "false"
  | num n => toString n
  | str s => quote s
  | arr items => "[" ++ renderItems items ++ "]"
  | obj fields => "\x7b" ++ renderFields fields ++ "\x7d"

def renderItems : List Json → String
  | [] => ""
  | [item] => render item
  | item :: items => render item ++ "," ++ renderItems items

def renderFields : List (String × Json) → String
  | [] => ""
  | [(key, value)] => quote key ++ ":" ++ render value
  | (key, value) :: fields => quote key ++ ":" ++ render value ++ "," ++ renderFields fields

end

/-! ## Sizes -/

/-- The bytes of the text. -/
def size (j : Json) : Nat := j.render.utf8ByteSize

/-- The bytes of a field, with the colon and the mark behind it. -/
def fieldSize (field : String × Json) : Nat := (str field.1).size + field.2.size + 2

theorem renderFields_size {fields : List (String × Json)} (some_ : fields ≠ []) :
    (renderFields fields).utf8ByteSize + 1 = (fields.map fieldSize).sum := by
  induction fields with
  | nil => exact absurd rfl some_
  | cons field fields ih =>
      obtain ⟨key, value⟩ := field
      have first : (quote key ++ ":" ++ render value).utf8ByteSize + 1 = fieldSize (key, value) := by
        rw [String.utf8ByteSize_append, String.utf8ByteSize_append]
        show (str key).size + 1 + value.size + 1 = (str key).size + value.size + 2
        omega
      cases fields with
      | nil =>
          rw [renderFields, List.map_singleton, List.sum_singleton]
          exact first
      | cons next fields =>
          have rest := ih (List.cons_ne_nil _ _)
          rw [List.map_cons, List.sum_cons, ← rest, ← first, renderFields,
            String.utf8ByteSize_append, String.utf8ByteSize_append]
          · show _ + 1 + _ + 1 = _
            omega
          · exact List.cons_ne_nil _ _

theorem size_obj {fields : List (String × Json)} (some_ : fields ≠ []) :
    (obj fields).size = 1 + (fields.map fieldSize).sum := by
  have inner := renderFields_size some_
  rw [size, render, String.utf8ByteSize_append, String.utf8ByteSize_append]
  show 1 + _ + 1 = _
  omega

/-- A value takes no more than an object it stands in. -/
theorem size_le_obj {fields : List (String × Json)} {key : String} {value : Json}
    (inside : (key, value) ∈ fields) : value.size ≤ (obj fields).size := by
  obtain ⟨before, after, rfl⟩ := List.append_of_mem inside
  rw [size_obj (List.append_ne_nil_of_right_ne_nil _ (List.cons_ne_nil _ _)), List.map_append,
    List.sum_append, List.map_cons, List.sum_cons]
  show _ ≤ 1 + (_ + ((str key).size + value.size + 2 + _))
  omega

/-- What a key takes beside its value. -/
def keySize (key : String) : Nat := (str key).size + 2

theorem sum_fieldSize (fields : List (String × Json)) :
    (fields.map fieldSize).sum =
      ((fields.map Prod.fst).map keySize).sum + ((fields.map Prod.snd).map size).sum := by
  induction fields with
  | nil => rfl
  | cons field fields ih =>
      simp only [List.map_cons, List.sum_cons, ih, fieldSize, keySize]
      omega

/-! ## Base64 -/

/-- The alphabet of base64. -/
def base64Char (n : Nat) : Char :=
  if n < 26 then Char.ofNat (n + 65)
  else if n < 52 then Char.ofNat (n + 71)
  else if n < 62 then Char.ofNat (n - 4)
  else if n = 62 then Char.ofNat 43
  else Char.ofNat 47

/-- Three bytes become four characters; a rest of one or two is padded. -/
def base64Chars : Bytes → List Char
  | [] => []
  | [a] =>
      let n := a.toNat * 0x10000
      [base64Char (n / 0x40000), base64Char (n / 0x1000 % 64), Char.ofNat 61, Char.ofNat 61]
  | [a, b] =>
      let n := a.toNat * 0x10000 + b.toNat * 0x100
      [base64Char (n / 0x40000), base64Char (n / 0x1000 % 64), base64Char (n / 0x40 % 64),
        Char.ofNat 61]
  | a :: b :: c :: rest =>
      let n := a.toNat * 0x10000 + b.toNat * 0x100 + c.toNat
      base64Char (n / 0x40000) :: base64Char (n / 0x1000 % 64) :: base64Char (n / 0x40 % 64) ::
        base64Char (n % 64) :: base64Chars rest

/-- Bytes as a base64 string. -/
def base64 (bytes : Bytes) : Json := str (String.ofList (base64Chars bytes))

theorem base64Chars_length (bytes : Bytes) :
    (base64Chars bytes).length = 4 * ((bytes.length + 2) / 3) := by
  induction bytes using base64Chars.induct with
  | case1 => rfl
  | case2 a => simp [base64Chars]
  | case3 a b => simp [base64Chars]
  | case4 a b c rest ih =>
      simp only [base64Chars, List.length_cons, ih]
      omega

/-- A character that stands for itself, in one byte. -/
def IsPlain (c : Char) : Prop := (escapeChar c).utf8ByteSize = 1

instance (c : Char) : Decidable (IsPlain c) := inferInstanceAs (Decidable (_ = _))

theorem base64Char_plain (n : Nat) : IsPlain (base64Char n) := by
  have within : ∀ k : Fin 63, IsPlain (base64Char k) := by decide +kernel
  rcases Nat.lt_or_ge n 63 with below | above
  · exact within ⟨n, below⟩
  · have slash : base64Char n = Char.ofNat 47 := by
      simp only [base64Char]
      rw [if_neg (by omega), if_neg (by omega), if_neg (by omega), if_neg (by omega)]
    rw [slash]
    decide +kernel

theorem base64Chars_plain (bytes : Bytes) : ∀ c ∈ base64Chars bytes, IsPlain c := by
  have pad : IsPlain (Char.ofNat 61) := by decide +kernel
  induction bytes using base64Chars.induct with
  | case1 => exact fun c inside => absurd inside List.not_mem_nil
  | case2 a =>
      simp only [base64Chars, List.forall_mem_cons]
      exact ⟨base64Char_plain _, base64Char_plain _, pad, pad,
        fun c inside => absurd inside List.not_mem_nil⟩
  | case3 a b =>
      simp only [base64Chars, List.forall_mem_cons]
      exact ⟨base64Char_plain _, base64Char_plain _, base64Char_plain _, pad,
        fun c inside => absurd inside List.not_mem_nil⟩
  | case4 a b c rest ih =>
      simp only [base64Chars, List.forall_mem_cons]
      exact ⟨base64Char_plain _, base64Char_plain _, base64Char_plain _, base64Char_plain _, ih⟩

/-- Plain characters take a byte each. -/
theorem escape_plain {cs : List Char} (plain : ∀ c ∈ cs, IsPlain c) :
    (escape cs).utf8ByteSize = cs.length := by
  induction cs with
  | nil => rfl
  | cons c cs ih =>
      obtain ⟨first, rest⟩ := List.forall_mem_cons.mp plain
      rw [escape, String.utf8ByteSize_append, first, ih rest, List.length_cons, Nat.add_comm]

theorem size_base64 (bytes : Bytes) : (base64 bytes).size = 2 + 4 * ((bytes.length + 2) / 3) := by
  rw [size, base64, render, quote, String.utf8ByteSize_append, String.utf8ByteSize_append,
    String.toList_ofList, escape_plain (base64Chars_plain bytes), base64Chars_length]
  show 1 + _ + 1 = _
  omega

end Json

end Foundation
