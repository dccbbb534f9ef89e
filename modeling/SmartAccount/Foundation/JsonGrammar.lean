import SmartAccount.Foundation.Json

/-!
# The grammar of JSON texts

`Denotes depth cs v` says that the text `cs` is a JSON value and denotes `v`, nested no deeper
than `depth`.  A natural number below `exact` is denoted by its digits alone; every other number
is kept as its literal, so what a reader makes of it is left open.  A name that occurs twice in
an object stays twice in `v`, in the order of the text.
-/

namespace Foundation

/-! ## Values -/

/-- What a JSON text denotes. -/
inductive JsonValue where
  | null
  | bool (b : Bool)
  | natural (n : Nat)
  /-- Any other number, as it is written. -/
  | number (literal : List Char)
  | str (s : String)
  | arr (items : List JsonValue)
  | obj (fields : List (String × JsonValue))

namespace JsonValue

/-- The field of an object, the last one where a name occurs twice. -/
def field? : JsonValue → String → Option JsonValue
  | obj fields, key => (fields.reverse.find? fun field => field.1 = key).map Prod.snd
  | _, _ => none

def asStr : JsonValue → Option String
  | str s => some s
  | _ => none

end JsonValue

namespace Json

mutual

/-- The value that a reader is to find. -/
def value : Json → JsonValue
  | null => .null
  | bool b => .bool b
  | num n => .natural n
  | str s => .str s
  | arr items => .arr (values items)
  | obj fields => .obj (fieldValues fields)

def values : List Json → List JsonValue
  | [] => []
  | item :: items => item.value :: values items

def fieldValues : List (String × Json) → List (String × JsonValue)
  | [] => []
  | (key, item) :: fields => (key, item.value) :: fieldValues fields

end

mutual

/-- How deep arrays and objects are nested. -/
@[simp] def depth : Json → Nat
  | arr items => depths items + 1
  | obj fields => fieldDepths fields + 1
  | _ => 0

def depths : List Json → Nat
  | [] => 0
  | item :: items => max item.depth (depths items)

def fieldDepths : List (String × Json) → Nat
  | [] => 0
  | (_, item) :: fields => max item.depth (fieldDepths fields)

end

mutual

/-- The numbers in a value. -/
def numbers : Json → List Nat
  | num n => [n]
  | arr items => numbersOf items
  | obj fields => fieldNumbers fields
  | _ => []

def numbersOf : List Json → List Nat
  | [] => []
  | item :: items => item.numbers ++ numbersOf items

def fieldNumbers : List (String × Json) → List Nat
  | [] => []
  | (_, item) :: fields => item.numbers ++ fieldNumbers fields

end

theorem depths_le_iff {items : List Json} {d : Nat} :
    depths items ≤ d ↔ ∀ item ∈ items, item.depth ≤ d := by
  induction items with
  | nil => simp [depths]
  | cons item items ih => rw [depths, Nat.max_le, ih, List.forall_mem_cons]

theorem fieldDepths_le_iff {fields : List (String × Json)} {d : Nat} :
    fieldDepths fields ≤ d ↔ ∀ field ∈ fields, field.2.depth ≤ d := by
  induction fields with
  | nil => simp [fieldDepths]
  | cons field fields ih => rw [fieldDepths, Nat.max_le, ih, List.forall_mem_cons]

theorem mem_numbersOf {items : List Json} {n : Nat} :
    n ∈ numbersOf items ↔ ∃ item ∈ items, n ∈ item.numbers := by
  induction items with
  | nil => simp [numbersOf]
  | cons item items ih => simp [numbersOf, ih]

theorem mem_fieldNumbers {fields : List (String × Json)} {n : Nat} :
    n ∈ fieldNumbers fields ↔ ∃ field ∈ fields, n ∈ field.2.numbers := by
  induction fields with
  | nil => simp [fieldNumbers]
  | cons field fields ih => simp [fieldNumbers, ih]

/-- The value is nested no deeper than `depth`, and its numbers are below `exact`. -/
structure Fits (exact depth : Nat) (j : Json) : Prop where
  depth_le : j.depth ≤ depth
  small : ∀ n ∈ j.numbers, n < exact

theorem Fits.item {exact depth : Nat} {items : List Json}
    (fits : (arr items).Fits exact (depth + 1)) {item : Json} (inside : item ∈ items) :
    item.Fits exact depth where
  depth_le := depths_le_iff.mp (Nat.le_of_succ_le_succ fits.depth_le) item inside
  small n member := fits.small n (mem_numbersOf.mpr ⟨item, inside, member⟩)

theorem Fits.field {exact depth : Nat} {fields : List (String × Json)}
    (fits : (obj fields).Fits exact (depth + 1)) {field : String × Json} (inside : field ∈ fields) :
    field.2.Fits exact depth where
  depth_le := fieldDepths_le_iff.mp (Nat.le_of_succ_le_succ fits.depth_le) field inside
  small n member := fits.small n (mem_fieldNumbers.mpr ⟨field, inside, member⟩)

end Json

namespace JsonText

/-! ## Marks -/

def quoteMark : Char := Char.ofNat 0x22
def backslash : Char := Char.ofNat 0x5C
def comma : Char := Char.ofNat 0x2C
def colon : Char := Char.ofNat 0x3A
def openBracket : Char := Char.ofNat 0x5B
def closeBracket : Char := Char.ofNat 0x5D
def openBrace : Char := Char.ofNat 0x7B
def closeBrace : Char := Char.ofNat 0x7D
def minusSign : Char := Char.ofNat 0x2D
def plusSign : Char := Char.ofNat 0x2B
def point : Char := Char.ofNat 0x2E

/-- Insignificant white space: space, tab, line feed, carriage return. -/
def isSpace (c : Char) : Bool :=
  c.toNat = 0x20 || c.toNat = 0x09 || c.toNat = 0x0A || c.toNat = 0x0D

def White (cs : List Char) : Prop := ∀ c ∈ cs, isSpace c = true

/-! ## Numbers -/

def isDigit (c : Char) : Bool := 0x30 ≤ c.toNat && c.toNat ≤ 0x39

def isExponentMark (c : Char) : Bool := c.toNat = 0x65 || c.toNat = 0x45

def Digits (cs : List Char) : Prop := cs ≠ [] ∧ ∀ c ∈ cs, isDigit c = true

/-- Digits without a leading zero, but for zero itself. -/
def isIntegral : List Char → Bool
  | [] => false
  | [c] => isDigit c
  | c :: cs => isDigit c && c.toNat ≠ 0x30 && cs.all isDigit

inductive IsFraction : List Char → Prop
  | absent : IsFraction []
  | digits {ds : List Char} (digits : Digits ds) : IsFraction (point :: ds)

inductive IsExponent : List Char → Prop
  | absent : IsExponent []
  | digits {mark : Char} {sign ds : List Char} (marked : isExponentMark mark = true)
      (signed : sign = [] ∨ sign = [plusSign] ∨ sign = [minusSign]) (digits : Digits ds) :
      IsExponent (mark :: (sign ++ ds))

/-- The number that digits name. -/
def digitsValue (cs : List Char) : Nat := Nat.ofDigitChars 10 cs 0

/-- The value of a number with this sign, whole part, and rest. -/
def numberValue (exact : Nat) (sign whole rest : List Char) : JsonValue :=
  if sign = [] ∧ rest = [] ∧ digitsValue whole < exact then .natural (digitsValue whole)
  else .number (sign ++ whole ++ rest)

/-! ## Strings -/

/-- The character that a code point names, unless it is a surrogate. -/
def scalar (n : Nat) : Option Char := if n.isValidChar then some (Char.ofNat n) else none

def hexValue (c : Char) : Option Nat :=
  let n := c.toNat
  if 0x30 ≤ n ∧ n ≤ 0x39 then some (n - 0x30)
  else if 0x41 ≤ n ∧ n ≤ 0x46 then some (n - 0x37)
  else if 0x61 ≤ n ∧ n ≤ 0x66 then some (n - 0x57)
  else none

/-- Four hexadecimal digits. -/
def hexFour (a b c d : Char) : Option Nat := do
  let a ← hexValue a
  let b ← hexValue b
  let c ← hexValue c
  let d ← hexValue d
  return a * 0x1000 + b * 0x100 + c * 0x10 + d

/-- The character behind a backslash that stands for one. -/
def shortEscape (c : Char) : Option Char :=
  match c.toNat with
  | 0x22 => some quoteMark
  | 0x5C => some backslash
  | 0x2F => some (Char.ofNat 0x2F)
  | 0x62 => some (Char.ofNat 0x08)
  | 0x66 => some (Char.ofNat 0x0C)
  | 0x6E => some (Char.ofNat 0x0A)
  | 0x72 => some (Char.ofNat 0x0D)
  | 0x74 => some (Char.ofNat 0x09)
  | _ => none

def escapeMark : Char := Char.ofNat 0x75

/-- A pair of surrogates and the code point they stand for. -/
def surrogatePair (high low : Nat) : Option Nat :=
  if 0xD800 ≤ high ∧ high < 0xDC00 ∧ 0xDC00 ≤ low ∧ low < 0xE000 then
    some (0x10000 + (high - 0xD800) * 0x400 + (low - 0xDC00))
  else none

/-- One character of a string, as it is written. -/
inductive Piece : List Char → Char → Prop
  | plain {c : Char} (printable : 0x20 ≤ c.toNat) (free : c ≠ quoteMark ∧ c ≠ backslash) :
      Piece [c] c
  | short {e c : Char} (escape : shortEscape e = some c) : Piece [backslash, e] c
  | unicode {a b c d char : Char} {n : Nat} (hex : hexFour a b c d = some n)
      (names : scalar n = some char) : Piece [backslash, escapeMark, a, b, c, d] char
  | pair {a b c d a' b' c' d' char : Char} {high low n : Nat} (first : hexFour a b c d = some high)
      (second : hexFour a' b' c' d' = some low) (joined : surrogatePair high low = some n)
      (names : scalar n = some char) :
      Piece [backslash, escapeMark, a, b, c, d, backslash, escapeMark, a', b', c', d'] char

/-- The characters of a string, as they are written. -/
inductive Body : List Char → List Char → Prop
  | nil : Body [] []
  | cons {piece cs : List Char} {c : Char} {s : List Char} (first : Piece piece c)
      (rest : Body cs s) : Body (piece ++ cs) (c :: s)

/-! ## Values -/

section Combinations

variable {α : Type} (item : List Char → α → Prop)

/-- A text with white space around it. -/
inductive Spaced : List Char → α → Prop
  | mk {before cs after : List Char} {a : α} (left : White before) (here : item cs a)
      (right : White after) : Spaced (before ++ (cs ++ after)) a

/-- A name and what it names. -/
inductive Field : List Char → String × α → Prop
  | mk {before name key middle cs : List Char} {a : α} (left : White before) (named : Body name key)
      (between : White middle) (here : Spaced item cs a) :
      Field (before ++ quoteMark :: (name ++ quoteMark :: (middle ++ colon :: cs)))
        (String.ofList key, a)

/-- One or more texts with commas between them. -/
inductive Many : List Char → List α → Prop
  | last {cs : List Char} {a : α} (here : item cs a) : Many cs [a]
  | cons {cs rest : List Char} {a : α} {as : List α} (here : item cs a) (more : Many rest as) :
      Many (cs ++ comma :: rest) (a :: as)

/-- What stands behind an opening mark, up to the closing one. -/
inductive Inner (closing : Char) : List Char → List α → Prop
  | empty {ws : List Char} (white : White ws) : Inner closing (ws ++ [closing]) []
  | many {cs : List Char} {as : List α} (here : Many item cs as) :
      Inner closing (cs ++ [closing]) as

end Combinations

/-- A value that holds no other. -/
inductive Scalar (exact : Nat) : List Char → JsonValue → Prop
  | null : Scalar exact "null".toList .null
  | true : Scalar exact "true".toList (.bool true)
  | false : Scalar exact "false".toList (.bool false)
  | number {sign whole fraction exponent : List Char} (signed : sign = [] ∨ sign = [minusSign])
      (integral : isIntegral whole = Bool.true) (fractional : IsFraction fraction)
      (scaled : IsExponent exponent) :
      Scalar exact (sign ++ (whole ++ (fraction ++ exponent)))
        (numberValue exact sign whole (fraction ++ exponent))
  | str {cs s : List Char} (body : Body cs s) :
      Scalar exact (quoteMark :: (cs ++ [quoteMark])) (.str (String.ofList s))

/-- A scalar, or an array or object of the values inside. -/
inductive Layer (exact : Nat) (inside : List Char → JsonValue → Prop) :
    List Char → JsonValue → Prop
  | scalar {cs : List Char} {v : JsonValue} (scalar : Scalar exact cs v) : Layer exact inside cs v
  | arr {cs : List Char} {items : List JsonValue}
      (inner : Inner (Spaced inside) closeBracket cs items) :
      Layer exact inside (openBracket :: cs) (.arr items)
  | obj {cs : List Char} {fields : List (String × JsonValue)}
      (inner : Inner (Field inside) closeBrace cs fields) :
      Layer exact inside (openBrace :: cs) (.obj fields)

/-- The text is a value, nested no deeper than `depth`. -/
def Denotes (exact : Nat) : Nat → List Char → JsonValue → Prop
  | 0 => Scalar exact
  | depth + 1 => Layer exact (Denotes exact depth)

end JsonText

end Foundation
