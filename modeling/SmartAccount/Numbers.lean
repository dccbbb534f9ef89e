import Mathlib.Algebra.Order.BigOperators.Group.List
import SmartAccount.Foundation.Decimal
import SmartAccount.Types

/-!
# Numbers in results and bounds

What `parse_u128_json` and `parse_i128_json` accept against the grammar they document: an
integer, bare or in double quotes, and no noise around it (`InGrammar`).  The code trims white
space inside the quotes and `from_str` takes a leading plus sign, so that it also reads some
noisy texts (`parseU128Json_iff`).

The numeric substitutions read a saved result with `parse_u128_json` and print theirs so that it
is read back; the parts of a percentage split never add up to more than the whole
(`percentU128_splits`).
-/

namespace SmartAccount

open Foundation

/-! ## The documented grammar -/

/-- The code point of a double quote, of a plus sign and of a minus sign. -/
def quote : UInt8 := 0x22
def plus : Nat := 0x2B
def minus : Nat := 0x2D

/-- An unsigned integer below `2 ^ 128`. -/
def U128Text (text : List Nat) (n : Nat) : Prop := Numeral text n ∧ n < 2 ^ 128

/-- An integer of 128 bits with an optional minus sign. -/
def I128Text (text : List Nat) (v : Int) : Prop :=
  (∃ n : Nat, Numeral text n ∧ n < 2 ^ 127 ∧ v = n) ∨
    ∃ digits, ∃ n : Nat, text = minus :: digits ∧ Numeral digits n ∧ n ≤ 2 ^ 127 ∧ v = -n

/-- The bytes are an integer text, bare or inside one pair of double quotes. -/
def InGrammar {α : Type} (Text : List Nat → α → Prop) (bytes : Bytes) (v : α) : Prop :=
  ∃ text : Bytes, Text (text.map UInt8.toNat) v ∧
    (bytes = text ∨ bytes = quote :: (text ++ [quote]))

/-- An integer below `bound` behind a plus sign. -/
def PlusText (bound : Nat) (text : List Nat) : Prop :=
  ∃ digits n, text = plus :: digits ∧ Numeral digits n ∧ n < bound

/-- The bytes, without a pair of enclosing quotes, are an integer with white space around it or
a plus sign in front. -/
def Noisy {α : Type} (Text : List Nat → α → Prop) (bound : Nat) (bytes : Bytes) : Prop :=
  ∃ left word right, fromUtf8 (trimJsonQuotes bytes) = some (left ++ word ++ right) ∧
    IsWhite left ∧ IsWhite right ∧
      ((∃ v, Text word v) ∧ (left ≠ [] ∨ right ≠ []) ∨ PlusText bound word)

/-! ## Quotes -/

theorem trimJsonQuotes_quoted (text : Bytes) :
    trimJsonQuotes (quote :: (text ++ [quote])) = text := by
  simp [trimJsonQuotes, quote]

/-- Bytes that do not start with a quote are kept. -/
theorem trimJsonQuotes_bare {bytes : Bytes} (bare : bytes.head? ≠ some quote) :
    trimJsonQuotes bytes = bytes := by
  unfold trimJsonQuotes
  split
  · exact absurd rfl bare
  · rfl

/-- What is left without quotes was bare or in quotes. -/
theorem trimJsonQuotes_cases (bytes : Bytes) :
    bytes = trimJsonQuotes bytes ∨ bytes = quote :: (trimJsonQuotes bytes ++ [quote]) := by
  unfold trimJsonQuotes
  split
  · rename_i rest
    split
    · rename_i last
      exact .inr (congrArg _ (List.dropLast_append_getLast? _ last).symm)
    · exact .inl rfl
  · exact .inl rfl

/-! ## What the code reads -/

section Reading

variable {α : Type} {Text : List Nat → α → Prop} {bound : Nat}

/-- What an integer text is like, and what reading a word gives. -/
structure Reads (Text : List Nat → α → Prop) (bound : Nat) (read : List Nat → Option α) :
    Prop where
  nonempty : ∀ {text v}, Text text v → text ≠ []
  /-- Digits, and a minus sign at most. -/
  chars : ∀ {text v}, Text text v → ∀ c ∈ text, IsDigit c ∨ c = minus
  /-- The integer texts are read, and those with a plus sign. -/
  reads : ∀ {word v}, Text word v → read word = some v
  readsPlus : ∀ {word}, PlusText bound word → (read word).isSome = true
  read : ∀ {word v}, read word = some v → Text word v ∨ PlusText bound word

theorem minus_not_white : isWhiteSpace minus = false := by decide

theorem plus_not_white : isWhiteSpace plus = false := by decide

namespace Reads

variable {read : List Nat → Option α}

theorem char_not_white {c : Nat} (char : IsDigit c ∨ c = minus) : isWhiteSpace c = false := by
  rcases char with digit | rfl
  · exact digit.not_white
  · exact minus_not_white

theorem char_ascii {c : Nat} (char : IsDigit c ∨ c = minus) : c < 0x80 ∧ c ≠ 0x22 ∧ c ≠ plus := by
  unfold IsDigit minus at char
  unfold plus
  omega

theorem bare (spec : Reads Text bound read) {text : List Nat} {v : α} (is : Text text v) :
    Bare text :=
  ⟨fun c first => char_not_white (spec.chars is c (List.mem_of_mem_head? first)),
    fun c last => char_not_white (spec.chars is c (List.mem_of_getLast? last))⟩

theorem bare_plus {text : List Nat} (is : PlusText bound text) : Bare text ∧ text ≠ [] := by
  obtain ⟨digits, n, rfl, numeral, -⟩ := is
  refine ⟨⟨?_, ?_⟩, List.cons_ne_nil _ _⟩
  · rintro _ ⟨⟩
    exact plus_not_white
  · intro c last
    rw [List.getLast?_cons_of_ne_nil numeral.nonempty] at last
    exact (numeral.digits c (List.mem_of_getLast? last)).not_white

/-- A text of the grammar, quoted or not, decodes to itself. -/
theorem fromUtf8_of_inGrammar (spec : Reads Text bound read) {bytes : Bytes} {v : α}
    (grammar : InGrammar Text bytes v) :
    ∃ text, Text text v ∧ fromUtf8 (trimJsonQuotes bytes) = some text := by
  obtain ⟨text, is, shape⟩ := grammar
  have stripped : trimJsonQuotes bytes = text := by
    rcases shape with rfl | rfl
    · refine trimJsonQuotes_bare fun quoted => ?_
      have inside := List.mem_map_of_mem (f := UInt8.toNat) (List.mem_of_mem_head? quoted)
      exact (char_ascii (spec.chars is _ inside)).2.1 rfl
    · exact trimJsonQuotes_quoted text
  refine ⟨text.map UInt8.toNat, is, ?_⟩
  rw [stripped]
  exact (fromUtf8_eq_ascii fun c inside => (char_ascii (spec.chars is c inside)).1).mpr rfl

/-- Reading succeeds on the grammar. -/
theorem parse_of_inGrammar (spec : Reads Text bound read) {bytes : Bytes} {v : α}
    (grammar : InGrammar Text bytes v) :
    ((fromUtf8 (trimJsonQuotes bytes)).bind fun cs => read (trim cs)) = some v := by
  obtain ⟨text, is, decoded⟩ := spec.fromUtf8_of_inGrammar grammar
  have kept := @trim_around [] _ [] (by simp [IsWhite]) (by simp [IsWhite])
    (spec.bare is) (spec.nonempty is)
  rw [List.nil_append, List.append_nil] at kept
  rw [decoded, Option.bind_some, kept]
  exact spec.reads is

/-- Whatever is read is in the grammar or noisy. -/
theorem inGrammar_or_noisy (spec : Reads Text bound read) {bytes : Bytes} {v : α}
    (parsed : ((fromUtf8 (trimJsonQuotes bytes)).bind fun cs => read (trim cs)) = some v) :
    InGrammar Text bytes v ∨ Noisy Text bound bytes := by
  obtain ⟨cs, decoded, word⟩ := Option.bind_eq_some_iff.mp parsed
  obtain ⟨left, right, before, after, around⟩ := exists_trim cs
  rcases spec.read word with is | signed
  · by_cases noise : left ≠ [] ∨ right ≠ []
    · exact .inr ⟨left, trim cs, right, by rw [decoded, ← around], before, after,
        .inl ⟨⟨v, is⟩, noise⟩⟩
    · simp only [not_or, ne_eq, not_not] at noise
      obtain ⟨rfl, rfl⟩ := noise
      rw [List.nil_append, List.append_nil] at around
      rw [← around] at is
      have same := (fromUtf8_eq_ascii fun c inside => (char_ascii (spec.chars is c inside)).1).mp
        decoded
      refine .inl ⟨trimJsonQuotes bytes, ?_, trimJsonQuotes_cases bytes⟩
      rw [same]
      exact is
  · exact .inr ⟨left, trim cs, right, by rw [decoded, ← around], before, after, .inr signed⟩

/-- A noisy text is read, and is not in the grammar. -/
theorem parse_of_noisy (spec : Reads Text bound read) {bytes : Bytes}
    (noisy : Noisy Text bound bytes) :
    (∃ v, ((fromUtf8 (trimJsonQuotes bytes)).bind fun cs => read (trim cs)) = some v) ∧
      ∀ v, ¬ InGrammar Text bytes v := by
  obtain ⟨left, word, right, decoded, before, after, kind⟩ := noisy
  constructor
  · rcases kind with ⟨⟨v, is⟩, -⟩ | signed
    · refine ⟨v, ?_⟩
      rw [decoded, Option.bind_some, trim_around before after (spec.bare is) (spec.nonempty is)]
      exact spec.reads is
    · obtain ⟨bare, nonempty⟩ := bare_plus signed
      obtain ⟨v, reads⟩ := Option.isSome_iff_exists.mp (spec.readsPlus signed)
      refine ⟨v, ?_⟩
      rw [decoded, Option.bind_some, trim_around before after bare nonempty]
      exact reads
  · intro v grammar
    obtain ⟨text, is, plain⟩ := spec.fromUtf8_of_inGrammar grammar
    obtain rfl := Option.some.inj (plain.symm.trans decoded)
    have chars := spec.chars is
    have unspaced : ∀ {part : List Nat}, IsWhite part →
        (∀ c ∈ part, c ∈ left ++ word ++ right) → part = [] := by
      intro part white inside
      refine List.eq_nil_iff_forall_not_mem.mpr fun c member => ?_
      have bare := char_not_white (chars c (inside c member))
      rw [white c member] at bare
      cases bare
    rcases kind with ⟨-, noise⟩ | ⟨digits, n, rfl, -, -⟩
    · rcases noise with noise | noise
      · exact noise (unspaced before fun c member => by simp [member])
      · exact noise (unspaced after fun c member => by simp [member])
    · exact (char_ascii (chars plus (by simp))).2.2 rfl

/-- The parser accepts the grammar and nothing else exactly off the noisy texts. -/
theorem parse_iff (spec : Reads Text bound read) (bytes : Bytes) :
    (∀ v, ((fromUtf8 (trimJsonQuotes bytes)).bind fun cs => read (trim cs)) = some v ↔
      InGrammar Text bytes v) ↔ ¬ Noisy Text bound bytes := by
  constructor
  · intro exact_ noisy
    obtain ⟨⟨v, parsed⟩, outside⟩ := spec.parse_of_noisy noisy
    exact outside v ((exact_ v).mp parsed)
  · intro quiet v
    refine ⟨fun parsed => ?_, spec.parse_of_inGrammar⟩
    exact (spec.inGrammar_or_noisy parsed).resolve_right quiet

end Reads

end Reading

/-! ## The two parsers -/

theorem readU128_plain {cs : List Nat} (unsigned : ∀ rest, cs ≠ plus :: rest) :
    readU128 cs = (readDigits cs).filter (· < 2 ^ 128) := by
  unfold readU128
  split
  · exact absurd rfl (unsigned _)
  · rfl

theorem filter_readDigits_eq_some {cs : List Nat} {n : Nat} {p : Nat → Bool} :
    (readDigits cs).filter p = some n ↔ Numeral cs n ∧ p n = true := by
  rw [Option.filter_eq_some_iff, readDigits_eq_some]

theorem numeral_unsigned {cs : List Nat} {n : Nat} (numeral : Numeral cs n) {c : Nat}
    (sign : c = plus ∨ c = minus) (rest : List Nat) : cs ≠ c :: rest := by
  rintro rfl
  obtain ⟨low, -⟩ := numeral.digits c (List.mem_cons_self ..)
  unfold plus minus at sign
  omega

theorem readU128_reads : Reads U128Text (2 ^ 128) readU128 where
  nonempty is := is.1.nonempty
  chars is c inside := .inl (is.1.digits c inside)
  reads is := by
    rw [readU128_plain (numeral_unsigned is.1 (.inl rfl)), filter_readDigits_eq_some]
    exact ⟨is.1, decide_eq_true is.2⟩
  readsPlus := by
    rintro _ ⟨digits, n, rfl, numeral, small⟩
    exact Option.isSome_of_eq_some
      (filter_readDigits_eq_some.mpr ⟨numeral, decide_eq_true small⟩)
  read := by
    intro word v read
    unfold readU128 at read
    split at read
    · obtain ⟨numeral, small⟩ := filter_readDigits_eq_some.mp read
      exact .inr ⟨_, v, rfl, numeral, of_decide_eq_true small⟩
    · obtain ⟨numeral, small⟩ := filter_readDigits_eq_some.mp read
      exact .inl ⟨numeral, of_decide_eq_true small⟩

/-- Digits in range, as an integer that `sign` is applied to. -/
theorem signed_eq_some {cs : List Nat} {p : Nat → Bool} {sign : Int → Int} {v : Int} :
    Option.map sign (do
      let n ← (readDigits cs).filter p
      pure (n : Int)) = some v ↔ ∃ n : Nat, Numeral cs n ∧ p n = true ∧ sign n = v := by
  simp only [Option.map_eq_some_iff, Option.bind_eq_bind, Option.bind_eq_some_iff,
    filter_readDigits_eq_some, Option.pure_def, Option.some.injEq]
  constructor
  · rintro ⟨_, ⟨n, ⟨numeral, small⟩, rfl⟩, value⟩
    exact ⟨n, numeral, small, value⟩
  · rintro ⟨n, numeral, small, value⟩
    exact ⟨_, ⟨n, ⟨numeral, small⟩, rfl⟩, value⟩

theorem readI128_reads : Reads I128Text (2 ^ 127) readI128 where
  nonempty is := by
    rcases is with ⟨n, numeral, -⟩ | ⟨digits, n, rfl, -⟩
    · exact numeral.nonempty
    · exact List.cons_ne_nil _ _
  chars is c inside := by
    rcases is with ⟨n, numeral, -⟩ | ⟨digits, n, rfl, numeral, -⟩
    · exact .inl (numeral.digits c inside)
    · rcases List.mem_cons.mp inside with rfl | inside
      · exact .inr rfl
      · exact .inl (numeral.digits c inside)
  reads is := by
    rcases is with ⟨n, numeral, small, rfl⟩ | ⟨digits, n, rfl, numeral, small, rfl⟩
    · unfold readI128
      split
      · exact absurd rfl (numeral_unsigned numeral (.inr rfl) _)
      · exact absurd rfl (numeral_unsigned numeral (.inl rfl) _)
      · exact signed_eq_some.mpr ⟨n, numeral, decide_eq_true small, rfl⟩
    · exact signed_eq_some.mpr ⟨n, numeral, decide_eq_true small, rfl⟩
  readsPlus := by
    rintro _ ⟨digits, n, rfl, numeral, small⟩
    exact Option.isSome_of_eq_some
      (signed_eq_some.mpr ⟨n, numeral, decide_eq_true small, rfl⟩)
  read := by
    intro word v read
    unfold readI128 at read
    split at read
    · obtain ⟨n, numeral, small, rfl⟩ := signed_eq_some.mp read
      exact .inl (.inr ⟨_, n, rfl, numeral, of_decide_eq_true small, rfl⟩)
    · obtain ⟨n, numeral, small, rfl⟩ := signed_eq_some.mp read
      exact .inr ⟨_, n, rfl, numeral, of_decide_eq_true small⟩
    · obtain ⟨n, numeral, small, rfl⟩ := signed_eq_some.mp read
      exact .inl (.inl ⟨n, numeral, of_decide_eq_true small, rfl⟩)

/-- Both parsers accept exactly the documented grammar, except for integers with white space
inside the quotes or a plus sign. -/
theorem parseJson_exact_iff (bytes : Bytes) :
    ((∀ n, parseU128Json bytes = some n ↔ InGrammar U128Text bytes n) ↔
      ¬ Noisy U128Text (2 ^ 128) bytes) ∧
    ((∀ v, parseI128Json bytes = some v ↔ InGrammar I128Text bytes v) ↔
      ¬ Noisy I128Text (2 ^ 127) bytes) :=
  ⟨readU128_reads.parse_iff bytes, readI128_reads.parse_iff bytes⟩

/-- A number behind a plus sign and a blank is read although it is no integer text. -/
theorem parseJson_reads_noise :
    parseU128Json (utf8Bytes "\" +5\"") = some 5 ∧
      ¬ ∀ (bytes : Bytes) (n : Nat),
        parseU128Json bytes = some n ↔ InGrammar U128Text bytes n := by
  have parsed : parseU128Json (utf8Bytes "\" +5\"") = some 5 := by decide
  refine ⟨parsed, fun always => ?_⟩
  obtain ⟨text, is, decoded⟩ :=
    readU128_reads.fromUtf8_of_inGrammar ((always (utf8Bytes "\" +5\"") 5).mp parsed)
  have blank : fromUtf8 (trimJsonQuotes (utf8Bytes "\" +5\"")) = some [0x20, 0x2B, 0x35] := by
    decide
  obtain rfl := Option.some.inj (decoded.symm.trans blank)
  obtain ⟨low, -⟩ := is.1.digits 0x20 (by decide)
  exact absurd low (by decide)

/-! ## Numeric substitutions -/

/-- Printed numbers are read back. -/
theorem quotedDecimal_inGrammar {n : Nat} (small : n < 2 ^ 128) :
    InGrammar U128Text (quotedDecimal n) n := by
  have chars : (toString n).toList = Nat.toDigits 10 n := by
    rw [Nat.toString_eq_ofList_toDigits, String.toList_ofList]
  have numeral : Numeral ((utf8Bytes (toString n)).map UInt8.toNat) n := by
    rw [utf8Bytes_ascii, chars]
    · exact numeral_toDigits n
    · intro c inside
      rw [chars] at inside
      have digit := (numeral_toDigits n).digits _ (List.mem_map_of_mem inside)
      exact Nat.lt_of_le_of_lt digit.2 (by decide)
  refine ⟨utf8Bytes (toString n), ⟨numeral, small⟩, .inr ?_⟩
  rw [quotedDecimal, utf8Bytes_append, utf8Bytes_append]
  rfl

theorem parseU128Json_quotedDecimal {n : Nat} (small : n < 2 ^ 128) :
    parseU128Json (quotedDecimal n) = some n :=
  readU128_reads.parse_of_inGrammar (quotedDecimal_inGrammar small)

theorem applyPercent {saved : Bytes} {n bps : Nat} {reference : String}
    (parsed : parseU128Json saved = some n) (share : bps ≤ 10000) :
    applySubstitutionOp saved (.percentU128 bps) reference =
      if n * bps < 2 ^ 128 then .ok (quotedDecimal (n * bps / 10000))
      else .error (.numericOverflow reference "PercentU128") := by
  simp only [applySubstitutionOp, if_neg (Nat.not_lt.mpr share), parsed]

/-- The parts of a split add up to no more than the whole. -/
theorem sum_percent_le (n : Nat) (bpss : List Nat) :
    (bpss.map fun bps => n * bps / 10000).sum * 10000 ≤ n * bpss.sum := by
  induction bpss with
  | nil => simp
  | cons bps bpss ih =>
      have part := Nat.div_mul_le_self (n * bps) 10000
      simp only [List.map_cons, List.sum_cons, Nat.add_mul, Nat.mul_add]
      exact Nat.add_le_add part ih

/-- A number saved as an integer text: every share of a split that does not overflow is rounded
down, printed so that it is read back, and the shares do not exceed the number; what overflows
or is no share fails, and division rounds down. -/
theorem percentU128_splits {saved : Bytes} {n : Nat} (integer : InGrammar U128Text saved n)
    (reference : String) :
    (∀ bpss : List Nat, bpss.sum ≤ 10000 → (∀ bps ∈ bpss, n * bps < 2 ^ 128) →
      (∀ bps ∈ bpss, applySubstitutionOp saved (.percentU128 bps) reference =
          .ok (quotedDecimal (n * bps / 10000)) ∧
        parseU128Json (quotedDecimal (n * bps / 10000)) = some (n * bps / 10000)) ∧
      (bpss.map fun bps => n * bps / 10000).sum ≤ n) ∧
    (∀ bps, bps ≤ 10000 → 2 ^ 128 ≤ n * bps →
      applySubstitutionOp saved (.percentU128 bps) reference =
        .error (.numericOverflow reference "PercentU128")) ∧
    (∀ bps, 10000 < bps →
      applySubstitutionOp saved (.percentU128 bps) reference = .error (.invalidBps bps)) ∧
    (∀ d, 0 < d → applySubstitutionOp saved (.divU128 d) reference =
          .ok (quotedDecimal (n / d)) ∧
        parseU128Json (quotedDecimal (n / d)) = some (n / d)) ∧
    ∃ error, applySubstitutionOp saved (.divU128 0) reference = .error error := by
  have parsed : parseU128Json saved = some n := readU128_reads.parse_of_inGrammar integer
  have small : n < 2 ^ 128 := by
    obtain ⟨text, is, -⟩ := integer
    exact is.2
  refine ⟨fun bpss whole fits => ⟨fun bps inside => ?_, ?_⟩, fun bps share large => ?_,
    fun bps large => if_pos large, fun d positive => ⟨?_, ?_⟩, .invalidBps 0, ?_⟩
  · have share : bps ≤ 10000 := Nat.le_trans (List.le_sum_of_mem inside) whole
    refine ⟨?_, parseU128Json_quotedDecimal (Nat.lt_of_le_of_lt (Nat.div_le_self ..)
      (fits bps inside))⟩
    rw [applyPercent parsed share, if_pos (fits bps inside)]
  · have sum := sum_percent_le n bpss
    have most := Nat.mul_le_mul_left n whole
    omega
  · rw [applyPercent parsed share, if_neg (Nat.not_lt.mpr large)]
  · simp only [applySubstitutionOp, parsed]
    exact if_neg (Nat.ne_of_gt positive)
  · exact parseU128Json_quotedDecimal (Nat.lt_of_le_of_lt (Nat.div_le_self ..) small)
  · simp only [applySubstitutionOp, parsed]
    rfl

/-- A thousand, split three ways. -/
theorem percentU128_splits_thousand :
    (([3333, 3333, 3334] : List Nat).map fun bps => 1000 * bps / 10000).sum ≤ 1000 :=
  ((percentU128_splits (quotedDecimal_inGrammar (n := 1000) (by decide)) "balance").1
    [3333, 3333, 3334] (by decide) (by decide)).2

end SmartAccount
