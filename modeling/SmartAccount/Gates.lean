import SmartAccount.Types

/-!
# What a gate decides

`evaluate_pre_gate` against the comparison it documents: malformed values first, then the
lower bound, then the upper one.  The code reads the upper bound only after the lower one has
let the value pass, so a malformed upper bound goes unnoticed below the lower one
(`evaluatePreGate_decides_iff`).
-/

namespace SmartAccount

open Foundation

/-! ## The documented decision -/

/-- The comparison kind cannot read these bytes. -/
def Malformed : ComparisonKind → Bytes → Prop
  | .u128Json, bytes => parseU128Json bytes = none
  | .i128Json, bytes => parseI128Json bytes = none
  | .lexBytes, _ => False

/-- The strict order of a comparison kind: of the numbers read, or of the bytes. -/
def Precedes : ComparisonKind → Bytes → Bytes → Prop
  | .u128Json, a, b => ∃ v w, parseU128Json a = some v ∧ parseU128Json b = some w ∧ v < w
  | .i128Json, a, b => ∃ v w, parseI128Json a = some v ∧ parseI128Json b = some w ∧ v < w
  | .lexBytes, a, b => a < b

/-- One of the supplied values is malformed. -/
def AnyMalformed (malformed : Bytes → Prop) (actual : Bytes) (minBytes maxBytes : Option Bytes) :
    Prop :=
  malformed actual ∨ (∃ low, minBytes = some low ∧ malformed low) ∨
    ∃ high, maxBytes = some high ∧ malformed high

/-- The outcome is the documented one: an error exactly for malformed values, otherwise below
or above exactly for a value strictly outside a bound, and in range for all others. -/
structure Decides (malformed : Bytes → Prop) (precedes : Bytes → Bytes → Prop) (actual : Bytes)
    (minBytes maxBytes : Option Bytes) (outcome : PreGateOutcome) : Prop where
  comparisonError : outcome = .comparisonError ↔
    AnyMalformed malformed actual minBytes maxBytes
  belowMin : outcome = .belowMin ↔ ¬ AnyMalformed malformed actual minBytes maxBytes ∧
    ∃ low, minBytes = some low ∧ precedes actual low
  aboveMax : outcome = .aboveMax ↔ ¬ AnyMalformed malformed actual minBytes maxBytes ∧
    (¬ ∃ low, minBytes = some low ∧ precedes actual low) ∧
      ∃ high, maxBytes = some high ∧ precedes high actual
  inRange : outcome = .inRange ↔ ¬ AnyMalformed malformed actual minBytes maxBytes ∧
    (¬ ∃ low, minBytes = some low ∧ precedes actual low) ∧
      ¬ ∃ high, maxBytes = some high ∧ precedes high actual

/-- The value is below the lower bound, and the upper bound is malformed. -/
def Masked (malformed : Bytes → Prop) (precedes : Bytes → Bytes → Prop) (actual : Bytes)
    (minBytes maxBytes : Option Bytes) : Prop :=
  (∃ low, minBytes = some low ∧ precedes actual low) ∧
    ∃ high, maxBytes = some high ∧ malformed high

/-! ## The code's decision -/

section Numeric

variable {α : Type} [LT α] [DecidableLT α] (parse : Bytes → Option α)

/-- The bytes are not a number. -/
def Unread (bytes : Bytes) : Prop := parse bytes = none

/-- Both are numbers, the first the smaller one. -/
def ReadsLess (a b : Bytes) : Prop := ∃ v w, parse a = some v ∧ parse b = some w ∧ v < w

variable {parse}

theorem upper_decides {actual : Bytes} {v : α} (read : parse actual = some v)
    {minBytes maxBytes : Option Bytes}
    (legible : ∀ low, minBytes = some low → ¬ Unread parse low)
    (reached : ∀ low, minBytes = some low → ¬ ReadsLess parse actual low) :
    Decides (Unread parse) (ReadsLess parse) actual minBytes maxBytes
      (evaluateNumeric.upper parse maxBytes v) := by
  have known : ¬ Unread parse actual := by simp [Unread, read]
  have passed : ¬ ∃ low, minBytes = some low ∧ ReadsLess parse actual low :=
    fun ⟨low, given, less⟩ => reached low given less
  have lowRead : ¬ ∃ low, minBytes = some low ∧ Unread parse low :=
    fun ⟨low, given, unread⟩ => legible low given unread
  unfold evaluateNumeric.upper
  cases given : maxBytes with
  | none => constructor <;> simp [AnyMalformed, known, passed, lowRead]
  | some high =>
      simp only [Option.map_some]
      cases readHigh : parse high with
      | none =>
          have unread : Unread parse high := readHigh
          constructor <;> simp [AnyMalformed, unread]
      | some w =>
          have legibleHigh : ¬ Unread parse high := by simp [Unread, readHigh]
          have order : ReadsLess parse high actual ↔ w < v := by
            simp [ReadsLess, read, readHigh]
          dsimp only
          split
          · rename_i above
            constructor <;> simp [AnyMalformed, known, passed, lowRead, legibleHigh, order, above]
          · rename_i within
            constructor <;> simp [AnyMalformed, known, passed, lowRead, legibleHigh, order, within]

/-- A numeric gate decides as documented unless an unreadable upper bound is masked. -/
theorem evaluateNumeric_decides {actual : Bytes} {minBytes maxBytes : Option Bytes}
    (unmasked : ¬ Masked (Unread parse) (ReadsLess parse) actual minBytes maxBytes) :
    Decides (Unread parse) (ReadsLess parse) actual minBytes maxBytes
      (evaluateNumeric parse actual minBytes maxBytes) := by
  unfold evaluateNumeric
  cases read : parse actual with
  | none =>
      have unread : Unread parse actual := read
      constructor <;> simp [AnyMalformed, unread]
  | some v =>
      have known : ¬ Unread parse actual := by simp [Unread, read]
      dsimp only
      cases given : minBytes with
      | none =>
          refine upper_decides read ?_ ?_
          · intro low same
            cases same
          · intro low same
            cases same
      | some low =>
          simp only [Option.map_some]
          cases readLow : parse low with
          | none =>
              have unread : Unread parse low := readLow
              constructor <;> simp [AnyMalformed, unread]
          | some w =>
              have legible : ¬ Unread parse low := by simp [Unread, readLow]
              have order : ReadsLess parse actual low ↔ v < w := by
                simp [ReadsLess, read, readLow]
              dsimp only
              split
              · rename_i below
                have highRead : ¬ ∃ high, maxBytes = some high ∧ Unread parse high :=
                  fun unread => unmasked ⟨⟨low, given, order.mpr below⟩, unread⟩
                constructor <;> simp [AnyMalformed, known, legible, highRead, order, below]
              · rename_i reached
                refine upper_decides read ?_ ?_
                · rintro _ ⟨rfl⟩
                  exact legible
                · rintro _ ⟨rfl⟩ less
                  exact reached (order.mp less)

/-- A masked bound goes unnoticed. -/
theorem evaluateNumeric_masked {actual : Bytes} {minBytes maxBytes : Option Bytes}
    (masked : Masked (Unread parse) (ReadsLess parse) actual minBytes maxBytes) :
    evaluateNumeric parse actual minBytes maxBytes = .belowMin := by
  obtain ⟨⟨low, given, v, w, read, readLow, below⟩, -⟩ := masked
  simp [evaluateNumeric, given, read, readLow, below]

end Numeric

/-- The byte comparison has nothing to misread, and decides as documented. -/
theorem lexBytes_decides (actual : Bytes) (minBytes maxBytes : Option Bytes) :
    Decides (Malformed .lexBytes) (Precedes .lexBytes) actual minBytes maxBytes
      (evaluatePreGate actual minBytes maxBytes .lexBytes) := by
  have legible : ¬ AnyMalformed (Malformed .lexBytes) actual minBytes maxBytes := by
    simp [AnyMalformed, Malformed]
  have low : (∃ low, minBytes = some low ∧ Precedes .lexBytes actual low) ↔
      minBytes.any (actual < ·) = true := by
    cases minBytes <;> simp [Precedes]
  have high : (∃ high, maxBytes = some high ∧ Precedes .lexBytes high actual) ↔
      maxBytes.any (· < actual) = true := by
    cases maxBytes <;> simp [Precedes]
  dsimp only [evaluatePreGate]
  split
  · rename_i below
    constructor <;> simp [legible, low, below]
  · rename_i reached
    split
    · rename_i above
      constructor <;> simp [legible, low, high, reached, above]
    · rename_i within
      constructor <;> simp [legible, low, high, reached, within]

theorem evaluateNumeric_decides_iff {α : Type} [LT α] [DecidableLT α]
    {parse : Bytes → Option α} {actual : Bytes} {minBytes maxBytes : Option Bytes} :
    Decides (Unread parse) (ReadsLess parse) actual minBytes maxBytes
        (evaluateNumeric parse actual minBytes maxBytes) ↔
      ¬ Masked (Unread parse) (ReadsLess parse) actual minBytes maxBytes := by
  refine ⟨fun decides masked => ?_, evaluateNumeric_decides⟩
  obtain ⟨legible, -⟩ := decides.belowMin.mp (evaluateNumeric_masked masked)
  obtain ⟨-, unreadHigh⟩ := masked
  exact legible (Or.inr (Or.inr unreadHigh))

/-- The gate decides as documented exactly where no malformed upper bound is masked by a value
below the lower one. -/
theorem evaluatePreGate_decides_iff (actual : Bytes) (minBytes maxBytes : Option Bytes)
    (kind : ComparisonKind) :
    Decides (Malformed kind) (Precedes kind) actual minBytes maxBytes
        (evaluatePreGate actual minBytes maxBytes kind) ↔
      ¬ Masked (Malformed kind) (Precedes kind) actual minBytes maxBytes := by
  cases kind with
  | u128Json => exact evaluateNumeric_decides_iff
  | i128Json => exact evaluateNumeric_decides_iff
  | lexBytes =>
      refine ⟨fun _ masked => ?_, fun _ => lexBytes_decides actual minBytes maxBytes⟩
      obtain ⟨-, _, -, malformed⟩ := masked
      exact malformed

/-- The value 5 is below the lower bound 10, so that the upper bound `abc` is never read. -/
theorem masked_bound_unreported :
    evaluatePreGate (utf8Bytes "5") (some (utf8Bytes "10")) (some (utf8Bytes "abc"))
        .u128Json = .belowMin ∧
      ¬ Decides (Malformed .u128Json) (Precedes .u128Json) (utf8Bytes "5")
        (some (utf8Bytes "10")) (some (utf8Bytes "abc"))
        (evaluatePreGate (utf8Bytes "5") (some (utf8Bytes "10")) (some (utf8Bytes "abc"))
          .u128Json) := by
  have unread : Malformed .u128Json (utf8Bytes "abc") := by
    change parseU128Json _ = none
    decide
  have low : evaluatePreGate (utf8Bytes "5") (some (utf8Bytes "10")) (some (utf8Bytes "abc"))
      .u128Json = .belowMin := by
    decide
  refine ⟨low, fun decides => ?_⟩
  have legible := (decides.belowMin.mp low).1
  exact legible (Or.inr (Or.inr ⟨_, rfl, unread⟩))

end SmartAccount
