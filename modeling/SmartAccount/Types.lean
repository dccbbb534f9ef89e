import SmartAccount.Foundation.IterableMap
import SmartAccount.Foundation.Text

/-!
# Shared domain types

The types crate: step policies, pre-gates, value threading, and the two pure
decisions over them, `evaluatePreGate` and `materializeArgs`.  Amounts (`u128`) and
gas in TGas (`u64`) are natural numbers.
-/

namespace SmartAccount

open Foundation

/-! ## Accounts -/

/-- The characters of an account id: lower-case letters and digits, with single
separators strictly between them. -/
def accountCharsOk : Bool → List Char → Bool
  | afterSeparator, [] => !afterSeparator
  | afterSeparator, c :: cs =>
      if ('a' ≤ c && c ≤ 'z') || ('0' ≤ c && c ≤ '9') then accountCharsOk false cs
      else if c == '-' || c == '_' || c == '.' then !afterSeparator && accountCharsOk true cs
      else false

def isValidAccountId (s : String) : Bool :=
  2 ≤ s.toList.length && s.toList.length ≤ 64 && accountCharsOk true s.toList

/-- `AccountId`: a string that passed validation. -/
structure AccountId where
  val : String
  valid : isValidAccountId val = true
deriving DecidableEq

/-! ## Step policies -/

/-- How a step resolves before the sequence advances. -/
inductive StepPolicy where
  | direct
  | adapter (adapterId : AccountId) (adapterMethod : String)
  | asserted (assertionId : AccountId) (assertionMethod : String) (assertionArgs : Bytes)
      (expectedReturn : Bytes) (assertionGasTgas : Nat)
deriving DecidableEq

/-- The argument of an adapter call. -/
structure AdapterDispatchInput where
  targetId : AccountId
  methodName : String
  args : Bytes
  attachedDepositYocto : Nat
  gasTgas : Nat
deriving DecidableEq

/-! ## Pre-gates -/

inductive ComparisonKind where
  | u128Json
  | i128Json
  | lexBytes
deriving DecidableEq

structure PreGate where
  gateId : AccountId
  gateMethod : String
  gateArgs : Bytes
  minBytes : Option Bytes
  maxBytes : Option Bytes
  comparison : ComparisonKind
  gateGasTgas : Nat
deriving DecidableEq

inductive PreGateOutcome where
  | inRange
  | belowMin
  | aboveMax
  | comparisonError
deriving DecidableEq

namespace PreGateOutcome

def matched : PreGateOutcome → Bool
  | inRange => true
  | _ => false

theorem matched_iff {outcome : PreGateOutcome} : outcome.matched = true ↔ outcome = .inRange := by
  cases outcome <;> decide

def outcomeTag : PreGateOutcome → String
  | inRange => "in_range"
  | belowMin => "below_min"
  | aboveMax => "above_max"
  | comparisonError => "comparison_error"

end PreGateOutcome

def trimJsonQuotes : Bytes → Bytes
  | 0x22 :: rest =>
      match rest.getLast? with
      | some 0x22 => rest.dropLast
      | _ => 0x22 :: rest
  | other => other

def parseU128Json (bytes : Bytes) : Option Nat :=
  (fromUtf8 (trimJsonQuotes bytes)).bind fun cs => readU128 (trim cs)

def parseI128Json (bytes : Bytes) : Option Int :=
  (fromUtf8 (trimJsonQuotes bytes)).bind fun cs => readI128 (trim cs)

/-- The numeric branches of `evaluate_pre_gate`, for one parser. -/
def evaluateNumeric {α : Type} [LT α] [DecidableLT α] (parse : Bytes → Option α)
    (actual : Bytes) (minBytes maxBytes : Option Bytes) : PreGateOutcome :=
  match parse actual with
  | none => .comparisonError
  | some v =>
      match minBytes.map parse with
      | some none => .comparisonError
      | some (some low) => if v < low then .belowMin else upper v
      | none => upper v
where
  upper (v : α) : PreGateOutcome :=
    match maxBytes.map parse with
    | some none => .comparisonError
    | some (some high) => if high < v then .aboveMax else .inRange
    | none => .inRange

def evaluatePreGate (actual : Bytes) (minBytes maxBytes : Option Bytes)
    (comparison : ComparisonKind) : PreGateOutcome :=
  match comparison with
  | .u128Json => evaluateNumeric parseU128Json actual minBytes maxBytes
  | .i128Json => evaluateNumeric parseI128Json actual minBytes maxBytes
  | .lexBytes =>
      if minBytes.any (actual < ·) then .belowMin
      else if maxBytes.any (· < actual) then .aboveMax
      else .inRange

/-- The verdict of a gate on its own bounds. -/
def PreGate.evaluate (gate : PreGate) (actual : Bytes) : PreGateOutcome :=
  evaluatePreGate actual gate.minBytes gate.maxBytes gate.comparison

/-! ## Value threading -/

structure SaveResult where
  asName : String
  kind : ComparisonKind
deriving DecidableEq

inductive SubstitutionOp where
  | raw
  | divU128 (denominator : Nat)
  | percentU128 (bps : Nat)
deriving DecidableEq

structure Substitution where
  reference : String
  op : SubstitutionOp
deriving DecidableEq

structure ArgsTemplate where
  template : Bytes
  substitutions : List Substitution
deriving DecidableEq

inductive MaterializeError where
  | missingSavedResult (name : String)
  | unparseableSavedResult (reference op : String)
  | numericOverflow (reference op : String)
  | invalidBps (bps : Nat)
  | placeholderNotFound (reference : String)
deriving DecidableEq

def MaterializeError.kindTag : MaterializeError → String
  | missingSavedResult _ => "missing_saved_result"
  | unparseableSavedResult _ _ => "unparseable_saved_result"
  | numericOverflow _ _ => "numeric_overflow"
  | invalidBps _ => "invalid_bps"
  | placeholderNotFound _ => "placeholder_not_found"

def MaterializeError.display : MaterializeError → String
  | missingSavedResult name => "materialize: missing saved result '" ++ name ++ "'"
  | unparseableSavedResult reference op =>
      "materialize: saved result '" ++ reference ++ "' not parseable for op '" ++ op ++ "'"
  | numericOverflow reference op =>
      "materialize: numeric overflow in op '" ++ op ++ "' on saved result '" ++ reference ++ "'"
  | invalidBps bps => "materialize: bps " ++ toString bps ++ " exceeds 10000 (100%)"
  | placeholderNotFound t =>
      "materialize: placeholder \"$\x7b" ++ t ++ "\x7d\" not found in template"

/-- A number between double quotes, as bytes. -/
def quotedDecimal (n : Nat) : Bytes := utf8Bytes ("\"" ++ toString n ++ "\"")

def applySubstitutionOp (saved : Bytes) (op : SubstitutionOp) (reference : String) :
    Except MaterializeError Bytes :=
  match op with
  | .raw => .ok (fromUtf8Lossy saved)
  | .divU128 d =>
      match parseU128Json saved with
      | none => .error (.unparseableSavedResult reference "DivU128")
      | some n => if d = 0 then .error (.invalidBps 0) else .ok (quotedDecimal (n / d))
  | .percentU128 bps =>
      if 10000 < bps then .error (.invalidBps bps)
      else
        match parseU128Json saved with
        | none => .error (.unparseableSavedResult reference "PercentU128")
        | some n =>
            if n * bps < 2 ^ 128 then .ok (quotedDecimal (n * bps / 10000))
            else .error (.numericOverflow reference "PercentU128")

/-- The placeholder of a reference, enclosing JSON quotes included. -/
def placeholderOf (reference : String) : Bytes :=
  utf8Bytes ("\"$\x7b" ++ reference ++ "\x7d\"")

/-- One pass of the substitution loop over the buffer `out`. -/
def substituteOnce (savedResults : IterableMap String Bytes) (out : Bytes)
    (sub : Substitution) : Except MaterializeError Bytes :=
  match savedResults.get sub.reference with
  | none => .error (.missingSavedResult sub.reference)
  | some saved => do
      let replacement ← applySubstitutionOp saved sub.op sub.reference
      if containsBytes (placeholderOf sub.reference) out then
        .ok (replaceBytes (placeholderOf sub.reference) replacement out)
      else .error (.placeholderNotFound sub.reference)

def materializeArgs (template : Bytes) (substitutions : List Substitution)
    (savedResults : IterableMap String Bytes) : Except MaterializeError Bytes :=
  substitutions.foldlM (substituteOnce savedResults) (fromUtf8Lossy template)

example : parseU128Json (utf8Bytes "\"500\"") = some 500 := by decide
example :
    materializeArgs (utf8Bytes "[\"$\x7bx\x7d\"]") [⟨"x", .percentU128 5000⟩]
      (IterableMap.empty.insert "x" (utf8Bytes "\"9\"")) = .ok (utf8Bytes "[\"4\"]") := by
  decide

end SmartAccount
