import SmartAccount.Fates
import SmartAccount.Telemetry

/-!
# The log budget of the checking callbacks

The host fails a receipt that logs more than 16384 bytes (`maxTotalLogBytes`).  The callbacks
let results in up to the same number of bytes, but they log them in base64:
`pre_gate_checked` once, `assertion_checked` beside the expected bytes and the `call` object
that repeats them.  The bytes that the two callbacks log are counted from their inputs
(`gateLogBytes`, `postcheckLogBytes`), and the verdict of a gate or of a matching postcheck is
carried out exactly where that count fits (`verdict_kept_iff`).
-/

namespace SmartAccount

open Foundation

/-- The log bytes of a receipt, beyond which the host fails it. -/
def maxTotalLogBytes : Nat := 16384

/-! ## Log lines -/

/-- What a call of `env::log_str` is about. -/
inductive LogLine where
  | prose (text : String)
  | event (event : Event)

def LogLine.text (runtime : RuntimeSnapshot) : LogLine → String
  | prose text => text
  | event e => e.line runtime

/-- The event of a line, if it is one. -/
def LogLine.emitted : LogLine → Option Event
  | prose _ => none
  | event e => some e

/-- The bytes of these lines; `runtime n` is the snapshot at the `n`-th of them. -/
def logBytes (runtime : Nat → RuntimeSnapshot) : List LogLine → Nat
  | [] => 0
  | line :: lines =>
      (line.text (runtime 0)).utf8ByteSize + logBytes (fun n => runtime (n + 1)) lines

namespace Machine

/-- What `halt_sequence_on_pre_gate_failure` tells. -/
def preGateHalt (env : Env) (m : Machine) (ns stepId : String) (registeredAtMs : Nat)
    (reason : String) : HaltData where
  sequenceNamespace := ns
  failedStepId := stepId
  reason := "pre_gate_failed"
  errorKind := "pre_gate_" ++ reason
  errorMsg := "pre_gate halted: " ++ reason
  registeredAtMs := some registeredAtMs
  haltLatencyMs := some (env.now - registeredAtMs)
  call := (m.getStep ns stepId).map fun yielded => yielded.call.metadata

/-- What `halt_sequence_on_materialize_failure` tells. -/
def materializeHalt (env : Env) (m : Machine) (ns stepId : String) (registeredAtMs : Nat)
    (err : MaterializeError) : HaltData where
  sequenceNamespace := ns
  failedStepId := stepId
  reason := "args_materialize_failed"
  errorKind := "args_materialize_" ++ err.kindTag
  errorMsg := err.display
  registeredAtMs := some registeredAtMs
  haltLatencyMs := some (env.now - registeredAtMs)
  call := (m.getStep ns stepId).map fun yielded => yielded.call.metadata

/-- The lines of a halt: the run's end, if one is in flight, then the prose and the event. -/
def haltLogs (env : Env) (m : Machine) (ns stepId prose : String) (data : HaltData) :
    List LogLine :=
  (m.closingEvents env ns (some (.downstreamFailed, some stepId))).map .event ++
    [.prose prose, .event (.sequenceHalted data)]

/-- The lines of `halt_sequence_on_pre_gate_failure`. -/
def preGateHaltLogs (env : Env) (m : Machine) (ns stepId : String) (registeredAtMs : Nat)
    (reason : String) : List LogLine :=
  m.haltLogs env ns stepId
    ("register_step '" ++ stepId ++ "' in " ++ ns ++ " halted by pre-gate (" ++ reason ++
      "); ordered release stopped here")
    (m.preGateHalt env ns stepId registeredAtMs reason)

/-- The lines of `halt_sequence_on_materialize_failure`. -/
def materializeHaltLogs (env : Env) (m : Machine) (ns stepId : String) (registeredAtMs : Nat)
    (err : MaterializeError) : List LogLine :=
  m.haltLogs env ns stepId
    ("register_step '" ++ stepId ++ "' in " ++ ns ++ " halted: args materialize failed: " ++
      err.display)
    (m.materializeHalt env ns stepId registeredAtMs err)

/-- The lines of a dispatch, which logs only where the arguments do not materialize. -/
def dispatchLogs (env : Env) (m : Machine) (ns stepId : String) (yielded : RegisteredStep) :
    List LogLine :=
  match m.contract.materializeStepCall ns yielded.call with
  | .error err => m.materializeHaltLogs env ns stepId yielded.createdAtMs err
  | .ok _ => []

/-- The lines of `on_pre_gate_checked`. -/
def onPreGateCheckedLogs (env : Env) (m : Machine) (ns stepId : String)
    (result : PromiseResult) : List LogLine :=
  match m.getStep ns stepId with
  | none =>
      [.prose ("pre_gate for step '" ++ stepId ++ "' in " ++ ns ++
        " woke up but the step was no longer yielded")]
  | some yielded =>
      match yielded.call.preGate with
      | none =>
          [.prose ("pre_gate callback for step '" ++ stepId ++ "' in " ++ ns ++
            " but the step has no pre_gate configured")]
      | some preGate =>
          match result.checked with
          | .error error =>
              .event (preGateCheckedEvent ns stepId "gate_panicked" false preGate
                (.error error) yielded.call) ::
                m.preGateHaltLogs env ns stepId yielded.createdAtMs "gate_panicked"
          | .ok bytes =>
              let outcome := preGate.evaluate bytes
              .event (preGateCheckedEvent ns stepId outcome.outcomeTag outcome.matched preGate
                (.ok bytes) yielded.call) ::
                if outcome.matched then m.dispatchLogs env ns stepId yielded
                else m.preGateHaltLogs env ns stepId yielded.createdAtMs outcome.outcomeTag

/-- The lines of `on_asserted_evaluate_postcheck`. -/
def onAssertedEvaluatePostcheckLogs (m : Machine) (ns stepId : String) (expectedReturn : Bytes)
    (result : PromiseResult) : List LogLine :=
  match result.checked with
  | .error error =>
      [.event (assertionCheckedEvent m ns stepId "postcheck_failed" false expectedReturn
        (.error error))]
  | .ok bytes =>
      if bytes ≠ expectedReturn then
        [.event (assertionCheckedEvent m ns stepId "mismatch" false expectedReturn (.ok bytes))]
      else
        [.prose ("asserted step '" ++ stepId ++ "' in " ++ ns ++ ": postcheck matched (" ++
            toString bytes.length ++ " bytes)"),
          .event (assertionCheckedEvent m ns stepId "matched" true expectedReturn (.ok bytes))]

/-! ## The lines' events are the emitted ones -/

theorem haltLogs_emitted (env : Env) (m : Machine) (ns stepId prose : String)
    (data : HaltData) :
    (m.haltLogs env ns stepId prose data).filterMap LogLine.emitted =
      m.closingEvents env ns (some (.downstreamFailed, some stepId)) ++
        [.sequenceHalted data] := by
  have kept (events : List Event) :
      (events.map LogLine.event).filterMap LogLine.emitted = events := by
    rw [List.filterMap_map]
    exact List.filterMap_some
  rw [haltLogs, List.filterMap_append, kept]
  rfl

theorem haltSequence_events {env : Env} {m m₁ : Machine} (same : m₁.contract = m.contract)
    (ns stepId prose : String) (data : HaltData) :
    (m₁.haltSequence env ns stepId .downstreamFailed data).trace.events =
      m₁.trace.events ++ (m.haltLogs env ns stepId prose data).filterMap LogLine.emitted := by
  obtain ⟨-, -, closed⟩ := @finishAutomationRun_leaves env m
    (((m₁.removeStep ns stepId).removeQueue ns).clearContext ns) ns .downstreamFailed
    (some stepId) (congrArg ContractOf.automationRuns same :)
  rw [haltLogs_emitted, haltSequence, emit_events, closed, List.append_assoc]
  rfl

/-- `on_pre_gate_checked` emits the events among its lines. -/
theorem onPreGateChecked_events (env : Env) (m : Machine) (ns stepId : String)
    (result : PromiseResult) :
    (m.onPreGateChecked env ns stepId result).1.trace.events =
      m.trace.events ++
        (m.onPreGateCheckedLogs env ns stepId result).filterMap LogLine.emitted := by
  have same (event : Event) : (m.emit event).contract = m.contract := rfl
  have halts (event : Event) (stepId prose : String) (data : HaltData) :
      ((m.emit event).haltSequence env ns stepId .downstreamFailed data).trace.events =
        m.trace.events ++
          (.event event :: m.haltLogs env ns stepId prose data).filterMap LogLine.emitted := by
    rw [haltSequence_events (same event) ns stepId prose data,
      emit_events, List.append_assoc]
    rfl
  simp only [onPreGateChecked, onPreGateCheckedLogs]
  cases m.getStep ns stepId with
  | none =>
      dsimp only
      exact (List.append_nil _).symm
  | some yielded =>
      dsimp only
      cases gated : yielded.call.preGate with
      | none => exact (List.append_nil _).symm
      | some preGate =>
          dsimp only
          cases result.checked with
          | error error => exact halts _ stepId _ _
          | ok bytes =>
              dsimp only
              cases (preGate.evaluate bytes).matched with
              | false => exact halts _ stepId _ _
              | true =>
                  simp only [if_true]
                  unfold materializeAndDispatch dispatchLogs
                  rw [same]
                  cases m.contract.materializeStepCall ns yielded.call with
                  | error err => exact halts _ stepId _ _
                  | ok effective =>
                      exact (Trace.events_snoc rfl).trans (m.emit_events _)

/-- `on_asserted_evaluate_postcheck` emits the events among its lines, also where it panics. -/
theorem onAssertedEvaluatePostcheck_events (m : Machine) (ns stepId : String)
    (expectedReturn : Bytes) (result : PromiseResult) :
    (match m.onAssertedEvaluatePostcheck ns stepId expectedReturn result with
      | .ok m' => m'.trace.events
      | .error panic => m.trace.events ++ panic.logged) =
      m.trace.events ++
        (m.onAssertedEvaluatePostcheckLogs ns stepId expectedReturn result).filterMap
          LogLine.emitted := by
  simp only [onAssertedEvaluatePostcheck, onAssertedEvaluatePostcheckLogs]
  cases result.checked with
  | error error => rfl
  | ok bytes =>
      dsimp only
      by_cases matched : bytes = expectedReturn
      · rw [if_neg (not_not_intro matched), if_neg (not_not_intro matched)]
        exact m.emit_events _
      · rw [if_pos matched, if_pos matched]
        rfl

end Machine

/-! ## Counting the bytes -/

/-- The bytes of a `run_finished` line about a run that its step failed. -/
def runFinishedBytes (runtime : RuntimeSnapshot) (env : Env) (ns stepId : String)
    (run : AutomationRun) : Nat :=
  266 + (Json.str run.triggerId).size + (Json.str ns).size + (Json.str run.sequenceId).size +
    (Json.num run.runNonce).size + (Json.account run.executorId).size +
    (Json.num run.startedAtMs).size + (Json.num env.now).size +
    (Json.num (env.now - run.startedAtMs)).size + (Json.str stepId).size + runtime.json.size

theorem runFinished_size (runtime : RuntimeSnapshot) (env : Env) (ns stepId : String)
    (run : AutomationRun) :
    ((Event.runFinished (Machine.runFinishedEvent env ns run .downstreamFailed
      (some stepId))).line runtime).utf8ByteSize =
        runFinishedBytes runtime env ns stepId run := by
  have keys : (["trigger_id", "namespace", "sequence_id", "run_nonce", "executor_id", "status",
      "started_at_ms", "finished_at_ms", "duration_ms", "failed_step_id"].map
        Json.keySize).sum = 148 := rfl
  have name : (Json.str "run_finished").size = 14 := rfl
  have status : (Json.str "DownstreamFailed").size = 18 := rfl
  rw [Event.line_size, Json.sum_fieldSize]
  simp only [Event.fields, Event.name, RunFinished.fields, Machine.runFinishedEvent,
    Json.ofOption_some, AutomationRunStatus.debug, runFinishedBytes, List.map_cons, List.map_nil,
    List.sum_cons, List.sum_nil] at keys ⊢
  omega

/-- The bytes of a `sequence_halted` line about a stored step. -/
def sequenceHaltedBytes (runtime : RuntimeSnapshot) (env : Env) (ns stepId : String)
    (yielded : RegisteredStep) (reason errorKind errorMsg : String) : Nat :=
  218 + (Json.str ns).size + (Json.str stepId).size + (Json.str reason).size +
    (Json.str errorKind).size + (Json.str errorMsg).size +
    (Json.num yielded.createdAtMs).size + (Json.num (env.now - yielded.createdAtMs)).size +
    yielded.call.metadata.json.size + runtime.json.size

theorem sequenceHalted_size (runtime : RuntimeSnapshot) (env : Env) (ns stepId : String)
    (yielded : RegisteredStep) (reason errorKind errorMsg : String) :
    ((Event.sequenceHalted {
      sequenceNamespace := ns
      failedStepId := stepId
      reason := reason
      errorKind := errorKind
      errorMsg := errorMsg
      registeredAtMs := some yielded.createdAtMs
      haltLatencyMs := some (env.now - yielded.createdAtMs)
      call := some yielded.call.metadata }).line runtime).utf8ByteSize =
        sequenceHaltedBytes runtime env ns stepId yielded reason errorKind errorMsg := by
  have keys : (["namespace", "failed_step_id", "reason", "error_kind", "error_msg",
      "registered_at_ms", "halt_latency_ms", "call"].map Json.keySize).sum = 115 := rfl
  have name : (Json.str "sequence_halted").size = 17 := rfl
  rw [Event.line_size, Json.sum_fieldSize]
  simp only [Event.fields, Event.name, HaltData.fields, Json.ofOption_some,
    sequenceHaltedBytes,
    List.cons_append, List.nil_append, List.map_cons, List.map_nil, List.sum_cons,
    List.sum_nil] at keys ⊢
  omega

/-- The bytes of a halt's lines, from those of its prose and what its event tells. -/
def haltBytes (runtime : Nat → RuntimeSnapshot) (env : Env) (m : Machine) (ns stepId : String)
    (yielded : RegisteredStep) (proseBytes : Nat) (reason errorKind errorMsg : String) : Nat :=
  match m.running ns with
  | none =>
      proseBytes +
        sequenceHaltedBytes (runtime 1) env ns stepId yielded reason errorKind errorMsg
  | some run =>
      runFinishedBytes (runtime 0) env ns stepId run + proseBytes +
        sequenceHaltedBytes (runtime 2) env ns stepId yielded reason errorKind errorMsg

theorem haltLogs_size (runtime : Nat → RuntimeSnapshot) (env : Env) {m : Machine}
    {ns stepId : String} {yielded : RegisteredStep} (stored : m.getStep ns stepId = some yielded)
    (prose reason errorKind errorMsg : String) :
    logBytes runtime (m.haltLogs env ns stepId prose {
      sequenceNamespace := ns
      failedStepId := stepId
      reason := reason
      errorKind := errorKind
      errorMsg := errorMsg
      registeredAtMs := some yielded.createdAtMs
      haltLatencyMs := some (env.now - yielded.createdAtMs)
      call := (m.getStep ns stepId).map fun yielded => yielded.call.metadata }) =
        haltBytes runtime env m ns stepId yielded prose.utf8ByteSize reason errorKind errorMsg := by
  simp only [Machine.haltLogs, Machine.closingEvents, haltBytes, stored, Option.map_some]
  cases m.running ns with
  | none =>
      simp only [List.map_nil, List.nil_append, logBytes, LogLine.text, sequenceHalted_size,
        Nat.zero_add, Nat.add_zero]
  | some run =>
      simp only [List.map_cons, List.map_nil, List.cons_append, List.nil_append, logBytes,
        LogLine.text, sequenceHalted_size, runFinished_size, Nat.reduceAdd]
      omega

/-- The bytes of the lines of a halt by the gate. -/
def preGateHaltBytes (runtime : Nat → RuntimeSnapshot) (env : Env) (m : Machine)
    (ns stepId : String) (yielded : RegisteredStep) (reason : String) : Nat :=
  haltBytes runtime env m ns stepId yielded
    (72 + stepId.utf8ByteSize + ns.utf8ByteSize + reason.utf8ByteSize) "pre_gate_failed"
    ("pre_gate_" ++ reason) ("pre_gate halted: " ++ reason)

/-- The bytes of the lines of a halt over arguments that do not materialize. -/
def materializeHaltBytes (runtime : Nat → RuntimeSnapshot) (env : Env) (m : Machine)
    (ns stepId : String) (yielded : RegisteredStep) (err : MaterializeError) : Nat :=
  haltBytes runtime env m ns stepId yielded
    (54 + stepId.utf8ByteSize + ns.utf8ByteSize + err.display.utf8ByteSize)
    "args_materialize_failed" ("args_materialize_" ++ err.kindTag) err.display

section Halts

variable (runtime : Nat → RuntimeSnapshot) (env : Env) {m : Machine} {ns stepId : String}
  {yielded : RegisteredStep}

/-- The head that the prose of both halts shares. -/
theorem haltHead_size (ns stepId : String) :
    ("register_step '" ++ stepId ++ "' in " ++ ns).utf8ByteSize =
      20 + stepId.utf8ByteSize + ns.utf8ByteSize := by
  have first : "register_step '".utf8ByteSize = 15 := rfl
  have second : "' in ".utf8ByteSize = 5 := rfl
  simp only [String.utf8ByteSize_append]
  omega

theorem preGateHaltLogs_size (stored : m.getStep ns stepId = some yielded) (reason : String) :
    logBytes runtime (m.preGateHaltLogs env ns stepId yielded.createdAtMs reason) =
      preGateHaltBytes runtime env m ns stepId yielded reason := by
  have prose : ("register_step '" ++ stepId ++ "' in " ++ ns ++ " halted by pre-gate (" ++
      reason ++ "); ordered release stopped here").utf8ByteSize =
        72 + stepId.utf8ByteSize + ns.utf8ByteSize + reason.utf8ByteSize := by
    have mark : " halted by pre-gate (".utf8ByteSize = 21 := rfl
    have last : "); ordered release stopped here".utf8ByteSize = 31 := rfl
    rw [String.utf8ByteSize_append, String.utf8ByteSize_append, String.utf8ByteSize_append,
      haltHead_size]
    omega
  rw [preGateHaltBytes, ← prose]
  exact haltLogs_size runtime env stored _ _ _ _

theorem materializeHaltLogs_size (stored : m.getStep ns stepId = some yielded)
    (err : MaterializeError) :
    logBytes runtime (m.materializeHaltLogs env ns stepId yielded.createdAtMs err) =
      materializeHaltBytes runtime env m ns stepId yielded err := by
  have prose : ("register_step '" ++ stepId ++ "' in " ++ ns ++
      " halted: args materialize failed: " ++ err.display).utf8ByteSize =
        54 + stepId.utf8ByteSize + ns.utf8ByteSize + err.display.utf8ByteSize := by
    have mark : " halted: args materialize failed: ".utf8ByteSize = 34 := rfl
    rw [String.utf8ByteSize_append, String.utf8ByteSize_append, haltHead_size]
    omega
  rw [materializeHaltBytes, ← prose]
  exact haltLogs_size runtime env stored _ _ _ _

end Halts

/-- The bytes of a `pre_gate_checked` line about a result of `n` bytes. -/
def preGateCheckedBytes (runtime : RuntimeSnapshot) (ns stepId : String) (preGate : PreGate)
    (outcome : PreGateOutcome) (n : Nat) (call : Step) : Nat :=
  263 + 4 * ((n + 2) / 3) + (Json.num n).size + (Json.str stepId).size + (Json.str ns).size +
    (Json.str outcome.outcomeTag).size + (Json.bool outcome.matched).size +
    (Json.ofOption .num (preGate.minBytes.map List.length)).size +
    (Json.ofOption .num (preGate.maxBytes.map List.length)).size +
    (Json.str preGate.comparison.tag).size + call.metadataFull.json.size + runtime.json.size

theorem preGateChecked_size (runtime : RuntimeSnapshot) (ns stepId : String)
    (preGate : PreGate) (outcome : PreGateOutcome) (bytes : Bytes) (call : Step) :
    ((Machine.preGateCheckedEvent ns stepId outcome.outcomeTag outcome.matched preGate
      (.ok bytes) call).line runtime).utf8ByteSize =
        preGateCheckedBytes runtime ns stepId preGate outcome bytes.length call := by
  have keys : (["step_id", "namespace", "outcome", "matched", "expected_min_bytes_len",
      "expected_max_bytes_len", "actual_bytes_len", "actual_return", "comparison", "call"].map
        Json.keySize).sum = 157 := rfl
  have name : (Json.str "pre_gate_checked").size = 18 := rfl
  rw [Event.line_size, Json.sum_fieldSize]
  simp only [Machine.preGateCheckedEvent, Event.fields, Event.name, PreGateChecked.fields,
    preGateCheckedBytes, Json.size_base64, List.cons_append, List.nil_append, List.map_cons,
    List.map_nil, List.sum_cons, List.sum_nil] at keys ⊢
  omega

/-- The bytes of an `assertion_checked` line about `n` bytes that match. -/
def assertionCheckedBytes (runtime : RuntimeSnapshot) (m : Machine) (ns stepId : String)
    (n : Nat) : Nat :=
  252 + 8 * ((n + 2) / 3) + 2 * (Json.num n).size + (Json.str stepId).size +
    (Json.str ns).size +
    (Json.ofOption CallMetadata.json
      ((m.getStep ns stepId).map fun yielded => yielded.call.metadataFull)).size +
    runtime.json.size

theorem assertionChecked_size (runtime : RuntimeSnapshot) (m : Machine) (ns stepId : String)
    (bytes : Bytes) :
    ((m.assertionCheckedEvent ns stepId "matched" true bytes (.ok bytes)).line
      runtime).utf8ByteSize = assertionCheckedBytes runtime m ns stepId bytes.length := by
  have keys : (["step_id", "namespace", "expected_bytes_len", "actual_bytes_len",
      "expected_return", "actual_return", "match", "outcome", "call"].map
        Json.keySize).sum = 130 := rfl
  have name : (Json.str "assertion_checked").size = 19 := rfl
  have matched : (Json.str "matched").size = 9 := rfl
  have truth : (Json.bool true).size = 4 := rfl
  rw [Event.line_size, Json.sum_fieldSize]
  simp only [Machine.assertionCheckedEvent, Event.fields, Event.name, AssertionChecked.fields,
    assertionCheckedBytes, Json.ofOption_some, Json.size_base64, List.cons_append,
    List.nil_append, List.map_cons, List.map_nil, List.sum_cons, List.sum_nil] at keys ⊢
  omega

namespace Machine

/-- The bytes of the lines of a dispatch. -/
def dispatchBytes (runtime : Nat → RuntimeSnapshot) (env : Env) (m : Machine)
    (ns stepId : String) (yielded : RegisteredStep) : Nat :=
  match m.contract.materializeStepCall ns yielded.call with
  | .error err => materializeHaltBytes runtime env m ns stepId yielded err
  | .ok _ => 0

/-- The bytes that `on_pre_gate_checked` logs about a result. -/
def gateLogBytes (runtime : Nat → RuntimeSnapshot) (env : Env) (m : Machine)
    (ns stepId : String) (yielded : RegisteredStep) (preGate : PreGate) (bytes : Bytes) : Nat :=
  let outcome := preGate.evaluate bytes
  preGateCheckedBytes (runtime 0) ns stepId preGate outcome bytes.length yielded.call +
    if outcome.matched then dispatchBytes (fun n => runtime (n + 1)) env m ns stepId yielded
    else
      preGateHaltBytes (fun n => runtime (n + 1)) env m ns stepId yielded outcome.outcomeTag

/-- The bytes that `on_asserted_evaluate_postcheck` logs about `n` bytes that match. -/
def postcheckLogBytes (runtime : Nat → RuntimeSnapshot) (m : Machine) (ns stepId : String)
    (n : Nat) : Nat :=
  48 + stepId.utf8ByteSize + ns.utf8ByteSize + (Json.num n).size +
    assertionCheckedBytes (runtime 1) m ns stepId n

/-- The lines about a gate's result take the counted bytes. -/
theorem onPreGateCheckedLogs_size (runtime : Nat → RuntimeSnapshot) (env : Env) {m : Machine}
    {ns stepId : String} {yielded : RegisteredStep} {preGate : PreGate} {result : PromiseResult}
    {bytes : Bytes} (stored : m.getStep ns stepId = some yielded)
    (gated : yielded.call.preGate = some preGate) (admitted : result.checked = .ok bytes) :
    logBytes runtime (m.onPreGateCheckedLogs env ns stepId result) =
      m.gateLogBytes runtime env ns stepId yielded preGate bytes := by
  simp only [onPreGateCheckedLogs, stored, gated, admitted, logBytes, LogLine.text,
    preGateChecked_size, gateLogBytes]
  refine Nat.add_left_cancel_iff.mpr ?_
  cases (preGate.evaluate bytes).matched with
  | false => exact preGateHaltLogs_size _ env stored _
  | true =>
      simp only [if_true, dispatchLogs, dispatchBytes]
      cases m.contract.materializeStepCall ns yielded.call with
      | error err => exact materializeHaltLogs_size _ env stored err
      | ok effective => rfl

/-- The lines about a matching postcheck take the counted bytes. -/
theorem onAssertedEvaluatePostcheckLogs_size (runtime : Nat → RuntimeSnapshot) (m : Machine)
    (ns stepId : String) {result : PromiseResult} {bytes : Bytes}
    (admitted : result.checked = .ok bytes) :
    logBytes runtime (m.onAssertedEvaluatePostcheckLogs ns stepId bytes result) =
      m.postcheckLogBytes runtime ns stepId bytes.length := by
  have prose : ("asserted step '" ++ stepId ++ "' in " ++ ns ++ ": postcheck matched (" ++
      toString bytes.length ++ " bytes)").utf8ByteSize =
        48 + stepId.utf8ByteSize + ns.utf8ByteSize + (Json.num bytes.length).size := by
    have first : "asserted step '".utf8ByteSize = 15 := rfl
    have second : "' in ".utf8ByteSize = 5 := rfl
    have third : ": postcheck matched (".utf8ByteSize = 21 := rfl
    have last : " bytes)".utf8ByteSize = 7 := rfl
    have digits : (toString bytes.length).utf8ByteSize = (Json.num bytes.length).size := rfl
    simp only [String.utf8ByteSize_append]
    omega
  simp only [onAssertedEvaluatePostcheckLogs, admitted, ne_eq, not_true_eq_false, if_false,
    logBytes, LogLine.text, assertionChecked_size, prose]
  rfl

/-! ## Receipts under the limit -/

/-- An execution under the limit: none where the host fails it. -/
def underLogLimit {α : Type} (runtime : Nat → RuntimeSnapshot) (lines : List LogLine)
    (outcome : α) : Option α :=
  if logBytes runtime lines ≤ maxTotalLogBytes then some outcome else none

/-- The receipt of `on_pre_gate_checked`. -/
def onPreGateCheckedReceipt (runtime : Nat → RuntimeSnapshot) (env : Env) (m : Machine)
    (ns stepId : String) (result : PromiseResult) : Option (Machine × PromiseOrValue) :=
  underLogLimit runtime (m.onPreGateCheckedLogs env ns stepId result)
    (m.onPreGateChecked env ns stepId result)

/-- The receipt of `on_asserted_evaluate_postcheck`: none also where the contract panics. -/
def onAssertedEvaluatePostcheckReceipt (runtime : Nat → RuntimeSnapshot) (m : Machine)
    (ns stepId : String) (expectedReturn : Bytes) (result : PromiseResult) : Option Machine :=
  (underLogLimit runtime (m.onAssertedEvaluatePostcheckLogs ns stepId expectedReturn result)
    (m.onAssertedEvaluatePostcheck ns stepId expectedReturn result)).bind Except.toOption

/-- A gate's result is logged and its verdict carried out: in range, the call is dispatched,
unless its arguments do not materialize, over which the run halts; out of range, the run
halts. -/
structure GateKept (runtime : Nat → RuntimeSnapshot) (env : Env) (m : Machine)
    (ns stepId : String) (yielded : RegisteredStep) (preGate : PreGate) (result : PromiseResult)
    (bytes : Bytes) : Prop where
  logged : logBytes runtime (m.onPreGateCheckedLogs env ns stepId result) ≤ maxTotalLogBytes
  dispatches : (preGate.evaluate bytes).matched = true →
    ∀ effective, m.contract.materializeStepCall ns yielded.call = .ok effective →
      m.onPreGateCheckedReceipt runtime env ns stepId result =
        some ((m.emit (preGateCheckedEvent ns stepId "in_range" true preGate (.ok bytes)
            yielded.call)).note
              (.dispatched ns stepId yielded.yieldId yielded.call effective.args),
          .promise (resolvedPromise m.contract.authorizerId ns stepId effective))
  haltsUnmaterialized : (preGate.evaluate bytes).matched = true →
    ∀ err, m.contract.materializeStepCall ns yielded.call = .error err →
      m.onPreGateCheckedReceipt runtime env ns stepId result =
        some (haltSequenceOnMaterializeFailure env
          (m.emit (preGateCheckedEvent ns stepId "in_range" true preGate (.ok bytes)
            yielded.call)) ns stepId yielded.createdAtMs err, unitValue)
  halts : (preGate.evaluate bytes).matched = false →
    m.onPreGateCheckedReceipt runtime env ns stepId result =
      some (haltSequenceOnPreGateFailure env
        (m.emit (preGateCheckedEvent ns stepId (preGate.evaluate bytes).outcomeTag false preGate
          (.ok bytes) yielded.call)) ns stepId yielded.createdAtMs
            (preGate.evaluate bytes).outcomeTag, unitValue)

/-- A matching postcheck is logged and succeeds. -/
structure PostcheckKept (runtime : Nat → RuntimeSnapshot) (m : Machine) (ns stepId : String)
    (result : PromiseResult) (bytes : Bytes) : Prop where
  logged :
    logBytes runtime (m.onAssertedEvaluatePostcheckLogs ns stepId bytes result) ≤
      maxTotalLogBytes
  succeeds : m.onAssertedEvaluatePostcheckReceipt runtime ns stepId bytes result =
    some (m.emit (assertionCheckedEvent m ns stepId "matched" true bytes (.ok bytes)))

section Gate

variable {runtime : Nat → RuntimeSnapshot} {env : Env} {m : Machine} {ns stepId : String}
  {yielded : RegisteredStep} {preGate : PreGate} {result : PromiseResult} {bytes : Bytes}

theorem materializeAndDispatch_ok {effective : Step}
    (materialized : m.contract.materializeStepCall ns yielded.call = .ok effective) :
    m.materializeAndDispatch env ns stepId yielded =
      (m.note (.dispatched ns stepId yielded.yieldId yielded.call effective.args),
        .promise (resolvedPromise m.contract.authorizerId ns stepId effective)) := by
  rw [materializeAndDispatch, materialized]

theorem materializeAndDispatch_error {err : MaterializeError}
    (failed : m.contract.materializeStepCall ns yielded.call = .error err) :
    m.materializeAndDispatch env ns stepId yielded =
      (m.haltSequenceOnMaterializeFailure env ns stepId yielded.createdAtMs err, unitValue) := by
  rw [materializeAndDispatch, failed]

theorem onPreGateChecked_inRange (stored : m.getStep ns stepId = some yielded)
    (gated : yielded.call.preGate = some preGate) (admitted : result.checked = .ok bytes)
    (matched : (preGate.evaluate bytes).matched = true) :
    m.onPreGateChecked env ns stepId result =
      (m.emit (preGateCheckedEvent ns stepId "in_range" true preGate (.ok bytes)
        yielded.call)).materializeAndDispatch env ns stepId yielded := by
  simp only [onPreGateChecked, stored, gated, admitted, PreGateOutcome.matched_iff.mp matched]
  rfl

theorem onPreGateChecked_outOfRange (stored : m.getStep ns stepId = some yielded)
    (gated : yielded.call.preGate = some preGate) (admitted : result.checked = .ok bytes)
    (missed : (preGate.evaluate bytes).matched = false) :
    m.onPreGateChecked env ns stepId result =
      ((m.emit (preGateCheckedEvent ns stepId (preGate.evaluate bytes).outcomeTag false preGate
        (.ok bytes) yielded.call)).haltSequenceOnPreGateFailure env ns stepId
          yielded.createdAtMs (preGate.evaluate bytes).outcomeTag, unitValue) := by
  simp only [onPreGateChecked, stored, gated, admitted, missed]
  rfl

/-- A gate whose lines fit has its verdict carried out. -/
theorem gateKept_iff (stored : m.getStep ns stepId = some yielded)
    (gated : yielded.call.preGate = some preGate) (admitted : result.checked = .ok bytes) :
    GateKept runtime env m ns stepId yielded preGate result bytes ↔
      m.gateLogBytes runtime env ns stepId yielded preGate bytes ≤ maxTotalLogBytes := by
  rw [← onPreGateCheckedLogs_size runtime env stored gated admitted]
  refine ⟨GateKept.logged, fun logged => ?_⟩
  have receipt : m.onPreGateCheckedReceipt runtime env ns stepId result =
      some (m.onPreGateChecked env ns stepId result) := if_pos logged
  refine ⟨logged, ?_, ?_, ?_⟩
  · intro matched effective materialized
    rw [receipt, onPreGateChecked_inRange stored gated admitted matched]
    exact congrArg some (materializeAndDispatch_ok materialized)
  · intro matched err failed
    rw [receipt, onPreGateChecked_inRange stored gated admitted matched]
    exact congrArg some (materializeAndDispatch_error failed)
  · intro missed
    rw [receipt, onPreGateChecked_outOfRange stored gated admitted missed]

end Gate

/-- A matching postcheck whose lines fit succeeds. -/
theorem postcheckKept_iff {runtime : Nat → RuntimeSnapshot} {m : Machine} {ns stepId : String}
    {result : PromiseResult} {bytes : Bytes} (admitted : result.checked = .ok bytes) :
    PostcheckKept runtime m ns stepId result bytes ↔
      m.postcheckLogBytes runtime ns stepId bytes.length ≤ maxTotalLogBytes := by
  rw [← onAssertedEvaluatePostcheckLogs_size runtime m ns stepId admitted]
  refine ⟨PostcheckKept.logged, fun logged => ⟨logged, ?_⟩⟩
  rw [onAssertedEvaluatePostcheckReceipt, underLogLimit, if_pos logged, Option.bind_some]
  simp only [onAssertedEvaluatePostcheck, admitted, ne_eq, not_true_eq_false, if_false]
  rfl

/-! ## Verdicts and their bytes -/

/-- A callback carries out its verdict about a result that it lets in: a gate's about every
result, a postcheck's about the expected one. -/
def VerdictKept (runtime : Nat → RuntimeSnapshot) (env : Env) (m : Machine) :
    Callback → PromiseResult → Prop
  | .onPreGateChecked ns stepId, result =>
      ∀ yielded preGate bytes, m.getStep ns stepId = some yielded →
        yielded.call.preGate = some preGate → result.checked = .ok bytes →
          GateKept runtime env m ns stepId yielded preGate result bytes
  | .onAssertedEvaluatePostcheck ns stepId expectedReturn, result =>
      result.checked = .ok expectedReturn →
        PostcheckKept runtime m ns stepId result expectedReturn
  | _, _ => True

/-- The bytes of what a callback logs about such a result fit. -/
def VerdictFits (runtime : Nat → RuntimeSnapshot) (env : Env) (m : Machine) :
    Callback → PromiseResult → Prop
  | .onPreGateChecked ns stepId, result =>
      ∀ yielded preGate bytes, m.getStep ns stepId = some yielded →
        yielded.call.preGate = some preGate → result.checked = .ok bytes →
          m.gateLogBytes runtime env ns stepId yielded preGate bytes ≤ maxTotalLogBytes
  | .onAssertedEvaluatePostcheck ns stepId expectedReturn, result =>
      result.checked = .ok expectedReturn →
        m.postcheckLogBytes runtime ns stepId expectedReturn.length ≤ maxTotalLogBytes
  | _, _ => True

/-- A verdict is carried out where its lines fit, and nowhere else. -/
theorem verdict_kept_iff (runtime : Nat → RuntimeSnapshot) (env : Env) (m : Machine)
    (callback : Callback) (result : PromiseResult) :
    VerdictKept runtime env m callback result ↔ VerdictFits runtime env m callback result := by
  cases callback with
  | onPreGateChecked ns stepId =>
      constructor
      · intro kept yielded preGate bytes stored gated admitted
        exact (gateKept_iff stored gated admitted).mp (kept _ _ _ stored gated admitted)
      · intro fits yielded preGate bytes stored gated admitted
        exact (gateKept_iff stored gated admitted).mpr (fits _ _ _ stored gated admitted)
  | onAssertedEvaluatePostcheck ns stepId expectedReturn =>
      exact forall_congr' fun admitted => postcheckKept_iff admitted
  | _ => exact Iff.rfl

/-! ## Large results -/

/-- From three quarters of the cap on, no gate's result fits. -/
theorem gateLogBytes_large (runtime : Nat → RuntimeSnapshot) (env : Env) (m : Machine)
    (ns stepId : String) (yielded : RegisteredStep) (preGate : PreGate) {bytes : Bytes}
    (large : 12288 ≤ bytes.length) :
    maxTotalLogBytes < m.gateLogBytes runtime env ns stepId yielded preGate bytes := by
  simp only [gateLogBytes, preGateCheckedBytes, maxTotalLogBytes]
  omega

/-- The receipt about so long a gate's result fails, whatever the verdict. -/
theorem onPreGateCheckedReceipt_large (runtime : Nat → RuntimeSnapshot) (env : Env) {m : Machine}
    {ns stepId : String} {yielded : RegisteredStep} {preGate : PreGate} {result : PromiseResult}
    {bytes : Bytes} (stored : m.getStep ns stepId = some yielded)
    (gated : yielded.call.preGate = some preGate) (admitted : result.checked = .ok bytes)
    (large : 12288 ≤ bytes.length) :
    m.onPreGateCheckedReceipt runtime env ns stepId result = none := by
  refine if_neg (Nat.not_le.mpr ?_)
  rw [onPreGateCheckedLogs_size runtime env stored gated admitted]
  exact gateLogBytes_large runtime env m ns stepId yielded preGate large

section Asserted

variable (runtime : Nat → RuntimeSnapshot) {m : Machine} {ns stepId : String}
  {yielded : RegisteredStep} {assertionId : AccountId} {assertionMethod : String}
  {assertionArgs expectedReturn : Bytes} {assertionGasTgas : Nat}

/-- From a quarter of the cap on, no expected return of a stored step fits: its base64 stands
three times in one event. -/
theorem postcheckLogBytes_large (stored : m.getStep ns stepId = some yielded)
    (asserted : yielded.call.policy = .asserted assertionId assertionMethod assertionArgs
      expectedReturn assertionGasTgas)
    (large : 4096 ≤ expectedReturn.length) :
    maxTotalLogBytes < m.postcheckLogBytes runtime ns stepId expectedReturn.length := by
  have third : (Json.base64 expectedReturn).size ≤ yielded.call.metadataFull.json.size := by
    refine @Json.size_le_obj _ "expected_return" _ (List.mem_append_right _ ?_)
    simp only [Step.metadataFull, Step.metadataImpl, asserted, if_true, AssertionMetadata.fields]
    simp
  rw [Json.size_base64] at third
  simp only [postcheckLogBytes, assertionCheckedBytes, stored, Option.map_some,
    Json.ofOption_some, maxTotalLogBytes]
  omega

/-- The receipt about so long an expected return fails, though it is what was returned. -/
theorem onAssertedEvaluatePostcheckReceipt_large (stored : m.getStep ns stepId = some yielded)
    (asserted : yielded.call.policy = .asserted assertionId assertionMethod assertionArgs
      expectedReturn assertionGasTgas)
    {result : PromiseResult} (admitted : result.checked = .ok expectedReturn)
    (large : 4096 ≤ expectedReturn.length) :
    m.onAssertedEvaluatePostcheckReceipt runtime ns stepId expectedReturn result = none := by
  have unlogged : maxTotalLogBytes <
      logBytes runtime (m.onAssertedEvaluatePostcheckLogs ns stepId expectedReturn result) := by
    rw [onAssertedEvaluatePostcheckLogs_size runtime m ns stepId admitted]
    exact postcheckLogBytes_large runtime stored asserted large
  rw [onAssertedEvaluatePostcheckReceipt, underLogLimit, if_neg (Nat.not_le.mpr unlogged)]
  rfl

end Asserted

end Machine

/-! ## A gate that any bytes pass -/

def openGate : PreGate := ⟨market, "price", [], some [], none, .lexBytes, 5⟩

def openStep : Step := { plainStep "a" with preGate := some openGate }

/-- Alice's plan of one gated step, whose gate is called. -/
def gatedPlan : Machine :=
  deployed.run [.transact { aliceEnv with spareGas := 100 } (.executeSteps [openStep]),
    .deliver aliceEnv 0 okResult]

theorem openGate_matched (bytes : Bytes) : (openGate.evaluate bytes).matched = true := by
  have least : ¬ bytes < [] := List.not_lt_nil bytes
  simp [PreGate.evaluate, openGate, evaluatePreGate, least, PreGateOutcome.matched]

theorem gatedPlan_due (answer : PromiseResult) :
    gatedPlan.due 0 answer = some (.onPreGateChecked (manualNamespace alice) "a", answer) := by
  have waits : gatedPlan.pool.get 0 = some ⟨.call ⟨market, "price", .raw [], 0, 5⟩,
      [⟨.onPreGateChecked (manualNamespace alice) "a", 55⟩]⟩ := by
    decide
  rw [Machine.due, waits]
  rfl

/-- A result that is let in and passes the gate, but is too long for the log: the call is not
dispatched. -/
theorem large_result_unlogged :
    ¬ ∀ (m : Machine) (runtime : Nat → RuntimeSnapshot) (env : Env) (id : Nat)
      (answer result : PromiseResult) (callback : Callback),
      m.Reachable → m.due id answer = some (callback, result) →
        m.VerdictKept runtime env callback result := by
  intro keeps
  have length : (List.replicate 12288 (0 : UInt8)).length = 12288 := List.length_replicate
  generalize List.replicate 12288 (0 : UInt8) = bytes at length
  have kept := keeps gatedPlan (fun _ => aliceRuntime) { aliceEnv with now := 1000 } 0 _ _ _
    (deployed_reachable.run _) (gatedPlan_due (.successful bytes))
  have stored : gatedPlan.getStep (manualNamespace alice) "a" = some ⟨0, openStep, 0⟩ := by
    decide
  have admitted : (PromiseResult.successful bytes).checked = .ok bytes := by
    rw [PromiseResult.checked, length]
    rfl
  have dispatched := (kept _ _ _ stored rfl admitted).dispatches (openGate_matched bytes)
    openStep rfl
  rw [Machine.onPreGateCheckedReceipt_large _ _ stored rfl admitted
    (Nat.le_of_eq length.symm)] at dispatched
  cases dispatched

end SmartAccount
