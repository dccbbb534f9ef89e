import SmartAccount.Foundation.Json
import SmartAccount.Runtime

/-!
# Events as JSON

`emit_event` writes one log line for an event: the envelope of the `sa-automation` standard
around the event's fields and the runtime snapshot of the emission.  serde_json keeps the
fields of an object in the order in which they are inserted, so they stand here in the order in
which the source lists them.
-/

namespace SmartAccount

open Foundation

/-! ## The runtime snapshot -/

/-- What the host tells at one emission. -/
structure RuntimeSnapshot where
  blockHeight : Nat
  blockTimestampMs : Nat
  epochHeight : Nat
  usedGasTgas : Nat
  prepaidGasTgas : Nat
  attachedDepositYocto : Nat
  accountBalanceYocto : Nat
  accountLockedBalanceYocto : Nat
  storageUsage : Nat
  predecessorId : AccountId
  currentAccountId : AccountId
  signerId : AccountId

/-- An amount as a decimal string. -/
def Json.yocto (n : Nat) : Json := .str (toString n)

def Json.account (id : AccountId) : Json := .str id.val

/-- `runtime_snapshot_json`. -/
def RuntimeSnapshot.json (runtime : RuntimeSnapshot) : Json :=
  .obj [("block_height", .num runtime.blockHeight),
    ("block_timestamp_ms", .num runtime.blockTimestampMs),
    ("epoch_height", .num runtime.epochHeight),
    ("used_gas_tgas", .num runtime.usedGasTgas),
    ("prepaid_gas_tgas", .num runtime.prepaidGasTgas),
    ("attached_deposit_yocto", Json.yocto runtime.attachedDepositYocto),
    ("account_balance_yocto", Json.yocto runtime.accountBalanceYocto),
    ("account_locked_balance_yocto", Json.yocto runtime.accountLockedBalanceYocto),
    ("storage_usage", .num runtime.storageUsage),
    ("predecessor_id", Json.account runtime.predecessorId),
    ("current_account_id", Json.account runtime.currentAccountId),
    ("signer_id", Json.account runtime.signerId)]

/-- What the host tells at a call of Alice's. -/
def aliceRuntime : RuntimeSnapshot :=
  ⟨1, 1000, 1, 5, 300, 0, 0, 0, 1000, alice, alice, alice⟩

/-! ## The fields of an event -/

/-- The fields that the policy adds to a `call` object. -/
def AssertionMetadata.fields (assertion : AssertionMetadata) : List (String × Json) :=
  [("assertion_id", Json.account assertion.assertionId),
    ("assertion_method", .str assertion.assertionMethod),
    ("assertion_gas_tgas", .num assertion.assertionGasTgas),
    ("assertion_args_bytes_len", .num assertion.assertionArgsBytesLen),
    ("expected_return_bytes_len", .num assertion.expectedReturnBytesLen)] ++
  match assertion.payload with
  | none => []
  | some (args, expected) =>
      [("assertion_args", .base64 args), ("expected_return", .base64 expected)]

/-- The `call` object. -/
def CallMetadata.json (call : CallMetadata) : Json :=
  .obj ([("target_id", Json.account call.targetId),
    ("method", .str call.method),
    ("args_bytes_len", .num call.argsBytesLen),
    ("deposit_yocto", Json.yocto call.depositYocto),
    ("gas_tgas", .num call.gasTgas),
    ("policy", .str call.policy),
    ("dispatch_summary", .str call.dispatchSummary)] ++
  (match call.adapter with
    | none => []
    | some (adapterId, adapterMethod) =>
        [("adapter_id", Json.account adapterId), ("adapter_method", .str adapterMethod)]) ++
  match call.assertion with
    | none => []
    | some assertion => assertion.fields)

/-- The `automation_run` object of `sequence_started`. -/
def AutomationContext.json (run : AutomationContext) : Json :=
  .obj [("trigger_id", .str run.triggerId),
    ("sequence_id", .str run.sequenceId),
    ("run_nonce", .num run.runNonce),
    ("executor_id", Json.account run.executorId),
    ("started_at_ms", .num run.startedAtMs)]

/-- The error that a checked promise result reports. -/
def PromiseError.fields (error : PromiseError) : List (String × Json) :=
  [("error_kind", .str error.kind), ("error_msg", .str error.debug)]

/-- `sequence_halted`: a resume that fails behind a resolved step names that step, and every
other halt tells about its own. -/
def HaltData.fields (data : HaltData) : List (String × Json) :=
  [("namespace", .str data.sequenceNamespace),
    ("failed_step_id", .str data.failedStepId),
    ("reason", .str data.reason),
    ("error_kind", .str data.errorKind)] ++
  match data.afterStepId with
  | some after => [("after_step_id", .str after), ("error_msg", .str data.errorMsg)]
  | none =>
      [("error_msg", .str data.errorMsg),
        ("registered_at_ms", .ofOption .num data.registeredAtMs),
        ("halt_latency_ms", .ofOption .num data.haltLatencyMs),
        ("call", .ofOption CallMetadata.json data.call)]

def PreGateChecked.fields (data : PreGateChecked) : List (String × Json) :=
  [("step_id", .str data.stepId),
    ("namespace", .str data.sequenceNamespace),
    ("outcome", .str data.outcome),
    ("matched", .bool data.matched),
    ("expected_min_bytes_len", .ofOption .num data.expectedMinBytesLen),
    ("expected_max_bytes_len", .ofOption .num data.expectedMaxBytesLen),
    ("actual_bytes_len", .num data.actualBytesLen)] ++
  (match data.actualReturn with
    | none => []
    | some bytes => [("actual_return", .base64 bytes)]) ++
  [("comparison", .str data.comparison)] ++
  (match data.error with
    | none => []
    | some error => error.fields) ++
  [("call", data.call.json)]

def AssertionChecked.fields (data : AssertionChecked) : List (String × Json) :=
  [("step_id", .str data.stepId),
    ("namespace", .str data.sequenceNamespace),
    ("expected_bytes_len", .num data.expectedReturn.length),
    ("actual_bytes_len", .num data.actualBytesLen),
    ("expected_return", .base64 data.expectedReturn),
    ("actual_return", .ofOption .base64 data.actualReturn),
    ("match", .bool data.matched),
    ("outcome", .str data.outcome)] ++
  (match data.error with
    | none => []
    | some error => error.fields) ++
  [("call", .ofOption CallMetadata.json data.call)]

def TriggerFired.fields (data : TriggerFired) : List (String × Json) :=
  [("trigger_id", .str data.triggerId),
    ("namespace", .str data.sequenceNamespace),
    ("sequence_id", .str data.sequenceId),
    ("run_nonce", .num data.runNonce),
    ("executor_id", Json.account data.executorId),
    ("started_at_ms", .num data.startedAtMs),
    ("call_count", .num data.callCount),
    ("runs_started", .num data.runsStarted),
    ("max_runs", .num data.maxRuns),
    ("runs_remaining", .num data.runsRemaining),
    ("min_balance_yocto", Json.yocto data.minBalanceYocto),
    ("balance_yocto", Json.yocto data.balanceYocto),
    ("required_balance_yocto", Json.yocto data.requiredBalanceYocto),
    ("template_total_deposit_yocto", Json.yocto data.templateTotalDepositYocto),
    ("trigger_created_at_ms", .num data.triggerCreatedAtMs)]

def RunFinished.fields (data : RunFinished) : List (String × Json) :=
  [("trigger_id", .str data.triggerId),
    ("namespace", .str data.sequenceNamespace),
    ("sequence_id", .str data.sequenceId),
    ("run_nonce", .num data.runNonce),
    ("executor_id", Json.account data.executorId),
    ("status", .str data.status.debug),
    ("started_at_ms", .num data.startedAtMs),
    ("finished_at_ms", .ofOption .num data.finishedAtMs),
    ("duration_ms", .ofOption .num data.durationMs),
    ("failed_step_id", .ofOption .str data.failedStepId)]

/-- The public key and the reason of a revocation. -/
def revokedFields (sessionPublicKey reason : String) : List (String × Json) :=
  [("session_public_key", .str sessionPublicKey), ("reason", .str reason)]

namespace Event

def name : Event → String
  | stepRegistered _ _ _ _ _ => "step_registered"
  | sequenceStarted _ _ _ _ _ _ => "sequence_started"
  | stepResumed _ _ _ _ _ => "step_resumed"
  | stepResolvedOk _ _ _ _ _ _ _ => "step_resolved_ok"
  | stepResolvedErr _ _ _ _ _ _ => "step_resolved_err"
  | sequenceCompleted _ _ _ => "sequence_completed"
  | sequenceHalted _ => "sequence_halted"
  | preGateChecked _ => "pre_gate_checked"
  | assertionChecked _ => "assertion_checked"
  | resultSaved _ _ _ _ _ => "result_saved"
  | triggerCreated _ _ _ _ _ _ _ => "trigger_created"
  | triggerFired _ => "trigger_fired"
  | runFinished _ => "run_finished"
  | automationRunsPruned _ _ => "automation_runs_pruned"
  | sessionEnrolled _ _ => "session_enrolled"
  | sessionFired _ _ _ _ _ => "session_fired"
  | sessionRevoked _ _ => "session_revoked"
  | proxyKeyEnrolled _ _ => "proxy_key_enrolled"
  | proxyCallDispatched _ _ _ _ _ _ _ _ _ => "proxy_call_dispatched"
  | proxyKeyRevoked _ _ => "proxy_key_revoked"

/-- The fields beside `runtime`. -/
def fields : Event → List (String × Json)
  | stepRegistered stepId ns registeredAtMs gasTgas call =>
      [("step_id", .str stepId), ("namespace", .str ns),
        ("registered_at_ms", .num registeredAtMs),
        ("resume_callback_gas_tgas", .num gasTgas), ("call", call.json)]
  | sequenceStarted ns first queued total run origin =>
      [("namespace", .str ns), ("first_step_id", .str first), ("queued_count", .num queued),
        ("total_steps", .num total), ("automation_run", .ofOption AutomationContext.json run),
        ("origin", .str origin)]
  | stepResumed stepId ns registeredAtMs latencyMs call =>
      [("step_id", .str stepId), ("namespace", .str ns),
        ("registered_at_ms", .num registeredAtMs), ("resume_latency_ms", .num latencyMs),
        ("call", call.json)]
  | stepResolvedOk stepId ns len next registeredAtMs latencyMs call =>
      [("step_id", .str stepId), ("namespace", .str ns), ("result_bytes_len", .num len),
        ("next_step_id", .ofOption .str next), ("registered_at_ms", .num registeredAtMs),
        ("resolve_latency_ms", .num latencyMs), ("call", .ofOption CallMetadata.json call)]
  | stepResolvedErr stepId ns error registeredAtMs latencyMs call =>
      [("step_id", .str stepId), ("namespace", .str ns)] ++ error.fields ++
        [("oversized_bytes", .ofOption .num error.oversizedBytes),
          ("registered_at_ms", .num registeredAtMs), ("resolve_latency_ms", .num latencyMs),
          ("call", .ofOption CallMetadata.json call)]
  | sequenceCompleted ns final len =>
      [("namespace", .str ns), ("final_step_id", .str final),
        ("final_result_bytes_len", .num len)]
  | sequenceHalted data => data.fields
  | preGateChecked data => data.fields
  | assertionChecked data => data.fields
  | resultSaved stepId ns asName kind len =>
      [("step_id", .str stepId), ("namespace", .str ns), ("as_name", .str asName),
        ("kind", .str kind), ("bytes_len", .num len)]
  | triggerCreated triggerId sequenceId minBalance maxRuns createdAtMs count deposit =>
      [("trigger_id", .str triggerId), ("sequence_id", .str sequenceId),
        ("min_balance_yocto", Json.yocto minBalance), ("max_runs", .num maxRuns),
        ("created_at_ms", .num createdAtMs), ("template_call_count", .ofOption .num count),
        ("template_total_deposit_yocto", .ofOption Json.yocto deposit)]
  | triggerFired data => data.fields
  | runFinished data => data.fields
  | automationRunsPruned count namespaces =>
      [("pruned_count", .num count), ("namespaces", .arr (namespaces.map .str))]
  | sessionEnrolled grant allowance =>
      [("session_public_key", .str grant.sessionPublicKey),
        ("granted_at_ms", .num grant.grantedAtMs), ("expires_at_ms", .num grant.expiresAtMs),
        ("allowed_trigger_ids", .ofOption (fun ids => .arr (ids.map .str))
          grant.allowedTriggerIds),
        ("max_fire_count", .num grant.maxFireCount), ("allowance_yocto", Json.yocto allowance),
        ("label", .ofOption .str grant.label)]
  | sessionFired pk triggerId count maxCount label =>
      [("session_public_key", .str pk), ("trigger_id", .str triggerId),
        ("fire_count_after", .num count), ("max_fire_count", .num maxCount),
        ("label", .ofOption .str label)]
  | sessionRevoked pk reason => revokedFields pk reason
  | proxyKeyEnrolled grant allowance =>
      [("session_public_key", .str grant.sessionPublicKey),
        ("granted_at_ms", .num grant.grantedAtMs), ("expires_at_ms", .num grant.expiresAtMs),
        ("allowed_targets", .arr (grant.allowedTargets.map Json.account)),
        ("allowed_methods", .ofOption (fun names => .arr (names.map .str))
          grant.allowedMethods),
        ("attach_yocto", Json.yocto grant.attachYocto), ("max_gas_tgas", .num grant.maxGasTgas),
        ("max_call_count", .num grant.maxCallCount), ("allowance_yocto", Json.yocto allowance),
        ("label", .ofOption .str grant.label)]
  | proxyCallDispatched pk target method len attach gasTgas count maxCount label =>
      [("session_public_key", .str pk), ("target", Json.account target), ("method", .str method),
        ("args_bytes_len", .num len), ("attach_yocto", Json.yocto attach),
        ("max_gas_tgas", .num gasTgas), ("call_count", .num count),
        ("max_call_count", .num maxCount), ("label", .ofOption .str label)]
  | proxyKeyRevoked pk reason => revokedFields pk reason

/-! ## The log line -/

/-- `data`, with the runtime snapshot of the emission. -/
def data (event : Event) (runtime : RuntimeSnapshot) : Json :=
  .obj (event.fields ++ [("runtime", runtime.json)])

/-- The payload of `emit_event`. -/
def payload (event : Event) (runtime : RuntimeSnapshot) : Json :=
  .obj [("standard", .str "sa-automation"), ("version", .str "1.1.0"),
    ("event", .str event.name), ("data", event.data runtime)]

/-- The line that `emit_event` logs. -/
def line (event : Event) (runtime : RuntimeSnapshot) : String :=
  "EVENT_JSON:" ++ (event.payload runtime).render

/-- The bytes of a line, from those of its fields and of the snapshot. -/
theorem line_size (event : Event) (runtime : RuntimeSnapshot) :
    (event.line runtime).utf8ByteSize =
      86 + (Json.str event.name).size + (event.fields.map Json.fieldSize).sum +
        runtime.json.size := by
  have envelope : (event.payload runtime).size =
      63 + (Json.str event.name).size + (event.data runtime).size := by
    rw [payload, Json.size_obj (List.cons_ne_nil _ _), Json.sum_fieldSize]
    simp only [List.map_cons, List.map_nil, List.sum_cons, List.sum_nil]
    have keys : Json.keySize "standard" + (Json.keySize "version" + (Json.keySize "event" +
        Json.keySize "data")) = 40 := rfl
    have standard : (Json.str "sa-automation").size = 15 := rfl
    have version : (Json.str "1.1.0").size = 7 := rfl
    omega
  have data : (event.data runtime).size =
      12 + (event.fields.map Json.fieldSize).sum + runtime.json.size := by
    have key : (Json.str "runtime").size = 9 := rfl
    rw [Event.data, Json.size_obj (List.append_ne_nil_of_right_ne_nil _ (List.cons_ne_nil _ _)),
      List.map_append, List.sum_append, List.map_singleton, List.sum_singleton]
    show 1 + (_ + ((Json.str "runtime").size + runtime.json.size + 2)) = _
    omega
  have mark : "EVENT_JSON:".utf8ByteSize = 11 := rfl
  have text : (event.line runtime).utf8ByteSize = 11 + (event.payload runtime).size := by
    rw [line, String.utf8ByteSize_append, mark]
    rfl
  omega

/-- An event is about the namespace its data names. -/
theorem data_namespace (event : Event) (runtime : RuntimeSnapshot) :
    ((event.data runtime).get "namespace").asStr = event.sequenceNamespace := by
  cases event <;> rfl

end Event

end SmartAccount
