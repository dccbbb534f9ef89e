import SmartAccount.Completion
import SmartAccount.Fates
import SmartAccount.Telemetry
import SmartAccount.TerminalRuns

/-!
# Run summaries

`summarizeRuns` folds the events of a namespace into one row.  The row's status is the one the
last terminal event sets, and the contract closes a halted run before it says that the sequence
halted: the row agrees with the stored run as long as the sequence is not halted and nothing
completes behind a failed run (`run_summary_agrees`).
-/

namespace SmartAccount

open Foundation

/-! ## Parsed events -/

/-- What the summary reads of a parsed event and its receipt. -/
structure StructuredEvent where
  event : String
  data : Json
  blockHeight : Option Nat
  blockTimestamp : Option Nat

/-- `data.namespace`, or the empty string. -/
def StructuredEvent.sequenceNamespace (event : StructuredEvent) : String :=
  (event.data.get "namespace").asStr.getD ""

/-- `groupEventsByNamespace`. -/
def groupEventsByNamespace (events : List StructuredEvent) :
    IterableMap String (List StructuredEvent) :=
  events.foldl (fun buckets event => buckets.insert event.sequenceNamespace
    ((buckets.get event.sequenceNamespace).getD [] ++ [event])) .empty

/-! ## Summaries -/

structure AssertionSummary where
  stepId : Json
  matched : Json
  outcome : Json
  expectedBytesLen : Json
  actualBytesLen : Json

/-- One row.  The averages, maxima and counts derived from its lists are left out. -/
structure RunSummary where
  sequenceNamespace : String
  origin : Json := .null
  triggerId : Json := .null
  runNonce : Json := .null
  sequenceId : Json := .null
  executorId : Json := .null
  signerId : Json := .null
  firstSeenBlockHeight : Option Nat := none
  lastSeenBlockHeight : Option Nat := none
  firstSeenBlockTimestampMs : Option Nat := none
  lastSeenBlockTimestampMs : Option Nat := none
  startedAtMs : Json := .null
  finishedAtMs : Json := .null
  durationMs : Json := .null
  status : String := "unknown"
  failedStepId : Json := .null
  errorKind : Json := .null
  errorMsg : Json := .null
  stepCount : Nat := 0
  stepsResolvedOk : Nat := 0
  runsStarted : Json := .null
  maxRuns : Json := .null
  runsRemaining : Json := .null
  balanceYocto : Json := .null
  requiredBalanceYocto : Json := .null
  minBalanceYocto : Json := .null
  templateTotalDepositYocto : Json := .null
  resumeLatencyMsSamples : List Nat := []
  resolveLatencyMsSamples : List Nat := []
  gasBurntTgasSamples : List Nat := []
  storageUsageSamples : List Nat := []
  assertions : List AssertionSummary := []
  events : List StructuredEvent

namespace RunSummary

/-- The block and the time at which the namespace was first and last seen. -/
def see (summary : RunSummary) (event : StructuredEvent) : RunSummary :=
  { summary with
    firstSeenBlockHeight := summary.firstSeenBlockHeight.merge min event.blockHeight
    lastSeenBlockHeight := summary.lastSeenBlockHeight.merge max event.blockHeight
    firstSeenBlockTimestampMs := summary.firstSeenBlockTimestampMs.merge min event.blockTimestamp
    lastSeenBlockTimestampMs := summary.lastSeenBlockTimestampMs.merge max event.blockTimestamp }

/-- The samples of the runtime snapshot. -/
def sample (summary : RunSummary) (runtime : Json) : RunSummary :=
  { summary with
    signerId := if (runtime.get "signer_id").truthy then runtime.get "signer_id"
      else summary.signerId
    gasBurntTgasSamples :=
      summary.gasBurntTgasSamples ++ (runtime.get "used_gas_tgas").asNum.toList
    storageUsageSamples :=
      summary.storageUsageSamples ++ (runtime.get "storage_usage").asNum.toList }

/-- The branches of the loop, by the event's name. -/
def apply (summary : RunSummary) (event : String) (data : Json) : RunSummary :=
  match event with
  | "trigger_fired" =>
      { summary with
        origin := .str "automation"
        triggerId := (data.get "trigger_id").coalesce summary.triggerId
        runNonce := (data.get "run_nonce").coalesce summary.runNonce
        sequenceId := (data.get "sequence_id").coalesce summary.sequenceId
        executorId := (data.get "executor_id").coalesce summary.executorId
        startedAtMs := (data.get "started_at_ms").coalesce summary.startedAtMs
        runsStarted := (data.get "runs_started").coalesce summary.runsStarted
        maxRuns := (data.get "max_runs").coalesce summary.maxRuns
        runsRemaining := (data.get "runs_remaining").coalesce summary.runsRemaining
        balanceYocto := (data.get "balance_yocto").coalesce summary.balanceYocto
        requiredBalanceYocto :=
          (data.get "required_balance_yocto").coalesce summary.requiredBalanceYocto
        minBalanceYocto := (data.get "min_balance_yocto").coalesce summary.minBalanceYocto
        templateTotalDepositYocto :=
          (data.get "template_total_deposit_yocto").coalesce summary.templateTotalDepositYocto }
  | "sequence_started" =>
      let started := { summary with
        origin := summary.origin.coalesce (data.get "origin")
        stepCount := max summary.stepCount ((data.get "total_steps").asNum.getD 0) }
      let run := data.get "automation_run"
      if run.truthy then
        { started with
          triggerId := (run.get "trigger_id").coalesce started.triggerId
          sequenceId := (run.get "sequence_id").coalesce started.sequenceId
          runNonce := (run.get "run_nonce").coalesce started.runNonce
          executorId := (run.get "executor_id").coalesce started.executorId
          startedAtMs := (run.get "started_at_ms").coalesce started.startedAtMs }
      else started
  | "step_resumed" =>
      { summary with
        resumeLatencyMsSamples :=
          summary.resumeLatencyMsSamples ++ (data.get "resume_latency_ms").asNum.toList }
  | "step_resolved_ok" =>
      { summary with
        stepsResolvedOk := summary.stepsResolvedOk + 1
        stepCount := max summary.stepCount (summary.stepsResolvedOk + 1)
        resolveLatencyMsSamples :=
          summary.resolveLatencyMsSamples ++ (data.get "resolve_latency_ms").asNum.toList }
  | "step_resolved_err" =>
      { summary with
        errorKind := (data.get "error_kind").coalesce summary.errorKind
        errorMsg := (data.get "error_msg").coalesce summary.errorMsg
        resolveLatencyMsSamples :=
          summary.resolveLatencyMsSamples ++ (data.get "resolve_latency_ms").asNum.toList }
  | "sequence_completed" => { summary with status := "succeeded" }
  | "sequence_halted" =>
      { summary with
        status := "halted"
        failedStepId := (data.get "failed_step_id").coalesce summary.failedStepId
        errorKind := (data.get "error_kind").coalesce
          ((data.get "reason").coalesce summary.errorKind)
        errorMsg := (data.get "error_msg").coalesce summary.errorMsg }
  | "run_finished" =>
      -- a status that is neither a string nor false to JavaScript would throw
      let status := ((data.get "status").asStr.getD "").toLower
      { summary with
        status := if status = "" then summary.status else status
        finishedAtMs := (data.get "finished_at_ms").coalesce summary.finishedAtMs
        failedStepId := (data.get "failed_step_id").coalesce summary.failedStepId
        triggerId := (data.get "trigger_id").coalesce summary.triggerId
        runNonce := (data.get "run_nonce").coalesce summary.runNonce
        durationMs := (data.get "duration_ms").coalesce summary.durationMs }
  | "assertion_checked" =>
      { summary with
        assertions := summary.assertions ++ [⟨data.get "step_id", data.get "match",
          data.get "outcome", data.get "expected_bytes_len", data.get "actual_bytes_len"⟩] }
  | _ => summary

/-- One pass of the loop over the bucket. -/
def note (summary : RunSummary) (event : StructuredEvent) : RunSummary :=
  ((summary.see event).sample (event.data.get "runtime")).apply event.event event.data

/-- The duration that neither bound of a run leaves out. -/
def close (summary : RunSummary) : RunSummary :=
  match summary.durationMs, summary.startedAtMs, summary.finishedAtMs with
  | .null, .num started, .num finished =>
      -- block time does not run backward
      { summary with durationMs := .num (finished - started) }
  | _, _, _ => summary

end RunSummary

/-- `summarizeRuns`. -/
def summarizeRuns (events : List StructuredEvent) : List RunSummary :=
  ((groupEventsByNamespace events).entries.filter fun bucket => bucket.1 ≠ "").map fun bucket =>
    (bucket.2.foldl RunSummary.note
      { sequenceNamespace := bucket.1, events := bucket.2 }).close

/-! ## What the contract's events make of a row -/

/-- An event as it was parsed, from any receipt. -/
def Event.Structured (event : Event) (parsed : StructuredEvent) : Prop :=
  parsed.event = event.name ∧ ∃ runtime, parsed.data = event.data runtime

theorem Event.Structured.sequenceNamespace_eq {event : Event} {parsed : StructuredEvent}
    (read : event.Structured parsed) : parsed.sequenceNamespace = event.sequenceNamespace.getD "" := by
  obtain ⟨-, runtime, data⟩ := read
  rw [StructuredEvent.sequenceNamespace, data, Event.data_namespace]

/-- The status, the failed step and the count of a row. -/
structure Tally where
  status : String := "unknown"
  failedStepId : Option String := none
  stepsResolvedOk : Nat := 0
deriving DecidableEq

/-- What an event of the contract does to them. -/
def Tally.note (tally : Tally) : Event → Tally
  | .stepResolvedOk _ _ _ _ _ _ _ => { tally with stepsResolvedOk := tally.stepsResolvedOk + 1 }
  | .sequenceCompleted _ _ _ => { tally with status := "succeeded" }
  | .sequenceHalted data =>
      { tally with status := "halted", failedStepId := some data.failedStepId }
  | .runFinished data =>
      { tally with
        status := data.status.debug.toLower
        failedStepId := data.failedStepId.or tally.failedStepId }
  | _ => tally

/-- The row shows the tally. -/
structure RunSummary.Shows (summary : RunSummary) (tally : Tally) : Prop where
  status : summary.status = tally.status
  failedStepId : summary.failedStepId = .ofOption .str tally.failedStepId
  stepsResolvedOk : summary.stepsResolvedOk = tally.stepsResolvedOk

theorem RunSummary.Shows.note {summary : RunSummary} {tally : Tally} (shows : summary.Shows tally)
    {event : Event} {parsed : StructuredEvent} (read : event.Structured parsed) :
    (summary.note parsed).Shows (tally.note event) := by
  obtain ⟨name, runtime, carried⟩ := read
  have seen : ((summary.see parsed).sample (parsed.data.get "runtime")).Shows tally :=
    ⟨shows.status, shows.failedStepId, shows.stepsResolvedOk⟩
  rw [RunSummary.note, name, carried]
  rw [carried] at seen
  revert seen
  generalize (summary.see parsed).sample _ = summary
  intro ⟨status, failed, resolved⟩
  cases event with
  | stepResolvedOk stepId ns n next createdAtMs latencyMs call =>
      exact ⟨status, failed, congrArg (· + 1) resolved⟩
  | sequenceCompleted ns final n => exact ⟨rfl, failed, resolved⟩
  | sequenceHalted data => exact ⟨rfl, rfl, resolved⟩
  | runFinished data =>
      refine ⟨?_, ?_, resolved⟩
      · show (if data.status.debug.toLower = "" then summary.status else
          data.status.debug.toLower) = data.status.debug.toLower
        rw [if_neg]
        cases data.status <;> decide +kernel
      · show (Json.ofOption Json.str data.failedStepId).coalesce summary.failedStepId =
          .ofOption .str (data.failedStepId.or tally.failedStepId)
        cases data.failedStepId with
        | none => exact failed
        | some stepId => rfl
  | sequenceStarted ns first queued total run origin =>
      cases run <;> exact ⟨status, failed, resolved⟩
  | _ => exact ⟨status, failed, resolved⟩

/-- The tally of the events of a namespace. -/
def Event.isAbout (ns : String) (event : Event) : Bool := event.sequenceNamespace = some ns

def Trace.tally (t : Trace) (ns : String) : Tally :=
  (t.events.filter (Event.isAbout ns)).foldl Tally.note {}

/-! ## One bucket -/

theorem groupEvents_bucket {ns : String} {bucket events : List StructuredEvent}
    {buckets : IterableMap String (List StructuredEvent)} (held : buckets.entries = [(ns, bucket)])
    (about : ∀ event ∈ events, event.sequenceNamespace = ns) :
    (events.foldl (fun buckets event => buckets.insert event.sequenceNamespace
      ((buckets.get event.sequenceNamespace).getD [] ++ [event])) buckets).entries =
        [(ns, bucket ++ events)] := by
  induction events generalizing bucket buckets with
  | nil => rw [List.append_nil]; exact held
  | cons event events ih =>
      obtain ⟨same, rest⟩ := List.forall_mem_cons.mp about
      have longer : bucket ++ event :: events = bucket ++ [event] ++ events := List.append_cons ..
      rw [List.foldl_cons, same, longer]
      refine ih ?_ rest
      have stored : buckets.get ns = some bucket :=
        IterableMap.get_eq_some_iff.mpr (held ▸ List.mem_singleton_self _)
      have known : ns ∈ buckets.entries.map Prod.fst := by
        rw [held]
        exact List.mem_singleton_self _
      rw [IterableMap.insert, dif_pos known, stored]
      show IterableMap.replaceEntry ns _ buckets.entries = _
      rw [held]
      simp [IterableMap.replaceEntry]

/-- Events of one namespace make one bucket. -/
theorem groupEvents_single {ns : String} {events : List StructuredEvent} (some_ : events ≠ [])
    (about : ∀ event ∈ events, event.sequenceNamespace = ns) :
    (groupEventsByNamespace events).entries = [(ns, events)] := by
  cases events with
  | nil => exact absurd rfl some_
  | cons event events =>
      obtain ⟨same, rest⟩ := List.forall_mem_cons.mp about
      rw [groupEventsByNamespace, List.foldl_cons, same]
      have first : ((.empty : IterableMap String (List StructuredEvent)).insert ns
          (((.empty : IterableMap String (List StructuredEvent)).get ns).getD [] ++
            [event])).entries = [(ns, [event])] := rfl
      exact groupEvents_bucket first rest

/-! ## One row -/

theorem RunSummary.note_namespace (summary : RunSummary) (event : StructuredEvent) :
    (summary.note event).sequenceNamespace = summary.sequenceNamespace := by
  show (RunSummary.apply _ _ _).sequenceNamespace = _
  unfold RunSummary.apply
  split
  case h_2 => dsimp only; split <;> rfl
  all_goals rfl

theorem RunSummary.Shows.foldl {summary : RunSummary} {tally : Tally} (shows : summary.Shows tally)
    {events : List Event} {parsed : List StructuredEvent}
    (read : List.Forall₂ Event.Structured events parsed) :
    (parsed.foldl RunSummary.note summary).Shows (events.foldl Tally.note tally) ∧
      (parsed.foldl RunSummary.note summary).sequenceNamespace = summary.sequenceNamespace := by
  induction read generalizing summary tally with
  | nil => exact ⟨shows, rfl⟩
  | cons head _ ih =>
      obtain ⟨rest, same⟩ := ih (shows.note head)
      exact ⟨rest, same.trans (summary.note_namespace _)⟩

theorem RunSummary.close_shows (summary : RunSummary) :
    summary.close.sequenceNamespace = summary.sequenceNamespace ∧
      ∀ tally, summary.Shows tally → summary.close.Shows tally := by
  unfold RunSummary.close
  split
  · exact ⟨rfl, fun tally shows => ⟨shows.status, shows.failedStepId, shows.stepsResolvedOk⟩⟩
  · exact ⟨rfl, fun tally shows => shows⟩

/-- Events about one namespace make one row, which shows their tally. -/
theorem summarizeRuns_row {ns : String} (named : ns ≠ "") {events : List Event}
    {parsed : List StructuredEvent} (read : List.Forall₂ Event.Structured events parsed)
    (about : ∀ event ∈ events, event.isAbout ns = true) (some_ : events ≠ []) :
    ∃ row, summarizeRuns parsed = [row] ∧ row.sequenceNamespace = ns ∧
      row.Shows (events.foldl Tally.note {}) := by
  have grouped : (groupEventsByNamespace parsed).entries = [(ns, parsed)] := by
    refine groupEvents_single (fun none => some_ ?_) fun event inside => ?_
    · subst none
      exact List.forall₂_nil_right_iff.mp read
    · obtain ⟨i, within, rfl⟩ := List.mem_iff_getElem.mp inside
      have here := List.forall₂_iff_get.mp read
      have origin := here.2 i (here.1 ▸ within) within
      rw [List.get_eq_getElem, List.get_eq_getElem] at origin
      have own := of_decide_eq_true (about _ (List.getElem_mem (here.1 ▸ within)))
      rw [origin.sequenceNamespace_eq, own]
      rfl
  have empty : ({ sequenceNamespace := ns, events := parsed } : RunSummary).Shows {} :=
    ⟨rfl, rfl, rfl⟩
  obtain ⟨shows, same⟩ := empty.foldl read
  obtain ⟨kept, closes⟩ := RunSummary.close_shows (parsed.foldl RunSummary.note
    { sequenceNamespace := ns, events := parsed })
  refine ⟨_, ?_, kept.trans same, closes _ shows⟩
  have listed : [(ns, parsed)].filter (fun bucket => bucket.1 ≠ "") = [(ns, parsed)] :=
    List.filter_eq_self.mpr fun bucket inside =>
      decide_eq_true (List.mem_singleton.mp inside ▸ named)
  rw [summarizeRuns, grouped, listed]
  rfl

/-! ## Steps that resolve Ok -/

/-- The callback is told that a step's call succeeded. -/
def Callback.resolvesOk : Callback → PromiseResult → Bool
  | onStepResolved _ _, result => result.checked.isOk
  | _, _ => false

/-- The step of the namespace that an operation resolves Ok. -/
def Op.resolvesOk (ns : String) (m : Machine) : Op → Option String
  | .deliver _ id answer =>
      (m.due id answer).bind fun due =>
        if due.1.sequenceNamespace = ns ∧ due.1.resolvesOk due.2 = true then some due.1.stepId
        else none
  | _ => none

/-- The fates of a step that resolved Ok. -/
def Fate.isResolved : Fate → Bool
  | advances _ => true
  | stuck _ => true
  | completes => true
  | _ => false

namespace Machine

/-- The steps of the namespace that resolve Ok in a run, oldest first. -/
def resolvedOk (m : Machine) (ns : String) (ops : List Op) : List String :=
  m.observe (Op.resolvesOk ns) ops

theorem fate_isResolved (m : Machine) (callback : Callback) (result : PromiseResult) :
    (m.fate callback result).isResolved = callback.resolvesOk result := by
  have dispatched : ∀ ns call, (m.dispatchFate ns call).isResolved = false := by
    intro ns call
    unfold dispatchFate
    split <;> rfl
  cases callback with
  | onStepResumed ns stepId =>
      simp only [fate, Callback.resolvesOk]
      split
      · rfl
      · split
        · rfl
        · split
          · rfl
          · exact dispatched _ _
  | onPreGateChecked ns stepId =>
      simp only [fate, Callback.resolvesOk]
      split
      · rfl
      · split
        · rfl
        · split
          · rfl
          · split
            · exact dispatched _ _
            · rfl
  | onStepResolved ns stepId =>
      simp only [fate, Callback.resolvesOk]
      split
      · rename_i checked
        rw [checked]
        rfl
      · rename_i checked
        rw [checked]
        unfold resolvedFate
        split
        · rfl
        · split <;> rfl
  | onAssertedRunPostcheck ns stepId id method args expected gas => rfl
  | onAssertedEvaluatePostcheck ns stepId expected => rfl

/-! ## What the row depends on -/

/-- Whether the event closes a run of the namespace as succeeded. -/
def succeeds (ns : String) : Event → Bool
  | .runFinished data => data.sequenceNamespace = ns && data.status = .succeeded
  | _ => false

/-- The run of the namespace is in flight, or has succeeded. -/
def Unfailed (m : Machine) (ns : String) : Prop :=
  (m.running ns).isSome = true ∨ m.trace.events.any (succeeds ns) = true

/-- The fates of a step that the row follows. -/
def Followed (m : Machine) (ns : String) : Fate → Prop
  | .halts _ => False
  | .stuck _ => False
  | .completes => m.Unfailed ns
  | _ => True

/-- The operation neither halts the sequence of the namespace nor completes it behind a failed
run. -/
def Reportable (ns : String) (m : Machine) : Op → Prop
  | .deliver _ id answer =>
      match m.due id answer with
      | some (callback, result) =>
          callback.sequenceNamespace = ns → m.Followed ns (m.fate callback result)
      | none => True
  | _ => True

instance (m : Machine) (ns : String) : (fate : Fate) → Decidable (m.Followed ns fate)
  | .halts _ => isFalse id
  | .stuck _ => isFalse id
  | .completes => inferInstanceAs (Decidable (_ ∨ _))
  | .passes => isTrue trivial
  | .advances _ => isTrue trivial
  | .fails => isTrue trivial

instance (ns : String) (m : Machine) : (op : Op) → Decidable (Reportable ns m op)
  | .deliver env id answer =>
    match due : m.due id answer with
    | some (callback, result) =>
      decidable_of_iff (callback.sequenceNamespace = ns → m.Followed ns (m.fate callback result))
        (by simp only [Reportable, due])
    | none => isTrue (by simp only [Reportable, due])
  | .transact _ _ => isTrue trivial
  | .timeout _ => isTrue trivial
  | .abort _ _ => isTrue trivial

/-- What the events of a namespace add up to, beside its verdict, the fires into it and its
steps that resolved Ok. -/
structure Recounts (ns : String) (verdict : Option (AutomationRunStatus × Option String))
    (fired resolved : Nat) (m : Machine) : Prop where
  tally : m.trace.tally ns =
    ⟨(verdict.map fun v => v.1.debug.toLower).getD "unknown", verdict.bind Prod.snd, resolved⟩
  row : ∀ run, m.contract.automationRuns.get ns = some run →
    verdict = if run.status = .inFlight then none else some (run.status, run.failedStepId)
  succeeded : m.trace.events.any (succeeds ns) = true → verdict = some (.succeeded, none)
  fresh : fired = 0 → verdict = none ∧ m.contract.automationRuns.get ns = none

theorem closingEvents_eq {env : Env} {m : Machine} {ns : String} {status : AutomationRunStatus}
    {failedStepId : Option String} :
    m.closingEvents env ns (some (status, failedStepId)) = ((m.running ns).map fun run =>
      Event.runFinished (runFinishedEvent env ns run status failedStepId)).toList := by
  unfold closingEvents
  cases m.running ns <;> rfl

/-- The events that announce a fate are about its namespace. -/
theorem Tells.about {env : Env} {m : Machine} {ns stepId : String} {fate : Fate}
    {told : List Event} (tells : Tells env m ns stepId fate told) :
    ∀ event ∈ told, event.isAbout ns = true := by
  have closing : ∀ {status failedStepId},
      ∀ event ∈ m.closingEvents env ns (some (status, failedStepId)), event.isAbout ns = true := by
    intro status failedStepId event inside
    rw [closingEvents_eq] at inside
    obtain ⟨run, -, rfl⟩ := Option.map_eq_some_iff.mp (Option.mem_toList.mp inside)
    exact decide_eq_true rfl
  have own : ∀ {event : Event}, event.sequenceNamespace = some ns → event.isAbout ns = true :=
    fun same => decide_eq_true same
  cases tells with
  | passes => exact fun _ inside => absurd inside List.not_mem_nil
  | halts data about names plain =>
      exact List.forall_mem_append.mpr ⟨closing, List.forall_mem_singleton.mpr
        (own (congrArg some about))⟩
  | advances n createdAtMs latencyMs call => exact List.forall_mem_singleton.mpr (own rfl)
  | stuck n createdAtMs latencyMs call data about names plain =>
      exact List.forall_mem_cons.mpr ⟨own rfl, List.forall_mem_append.mpr ⟨closing,
        List.forall_mem_singleton.mpr (own (congrArg some about))⟩⟩
  | completes n createdAtMs latencyMs call =>
      exact List.forall_mem_cons.mpr ⟨own rfl, List.forall_mem_cons.mpr ⟨own rfl, closing⟩⟩
  | fails error createdAtMs latencyMs call =>
      exact List.forall_mem_append.mpr ⟨closing, List.forall_mem_singleton.mpr (own rfl)⟩

/-- Events that do nothing to a tally. -/
theorem foldl_note_idle {events : List Event}
    (idle : ∀ event ∈ events, ∀ tally : Tally, tally.note event = tally) (tally : Tally) :
    events.foldl Tally.note tally = tally := by
  induction events generalizing tally with
  | nil => rfl
  | cons event events ih =>
      obtain ⟨first, rest⟩ := List.forall_mem_cons.mp idle
      rw [List.foldl_cons, first, ih rest]

theorem tally_append {t t' : Trace} {ns : String} {added : List Event}
    (events : t'.events = t.events ++ added) :
    t'.tally ns = (added.filter (Event.isAbout ns)).foldl Tally.note (t.tally ns) := by
  rw [Trace.tally, events, List.filter_append, List.foldl_append, Trace.tally]

/-- A delivery to another namespace, or one about this that says nothing. -/
theorem tally_delivered {env : Env} {m m' : Machine} {ns ns' stepId : String} {fate : Fate}
    (fallen : Fallen env m ns' stepId fate m') :
    ∃ told, Tells env m ns' stepId fate told ∧
      m'.trace.tally ns = (if ns' = ns then told else []).foldl Tally.note (m.trace.tally ns) ∧
      m'.trace.events.any (succeeds ns) = (m.trace.events.any (succeeds ns) ||
        (if ns' = ns then told else []).any (succeeds ns)) := by
  obtain ⟨remarks, told, events, quiet, tells⟩ := fallen.events
  refine ⟨told, tells, ?_, ?_⟩
  · have unmarked : (remarks.filter (Event.isAbout ns)).foldl Tally.note (m.trace.tally ns) =
        m.trace.tally ns := by
      refine foldl_note_idle (fun event inside tally => ?_) _
      have remark := (quiet event (List.mem_of_mem_filter inside)).1
      cases event <;> first | rfl | cases remark
    rw [tally_append events, List.filter_append, List.foldl_append, unmarked]
    split
    · rename_i same
      subst same
      rw [List.filter_eq_self.mpr tells.about]
    · rename_i other
      rw [List.filter_eq_nil_iff.mpr]
      intro event inside about
      have own := of_decide_eq_true (tells.about event inside)
      exact other (Option.some.inj (own.symm.trans (of_decide_eq_true about)))
  · have unmarked : remarks.any (succeeds ns) = false := by
      refine List.any_eq_false.mpr fun event inside finished => ?_
      have remark := (quiet event inside).1
      cases event <;> first | cases finished | cases remark
    rw [events, List.any_append, List.any_append, unmarked, Bool.false_or]
    split
    · rfl
    · rename_i other
      have unheard : told.any (succeeds ns) = false := by
        refine List.any_eq_false.mpr fun event inside finished => ?_
        have own := of_decide_eq_true (tells.about event inside)
        cases event with
        | runFinished data =>
            have named := of_decide_eq_true ((Bool.and_eq_true _ _).mp finished).1
            exact other ((Option.some.inj own).symm.trans named)
        | _ => cases finished
      rw [unheard]
      rfl

/-! ## One operation -/

section Step

variable {ns : String} {verdict : Option (AutomationRunStatus × Option String)}
  {fired resolved : Nat} {m m' : Machine}

/-- What leaves the run and its verdict alone. -/
theorem Recounts.keep (recounts : Recounts ns verdict fired resolved m) {more : Nat}
    (tally : m'.trace.tally ns =
      { m.trace.tally ns with stepsResolvedOk := (m.trace.tally ns).stepsResolvedOk + more })
    (row : m'.contract.automationRuns.get ns = m.contract.automationRuns.get ns ∨
      m'.contract.automationRuns.get ns = none)
    (silent : m'.trace.events.any (succeeds ns) = m.trace.events.any (succeeds ns)) :
    Recounts ns verdict fired (resolved + more) m' where
  tally := by rw [tally, recounts.tally]
  row run stored := by
    rcases row with same | gone
    · exact recounts.row run (same ▸ stored)
    · rw [gone] at stored
      cases stored
  succeeded := silent ▸ recounts.succeeded
  fresh unfired := by
    obtain ⟨open_, absent⟩ := recounts.fresh unfired
    exact ⟨open_, row.elim (fun same => same.trans absent) id⟩

/-- A run in flight has no verdict yet. -/
theorem Recounts.open_ (recounts : Recounts ns verdict fired resolved m) {run : AutomationRun}
    (running : m.running ns = some run) : verdict = none ∧ 0 < fired := by
  obtain ⟨stored, inFlight⟩ := Option.filter_eq_some_iff.mp running
  have row := recounts.row run stored
  rw [if_pos (of_decide_eq_true inFlight)] at row
  refine ⟨row, Nat.pos_of_ne_zero fun unfired => ?_⟩
  rw [(recounts.fresh unfired).2] at stored
  cases stored

/-- A run in flight is closed with a verdict. -/
theorem Recounts.close (recounts : Recounts ns verdict fired resolved m) {env : Env}
    {run : AutomationRun} (running : m.running ns = some run) {status : AutomationRunStatus}
    {failedStepId : Option String} (closed : status ≠ .inFlight) {more : Nat}
    (tally : m'.trace.tally ns =
      ⟨status.debug.toLower, failedStepId, (m.trace.tally ns).stepsResolvedOk + more⟩)
    (runs : m'.contract.automationRuns = m.runsAfter env ns (some (status, failedStepId)))
    (announced : m'.trace.events.any (succeeds ns) = true →
      m.trace.events.any (succeeds ns) = true ∨ status = .succeeded ∧ failedStepId = none) :
    Recounts ns (some (status, failedStepId)) fired (resolved + more) m' where
  tally := by
    rw [tally, recounts.tally]
    rfl
  row run' stored := by
    have row : m'.contract.automationRuns.get ns =
        some (finishedRun env run status failedStepId) := by
      rw [runs]
      simp only [runsAfter, running]
      exact IterableMap.get_insert_self ..
    obtain rfl := Option.some.inj (row.symm.trans stored)
    exact (if_neg closed).symm
  succeeded told := by
    rcases announced told with before | ⟨rfl, rfl⟩
    · have earlier := recounts.succeeded before
      rw [(recounts.open_ running).1] at earlier
      cases earlier
    · rfl
  fresh unfired := absurd unfired (Nat.ne_of_gt (recounts.open_ running).2)

/-- The runs of other namespaces are not touched. -/
theorem runsAfter_other {env : Env} {ns' : String}
    {verdict : Option (AutomationRunStatus × Option String)} (other : ns ≠ ns') :
    (m.runsAfter env ns' verdict).get ns = m.contract.automationRuns.get ns := by
  unfold runsAfter
  split
  · exact IterableMap.get_insert_of_ne _ _ other
  · rfl

/-- Without a run in flight there is none to close. -/
theorem runsAfter_idle {env : Env} {verdict : Option (AutomationRunStatus × Option String)}
    (idle : m.running ns = none) : m.runsAfter env ns verdict = m.contract.automationRuns := by
  unfold runsAfter
  rw [idle]
  split
  · rename_i none
    cases none
  · rfl

/-- A callback of the namespace whose fate the row follows. -/
theorem Recounts.fallen (recounts : Recounts ns verdict fired resolved m) {env : Env}
    {stepId : String} {fate : Fate} (fallen : Fallen env m ns stepId fate m')
    (followed : m.Followed ns fate) :
    ∃ verdict', Recounts ns verdict' fired (resolved + fate.isResolved.toNat) m' ∧
      (verdict ≠ none → verdict' = verdict) := by
  obtain ⟨told, tells, tally, succeeded⟩ := @tally_delivered env m m' ns ns stepId fate fallen
  rw [if_pos rfl] at tally succeeded
  have runs := fallen.runs
  cases tells with
  | passes =>
      refine ⟨verdict, recounts.keep tally (.inl (congrArg (·.get ns) runs)) ?_, fun _ => rfl⟩
      rw [succeeded, List.any_nil, Bool.or_false]
  | halts data about names plain => exact absurd followed id
  | stuck n createdAtMs latencyMs call data about names plain => exact absurd followed id
  | advances n createdAtMs latencyMs call =>
      refine ⟨verdict, recounts.keep tally (.inl (congrArg (·.get ns) runs)) ?_, fun _ => rfl⟩
      rw [succeeded]
      exact Bool.or_false _
  | completes n createdAtMs latencyMs call =>
      rw [closingEvents_eq] at tally succeeded
      cases running : m.running ns with
      | some run =>
          have before := (recounts.open_ running).1
          rw [running] at tally succeeded
          refine ⟨_, recounts.close running (by decide) ?_ runs fun _ => .inr ⟨rfl, rfl⟩,
            fun decided => absurd before decided⟩
          rw [tally, recounts.tally, before]
          rfl
      | none =>
          rw [running] at tally succeeded
          have same := runs.trans (runsAfter_idle running)
          refine ⟨verdict, recounts.keep ?_ (.inl (congrArg (·.get ns) same)) ?_, fun _ => rfl⟩
          · have done := recounts.succeeded (followed.resolve_left (by
              rw [running]
              exact Bool.false_ne_true))
            have lower : AutomationRunStatus.succeeded.debug.toLower = "succeeded" := by
              decide +kernel
            rw [tally, recounts.tally, done]
            show Tally.mk "succeeded" none (resolved + 1) =
              Tally.mk AutomationRunStatus.succeeded.debug.toLower none (resolved + 1)
            rw [lower]
          · rw [succeeded]
            exact Bool.or_false _
  | fails error createdAtMs latencyMs call =>
      rw [closingEvents_eq] at tally succeeded
      cases running : m.running ns with
      | some run =>
          have before := (recounts.open_ running).1
          rw [running] at tally succeeded
          refine ⟨_, recounts.close running (by decide) ?_ runs fun later => .inl ?_,
            fun decided => absurd before decided⟩
          · rw [tally, recounts.tally, before]
            rfl
          · rw [succeeded] at later
            rcases Bool.or_eq_true_iff.mp later with earlier | now
            · exact earlier
            · simp [succeeds, runFinishedEvent] at now
      | none =>
          rw [running] at tally succeeded
          have same := runs.trans (runsAfter_idle running)
          refine ⟨verdict, recounts.keep tally (.inl (congrArg (·.get ns) same)) ?_,
            fun _ => rfl⟩
          rw [succeeded]
          exact Bool.or_false _

/-- What a call does to the tally and the closed runs: nothing. -/
theorem tally_opened (opens : Opens m m') : m'.trace.tally ns = m.trace.tally ns ∧
    m'.trace.events.any (succeeds ns) = m.trace.events.any (succeeds ns) := by
  obtain ⟨added, trace, quiet⟩ := opens
  have events : m'.trace.events = m.trace.events ++ Trace.events added := by
    rw [trace, Trace.events_append]
  have plain : ∀ event ∈ Trace.events added, event.isOutcome = false := by
    intro event inside
    obtain ⟨by_, member⟩ := Trace.mem_events.mp inside
    exact Bool.not_eq_true' _ ▸ quiet _ member
  constructor
  · rw [tally_append events]
    refine foldl_note_idle (fun event inside tally => ?_) _
    have open_ := plain event (List.mem_of_mem_filter inside)
    cases event <;> first | rfl | cases open_
  · have unheard : (Trace.events added).any (succeeds ns) = false := by
      refine List.any_eq_false.mpr fun event inside finished => ?_
      have open_ := plain event inside
      cases event <;> first | cases finished | cases open_
    rw [events, List.any_append, unheard, Bool.or_false]

/-- An accepted call. -/
theorem Recounts.accept (recounts : Recounts ns verdict fired resolved m) {env : Env}
    {method : PublicCall} (called : m.call env method = .ok m')
    (once : ∀ execution, (Op.transact env method).fires m = some execution →
      execution.sequenceNamespace = ns → fired = 0) :
    Recounts ns verdict (fired + ((Op.transact env method).fires m).toList.countP
      fun execution => execution.sequenceNamespace = ns) resolved m' := by
  obtain ⟨tally, silent⟩ := @tally_opened ns m m' (Accepted.of_call called).opens
  by_cases fires : ∃ execution, (Op.transact env method).fires m = some execution ∧
      execution.sequenceNamespace = ns
  · obtain ⟨execution, fires, named⟩ := fires
    have unfired := once execution fires named
    obtain ⟨open_, absent⟩ := recounts.fresh unfired
    refine ⟨tally.trans recounts.tally, fun run stored => ?_, silent ▸ recounts.succeeded,
      fun none => ?_⟩
    · rcases call_row called ns with ⟨_, _, _, running⟩ | kept | ⟨gone, -⟩
      · have inFlight : run.status = .inFlight := by
          by_contra closed
          refine running fun run' stored' => ?_
          exact Option.some.inj (stored.symm.trans stored') ▸ closed
        rw [if_pos inFlight, open_]
      · rw [kept, absent] at stored
        cases stored
      · rw [gone] at stored
        cases stored
    · rw [fires] at none
      simp [named] at none
  · have idle : ((Op.transact env method).fires m).toList.countP
        (fun execution => decide (execution.sequenceNamespace = ns)) = 0 := by
      refine List.countP_eq_zero.mpr fun execution inside named => ?_
      exact fires ⟨execution, Option.mem_toList.mp inside, of_decide_eq_true named⟩
    rw [idle, Nat.add_zero]
    show Recounts ns verdict fired (resolved + 0) m'
    refine recounts.keep tally ?_ silent
    rcases call_row called ns with ⟨execution, fired, named, -⟩ | kept | ⟨gone, -⟩
    · exact absurd ⟨execution, fired, named⟩ fires
    · exact .inl kept
    · exact .inr gone

/-- Every operation that the row follows. -/
theorem Recounts.step (recounts : Recounts ns verdict fired resolved m) {op : Op}
    (reportable : Reportable ns m op)
    (once : ∀ execution, op.fires m = some execution → execution.sequenceNamespace = ns →
      fired = 0) :
    ∃ verdict', Recounts ns verdict'
      (fired + (op.fires m).toList.countP fun execution => execution.sequenceNamespace = ns)
      (resolved + (op.resolvesOk ns m).toList.length) (m.step op) ∧
        (verdict ≠ none → verdict' = verdict) := by
  cases op with
  | timeout id =>
      refine ⟨verdict, recounts.keep ?_ (.inl ?_) ?_, fun _ => rfl⟩
      · exact congrArg (Trace.tally · ns) (m.timeout_trace id)
      · exact congrArg (fun c : Contract => c.automationRuns.get ns) (m.timeout_contract id)
      · exact congrArg (fun t : Trace => t.events.any (succeeds ns)) (m.timeout_trace id)
  | abort id answer =>
      have silent := m.abort_events id answer
      refine ⟨verdict, recounts.keep ?_ (.inl ?_) ?_, fun _ => rfl⟩
      · exact congrArg (fun events : List Event =>
          (events.filter (Event.isAbout ns)).foldl Tally.note {}) silent
      · exact congrArg (fun c : Contract => c.automationRuns.get ns) (m.abort_contract id answer)
      · exact congrArg (fun events : List Event => events.any (succeeds ns)) silent
  | transact env method =>
      cases called : m.call env method with
      | error message =>
          rw [step_refused called, fires_of_error called]
          exact ⟨verdict, recounts, fun _ => rfl⟩
      | ok m' =>
          rw [step_transact called]
          exact ⟨verdict, recounts.accept called once, fun _ => rfl⟩
  | deliver env id answer =>
      show ∃ verdict', Recounts ns verdict' fired _ (m.deliver env id answer) ∧ _
      simp only [Reportable] at reportable
      simp only [Op.resolvesOk]
      cases due : m.due id answer with
      | none =>
          rw [deliver_idle due]
          exact ⟨verdict, recounts, fun _ => rfl⟩
      | some delivered =>
          obtain ⟨callback, result⟩ := delivered
          rw [due] at reportable
          have fallen := @deliver_fallen env m id answer callback result due
          rw [Option.bind_some, ← m.fate_isResolved callback result]
          by_cases own : callback.sequenceNamespace = ns
          · subst own
            obtain ⟨verdict', recounts', kept⟩ := recounts.fallen fallen (reportable rfl)
            refine ⟨verdict', ?_, kept⟩
            cases resolves : (m.fate callback result).isResolved with
            | true => simpa [resolves] using recounts'
            | false => simpa [resolves] using recounts'
          · rw [if_neg fun both => own both.1]
            obtain ⟨told, -, tally, silent⟩ := @tally_delivered env m _ ns _ _ _ fallen
            rw [if_neg own] at tally silent
            refine ⟨verdict, recounts.keep tally (.inl ?_) ?_, fun _ => rfl⟩
            · rw [fallen.runs]
              exact runsAfter_other (Ne.symm own)
            · rw [silent]
              exact Bool.or_false _

end Step

/-- A run all of whose operations the row follows. -/
theorem Recounts.run {ns : String} {verdict : Option (AutomationRunStatus × Option String)}
    {fired resolved : Nat} {m : Machine} (recounts : Recounts ns verdict fired resolved m)
    {ops : List Op} (reportable : Along (Reportable ns) m ops)
    (once : fired + (m.firings ops).countP (fun execution => execution.sequenceNamespace = ns) ≤ 1) :
    ∃ verdict', Recounts ns verdict'
      (fired + (m.firings ops).countP fun execution => execution.sequenceNamespace = ns)
      (resolved + (m.resolvedOk ns ops).length) (m.run ops) ∧
        (verdict ≠ none → verdict' = verdict) := by
  induction ops generalizing verdict fired resolved m with
  | nil => exact ⟨verdict, recounts, fun _ => rfl⟩
  | cons op ops ih =>
      rw [firings_cons, List.countP_append, ← Nat.add_assoc] at once ⊢
      have first : ∀ execution, op.fires m = some execution → execution.sequenceNamespace = ns →
          fired = 0 := by
        intro execution fires named
        rw [fires] at once
        simp only [Option.toList_some, List.countP_singleton, named, decide_true, if_true] at once
        omega
      obtain ⟨verdict₁, recounts₁, kept₁⟩ := recounts.step reportable.1 first
      obtain ⟨verdict₂, recounts₂, kept₂⟩ := ih recounts₁ reportable.2 once
      refine ⟨verdict₂, ?_, fun decided => ?_⟩
      · rw [resolvedOk, observe, List.length_append, ← Nat.add_assoc]
        exact recounts₂
      · have same := kept₁ decided
        exact (kept₂ (same ▸ decided)).trans same

end Machine

/-! ## The summary of a run -/

/-- The row of the namespace tells the final state of its run. -/
structure RunSummary.Agrees (row : RunSummary) (ns : String) (run : AutomationRun)
    (resolvedOk : Nat) : Prop where
  sequenceNamespace : row.sequenceNamespace = ns
  status : row.status = run.status.debug.toLower
  failedStepId : row.failedStepId = .ofOption .str run.failedStepId
  stepsResolvedOk : row.stepsResolvedOk = resolvedOk

/-- A finished run whose namespace belongs to no other run and whose sequence neither halts nor
completes after a failure: its events, up to any later time, make one row, which agrees with the
stored run. -/
theorem run_summary_agrees (host : Host) (ownerId : AccountId) (authorizerId : Option AccountId)
    (before after : List Op) {ns : String} {run : AutomationRun}
    (stored : ((Machine.init host ownerId authorizerId).run
      before).contract.automationRuns.get ns = some run)
    (finished : run.status ≠ .inFlight)
    (once : ((Machine.init host ownerId authorizerId).firings (before ++ after)).countP
      (fun execution => execution.sequenceNamespace = ns) ≤ 1)
    (reportable : Machine.Along (Machine.Reportable ns) (.init host ownerId authorizerId)
      (before ++ after))
    {parsed : List StructuredEvent}
    (read : List.Forall₂ Event.Structured (((Machine.init host ownerId authorizerId).run
      (before ++ after)).trace.events.filter (Event.isAbout ns)) parsed) :
    ∃ row, summarizeRuns parsed = [row] ∧ row.Agrees ns run
      ((Machine.init host ownerId authorizerId).resolvedOk ns (before ++ after)).length := by
  have start : Machine.Recounts ns none 0 0 (.init host ownerId authorizerId) :=
    ⟨rfl, fun _ none => (nomatch none), fun none => Bool.noConfusion none, fun _ => ⟨rfl, rfl⟩⟩
  have deployed := Machine.Reachable.init host ownerId authorizerId
  generalize Machine.init host ownerId authorizerId = m₀ at *
  obtain ⟨early, late⟩ := Machine.along_append.mp reportable
  rw [Machine.firings_append, List.countP_append] at once
  obtain ⟨verdict₁, recounts₁, -⟩ := start.run early (by omega)
  have decided := recounts₁.row run stored
  rw [if_neg finished] at decided
  subst decided
  obtain ⟨verdict₂, recounts₂, kept⟩ := recounts₁.run late (by omega)
  obtain rfl := kept (Option.some_ne_none _)
  have tally := recounts₂.tally
  rw [← Machine.run_append] at tally
  have named : ns ≠ "" := by
    obtain ⟨triggerId, n, rfl⟩ := (deployed.run before).wf.rows ns run stored
    intro empty
    have lists := congrArg String.toList empty
    simp [automationNamespace] at lists
  have some_ : ((m₀.run (before ++ after)).trace.events.filter (Event.isAbout ns)) ≠ [] := by
    intro none
    rw [Trace.tally, none] at tally
    have unknown : "unknown" = run.status.debug.toLower := congrArg Tally.status tally
    revert unknown
    cases run.status <;> decide +kernel
  obtain ⟨row, rows, same, shows⟩ := summarizeRuns_row named read
    (fun event inside => (List.mem_filter.mp inside).2) some_
  have shown : row.Shows ((m₀.run (before ++ after)).trace.tally ns) := shows
  rw [tally] at shown
  refine ⟨row, rows, same, shown.status, shown.failedStepId, ?_⟩
  rw [Machine.resolvedOk, Machine.observe_append, List.length_append]
  exact shown.stepsResolvedOk.trans (by rw [Nat.zero_add]; rfl)

/-- An event of a call of Alice's, as it was parsed. -/
def Event.structured (event : Event) : StructuredEvent :=
  ⟨event.name, event.data aliceRuntime, some 1, some 1000⟩

theorem Event.structured_map (events : List Event) :
    List.Forall₂ Event.Structured events (events.map Event.structured) :=
  List.forall₂_map_right_iff.mpr (List.forall₂_same.mpr fun _ _ => ⟨rfl, aliceRuntime, rfl⟩)

/-- Alice's trigger fires a plan of one step, whose target fails. -/
def failedRun : List Op :=
  arming ++ [fire, .deliver aliceEnv 0 okResult, .deliver aliceEnv 0 .failed]

/-- The row of the first run of Alice's trigger. -/
def dailyRow (status : AutomationRunStatus) (failedStepId : Option String) : AutomationRun where
  triggerId := "daily"
  sequenceId := "plan"
  sequenceNamespace := automationNamespace "daily" 1
  runNonce := 1
  executorId := alice
  startedAtMs := 0
  finishedAtMs := some 0
  status := status
  failedStepId := failedStepId

/-- A failed run, which is pruned later. -/
theorem run_summary_agrees_failed :
    ∃ row, summarizeRuns (((deployed.run (failedRun ++ [.transact aliceEnv
        .pruneFinishedAutomationRuns])).trace.events.filter
          (Event.isAbout (automationNamespace "daily" 1))).map Event.structured) = [row] ∧
      row.Agrees (automationNamespace "daily" 1) (dailyRow .downstreamFailed (some "a"))
        (deployed.resolvedOk (automationNamespace "daily" 1) (failedRun ++
          [.transact aliceEnv .pruneFinishedAutomationRuns])).length :=
  run_summary_agrees aliceHost alice none failedRun
    [.transact aliceEnv .pruneFinishedAutomationRuns] (by decide) (by decide)
    (by decide) (by decide) (Event.structured_map _)

/-- Alice's trigger fires a plan of two steps, and the second times out. -/
def timedOutRun : List Op :=
  [.transact aliceEnv (.saveSequenceTemplate "plan" [plainStep "a", plainStep "b"]),
    .transact aliceEnv (.createBalanceTrigger "daily" "plan" 0 5), fire, .timeout 1,
    .deliver aliceEnv 1 .failed]

/-- The stored status is `ResumeFailed`, and the row's is `halted`. -/
theorem halted_run_not_summarized :
    ¬ ∀ (host : Host) (ownerId : AccountId) (authorizerId : Option AccountId)
      (before after : List Op) (ns : String) (run : AutomationRun)
      (parsed : List StructuredEvent),
      ((Machine.init host ownerId authorizerId).run
        before).contract.automationRuns.get ns = some run → run.status ≠ .inFlight →
      ((Machine.init host ownerId authorizerId).firings (before ++ after)).countP
        (fun execution => execution.sequenceNamespace = ns) ≤ 1 →
      List.Forall₂ Event.Structured (((Machine.init host ownerId authorizerId).run
        (before ++ after)).trace.events.filter (Event.isAbout ns)) parsed →
      ∃ row, summarizeRuns parsed = [row] ∧ row.Agrees ns run
        ((Machine.init host ownerId authorizerId).resolvedOk ns (before ++ after)).length := by
  intro agrees
  obtain ⟨row, rows, agrees⟩ := agrees aliceHost alice none timedOutRun []
    (automationNamespace "daily" 1) (dailyRow .resumeFailed (some "b")) _ (by decide)
    (by decide) (by decide) (Event.structured_map _)
  have halted : (summarizeRuns (((deployed.run (timedOutRun ++ [])).trace.events.filter
      (Event.isAbout (automationNamespace "daily" 1))).map Event.structured)).map
        RunSummary.status = ["halted"] := by
    decide
  have listed := (congrArg (List.map RunSummary.status) rows).symm.trans halted
  have status := (List.cons.inj listed).1
  rw [agrees.status] at status
  revert status
  decide +kernel

end SmartAccount
