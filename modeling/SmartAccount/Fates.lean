import SmartAccount.WellFormed

/-!
# How a callback turns out

What a callback will do to the steps and the run of its namespace, told from the state before
it: `fate`.  `deliver_fallen` says for every delivery what its fate leaves of the stored steps
and of the run's row, and which events it adds: remarks first, then those that announce the
fate (`Tells`).
-/

namespace SmartAccount

open Foundation

theorem Trace.events_append (t t' : Trace) : Trace.events (t ++ t') = t.events ++ t'.events :=
  List.filterMap_append ..

/-- What is traced beside the events leaves them as they were. -/
theorem Trace.events_snoc {t : Trace} {traced : TraceEvent} (silent : Trace.events [traced] = []) :
    Trace.events (t ++ [traced]) = t.events := by
  rw [Trace.events_append, silent, List.append_nil]

theorem Trace.mem_events {t : Trace} {event : Event} :
    event ∈ t.events ↔ ∃ by_, .emitted by_ event ∈ t := by
  rw [Trace.events, List.mem_filterMap]
  constructor
  · rintro ⟨traced, inside, eq⟩
    cases traced with
    | emitted by_ emitted =>
        cases eq
        exact ⟨by_, inside⟩
    | _ => cases eq
  · rintro ⟨by_, inside⟩
    exact ⟨_, inside, rfl⟩

/-- Events that announce no fate. -/
def Event.isRemark : Event → Bool
  | stepResumed _ _ _ _ _ => true
  | preGateChecked _ => true
  | assertionChecked _ => true
  | resultSaved _ _ _ _ _ => true
  | _ => false

/-- What becomes of a step and its sequence in one callback. -/
inductive Fate where
  /-- The step is not stored, or goes on: to its gate, to its target, to its postcheck. -/
  | passes
  /-- A timeout, a gate or a failed materialization halts the sequence. -/
  | halts (status : AutomationRunStatus)
  /-- The step resolved Ok and the next one is resumed. -/
  | advances (next : String)
  /-- The step resolved Ok, but the next one cannot be resumed. -/
  | stuck (next : String)
  /-- The step resolved Ok and was the last. -/
  | completes
  /-- The step's call failed, or returned too much. -/
  | fails
deriving DecidableEq

/-- The status a run is closed with, and its failed step. -/
def Fate.verdict (stepId : String) : Fate → Option (AutomationRunStatus × Option String)
  | passes => none
  | advances _ => none
  | halts status => some (status, some stepId)
  | stuck next => some (.resumeFailed, some next)
  | completes => some (.succeeded, none)
  | fails => some (.downstreamFailed, some stepId)

/-- The reason and the kind of a halt are single words. -/
structure HaltData.Plain (data : HaltData) : Prop where
  reason : ',' ∉ data.reason.toList
  kind : ',' ∉ data.errorKind.toList

theorem plain_materialize (err : MaterializeError) :
    ',' ∉ ("args_materialize_" ++ err.kindTag).toList := by
  rw [String.toList_append, List.mem_append, not_or]
  refine ⟨by decide, ?_⟩
  cases err <;> simp only [MaterializeError.kindTag] <;> decide

theorem plain_preGate (outcome : PreGateOutcome) :
    ',' ∉ ("pre_gate_" ++ outcome.outcomeTag).toList := by
  cases outcome <;> decide

namespace Machine

/-! ## Fates -/

/-- The step is stored and its yield still waits. -/
def resumable (m : Machine) (ns stepId : String) : Bool :=
  match m.getStep ns stepId with
  | none => false
  | some yielded =>
      match m.pool.get yielded.yieldId with
      | some ⟨.yielded, _⟩ => true
      | _ => false

def dispatchFate (m : Machine) (ns : String) (call : Step) : Fate :=
  match m.contract.materializeStepCall ns call with
  | .error _ => .halts .downstreamFailed
  | .ok _ => .passes

def resolvedFate (m : Machine) (ns stepId : String) : Fate :=
  match (m.contract.takeNextQueuedStep ns).1 with
  | none => .completes
  | some next => if next ≠ stepId ∧ m.resumable ns next = true then .advances next else .stuck next

def fate (m : Machine) : Callback → PromiseResult → Fate
  | .onStepResumed ns stepId, result =>
      match m.getStep ns stepId with
      | none => .passes
      | some yielded =>
          match result with
          | .failed => .halts .resumeFailed
          | .successful _ =>
              match yielded.call.preGate with
              | some _ => .passes
              | none => m.dispatchFate ns yielded.call
  | .onPreGateChecked ns stepId, result =>
      match m.getStep ns stepId with
      | none => .passes
      | some yielded =>
          match yielded.call.preGate with
          | none => .passes
          | some preGate =>
              match result.checked with
              | .error _ => .halts .downstreamFailed
              | .ok bytes =>
                  if (preGate.evaluate bytes).matched then m.dispatchFate ns yielded.call
                  else .halts .downstreamFailed
  | .onStepResolved ns stepId, result =>
      match result.checked with
      | .error _ => .fails
      | .ok _ => m.resolvedFate ns stepId
  | .onAssertedRunPostcheck _ _ _ _ _ _ _, _ => .passes
  | .onAssertedEvaluatePostcheck _ _ _, _ => .passes

/-! ## What a fate leaves -/

/-- The run of the namespace, while it is in flight. -/
def running (m : Machine) (ns : String) : Option AutomationRun :=
  (m.contract.automationRuns.get ns).filter fun run => run.status = .inFlight

/-- The stored keys with the namespace's prefix. -/
def keysUnder (steps : IterableMap String RegisteredStep) (ns : String) : List String :=
  steps.keys.filter fun key => startsWith key (ns ++ "#")

/-- What closing a run leaves of the stored steps. -/
def cleaned (m : Machine) (ns : String) (steps : IterableMap String RegisteredStep) :
    IterableMap String RegisteredStep :=
  if (m.running ns).isSome then steps.removeAll (keysUnder steps ns) else steps

/-- The stored steps without the step. -/
def dropped (m : Machine) (ns stepId : String) : IterableMap String RegisteredStep :=
  m.contract.registeredSteps.remove (registeredStepKey ns stepId)

/-- The stored steps after a fate of the step. -/
def stepsAfter (m : Machine) (ns stepId : String) : Fate → IterableMap String RegisteredStep
  | .passes => m.contract.registeredSteps
  | .advances _ => m.dropped ns stepId
  | .halts _ => m.cleaned ns (m.dropped ns stepId)
  | .stuck _ => m.cleaned ns (m.dropped ns stepId)
  | .completes => m.cleaned ns (m.dropped ns stepId)
  | .fails => m.cleaned ns (m.dropped ns stepId)

/-- The runs after a verdict on the namespace's. -/
def runsAfter (env : Env) (m : Machine) (ns : String)
    (verdict : Option (AutomationRunStatus × Option String)) : IterableMap String AutomationRun :=
  match verdict, m.running ns with
  | some (status, failedStepId), some run =>
      m.contract.automationRuns.insert ns (finishedRun env run status failedStepId)
  | _, _ => m.contract.automationRuns

/-- The `run_finished` event of a verdict, if there is a run in flight. -/
def closingEvents (env : Env) (m : Machine) (ns : String)
    (verdict : Option (AutomationRunStatus × Option String)) : List Event :=
  match verdict, m.running ns with
  | some (status, failedStepId), some run =>
      [.runFinished (runFinishedEvent env ns run status failedStepId)]
  | _, _ => []

/-- The events that announce a fate. -/
inductive Tells (env : Env) (m : Machine) (ns stepId : String) : Fate → List Event → Prop
  | passes : Tells env m ns stepId .passes []
  | halts {status : AutomationRunStatus} (data : HaltData) (about : data.sequenceNamespace = ns)
      (names : data.failedStepId = stepId) (plain : data.Plain) :
      Tells env m ns stepId (.halts status)
        (m.closingEvents env ns (some (status, some stepId)) ++ [.sequenceHalted data])
  | advances {next : String} (n createdAtMs latencyMs : Nat) (call : Option CallMetadata) :
      Tells env m ns stepId (.advances next)
        [.stepResolvedOk stepId ns n (some next) createdAtMs latencyMs call]
  | stuck {next : String} (n createdAtMs latencyMs : Nat) (call : Option CallMetadata)
      (data : HaltData) (about : data.sequenceNamespace = ns) (names : data.failedStepId = next)
      (plain : data.Plain) :
      Tells env m ns stepId (.stuck next)
        (.stepResolvedOk stepId ns n (some next) createdAtMs latencyMs call ::
          (m.closingEvents env ns (some (.resumeFailed, some next)) ++ [.sequenceHalted data]))
  | completes (n createdAtMs latencyMs : Nat) (call : Option CallMetadata) :
      Tells env m ns stepId .completes
        (.stepResolvedOk stepId ns n none createdAtMs latencyMs call ::
          .sequenceCompleted ns stepId n :: m.closingEvents env ns (some (.succeeded, none)))
  | fails (error : PromiseError) (createdAtMs latencyMs : Nat) (call : Option CallMetadata) :
      Tells env m ns stepId .fails
        (m.closingEvents env ns (some (.downstreamFailed, some stepId)) ++
          [.stepResolvedErr stepId ns error createdAtMs latencyMs call])

/-- What a callback about a step leaves behind, by the step's fate. -/
structure Fallen (env : Env) (m : Machine) (ns stepId : String) (fate : Fate) (m' : Machine) :
    Prop where
  steps : m'.contract.registeredSteps = m.stepsAfter ns stepId fate
  runs : m'.contract.automationRuns = m.runsAfter env ns (fate.verdict stepId)
  events : ∃ remarks told, m'.trace.events = m.trace.events ++ (remarks ++ told) ∧
    (∀ event ∈ remarks, event.isRemark = true ∧ event.sequenceNamespace = some ns) ∧
      Tells env m ns stepId fate told

theorem emit_events (m : Machine) (event : Event) :
    (m.emit event).trace.events = m.trace.events ++ [event] :=
  Trace.events_append ..

/-! ## Closing a run -/

/-- What `finish_automation_run` leaves, behind steps that touched no run. -/
theorem finishAutomationRun_leaves {env : Env} {m m₁ : Machine} {ns : String}
    {status : AutomationRunStatus} {failedStepId : Option String}
    (runs : m₁.contract.automationRuns = m.contract.automationRuns) :
    (m₁.finishAutomationRun env ns status failedStepId).contract.registeredSteps =
      m.cleaned ns m₁.contract.registeredSteps ∧
    (m₁.finishAutomationRun env ns status failedStepId).contract.automationRuns =
      m.runsAfter env ns (some (status, failedStepId)) ∧
    (m₁.finishAutomationRun env ns status failedStepId).trace.events =
      m₁.trace.events ++ m.closingEvents env ns (some (status, failedStepId)) := by
  unfold finishAutomationRun cleaned runsAfter closingEvents running
  rw [runs]
  cases stored : m.contract.automationRuns.get ns with
  | none => exact ⟨rfl, runs, (List.append_nil _).symm⟩
  | some run =>
      by_cases inFlight : run.status = .inFlight
      · simp only [inFlight, ne_eq, not_true_eq_false, if_false, Option.filter_some, decide_true,
          if_true, Option.isSome_some]
        refine ⟨rfl, ?_, emit_events ..⟩
        rw [← runs]
        rfl
      · simp only [inFlight, ne_eq, not_false_eq_true, if_true, Option.filter_some, decide_false,
          Bool.false_eq_true, if_false, Option.isSome_none]
        exact ⟨trivial, runs, (List.append_nil _).symm⟩

/-! ## One callback -/

/-- The machine after remarks about a namespace. -/
structure Remarked (ns : String) (m m₁ : Machine) : Prop where
  contract : m₁.contract = m.contract
  events : ∃ remarks, m₁.trace.events = m.trace.events ++ remarks ∧
    ∀ event ∈ remarks, event.isRemark = true ∧ event.sequenceNamespace = some ns

theorem Remarked.refl (ns : String) (m : Machine) : Remarked ns m m :=
  ⟨rfl, [], (List.append_nil _).symm, fun _ inside => absurd inside List.not_mem_nil⟩

theorem Remarked.emit {ns : String} (m : Machine) {event : Event} (remark : event.isRemark = true)
    (about : event.sequenceNamespace = some ns) : Remarked ns m (m.emit event) := by
  refine ⟨rfl, [event], m.emit_events event, ?_⟩
  rintro _ (_ | ⟨_, ⟨⟩⟩)
  exact ⟨remark, about⟩

/-- A step that passes leaves the contract as it was. -/
theorem Remarked.pass {env : Env} {m m' : Machine} {ns stepId : String}
    (remarked : Remarked ns m m') : Fallen env m ns stepId .passes m' where
  steps := congrArg ContractOf.registeredSteps remarked.contract
  runs := congrArg ContractOf.automationRuns remarked.contract
  events := by
    obtain ⟨remarks, events, quiet⟩ := remarked.events
    exact ⟨remarks, [], by rw [List.append_nil, events], quiet, .passes⟩

theorem Remarked.halt {env : Env} {m m₁ : Machine} {ns stepId : String}
    (remarked : Remarked ns m m₁) (status : AutomationRunStatus) {data : HaltData}
    (about : data.sequenceNamespace = ns) (names : data.failedStepId = stepId)
    (plain : data.Plain) :
    Fallen env m ns stepId (.halts status) (m₁.haltSequence env ns stepId status data) := by
  obtain ⟨same, remarks, events, quiet⟩ := remarked
  obtain ⟨steps, runs, closed⟩ := @finishAutomationRun_leaves env m
    (((m₁.removeStep ns stepId).removeQueue ns).clearContext ns) ns status (some stepId)
    (congrArg ContractOf.automationRuns same :)
  refine ⟨steps.trans ?_, runs, remarks, _, ?_, quiet, .halts data about names plain⟩
  · show m.cleaned ns (m₁.contract.registeredSteps.remove _) = _
    rw [same]
    rfl
  · rw [haltSequence, emit_events, closed]
    show (m₁.trace.events ++ _) ++ _ = _
    rw [events, List.append_assoc, List.append_assoc]

/-- A step's arguments materialize and its call is dispatched, or the sequence halts. -/
theorem Remarked.dispatch {env : Env} {m m₁ : Machine} {ns : String} (stepId : String)
    (remarked : Remarked ns m m₁) (yielded : RegisteredStep) :
    Fallen env m ns stepId (m.dispatchFate ns yielded.call)
        (m₁.materializeAndDispatch env ns stepId yielded).1 ∧
      (m.dispatchFate ns yielded.call ≠ .passes →
        (m₁.materializeAndDispatch env ns stepId yielded).2 = unitValue) := by
  unfold materializeAndDispatch dispatchFate
  rw [remarked.contract]
  cases m.contract.materializeStepCall ns yielded.call with
  | error err =>
      have plain : ',' ∉ "args_materialize_failed".toList := by decide
      exact ⟨remarked.halt _ rfl rfl ⟨plain, plain_materialize err⟩, fun _ => rfl⟩
  | ok effective =>
      obtain ⟨same, remarks, events, quiet⟩ := remarked
      refine ⟨Remarked.pass ⟨same, remarks, ?_, quiet⟩, fun other => absurd rfl other⟩
      exact (Trace.events_snoc rfl).trans events

theorem onStepResumed_fallen (env : Env) (m : Machine) (ns stepId : String)
    (result : PromiseResult) :
    Fallen env m ns stepId (m.fate (.onStepResumed ns stepId) result)
        (m.onStepResumed env ns stepId result).1 ∧
      (m.fate (.onStepResumed ns stepId) result ≠ .passes →
        (m.onStepResumed env ns stepId result).2 = unitValue) := by
  simp only [onStepResumed, fate]
  cases m.getStep ns stepId with
  | none => exact ⟨(Remarked.refl ns m).pass, fun other => absurd rfl other⟩
  | some yielded =>
      cases result with
      | failed =>
          have plain : ',' ∉ "resume_failed".toList := by decide
          exact ⟨(Remarked.refl ns m).halt _ rfl rfl ⟨plain, plain⟩, fun _ => rfl⟩
      | successful bytes =>
          have resumed := @Remarked.emit ns m (.stepResumed stepId ns yielded.createdAtMs
            (env.now - yielded.createdAtMs) yielded.call.metadata) rfl rfl
          dsimp only
          cases yielded.call.preGate with
          | some preGate => exact ⟨resumed.pass, fun other => absurd rfl other⟩
          | none => exact resumed.dispatch stepId yielded

theorem onPreGateChecked_fallen (env : Env) (m : Machine) (ns stepId : String)
    (result : PromiseResult) :
    Fallen env m ns stepId (m.fate (.onPreGateChecked ns stepId) result)
        (m.onPreGateChecked env ns stepId result).1 ∧
      (m.fate (.onPreGateChecked ns stepId) result ≠ .passes →
        (m.onPreGateChecked env ns stepId result).2 = unitValue) := by
  have plain : ',' ∉ "pre_gate_failed".toList := by decide
  have checked : ∀ outcome matched preGate actual call, Remarked ns m
      (m.emit (preGateCheckedEvent ns stepId outcome matched preGate actual call)) :=
    fun _ _ _ _ _ => .emit m rfl rfl
  simp only [onPreGateChecked, fate]
  cases m.getStep ns stepId with
  | none => exact ⟨(Remarked.refl ns m).pass, fun other => absurd rfl other⟩
  | some yielded =>
      dsimp only
      cases yielded.call.preGate with
      | none => exact ⟨(Remarked.refl ns m).pass, fun other => absurd rfl other⟩
      | some preGate =>
          dsimp only
          cases result.checked with
          | error error =>
              have panicked : ',' ∉ ("pre_gate_" ++ "gate_panicked").toList := by decide
              exact ⟨(checked _ _ _ _ _).halt _ rfl rfl ⟨plain, panicked⟩, fun _ => rfl⟩
          | ok bytes =>
              dsimp only
              split
              · exact (checked _ _ _ _ _).dispatch stepId yielded
              · exact ⟨(checked _ _ _ _ _).halt _ rfl rfl
                  ⟨plain, plain_preGate (preGate.evaluate bytes)⟩, fun _ => rfl⟩

/-! ## A resolved step -/

/-- The machine once the step is dropped and its result saved. -/
structure Dropped (ns stepId : String) (m m₁ : Machine) : Prop where
  steps : m₁.contract.registeredSteps = m.dropped ns stepId
  runs : m₁.contract.automationRuns = m.contract.automationRuns
  queue : m₁.contract.sequenceQueue = m.contract.sequenceQueue
  pool : m₁.pool = m.pool
  events : ∃ remarks, m₁.trace.events = m.trace.events ++ remarks ∧
    ∀ event ∈ remarks, event.isRemark = true ∧ event.sequenceNamespace = some ns

theorem dropped_saved (m : Machine) (ns stepId : String) (saveSpec : Option SaveResult)
    (bytes : Bytes) :
    Dropped ns stepId m ((m.removeStep ns stepId).saveIfAsked ns stepId saveSpec bytes) := by
  unfold saveIfAsked
  split
  · rename_i spec
    refine ⟨rfl, rfl, rfl, rfl, [_], emit_events .., ?_⟩
    rintro _ (_ | ⟨_, ⟨⟩⟩)
    exact ⟨rfl, rfl⟩
  · exact ⟨rfl, rfl, rfl, rfl, (Remarked.refl ns m).events⟩

/-- A step can be resumed exactly when it is stored and its yield waits. -/
theorem resumeRegisteredStep_iff {m : Machine} {ns stepId : String} :
    (∃ m', m.resumeRegisteredStep ns stepId = .ok m') ↔ m.resumable ns stepId = true := by
  constructor
  · rintro ⟨m', resumed⟩
    obtain ⟨yielded, woken, stored, wakes, rfl⟩ := resumeRegisteredStep_ok.mp resumed
    obtain ⟨thens, waiting, rfl⟩ := resumeYield_eq_some.mp wakes
    simp only [resumable, stored, waiting]
  · intro able
    unfold resumable at able
    split at able
    · cases able
    · rename_i yielded stored
      split at able
      · rename_i thens waiting
        exact ⟨_, resumeRegisteredStep_ok.mpr
          ⟨yielded, _, stored, resumeYield_eq_some.mpr ⟨thens, waiting, rfl⟩, rfl⟩⟩
      · cases able

theorem resumable_dropped {m m₁ : Machine} {ns stepId : String}
    (steps : m₁.contract.registeredSteps = m.dropped ns stepId) (pool : m₁.pool = m.pool)
    (next : String) :
    m₁.resumable ns next = true ↔ next ≠ stepId ∧ m.resumable ns next = true := by
  have stored : m₁.getStep ns next = if next = stepId then none else m.getStep ns next := by
    rw [getStep, steps, dropped, IterableMap.get_remove]
    by_cases same : next = stepId
    · rw [if_pos same, if_pos (congrArg _ same)]
    · rw [if_neg same, if_neg fun keys => same (registeredStepKey_inj.mp keys), getStep]
  unfold resumable
  rw [stored, pool]
  by_cases same : next = stepId
  · simp [same]
  · simp [same]

/-- Taking the next step from the queue is about the queue only. -/
theorem takeNextQueuedStep_leaves {c c₁ : Contract} (ns : String)
    (queue : c₁.sequenceQueue = c.sequenceQueue) :
    (c₁.takeNextQueuedStep ns).1 = (c.takeNextQueuedStep ns).1 ∧
      (c₁.takeNextQueuedStep ns).2.registeredSteps = c₁.registeredSteps ∧
        (c₁.takeNextQueuedStep ns).2.automationRuns = c₁.automationRuns := by
  unfold Contract.takeNextQueuedStep
  rw [queue]
  split <;> exact ⟨rfl, rfl, rfl⟩

theorem haltOnResumeFailure_tells (env : Env) (m : Machine) (ns stepId next message : String) :
    ∃ data : HaltData, data.sequenceNamespace = ns ∧ data.failedStepId = next ∧ data.Plain ∧
      m.haltOnResumeFailure env ns stepId next message =
        (((m.removeQueue ns).clearContext ns).finishAutomationRun env ns .resumeFailed
          (some next)).emit (.sequenceHalted data) := by
  have plain : ',' ∉ "resume_failed".toList := by decide
  refine ⟨_, ?_, ?_, ⟨?_, ?_⟩, rfl⟩
  · rfl
  · rfl
  · exact plain
  · exact plain

/-- A step that resolved Ok, told from the state before it was dropped. -/
theorem Dropped.progress {env : Env} {m m₁ : Machine} {ns stepId : String}
    (dropped : Dropped ns stepId m m₁) (n : Nat) (call : Option CallMetadata) (createdAtMs : Nat) :
    Fallen env m ns stepId (m.resolvedFate ns stepId)
      (m₁.progressSequenceAfterSuccessfulResolution env ns stepId n call createdAtMs) := by
  obtain ⟨taken, steps, runs⟩ := takeNextQueuedStep_leaves ns dropped.queue
  obtain ⟨remarks, events, quiet⟩ := dropped.events
  unfold resolvedFate progressSequenceAfterSuccessfulResolution
  rw [← taken]
  cases split : m₁.contract.takeNextQueuedStep ns with
  | mk next c =>
  rw [split] at steps runs
  replace steps : c.registeredSteps = m.dropped ns stepId := steps.trans dropped.steps
  replace runs : c.automationRuns = m.contract.automationRuns := runs.trans dropped.runs
  cases next with
  | none =>
      dsimp only
      obtain ⟨left, closed, told⟩ := @finishAutomationRun_leaves env m
        (((m₁.withContract c).emit (.stepResolvedOk stepId ns n none createdAtMs
          (env.now - createdAtMs) call)).emit (.sequenceCompleted ns stepId n)) ns .succeeded none
        runs
      refine ⟨left.trans (congrArg _ steps), closed, remarks, _, ?_, quiet,
        .completes n createdAtMs (env.now - createdAtMs) call⟩
      refine told.trans ?_
      rw [emit_events, emit_events]
      show ((m₁.trace.events ++ _) ++ _) ++ _ = _
      rw [events]
      simp only [List.append_assoc, List.cons_append, List.nil_append]
  | some next =>
      dsimp only
      have announced : ((m₁.withContract c).emit (.stepResolvedOk stepId ns n (some next)
          createdAtMs (env.now - createdAtMs) call)).trace.events = m.trace.events ++ (remarks ++
            [.stepResolvedOk stepId ns n (some next) createdAtMs (env.now - createdAtMs) call]) := by
        rw [emit_events, ← List.append_assoc, ← events]
        rfl
      generalize settled : (m₁.withContract c).emit (.stepResolvedOk stepId ns n (some next)
        createdAtMs (env.now - createdAtMs) call) = m₂ at announced
      have steps₂ : m₂.contract.registeredSteps = m.dropped ns stepId := settled ▸ steps
      have runs₂ : m₂.contract.automationRuns = m.contract.automationRuns := settled ▸ runs
      have able := resumable_dropped steps₂ (settled ▸ dropped.pool) next
      by_cases wakes : next ≠ stepId ∧ m.resumable ns next = true
      · obtain ⟨resumed, woken⟩ := resumeRegisteredStep_iff.mpr (able.mpr wakes)
        rw [if_pos wakes, woken]
        obtain ⟨yielded, m₃, -, resumedYield, rfl⟩ := resumeRegisteredStep_ok.mp woken
        obtain ⟨thens, -, rfl⟩ := resumeYield_eq_some.mp resumedYield
        refine ⟨steps₂, runs₂, remarks, _, ?_, quiet,
          .advances n createdAtMs (env.now - createdAtMs) call⟩
        exact (Trace.events_snoc rfl).trans announced
      · rw [if_neg wakes]
        cases asleep : m₂.resumeRegisteredStep ns next with
        | ok resumed => exact absurd (able.mp (resumeRegisteredStep_iff.mp ⟨_, asleep⟩)) wakes
        | error message =>
            obtain ⟨data, about, names, plain, halted⟩ :=
              m₂.haltOnResumeFailure_tells env ns stepId next message
            obtain ⟨left, closed, told⟩ := @finishAutomationRun_leaves env m
              ((m₂.removeQueue ns).clearContext ns) ns .resumeFailed (some next) runs₂
            dsimp only
            rw [halted]
            refine ⟨left.trans (congrArg _ steps₂), closed, remarks, _, ?_, quiet,
              .stuck n createdAtMs (env.now - createdAtMs) call data about names plain⟩
            refine (emit_events ..).trans ?_
            rw [told]
            show (m₂.trace.events ++ _) ++ _ = _
            rw [announced]
            simp only [List.append_assoc, List.cons_append, List.nil_append]

/-- A step that failed. -/
theorem failed_fallen (env : Env) (m : Machine) (ns stepId : String) (error : PromiseError)
    (createdAtMs latencyMs : Nat) (call : Option CallMetadata) :
    Fallen env m ns stepId .fails
      (((((m.removeStep ns stepId).removeQueue ns).clearContext ns).finishAutomationRun env ns
        .downstreamFailed (some stepId)).emit
          (.stepResolvedErr stepId ns error createdAtMs latencyMs call)) := by
  obtain ⟨steps, runs, told⟩ := @finishAutomationRun_leaves env m
    (((m.removeStep ns stepId).removeQueue ns).clearContext ns) ns .downstreamFailed
    (some stepId) rfl
  refine ⟨steps, runs, [], _, ?_, fun _ inside => absurd inside List.not_mem_nil,
    .fails error createdAtMs latencyMs call⟩
  refine (emit_events ..).trans ?_
  rw [told]
  exact List.append_assoc ..

theorem onStepResolved_fallen (env : Env) (m : Machine) (ns stepId : String)
    (result : PromiseResult) :
    Fallen env m ns stepId (m.fate (.onStepResolved ns stepId) result)
      (m.onStepResolved env ns stepId result) := by
  simp only [onStepResolved, fate]
  cases result.checked with
  | ok bytes => exact (dropped_saved m ns stepId _ bytes).progress _ _ _
  | error error => exact failed_fallen env m ns stepId error _ _ _

/-! ## Deliveries -/

theorem runCallback_fallen {env : Env} {m m' : Machine} {callback : Callback}
    {result : PromiseResult} {out : PromiseOrValue}
    (ran : m.runCallback env callback result = .ok (m', out)) :
    Fallen env m callback.sequenceNamespace callback.stepId (m.fate callback result) m' ∧
      (m.fate callback result ≠ .passes → ∃ bytes, out = .value bytes) := by
  cases callback with
  | onStepResumed ns stepId =>
      obtain ⟨fallen, handed⟩ := onStepResumed_fallen env m ns stepId result
      rw [show _ = (m', out) from Except.ok.inj ran] at fallen handed
      exact ⟨fallen, fun other => ⟨_, handed other⟩⟩
  | onPreGateChecked ns stepId =>
      obtain ⟨fallen, handed⟩ := onPreGateChecked_fallen env m ns stepId result
      rw [show _ = (m', out) from Except.ok.inj ran] at fallen handed
      exact ⟨fallen, fun other => ⟨_, handed other⟩⟩
  | onAssertedRunPostcheck ns stepId id method args expected gas =>
      obtain ⟨q, posted, eq⟩ := bind_eq_ok.mp ran
      cases eq
      exact ⟨(Remarked.refl ns m).pass, fun other => absurd rfl other⟩
  | onAssertedEvaluatePostcheck ns stepId expected =>
      obtain ⟨m₁, checked, eq⟩ := bind_eq_ok.mp ran
      cases eq
      refine ⟨?_, fun other => absurd rfl other⟩
      obtain ⟨-, rfl⟩ := onAssertedEvaluatePostcheck_ok checked
      exact (Remarked.emit m rfl rfl).pass
  | onStepResolved ns stepId =>
      cases ran
      exact ⟨onStepResolved_fallen env m ns stepId result, fun _ => ⟨[], rfl⟩⟩

/-- The callback that a delivery runs, and what it is handed. -/
def due (m : Machine) (id : Nat) (answer : PromiseResult) : Option (Callback × PromiseResult) :=
  match m.pool.get id with
  | some ⟨head, t :: _⟩ => (head.outcome answer).map fun result => (t.callback, result)
  | _ => none

/-- The execution that a delivery starts. -/
def begun (m : Machine) (id : Nat) (callback : Callback) (result : PromiseResult) : Machine :=
  { m with executing := some id }.note (.delivered id callback result)

theorem fate_begun (m : Machine) (id : Nat) (callback : Callback) (result : PromiseResult) :
    (m.begun id callback result).fate callback result = m.fate callback result := by
  cases callback <;> rfl

/-- What only touches the host leaves what a fate leaves. -/
theorem Fallen.of_begun {env : Env} {m m' : Machine} {ns stepId : String} {fate : Fate} {id : Nat}
    {callback : Callback} {result : PromiseResult}
    (fallen : Fallen env (m.begun id callback result) ns stepId fate m') :
    Fallen env m ns stepId fate m' := by
  obtain ⟨steps, runs, remarks, told, events, quiet, tells⟩ := fallen
  have silent : (m.begun id callback result).trace.events = m.trace.events :=
    Trace.events_snoc rfl
  refine ⟨steps.trans ?_, runs, remarks, told, silent ▸ events, quiet, ?_⟩
  · cases fate <;> rfl
  · cases tells with
    | passes => exact .passes
    | halts data about names plain => exact .halts data about names plain
    | advances n createdAtMs latencyMs call => exact .advances n createdAtMs latencyMs call
    | stuck n createdAtMs latencyMs call data about names plain =>
        exact .stuck n createdAtMs latencyMs call data about names plain
    | completes n createdAtMs latencyMs call => exact .completes n createdAtMs latencyMs call
    | fails error createdAtMs latencyMs call => exact .fails error createdAtMs latencyMs call

/-- Changes behind the callback, which touch neither the contract nor its events. -/
theorem Fallen.after {env : Env} {m m' m'' : Machine} {ns stepId : String} {fate : Fate}
    (fallen : Fallen env m ns stepId fate m') (contract : m''.contract = m'.contract)
    (events : m''.trace.events = m'.trace.events) : Fallen env m ns stepId fate m'' where
  steps := (congrArg ContractOf.registeredSteps contract).trans fallen.steps
  runs := (congrArg ContractOf.automationRuns contract).trans fallen.runs
  events := by
    obtain ⟨remarks, told, added, quiet, tells⟩ := fallen.events
    exact ⟨remarks, told, events.trans added, quiet, tells⟩

/-- What a callback that panics logged before it did. -/
theorem runCallback_panics {env : Env} {m : Machine} {callback : Callback}
    {result : PromiseResult} {panic : Panic}
    (ran : m.runCallback env callback result = .error panic) :
    m.fate callback result = .passes ∧ ∀ event ∈ panic.logged,
      event.isRemark = true ∧ event.sequenceNamespace = some callback.sequenceNamespace := by
  cases callback with
  | onStepResumed ns stepId => cases ran
  | onPreGateChecked ns stepId => cases ran
  | onStepResolved ns stepId => cases ran
  | onAssertedRunPostcheck ns stepId id method args expected gas =>
      refine ⟨rfl, ?_⟩
      rcases bind_eq_error.mp ran with panicked | ⟨p, -, impossible⟩
      · rw [onAssertedRunPostcheck_error panicked]
        exact fun _ inside => absurd inside List.not_mem_nil
      · cases impossible
  | onAssertedEvaluatePostcheck ns stepId expected =>
      refine ⟨rfl, ?_⟩
      rcases bind_eq_error.mp ran with panicked | ⟨m', -, impossible⟩
      · obtain ⟨outcome, actual, logged⟩ := onAssertedEvaluatePostcheck_error panicked
        rw [logged]
        exact List.forall_mem_singleton.mpr ⟨rfl, rfl⟩
      · cases impossible

theorem emits_events (events : List Event) (m : Machine) :
    (events.foldl emit m).trace.events = m.trace.events ++ events := by
  induction events generalizing m with
  | nil => exact (List.append_nil _).symm
  | cons event events ih =>
      rw [List.foldl_cons, ih, emit_events, List.append_assoc, List.singleton_append]

/-- A callback that is rolled back leaves its remarks. -/
theorem rollBack_remarked (m : Machine) (id : Nat) (t : Then) (result : PromiseResult)
    {panic : Panic} (quiet : ∀ event ∈ panic.logged, event.isRemark = true ∧
      event.sequenceNamespace = some t.callback.sequenceNamespace) :
    Remarked t.callback.sequenceNamespace m (m.rollBack id t result panic) := by
  refine ⟨by rw [rollBack_eq], panic.logged, ?_, quiet⟩
  rw [rollBack, emits_events]
  exact congrArg (· ++ _) (Trace.events_snoc rfl)

/-- A callback that goes through falls by its fate. -/
theorem attempt_fallen {env : Env} {m m' : Machine} {id : Nat} {t : Then} {result : PromiseResult}
    {out : PromiseOrValue} (went : m.attempt env id t result = .ok (m', out)) :
    Fallen env m t.callback.sequenceNamespace t.callback.stepId (m.fate t.callback result) m' := by
  obtain ⟨ran, -⟩ := attempt_ok.mp went
  obtain ⟨fallen, -⟩ := runCallback_fallen ran
  rw [← m.fate_begun id]
  exact fallen.of_begun

/-- A callback that fails, by itself or for want of gas, was to pass. -/
theorem attempt_panics {env : Env} {m : Machine} {id : Nat} {t : Then} {result : PromiseResult}
    {panic : Panic} (failed : m.attempt env id t result = .error panic) :
    m.fate t.callback result = .passes ∧ ∀ event ∈ panic.logged, event.isRemark = true ∧
      event.sequenceNamespace = some t.callback.sequenceNamespace := by
  rw [← m.fate_begun id]
  have begins : m.attempt env id t result =
      ((m.begun id t.callback result).runCallback env t.callback result).bind fun ran =>
        match ran.2.refusal t.gasTgas env.accountBalance with
        | none => .ok ran
        | some message => .error {
            message := message
            logged := ran.1.trace.events.drop
              (m.begun id t.callback result).trace.events.length } := rfl
  rw [begins] at failed
  cases ran : (m.begun id t.callback result).runCallback env t.callback result with
  | error panic' =>
      rw [ran] at failed
      cases failed
      exact runCallback_panics ran
  | ok out =>
      obtain ⟨m₁, out⟩ := out
      rw [ran] at failed
      obtain ⟨fallen, handed⟩ := runCallback_fallen ran
      have passes : (m.begun id t.callback result).fate t.callback result = .passes := by
        by_contra other
        obtain ⟨bytes, rfl⟩ := handed other
        cases failed
      refine ⟨passes, ?_⟩
      dsimp only [Except.bind] at failed
      split at failed
      · cases failed
      · cases failed
        -- nothing but remarks comes before a promise
        rw [passes] at fallen
        obtain ⟨remarks, told, added, quiet, tells⟩ := fallen.events
        cases tells
        rw [added, List.append_nil, List.drop_left]
        exact quiet

theorem deliver_idle {env : Env} {m : Machine} {id : Nat} {answer : PromiseResult}
    (idle : m.due id answer = none) : m.deliver env id answer = m := by
  unfold deliver
  unfold due at idle
  split
  · rename_i head t rest flying
    rw [flying] at idle
    dsimp only at idle ⊢
    cases outcome : head.outcome answer with
    | none => rfl
    | some result =>
        rw [outcome] at idle
        cases idle
  · rfl

/-- The callback that is due is the first of its flight, and a delivery runs it. -/
theorem deliver_of_due {m : Machine} {id : Nat} {answer : PromiseResult} {callback : Callback}
    {result : PromiseResult} (due : m.due id answer = some (callback, result)) :
    ∃ t rest, t.callback = callback ∧
      ∀ env, m.deliver env id answer = m.runThen env id t rest result := by
  unfold Machine.due at due
  cases flying : m.pool.get id with
  | none =>
      rw [flying] at due
      cases due
  | some f =>
      obtain ⟨head, thens⟩ := f
      cases thens with
      | nil =>
          rw [flying] at due
          cases due
      | cons t rest =>
          rw [flying] at due
          obtain ⟨result', outcome, eq⟩ := Option.map_eq_some_iff.mp due
          obtain ⟨rfl, rfl⟩ := Prod.mk.inj eq
          refine ⟨t, rest, rfl, fun env => ?_⟩
          rw [deliver, flying]
          dsimp only
          rw [outcome]

/-- Every delivery leaves what the fate of its callback says. -/
theorem deliver_fallen {env : Env} {m : Machine} {id : Nat} {answer : PromiseResult}
    {callback : Callback} {result : PromiseResult}
    (due : m.due id answer = some (callback, result)) :
    Fallen env m callback.sequenceNamespace callback.stepId (m.fate callback result)
      (m.deliver env id answer) := by
  obtain ⟨t, rest, rfl, ran⟩ := deliver_of_due due
  rw [ran, runThen]
  cases attempted : m.attempt env id t result with
  | error panic =>
      obtain ⟨passes, quiet⟩ := attempt_panics attempted
      rw [passes]
      exact (m.rollBack_remarked id t result quiet).pass.after rfl rfl
  | ok out =>
      obtain ⟨m', out⟩ := out
      have fallen := attempt_fallen attempted
      cases out with
      | value bytes => exact fallen.after rfl rfl
      | promise p =>
          exact fallen.after rfl (Trace.events_snoc rfl)

end Machine

/-! ## Transactions -/

/-- Events that say how a step or a sequence turned out. -/
def Event.isOutcome : Event → Bool
  | stepResolvedOk _ _ _ _ _ _ _ => true
  | stepResolvedErr _ _ _ _ _ _ => true
  | sequenceCompleted _ _ _ => true
  | sequenceHalted _ => true
  | runFinished _ => true
  | _ => false

/-- What is neither a callback nor tells an outcome. -/
def TraceEvent.opens : TraceEvent → Bool
  | delivered _ _ _ => false
  | rolledBack _ _ _ => false
  | emitted _ event => !event.isOutcome
  | _ => true

/-- Nothing turned out between the two machines. -/
def Opens (m m' : Machine) : Prop :=
  ∃ added, m'.trace = m.trace ++ added ∧ ∀ event ∈ added, event.opens = true

namespace Opens

theorem of_trace {m m' : Machine} (same : m'.trace = m.trace) : Opens m m' :=
  ⟨[], by rw [same, List.append_nil], fun _ inside => absurd inside List.not_mem_nil⟩

theorem trans {m₁ m₂ m₃ : Machine} (first : Opens m₁ m₂) (second : Opens m₂ m₃) :
    Opens m₁ m₃ := by
  obtain ⟨added, trace, quiet⟩ := first
  obtain ⟨added', trace', quiet'⟩ := second
  refine ⟨added ++ added', by rw [trace', trace, List.append_assoc], fun event inside => ?_⟩
  rcases List.mem_append.mp inside with early | late
  · exact quiet event early
  · exact quiet' event late

theorem note (m : Machine) {event : TraceEvent} (opens : event.opens = true) :
    Opens m (m.note event) :=
  ⟨[event], rfl, fun _ inside => List.mem_singleton.mp inside ▸ opens⟩

theorem emit (m : Machine) {event : Event} (opens : event.isOutcome = false) :
    Opens m (m.emit event) :=
  .note m (by rw [TraceEvent.opens, opens]; rfl)

theorem of_aside {m m' : Machine} (aside : Aside m m') : Opens m m' := by
  obtain ⟨events, silent, trace⟩ := aside.trace
  refine ⟨_, trace, fun event inside => ?_⟩
  obtain ⟨plain, member, rfl⟩ := List.mem_map.mp inside
  have none := silent plain member
  cases plain <;> first | rfl | cases none

theorem withRegistered (env : Env) (m : Machine) (ns : String) (call : Step) :
    Opens m (m.withRegistered env ns call) := by
  refine ⟨_, List.append_assoc .., fun event inside => ?_⟩
  rcases List.mem_pair.mp inside with rfl | rfl <;> rfl

theorem registerSteps {env : Env} {m m' : Machine} {ns : String} {calls : List Step}
    (registered : m.registerSteps env ns calls = .ok m') : Opens m m' := by
  induction calls generalizing m with
  | nil => exact Machine.registerSteps_nil.mp registered ▸ of_trace rfl
  | cons call calls ih =>
      exact (withRegistered env m ns call).trans (ih (Machine.registerSteps_cons.mp registered).2)

theorem startSequenceRelease {m m' : Machine} {ns : String} {order : List String} {n : Nat}
    (released : m.startSequenceReleaseInNamespace ns order = .ok (m', n)) : Opens m m' := by
  obtain ⟨first, rest, resumed, -, -, -, woken, rfl, -⟩ :=
    Machine.startSequenceRelease_ok released
  obtain ⟨yielded, waking, -, wakes, rfl⟩ := Machine.resumeRegisteredStep_ok.mp woken
  obtain ⟨thens, -, rfl⟩ := Machine.resumeYield_eq_some.mp wakes
  have queued : Opens m (m.withQueued ns rest) := .of_trace (by
    unfold Machine.withQueued
    split <;> rfl)
  have marked : Opens (m.withQueued ns rest)
      ((m.withQueued ns rest).note (.released ns order)) := .note _ rfl
  refine ((queued.trans marked).trans ?_).trans (.emit _ rfl)
  exact ⟨[_], rfl, fun _ inside => List.mem_singleton.mp inside ▸ rfl⟩

end Opens

/-- An accepted call announces no outcome. -/
theorem Accepted.opens {env : Env} {m m' : Machine} (accepted : Accepted env m m') :
    Opens m m' := by
  cases accepted with
  | aside aside edit => exact .of_aside aside
  | pruned =>
      unfold Machine.pruneFinishedAutomationRuns
      simp only
      split
      · exact .of_trace rfl
      · exact .emit _ rfl
  | registered caller call valid registered =>
      obtain ⟨-, rfl⟩ := Machine.registerStepInNamespace_ok.mp registered
      exact .withRegistered env m _ call
  | released caller calls order valid registered released =>
      exact (Opens.registerSteps registered).trans (.startSequenceRelease released)
  | fired triggerId authorized stored known checked registered released =>
      have armed := (Opens.of_aside (authorizeFire_aside authorized).1).trans
        (.registerSteps registered)
      exact ((armed.trans (.emit _ rfl)).trans (.startSequenceRelease released)).trans
        (.of_trace rfl)

end SmartAccount
