import SmartAccount.Foundation.Replay
import SmartAccount.ListingOrder

/-!
# A replica from the events

An indexer that never reads the contract's state rebuilds the books of automation and of
delegation from the events alone.  `Replica.read` uses the `data` fields of one event and what
the replica holds; `replica_copies` says that in every reachable state the replica that read
all events holds the stored runs and grants, entry by entry and in their order, and every
stored trigger.  Deleting a trigger emits nothing, so the replica may hold more triggers.
-/

namespace SmartAccount

open Foundation

/-- What an indexer keeps. -/
structure Replica where
  runs : IterableMap String AutomationRun
  triggers : IterableMap String BalanceTrigger
  sessions : IterableMap String SessionGrant
  proxies : IterableMap String ProxyGrant

namespace Replica

def empty : Replica := ⟨.empty, .empty, .empty, .empty⟩

/-! ## Reading one event -/

/-- The trigger that `trigger_created` announces. -/
def createdTrigger (sequenceId : String) (minBalanceYocto maxRuns createdAtMs : Nat) :
    BalanceTrigger where
  sequenceId := sequenceId
  minBalanceYocto := minBalanceYocto
  maxRuns := maxRuns
  runsStarted := 0
  inFlight := false
  lastExecutorId := none
  lastStartedAtMs := none
  lastFinishedAtMs := none
  lastRunNamespace := none
  lastRunOutcome := none
  createdAtMs := createdAtMs

/-- The trigger as `trigger_fired` tells it. -/
def firedTrigger (data : TriggerFired) : BalanceTrigger where
  sequenceId := data.sequenceId
  minBalanceYocto := data.minBalanceYocto
  maxRuns := data.maxRuns
  runsStarted := data.runsStarted
  inFlight := true
  lastExecutorId := some data.executorId
  lastStartedAtMs := some data.startedAtMs
  lastFinishedAtMs := none
  lastRunNamespace := some data.sequenceNamespace
  lastRunOutcome := some .inFlight
  createdAtMs := data.triggerCreatedAtMs

/-- The row of a run that has just been fired. -/
def firedRun (data : TriggerFired) : AutomationRun where
  triggerId := data.triggerId
  sequenceId := data.sequenceId
  sequenceNamespace := data.sequenceNamespace
  runNonce := data.runNonce
  executorId := data.executorId
  startedAtMs := data.startedAtMs
  finishedAtMs := none
  status := .inFlight
  failedStepId := none

/-- The row of a finished run, which `run_finished` tells in full. -/
def finishedRow (data : RunFinished) : AutomationRun where
  triggerId := data.triggerId
  sequenceId := data.sequenceId
  sequenceNamespace := data.sequenceNamespace
  runNonce := data.runNonce
  executorId := data.executorId
  startedAtMs := data.startedAtMs
  finishedAtMs := data.finishedAtMs
  status := data.status
  failedStepId := data.failedStepId

def closeTrigger (data : RunFinished) (trigger : BalanceTrigger) : BalanceTrigger :=
  { trigger with
    inFlight := false
    lastFinishedAtMs := data.finishedAtMs
    lastRunOutcome := some data.status }

/-- Enter one event.  The enrolment events carry no counter; a new grant has none used. -/
def read (r : Replica) : Event → Replica
  | .triggerCreated triggerId sequenceId minBalance maxRuns createdAtMs _ _ =>
      { r with
        triggers := r.triggers.insert triggerId
          (createdTrigger sequenceId minBalance maxRuns createdAtMs) }
  | .triggerFired data =>
      { r with
        triggers := r.triggers.insert data.triggerId (firedTrigger data)
        runs := r.runs.insert data.sequenceNamespace (firedRun data) }
  | .runFinished data =>
      { r with
        triggers := r.triggers.adjust data.triggerId (closeTrigger data)
        runs := r.runs.insert data.sequenceNamespace (finishedRow data) }
  | .automationRunsPruned _ namespaces => { r with runs := r.runs.removeAll namespaces }
  | .sessionEnrolled grant _ =>
      { r with
        sessions := r.sessions.insert grant.sessionPublicKey { grant with fireCount := 0 } }
  | .sessionFired pk _ fireCountAfter _ _ =>
      { r with
        sessions := r.sessions.adjust pk fun grant => { grant with fireCount := fireCountAfter } }
  | .sessionRevoked pk _ => { r with sessions := r.sessions.remove pk }
  | .proxyKeyEnrolled grant _ =>
      { r with
        proxies := r.proxies.insert grant.sessionPublicKey { grant with callCount := 0 } }
  | .proxyCallDispatched pk _ _ _ _ _ callCount _ _ =>
      { r with
        proxies := r.proxies.adjust pk fun grant => { grant with callCount := callCount } }
  | .proxyKeyRevoked pk _ => { r with proxies := r.proxies.remove pk }
  | _ => r

/-- Events that book nothing. -/
def skips : Event → Bool
  | .stepRegistered _ _ _ _ _ => true
  | .sequenceStarted _ _ _ _ _ _ => true
  | .stepResumed _ _ _ _ _ => true
  | .stepResolvedOk _ _ _ _ _ _ _ => true
  | .stepResolvedErr _ _ _ _ _ _ => true
  | .sequenceCompleted _ _ _ => true
  | .sequenceHalted _ => true
  | .preGateChecked _ => true
  | .assertionChecked _ => true
  | .resultSaved _ _ _ _ _ => true
  | _ => false

theorem read_of_skips {event : Event} (skipped : skips event = true) (r : Replica) :
    r.read event = r := by
  cases event <;> first | rfl | cases skipped

theorem skips_of_remark {event : Event} (remark : event.isRemark = true) :
    skips event = true := by
  cases event <;> first | rfl | cases remark

/-! ## Copies -/

/-- The replica holds what the contract stores. -/
structure Copies (r : Replica) (m : Machine) : Prop where
  runs : r.runs = m.contract.automationRuns
  triggers : m.contract.balanceTriggers.Within r.triggers
  sessions : r.sessions = m.contract.sessionGrants
  proxies : r.proxies = m.contract.proxyGrants

/-- What the second machine added to the events keeps replicas up to date. -/
abbrev UpToDate (m m' : Machine) : Prop :=
  Follows read (fun m : Machine => m.trace.events) Copies m m'

end Replica

/-! ## What callbacks close -/

/-- The callbacks of a namespace leave triggers and runs alone, or close the one run. -/
inductive Closed (ns : String) (c : Contract) : Contract → Prop
  | kept {c' : Contract} (runs : c'.automationRuns = c.automationRuns)
      (triggers : c'.balanceTriggers = c.balanceTriggers) : Closed ns c c'
  | closed {c' : Contract} {run : AutomationRun} (env : Env) (status : AutomationRunStatus)
      (failedStepId : Option String) (stored : c.automationRuns.get ns = some run)
      (running : run.status = .inFlight) (closing : status ≠ .inFlight)
      (runs : c'.automationRuns =
        c.automationRuns.insert ns (Machine.finishedRun env run status failedStepId))
      (triggers : c'.balanceTriggers = c.balanceTriggers.adjust run.triggerId
        fun trigger => Machine.finishedTrigger env trigger status) : Closed ns c c'

namespace Closed

variable {ns : String} {c : Contract} {m m' : Machine}

theorem of_same (closed : Closed ns c m.contract)
    (runs : m'.contract.automationRuns = m.contract.automationRuns)
    (triggers : m'.contract.balanceTriggers = m.contract.balanceTriggers) :
    Closed ns c m'.contract := by
  cases closed with
  | kept same same' => exact .kept (runs.trans same) (triggers.trans same')
  | closed env status failedStepId stored running closing same same' =>
      exact .closed env status failedStepId stored running closing (runs.trans same)
        (triggers.trans same')

/-- A closed run is not in flight, so that no second write closes it. -/
theorem write (closed : Closed ns c m.contract) (write : Write ns m m') :
    Closed ns c m'.contract := by
  cases write with
  | finishRun stored running closing =>
      rename_i env run status failedStepId
      cases closed with
      | kept same same' =>
          refine .closed env status failedStepId (same ▸ stored) running closing ?_ ?_
          · rw [← same]
            rfl
          · rw [← same', Machine.recordRunFinished, IterableMap.adjust]
            cases m.contract.balanceTriggers.get run.triggerId <;> rfl
      | closed env' status' failedStepId' stored' running' closing' same =>
          rw [same, IterableMap.get_insert_self, Option.some.injEq] at stored
          rw [← stored] at running
          exact absurd running closing'
  | resume stored resumed =>
      obtain ⟨thens, -, rfl⟩ := Machine.resumeYield_eq_some.mp resumed
      exact closed.of_same rfl rfl
  | _ => exact closed.of_same rfl rfl

theorem writes (writes : Writes ns m m') : Closed ns m.contract m'.contract := by
  induction writes with
  | refl => exact .kept rfl rfl
  | tail _ last ih => exact ih.write last

end Closed

namespace Machine

theorem deliver_closed {env : Env} {m : Machine} {id : Nat} {answer : PromiseResult}
    {callback : Callback} {result : PromiseResult}
    (due : m.due id answer = some (callback, result)) :
    Closed callback.sequenceNamespace m.contract (m.deliver env id answer).contract := by
  rcases m.deliver_contract env id answer with same | ⟨head, t, rest, _, m₁, out, here, ran, after⟩
  · exact .kept (congrArg ContractOf.automationRuns same) (congrArg ContractOf.balanceTriggers same)
  · have own : t.callback = callback := by
      unfold Machine.due at due
      rw [here] at due
      obtain ⟨_, -, eq⟩ := Option.map_eq_some_iff.mp due
      exact (Prod.mk.inj eq).1
    rw [after, ← own]
    have closed := Closed.writes (Writes.runCallback ran)
    exact closed

/-- No fate closes a run as one in flight. -/
theorem fate_closing {m : Machine} {callback : Callback} {result : PromiseResult}
    {status : AutomationRunStatus} {failedStepId : Option String}
    (closes : (m.fate callback result).verdict callback.stepId = some (status, failedStepId)) :
    status ≠ .inFlight := by
  have dispatched : ∀ ns call stepId, (m.dispatchFate ns call).verdict stepId =
      some (status, failedStepId) → status ≠ .inFlight := by
    intro ns call stepId closes
    unfold dispatchFate at closes
    split at closes <;> cases closes
    decide
  cases callback with
  | onStepResumed ns stepId =>
      simp only [fate] at closes
      split at closes
      · cases closes
      · split at closes
        · cases closes
          decide
        · split at closes
          · cases closes
          · exact dispatched _ _ _ closes
  | onPreGateChecked ns stepId =>
      simp only [fate] at closes
      split at closes
      · cases closes
      · split at closes
        · cases closes
        · split at closes
          · cases closes
            decide
          · split at closes
            · exact dispatched _ _ _ closes
            · cases closes
              decide
  | onStepResolved ns stepId =>
      simp only [fate, resolvedFate] at closes
      split at closes
      · cases closes
        decide
      · split at closes
        · cases closes
          decide
        · split at closes <;> cases closes
          decide
  | onAssertedRunPostcheck ns stepId id method args expected gas => cases closes
  | onAssertedEvaluatePostcheck ns stepId expected => cases closes

end Machine

/-- Where no row has changed, no trigger has. -/
theorem Closed.of_kept {ns : String} {c c' : Contract} (closed : Closed ns c c')
    (same : c'.automationRuns = c.automationRuns) : c'.balanceTriggers = c.balanceTriggers := by
  cases closed with
  | kept runs triggers => exact triggers
  | closed env status failedStepId stored running closing runs triggers =>
      have row := congrArg (fun rows : IterableMap String AutomationRun => rows.get ns)
        (same.symm.trans runs)
      simp only [stored, IterableMap.get_insert_self, Option.some.injEq] at row
      exact absurd ((congrArg AutomationRun.status row).symm.trans running) closing

/-- The run that a verdict closes, and the trigger that it frees. -/
theorem Closed.of_verdict {env : Env} {m m' : Machine} {ns : String}
    {status : AutomationRunStatus} {failedStepId : Option String} {run : AutomationRun}
    (closed : Closed ns m.contract m'.contract) (running : m.running ns = some run)
    (closing : status ≠ .inFlight)
    (runs : m'.contract.automationRuns = m.runsAfter env ns (some (status, failedStepId))) :
    m'.contract.automationRuns =
        m.contract.automationRuns.insert ns (Machine.finishedRun env run status failedStepId) ∧
      m'.contract.balanceTriggers = m.contract.balanceTriggers.adjust run.triggerId
        fun trigger => Machine.finishedTrigger env trigger status := by
  obtain ⟨stored, inFlight⟩ := Option.filter_eq_some_iff.mp running
  simp only [Machine.runsAfter, running] at runs
  refine ⟨runs, ?_⟩
  have row := congrArg (fun rows : IterableMap String AutomationRun => rows.get ns) runs
  simp only [IterableMap.get_insert_self] at row
  cases closed with
  | kept same =>
      rw [same, stored, Option.some.injEq] at row
      rw [row] at inFlight
      exact absurd (of_decide_eq_true inFlight) closing
  | closed env' status' failedStepId' stored' running' closing' same triggers =>
      rw [same, IterableMap.get_insert_self, Option.some.injEq] at row
      rw [stored, Option.some.injEq] at stored'
      subst stored'
      have time : env'.now = env.now := Option.some.inj (congrArg AutomationRun.finishedAtMs row)
      have verdict : status' = status := congrArg AutomationRun.status row
      rw [triggers, verdict]
      simp only [Machine.finishedTrigger, time]

/-! ## Keeping up -/

namespace Replica

/-- What happens between two machines books nothing. -/
structure Quiet (m m' : Machine) : Prop where
  events : ∃ added, m'.trace.events = m.trace.events ++ added ∧
    ∀ event ∈ added, skips event = true
  runs : m'.contract.automationRuns = m.contract.automationRuns
  triggers : m'.contract.balanceTriggers = m.contract.balanceTriggers
  sessions : m'.contract.sessionGrants = m.contract.sessionGrants
  proxies : m'.contract.proxyGrants = m.contract.proxyGrants

namespace Quiet

variable {m m₁ m' : Machine}

theorem of_events (events : m'.trace.events = m.trace.events)
    (runs : m'.contract.automationRuns = m.contract.automationRuns)
    (triggers : m'.contract.balanceTriggers = m.contract.balanceTriggers)
    (sessions : m'.contract.sessionGrants = m.contract.sessionGrants)
    (proxies : m'.contract.proxyGrants = m.contract.proxyGrants) : Quiet m m' where
  events := ⟨[], by rw [events, List.append_nil], fun _ inside => absurd inside List.not_mem_nil⟩
  runs := runs
  triggers := triggers
  sessions := sessions
  proxies := proxies

theorem refl (m : Machine) : Quiet m m := of_events rfl rfl rfl rfl rfl

theorem trans (first : Quiet m m₁) (second : Quiet m₁ m') : Quiet m m' where
  events := by
    obtain ⟨added, eq, skipped⟩ := first.events
    obtain ⟨added', eq', skipped'⟩ := second.events
    exact ⟨added ++ added', by rw [eq', eq, List.append_assoc],
      List.forall_mem_append.mpr ⟨skipped, skipped'⟩⟩
  runs := second.runs.trans first.runs
  triggers := second.triggers.trans first.triggers
  sessions := second.sessions.trans first.sessions
  proxies := second.proxies.trans first.proxies

theorem emit (m : Machine) {event : Event} (skipped : skips event = true) :
    Quiet m (m.emit event) where
  events := ⟨[event], m.emit_events event, List.forall_mem_singleton.mpr skipped⟩
  runs := rfl
  triggers := rfl
  sessions := rfl
  proxies := rfl

theorem upToDate (quiet : Quiet m m') : UpToDate m m' := by
  obtain ⟨added, events, skipped⟩ := quiet.events
  refine Follows.of_skipped events (fun event inside => read_of_skips (skipped event inside))
    fun r copies => ⟨copies.runs.trans quiet.runs.symm, ?_,
      copies.sessions.trans quiet.sessions.symm, copies.proxies.trans quiet.proxies.symm⟩
  rw [quiet.triggers]
  exact copies.triggers

theorem registerStep (env : Env) (m : Machine) (ns : String) (call : Step) :
    Quiet m (m.withRegistered env ns call) := by
  refine trans ?_ (emit _ rfl)
  exact of_events (Trace.events_snoc rfl) rfl rfl rfl rfl

theorem registerSteps {env : Env} {ns : String} {calls : List Step}
    (registered : m.registerSteps env ns calls = .ok m') : Quiet m m' := by
  induction calls generalizing m with
  | nil => exact Machine.registerSteps_nil.mp registered ▸ refl m
  | cons call calls ih =>
      exact (registerStep env m ns call).trans (ih (Machine.registerSteps_cons.mp registered).2)

theorem startSequenceRelease {ns : String} {order : List String} {n : Nat}
    (released : m.startSequenceReleaseInNamespace ns order = .ok (m', n)) : Quiet m m' := by
  obtain ⟨first, rest, resumed, -, -, -, woken, rfl, -⟩ := Machine.startSequenceRelease_ok released
  obtain ⟨yielded, waking, -, wakes, rfl⟩ := Machine.resumeRegisteredStep_ok.mp woken
  obtain ⟨thens, -, rfl⟩ := Machine.resumeYield_eq_some.mp wakes
  have queued : Quiet m (m.withQueued ns rest) := by
    unfold Machine.withQueued
    split <;> exact of_events rfl rfl rfl rfl rfl
  have marked : Quiet (m.withQueued ns rest) ((m.withQueued ns rest).note (.released ns order)) :=
    of_events (Trace.events_snoc rfl) rfl rfl rfl rfl
  refine ((queued.trans marked).trans ?_).trans (.emit _ rfl)
  exact of_events (Trace.events_snoc rfl) rfl rfl rfl rfl

end Quiet

/-- Of the events of a fate, only that of the closed run is booked. -/
theorem replay_tells {env : Env} {m : Machine} {ns stepId : String} {fate : Fate}
    {told : List Event} (tells : Machine.Tells env m ns stepId fate told) (r : Replica) :
    replay read r told = replay read r (m.closingEvents env ns (fate.verdict stepId)) := by
  cases tells with
  | passes => rfl
  | advances n createdAtMs latencyMs call => rfl
  | halts data about names plain => exact replay_append ..
  | stuck n createdAtMs latencyMs call data about names plain => exact replay_append ..
  | completes n createdAtMs latencyMs call => rfl
  | fails error createdAtMs latencyMs call => exact replay_append ..

/-- A run that is closed under its own name. -/
theorem Copies.closed {r : Replica} {m m' : Machine} {env : Env} {ns : String}
    {run : AutomationRun} {status : AutomationRunStatus} {failedStepId : Option String}
    (copies : Copies r m) (named : run.sequenceNamespace = ns)
    (runs : m'.contract.automationRuns = m.contract.automationRuns.insert ns
      (Machine.finishedRun env run status failedStepId))
    (triggers : m'.contract.balanceTriggers = m.contract.balanceTriggers.adjust run.triggerId
      fun trigger => Machine.finishedTrigger env trigger status)
    (sessions : m'.contract.sessionGrants = m.contract.sessionGrants)
    (proxies : m'.contract.proxyGrants = m.contract.proxyGrants) :
    Copies (r.read (.runFinished (Machine.runFinishedEvent env ns run status failedStepId)))
      m' where
  runs := by
    subst named
    rw [runs, ← copies.runs]
    rfl
  triggers := triggers ▸ copies.triggers.adjust _ _
  sessions := copies.sessions.trans sessions.symm
  proxies := copies.proxies.trans proxies.symm

/-- A verdict that closes a run is told. -/
theorem Copies.verdict {r : Replica} {m m' : Machine} {env : Env} {ns : String}
    {verdict : Option (AutomationRunStatus × Option String)} (copies : Copies r m)
    (reachable : m.Reachable) (aside : Undisturbed m m')
    (closed : Closed ns m.contract m'.contract)
    (runs : m'.contract.automationRuns = m.runsAfter env ns verdict)
    (closing : ∀ status failedStepId, verdict = some (status, failedStepId) →
      status ≠ .inFlight) :
    Copies (replay read r (m.closingEvents env ns verdict)) m' := by
  have kept : m'.contract.automationRuns = m.contract.automationRuns → Copies r m' := by
    intro same
    exact ⟨copies.runs.trans same.symm, closed.of_kept same ▸ copies.triggers,
      copies.sessions.trans aside.sessionGrants.symm, copies.proxies.trans aside.proxyGrants.symm⟩
  cases verdict with
  | none => exact kept runs
  | some verdict =>
      obtain ⟨status, failedStepId⟩ := verdict
      cases running : m.running ns with
      | none =>
          simp only [Machine.runsAfter, running] at runs
          simp only [Machine.closingEvents, running]
          exact kept runs
      | some run =>
          obtain ⟨rows, triggers⟩ := closed.of_verdict running (closing _ _ rfl) runs
          have stored := (Option.filter_eq_some_iff.mp running).1
          simp only [Machine.closingEvents, running]
          exact copies.closed (reachable.ledger.named ns run stored).2 rows triggers
            aside.sessionGrants aside.proxyGrants

/-- A delivery tells of the run it closes. -/
theorem UpToDate.deliver {m : Machine} (reachable : m.Reachable) (env : Env) (id : Nat)
    (answer : PromiseResult) : UpToDate m (m.deliver env id answer) := by
  cases due : m.due id answer with
  | none =>
      rw [Machine.deliver_idle due]
      exact .refl m
  | some delivered =>
      obtain ⟨callback, result⟩ := delivered
      have fallen := @Machine.deliver_fallen env m id answer callback result due
      have closed := @Machine.deliver_closed env m id answer callback result due
      have aside := Undisturbed.deliver env m id answer
      obtain ⟨remarks, told, events, quiet, tells⟩ := fallen.events
      refine ⟨remarks ++ told, events, fun r copies => ?_⟩
      have skipped : replay read r remarks = r := replay_of_skipped (fun event inside =>
        read_of_skips (skips_of_remark (quiet event inside).1)) r
      rw [replay_append, skipped, replay_tells tells]
      refine copies.verdict reachable aside closed fallen.runs ?_
      exact fun status failedStepId closes => Machine.fate_closing closes

/-- The session of a fire counts it. -/
theorem UpToDate.mayFire {env : Env} {m m' : Machine} {triggerId : String}
    (authorized : Machine.MayFire env m triggerId m') : UpToDate m m' := by
  cases authorized with
  | executor absent executor => exact .refl m
  | session stored inTime left allowed =>
      refine ⟨[_], m.emit_events _, fun r copies => ⟨copies.runs, copies.triggers, ?_,
        copies.proxies⟩⟩
      rw [← copies.sessions] at stored
      refine (IterableMap.adjust_of_get stored _).trans ?_
      rw [copies.sessions]
      rfl

/-- `trigger_fired` tells both writes of a fire. -/
theorem UpToDate.executeTrigger {env : Env} {m m' : Machine} {triggerId : String}
    {execution : Machine.TriggerExecution}
    (ran : m.executeTrigger env triggerId = .ok (m', execution)) :
    UpToDate m m' := by
  simp only [Machine.executeTrigger, bind_eq_ok, expect_eq_ok] at ran
  obtain ⟨m₁, authorized, trigger, -, template, -, -, checked, m₂, registered,
    ⟨m₃, n⟩, released, eq⟩ := ran
  cases eq
  refine Follows.trans (UpToDate.mayFire (Machine.authorizeFire_ok authorized))
    (Follows.trans (Quiet.registerSteps registered).upToDate ?_)
  have quiet := Quiet.startSequenceRelease released
  obtain ⟨added, events, skipped⟩ := quiet.events
  refine ⟨.triggerFired (Machine.triggerFiredEvent env triggerId
    (automationNamespace triggerId (trigger.runsStarted + 1)) (trigger.runsStarted + 1) trigger
      template) :: added, ?_, fun r copies => ?_⟩
  · show m₃.trace.events = _
    rw [events, Machine.emit_events, List.append_assoc]
    rfl
  · rw [replay_cons, replay_of_skipped fun event inside => read_of_skips (skipped event inside)]
    constructor
    · show r.runs.insert _ _ = m₃.contract.automationRuns.insert _ _
      rw [quiet.runs]
      show _ = m₂.contract.automationRuns.insert _ _
      rw [← copies.runs]
      rfl
    · show (m₃.contract.balanceTriggers.insert _ _).Within (r.triggers.insert _ _)
      rw [quiet.triggers]
      exact copies.triggers.insert _ _
    · exact copies.sessions.trans quiet.sessions.symm
    · exact copies.proxies.trans quiet.proxies.symm

theorem UpToDate.revokeExpiredSession (env : Env) (m : Machine) (pk : String) :
    UpToDate m (m.revokeExpiredSession env pk) := by
  have contract := (m.revokeExpiredSession_eq env pk).2.1
  refine ⟨[.sessionRevoked pk "expired_or_exhausted"], ?_, fun r copies => ?_⟩
  · refine (Machine.emit_events ..).trans (congrArg (· ++ _) ?_)
    split
    · rw [Machine.buildSessionDeleteKeyPromise, Machine.deleteKeyPromise_eq]
      rfl
    · rfl
  · constructor
    · exact contract ▸ copies.runs
    · exact contract ▸ copies.triggers
    · rw [contract]
      exact congrArg (fun grants : IterableMap String SessionGrant => grants.remove pk)
        copies.sessions
    · exact contract ▸ copies.proxies

theorem UpToDate.revokeExpiredProxyKey (env : Env) (m : Machine) (pk : String) :
    UpToDate m (m.revokeExpiredProxyKey env pk) := by
  have contract := (m.revokeExpiredProxyKey_eq env pk).2.1
  refine ⟨[.proxyKeyRevoked pk "expired_or_exhausted"], ?_, fun r copies => ?_⟩
  · refine (Machine.emit_events ..).trans (congrArg (· ++ _) ?_)
    split
    · rw [Machine.buildProxyDeleteKeyPromise, Machine.deleteKeyPromise_eq]
      rfl
    · rfl
  · constructor
    · exact contract ▸ copies.runs
    · exact contract ▸ copies.triggers
    · exact contract ▸ copies.sessions
    · rw [contract]
      exact congrArg (fun grants : IterableMap String ProxyGrant => grants.remove pk)
        copies.proxies

theorem UpToDate.pruneFinishedAutomationRuns (m : Machine) :
    UpToDate m m.pruneFinishedAutomationRuns.1 := by
  unfold Machine.pruneFinishedAutomationRuns
  simp only
  split
  · exact .refl m
  · refine ⟨[_], Machine.emit_events .., fun r copies => ⟨?_, copies.triggers, copies.sessions,
      copies.proxies⟩⟩
    exact congrArg (fun rows : IterableMap String AutomationRun => rows.removeAll _) copies.runs

/-- The manual calls register and release. -/
theorem Quiet.manual {env : Env} {m m' : Machine} {method : PublicCall}
    (called : m.call env method = .ok m')
    (manual : (∃ steps, method = .executeSteps steps) ∨ (∃ input, method = .registerStep input) ∨
      ∃ callerId order, method = .runSequence callerId order) : Quiet m m' := by
  simp only [Machine.call, bind_eq_ok, require_eq_ok] at called
  obtain ⟨_, _, ran⟩ := called
  rcases manual with ⟨steps, rfl⟩ | ⟨input, rfl⟩ | ⟨callerId, order, rfl⟩
  · simp only [Machine.execute, map_fst_eq_ok, Machine.executeSteps, bind_eq_ok] at ran
    obtain ⟨n, _, _, _, _, _, _, m₁, looped, released⟩ := ran
    exact (registerSteps (Machine.registerInputs_ok looped).1).trans
      (startSequenceRelease released)
  · simp only [Machine.execute, Machine.registerStep, bind_eq_ok, stepFromRaw_eq_ok] at ran
    obtain ⟨_, ⟨valid, rfl⟩, registered⟩ := ran
    obtain ⟨absent, rfl⟩ := Machine.registerStepInNamespace_ok.mp registered
    exact registerStep ..
  · simp only [Machine.execute, map_fst_eq_ok, Machine.runSequence, bind_eq_ok] at ran
    obtain ⟨n, _, _, released⟩ := ran
    exact startSequenceRelease released

theorem UpToDate.of_settings {m m' : Machine} (events : m'.trace.events = m.trace.events)
    (runs : m'.contract.automationRuns = m.contract.automationRuns)
    (triggers : m'.contract.balanceTriggers = m.contract.balanceTriggers)
    (sessions : m'.contract.sessionGrants = m.contract.sessionGrants)
    (proxies : m'.contract.proxyGrants = m.contract.proxyGrants) : UpToDate m m' :=
  (Quiet.of_events events runs triggers sessions proxies).upToDate

/-- An accepted call tells what it books. -/
theorem UpToDate.call {env : Env} {m m' : Machine} {method : PublicCall}
    (called : m.call env method = .ok m') : UpToDate m m' := by
  cases Machine.Effect.of_call called with
  | executeSteps executor sequencing => exact (Quiet.manual called (.inl ⟨_, rfl⟩)).upToDate
  | registerStep sequencing => exact (Quiet.manual called (.inr (.inl ⟨_, rfl⟩))).upToDate
  | runSequence executor sequencing =>
      exact (Quiet.manual called (.inr (.inr ⟨_, _, rfl⟩))).upToDate
  | executeTrigger authorized stored undisturbed books contexts execution ran =>
      exact executeTrigger ran
  | pruneFinishedAutomationRuns => exact pruneFinishedAutomationRuns m
  | revokeExpiredSessions => exact Follows.foldl (UpToDate.revokeExpiredSession env) _ m
  | revokeExpiredProxyKeys => exact Follows.foldl (UpToDate.revokeExpiredProxyKey env) _ m
  | createBalanceTrigger template owner absent =>
      exact ⟨[_], Machine.emit_events .., fun r copies => ⟨copies.runs,
        copies.triggers.insert _ _, copies.sessions, copies.proxies⟩⟩
  | deleteBalanceTrigger owner =>
      exact ⟨[], (List.append_nil _).symm, fun r copies => ⟨copies.runs,
        copies.triggers.remove _, copies.sessions, copies.proxies⟩⟩
  | enrollSession attached owner known funded =>
      refine ⟨[_], Machine.emit_events .., fun r copies => ⟨copies.runs, copies.triggers, ?_,
        copies.proxies⟩⟩
      exact congrArg (fun grants : IterableMap String SessionGrant => grants.insert _ _)
        copies.sessions
  | revokeSession owner stored known =>
      refine ⟨[_], Machine.emit_events .., fun r copies => ⟨copies.runs, copies.triggers, ?_,
        copies.proxies⟩⟩
      exact congrArg (fun grants : IterableMap String SessionGrant => grants.remove _)
        copies.sessions
  | enrollProxyKey attached owner known funded =>
      refine ⟨[_], Machine.emit_events .., fun r copies => ⟨copies.runs, copies.triggers,
        copies.sessions, ?_⟩⟩
      exact congrArg (fun grants : IterableMap String ProxyGrant => grants.insert _ _)
        copies.proxies
  | proxyCall stored inTime left aimed permitted =>
      refine ⟨[_], Machine.emit_events .., fun r copies => ⟨copies.runs, copies.triggers,
        copies.sessions, ?_⟩⟩
      rw [← copies.proxies] at stored
      refine (IterableMap.adjust_of_get stored _).trans ?_
      rw [copies.proxies]
      rfl
  | revokeProxyKey owner stored known =>
      refine ⟨[_], Machine.emit_events .., fun r copies => ⟨copies.runs, copies.triggers,
        copies.sessions, ?_⟩⟩
      exact congrArg (fun grants : IterableMap String ProxyGrant => grants.remove _)
        copies.proxies
  | setAuthorizer owner => exact of_settings rfl rfl rfl rfl rfl
  | setAuthorizedExecutor owner => exact of_settings rfl rfl rfl rfl rfl
  | saveSequenceTemplate template owner => exact of_settings rfl rfl rfl rfl rfl
  | deleteSequenceTemplate owner => exact of_settings rfl rfl rfl rfl rfl

/-- Every operation tells what it books. -/
theorem UpToDate.step {m : Machine} (reachable : m.Reachable) (op : Op) :
    UpToDate m (m.step op) := by
  cases op with
  | transact env method =>
      cases called : m.call env method with
      | error message =>
          rw [Machine.step_refused called]
          exact .refl m
      | ok m' =>
          rw [Machine.step_transact called]
          exact .call called
  | timeout id =>
      refine UpToDate.of_settings ?_ ?_ ?_ ?_ ?_ <;>
        simp only [Machine.step, Machine.timeout_trace, Machine.timeout_contract]
  | abort id answer =>
      refine UpToDate.of_settings ?_ ?_ ?_ ?_ ?_ <;>
        simp only [Machine.step, Machine.abort_events, Machine.abort_contract]
  | deliver env id answer => exact .deliver reachable env id answer

/-- So does every run, from any reachable state on. -/
theorem UpToDate.run {m : Machine} (reachable : m.Reachable) (ops : List Op) :
    UpToDate m (m.run ops) := by
  induction ops generalizing m with
  | nil => exact .refl m
  | cons op ops ih =>
      exact Follows.trans (UpToDate.step reachable op) (ih (reachable.run [op]))

end Replica

end SmartAccount
