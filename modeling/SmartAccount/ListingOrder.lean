import SmartAccount.Fates
import SmartAccount.Foundation.SwapOrder
import SmartAccount.KeySeparation
import SmartAccount.RunNamespaces
import SmartAccount.StartEvents

/-!
# The order of listings

`registered_steps_for` and `list_automation_runs` list what they iterate over.  New entries
come last, but a removed entry leaves its place to the last one, so a listing is in the order
of registrations, or of fires, as long as no removal lets a listed entry jump over another one
(`run_lists_in_order`).
-/

namespace SmartAccount

open Foundation

/-! ## Views -/

/-- `RegisteredStepView`: the fields of the call and the time of registration. -/
structure RegisteredStepView extends Step where
  createdAtMs : Nat
deriving DecidableEq

def registeredStepView (yielded : RegisteredStep) : RegisteredStepView :=
  { yielded.call with createdAtMs := yielded.createdAtMs }

structure AutomationRunView where
  sequenceNamespace : String
  triggerId : String
  sequenceId : String
  runNonce : Nat
  executorId : AccountId
  startedAtMs : Nat
  finishedAtMs : Option Nat
  status : AutomationRunStatus
  failedStepId : Option String
  durationMs : Option Nat
deriving DecidableEq

def automationRunView (ns : String) (run : AutomationRun) : AutomationRunView where
  sequenceNamespace := ns
  triggerId := run.triggerId
  sequenceId := run.sequenceId
  runNonce := run.runNonce
  executorId := run.executorId
  startedAtMs := run.startedAtMs
  finishedAtMs := run.finishedAtMs
  status := run.status
  failedStepId := run.failedStepId
  durationMs := run.finishedAtMs.map fun finished => finished - run.startedAtMs

namespace Contract

/-- `registered_steps_for`. -/
def registeredStepsFor (c : Contract) (callerId : AccountId) : List RegisteredStepView :=
  (c.registeredStepsForNamespace (manualNamespace callerId)).map fun entry =>
    registeredStepView entry.2

/-- `list_automation_runs`. -/
def listAutomationRuns (c : Contract) (fromIndex limit : Nat) : List AutomationRunView :=
  ((c.automationRuns.entries.drop fromIndex).take (min limit 100)).map fun entry =>
    automationRunView entry.1 entry.2

end Contract

/-! ## The log of registrations -/

/-- The keys registered so far, oldest first. -/
def Trace.registeredKeys (t : Trace) : List String :=
  t.filterMap fun
    | .registered ns _ call _ => some (registeredStepKey ns call.stepId)
    | _ => none

theorem Trace.registeredKeys_append (t t' : Trace) :
    Trace.registeredKeys (t ++ t') = t.registeredKeys ++ t'.registeredKeys :=
  List.filterMap_append ..

/-- The ids of the steps registered in the namespace, oldest first. -/
def Trace.registrations (t : Trace) (ns : String) : List String :=
  t.filterMap fun
    | .registered ns' _ call _ => if ns' = ns then some call.stepId else none
    | _ => none

namespace Machine

theorem note_registeredKeys (m : Machine) {event : TraceEvent}
    (plain : event.isRegistered = false) :
    (m.note event).trace.registeredKeys = m.trace.registeredKeys := by
  show Trace.registeredKeys (m.trace ++ [event]) = _
  rw [Trace.registeredKeys_append]
  cases event with
  | registered ns id call gas => cases plain
  | _ => exact List.append_nil _

theorem writes_registeredKeys {ns : String} {m m' : Machine} (writes : Writes ns m m') :
    m'.trace.registeredKeys = m.trace.registeredKeys := by
  induction writes with
  | refl => rfl
  | tail _ write ih =>
      refine Eq.trans ?_ ih
      cases write with
      | note event about plain => exact note_registeredKeys _ plain
      | resume stored resumed =>
          obtain ⟨thens, -, rfl⟩ := resumeYield_eq_some.mp resumed
          rfl
      | _ => rfl

theorem emits_registeredKeys (events : List Event) (m : Machine) :
    (events.foldl emit m).trace.registeredKeys = m.trace.registeredKeys := by
  induction events generalizing m with
  | nil => rfl
  | cons event events ih => exact (ih (m.emit event)).trans (m.note_registeredKeys rfl)

/-- A delivery registers nothing. -/
theorem deliver_registeredKeys (env : Env) (m : Machine) (id : Nat) (answer : PromiseResult) :
    (m.deliver env id answer).trace.registeredKeys = m.trace.registeredKeys := by
  have begins : ∀ callback result, (m.begun id callback result).trace.registeredKeys =
      m.trace.registeredKeys := fun callback result => note_registeredKeys _ rfl
  rcases m.deliver_cases env id answer with idle | ⟨head, t, rest, result, -, -, delivered⟩
  · rw [idle]
  · rw [delivered]
    unfold runThen
    split
    · rename_i panic _
      exact (emits_registeredKeys _ _).trans (note_registeredKeys _ rfl)
    · rename_i m' bytes went
      obtain ⟨ran, -⟩ := attempt_ok.mp went
      exact (writes_registeredKeys (Writes.runCallback ran)).trans (begins _ _)
    · rename_i m' p went
      obtain ⟨ran, -⟩ := attempt_ok.mp went
      refine (note_registeredKeys _ rfl).trans ?_
      exact (writes_registeredKeys (Writes.runCallback ran)).trans (begins _ _)

/-! ## Registered steps in order -/

/-- The registered steps of a listing are in the order of their latest registrations. -/
def StepsInOrder (listed : String → Bool) (m : Machine) : Prop :=
  IterableMap.InOrder listed m.trace.registeredKeys m.contract.registeredSteps

variable {listed : String → Bool}

theorem StepsInOrder.of_same {m m' : Machine} (inOrder : StepsInOrder listed m)
    (steps : m'.contract.registeredSteps = m.contract.registeredSteps)
    (log : m'.trace.registeredKeys = m.trace.registeredKeys) : StepsInOrder listed m' := by
  rw [StepsInOrder, steps, log]
  exact inOrder

theorem StepsInOrder.withRegistered {m : Machine} (inOrder : StepsInOrder listed m) {env : Env}
    {ns : String} {call : Step} (absent : m.getStep ns call.stepId = none) :
    StepsInOrder listed (m.withRegistered env ns call) := by
  have fresh : registeredStepKey ns call.stepId ∉ m.contract.registeredSteps.keys :=
    fun inside => IterableMap.mem_keys_iff.mp inside absent
  have log : (m.withRegistered env ns call).trace.registeredKeys =
      m.trace.registeredKeys ++ [registeredStepKey ns call.stepId] := by
    show Trace.registeredKeys ((m.trace ++ [_]) ++ [_]) = _
    rw [Trace.registeredKeys_append, Trace.registeredKeys_append]
    exact List.append_nil _
  rw [StepsInOrder, log]
  exact inOrder.append ⟨m.pool.next, call, env.now⟩ fresh

theorem StepsInOrder.registerSteps {env : Env} {m m' : Machine} {ns : String} {calls : List Step}
    (inOrder : StepsInOrder listed m) (registered : m.registerSteps env ns calls = .ok m') :
    StepsInOrder listed m' := by
  induction calls generalizing m with
  | nil =>
      obtain rfl := registerSteps_nil.mp registered
      exact inOrder
  | cons call calls ih =>
      obtain ⟨absent, rest⟩ := registerSteps_cons.mp registered
      exact ih (inOrder.withRegistered absent) rest

/-- A release stores no step and no run. -/
theorem startSequenceRelease_kept {m m' : Machine} {ns : String} {order : List String} {n : Nat}
    (released : m.startSequenceReleaseInNamespace ns order = .ok (m', n)) :
    m'.contract.registeredSteps = m.contract.registeredSteps ∧
      m'.contract.automationRuns = m.contract.automationRuns := by
  obtain ⟨first, rest, resumed, -, -, -, woken, rfl, -⟩ := startSequenceRelease_ok released
  obtain ⟨-, same⟩ := resumeRegisteredStep_startNotices woken
  have queued : (m.withQueued ns rest).contract.registeredSteps = m.contract.registeredSteps ∧
      (m.withQueued ns rest).contract.automationRuns = m.contract.automationRuns := by
    unfold withQueued
    split <;> exact ⟨rfl, rfl⟩
  exact ⟨(congrArg ContractOf.registeredSteps same).trans queued.1,
    (congrArg ContractOf.automationRuns same).trans queued.2⟩

theorem StepsInOrder.release {m m' : Machine} {ns : String} {order : List String} {n : Nat}
    (inOrder : StepsInOrder listed m)
    (released : m.startSequenceReleaseInNamespace ns order = .ok (m', n)) :
    StepsInOrder listed m' :=
  inOrder.of_same (startSequenceRelease_kept released).1
    (writes_registeredKeys (startSequenceRelease_writes released))

theorem StepsInOrder.aside {m m' : Machine} (inOrder : StepsInOrder listed m)
    (aside : Aside m m') : StepsInOrder listed m' := by
  refine inOrder.of_same aside.registeredSteps ?_
  obtain ⟨events, -, trace⟩ := aside.trace
  rw [trace, Trace.registeredKeys_append, List.append_right_eq_self]
  refine List.filterMap_eq_nil_iff.mpr fun event inside => ?_
  obtain ⟨emitted, -, rfl⟩ := List.mem_map.mp inside
  rfl

/-- New steps come last, and no call removes one. -/
theorem StepsInOrder.accepted {env : Env} {m m' : Machine} (inOrder : StepsInOrder listed m)
    (accepted : Accepted env m m') : StepsInOrder listed m' := by
  cases accepted with
  | aside aside edit => exact inOrder.aside aside
  | pruned =>
      unfold pruneFinishedAutomationRuns
      simp only
      split
      · exact inOrder
      · exact inOrder.of_same rfl (note_registeredKeys _ rfl)
  | registered caller call valid registered =>
      obtain ⟨absent, rfl⟩ := registerStepInNamespace_ok.mp registered
      exact inOrder.withRegistered absent
  | released caller calls order valid registered released =>
      exact (inOrder.registerSteps registered).release released
  | fired triggerId authorized stored known checked registered released =>
      have fired := (inOrder.aside (authorizeFire_aside authorized).1).registerSteps registered
      refine StepsInOrder.of_same (StepsInOrder.release ?_ released) rfl rfl
      exact fired.of_same rfl (note_registeredKeys _ rfl)

/-! ## Removed steps -/

/-- The keys that a fate removes, one after the other. -/
def fateRemovals (m : Machine) (ns stepId : String) : Fate → List String
  | .passes => []
  | .advances _ => [registeredStepKey ns stepId]
  | _ =>
      registeredStepKey ns stepId ::
        if (m.running ns).isSome then keysUnder (m.dropped ns stepId) ns else []

theorem stepsAfter_eq (m : Machine) (ns stepId : String) (fate : Fate) :
    m.stepsAfter ns stepId fate =
      m.contract.registeredSteps.removeAll (m.fateRemovals ns stepId fate) := by
  have closing : m.cleaned ns (m.dropped ns stepId) = m.contract.registeredSteps.removeAll
      (registeredStepKey ns stepId ::
        if (m.running ns).isSome then keysUnder (m.dropped ns stepId) ns else []) := by
    unfold cleaned
    split <;> rfl
  cases fate with
  | passes => rfl
  | advances next => rfl
  | _ => exact closing

/-- The keys that an operation removes from `registered_steps`, one after the other. -/
def removedSteps (m : Machine) : Op → List String
  | .deliver _ id answer =>
      match m.due id answer with
      | some (callback, result) =>
          m.fateRemovals callback.sequenceNamespace callback.stepId (m.fate callback result)
      | none => []
  | _ => []

/-- No removal of the operation lets a step of the caller that stays jump over another. -/
def StepsStay (callerId : AccountId) (m : Machine) (op : Op) : Prop :=
  IterableMap.JumpFree
    (fun key => startsWith key (manualNamespace callerId ++ "#") && key ∉ m.removedSteps op)
    m.contract.registeredSteps (m.removedSteps op)

theorem StepsInOrder.step {callerId : AccountId} {m : Machine}
    (inOrder : StepsInOrder (startsWith · (manualNamespace callerId ++ "#")) m) {op : Op}
    (stay : m.StepsStay callerId op) :
    StepsInOrder (startsWith · (manualNamespace callerId ++ "#")) (m.step op) := by
  cases op with
  | timeout id =>
      show StepsInOrder _ (m.timeout id)
      unfold timeout
      split
      · exact inOrder.of_same rfl rfl
      · exact inOrder
  | abort id answer =>
      refine inOrder.of_same ?_ ?_
      · exact congrArg (fun c : Contract => c.registeredSteps) (m.abort_contract id answer)
      · rcases m.abort_trace id answer with same | ⟨callback, result, noted⟩
        · exact congrArg Trace.registeredKeys same
        · refine (congrArg Trace.registeredKeys noted).trans ?_
          rw [Trace.registeredKeys_append]
          exact List.append_nil _
  | transact env method =>
      cases called : m.call env method with
      | error message =>
          rw [step_refused called]
          exact inOrder
      | ok m' =>
          rw [step_transact called]
          exact inOrder.accepted (.of_call called)
  | deliver env id answer =>
      have kept := inOrder.removeAll stay
      rw [StepsInOrder]
      show IterableMap.InOrder _ (m.deliver env id answer).trace.registeredKeys _
      rw [deliver_registeredKeys]
      cases due : m.due id answer with
      | none =>
          show IterableMap.InOrder _ _ (m.deliver env id answer).contract.registeredSteps
          rw [deliver_idle due]
          exact inOrder
      | some delivered =>
          obtain ⟨callback, result⟩ := delivered
          simp only [removedSteps, due] at kept
          show IterableMap.InOrder _ _ (m.deliver env id answer).contract.registeredSteps
          rw [(deliver_fallen due).steps, stepsAfter_eq]
          exact kept

/-! ## Runs in order -/

/-- The runs are in the order of the fires, each at the latest one into its namespace. -/
def RunsInOrder (fired : List String) (m : Machine) : Prop :=
  IterableMap.InOrder (fun _ => true) fired m.contract.automationRuns

/-- The rows that an operation prunes, one after the other. -/
def prunedRuns (m : Machine) : Op → List String
  | .transact env .pruneFinishedAutomationRuns =>
      if env.attachedDeposit = 0 then terminalRuns m.contract else []
  | _ => []

/-- No row that the operation prunes lets a row that stays jump over another. -/
def RunsStay (m : Machine) (op : Op) : Prop :=
  IterableMap.JumpFree (fun ns => ns ∉ m.prunedRuns op) m.contract.automationRuns
    (m.prunedRuns op)

theorem registerSteps_runs {env : Env} {m m' : Machine} {ns : String} {calls : List Step}
    (registered : m.registerSteps env ns calls = .ok m') :
    m'.contract.automationRuns = m.contract.automationRuns :=
  (registerSteps_startNotices registered).2

/-- The manual calls leave the runs alone. -/
theorem manual_runs {env : Env} {m m' : Machine} {method : PublicCall}
    (called : m.call env method = .ok m')
    (manual : (∃ steps, method = .executeSteps steps) ∨ (∃ input, method = .registerStep input) ∨
      ∃ callerId order, method = .runSequence callerId order) :
    m'.contract.automationRuns = m.contract.automationRuns := by
  simp only [call, bind_eq_ok, require_eq_ok] at called
  obtain ⟨_, _, ran⟩ := called
  rcases manual with ⟨steps, rfl⟩ | ⟨input, rfl⟩ | ⟨callerId, order, rfl⟩
  · simp only [execute, map_fst_eq_ok, executeSteps, bind_eq_ok] at ran
    obtain ⟨n, _, _, _, _, _, _, m₁, looped, released⟩ := ran
    exact (startSequenceRelease_kept released).2.trans
      (registerSteps_runs (registerInputs_ok looped).1)
  · simp only [execute, registerStep, bind_eq_ok, stepFromRaw_eq_ok] at ran
    obtain ⟨_, ⟨valid, rfl⟩, registered⟩ := ran
    obtain ⟨absent, rfl⟩ := registerStepInNamespace_ok.mp registered
    rfl
  · simp only [execute, map_fst_eq_ok, runSequence, bind_eq_ok] at ran
    obtain ⟨n, _, _, released⟩ := ran
    exact (startSequenceRelease_kept released).2

/-- A fire stores one new row. -/
theorem executeTrigger_runs {env : Env} {m m' : Machine} {triggerId : String}
    {execution : TriggerExecution}
    (ran : m.executeTrigger env triggerId = .ok (m', execution)) :
    m.contract.automationRuns.get execution.sequenceNamespace = none ∧
      ∃ run, m'.contract.automationRuns =
        m.contract.automationRuns.insert execution.sequenceNamespace run := by
  simp only [executeTrigger, bind_eq_ok, expect_eq_ok] at ran
  obtain ⟨m₁, authorized, trigger, -, template, -, _, checked, m₂, registered,
    ⟨m₃, n⟩, released, eq⟩ := ran
  cases eq
  have aside := (authorizeFire_aside authorized).1
  have absent := checkTrigger_absent checked
  rw [aside.automationRuns] at absent
  have runs : m₃.contract.automationRuns = m.contract.automationRuns :=
    (startSequenceRelease_kept released).2.trans
      ((registerSteps_runs registered).trans aside.automationRuns)
  exact ⟨absent, startedRun env triggerId trigger.sequenceId _ _, by
    rw [← runs]
    rfl⟩

/-- A verdict on a run leaves its row in its place. -/
theorem runsAfter_keys (env : Env) (m : Machine) (ns : String)
    (verdict : Option (AutomationRunStatus × Option String)) :
    (m.runsAfter env ns verdict).keys = m.contract.automationRuns.keys := by
  unfold runsAfter
  split
  · rename_i status failedStepId run inFlight
    refine IterableMap.keys_insert_known _ (IterableMap.mem_keys_iff.mpr ?_)
    obtain ⟨stored, -⟩ := Option.filter_eq_some_iff.mp inFlight
    rw [stored]
    exact Option.some_ne_none _
  · rfl

theorem RunsInOrder.of_same {fired : List String} {m m' : Machine}
    (inOrder : RunsInOrder fired m)
    (runs : m'.contract.automationRuns.keys = m.contract.automationRuns.keys) :
    RunsInOrder fired m' :=
  IterableMap.InOrder.of_keys inOrder runs

theorem RunsInOrder.step {fired : List String} {m : Machine} (inOrder : RunsInOrder fired m)
    {op : Op} (stay : m.RunsStay op) :
    RunsInOrder (fired ++ ((op.fires m).toList.map TriggerExecution.sequenceNamespace))
      (m.step op) := by
  cases op with
  | timeout id =>
      refine (List.append_nil fired).symm ▸ inOrder.of_same ?_
      exact congrArg (fun c : Contract => c.automationRuns.keys) (m.timeout_contract id)
  | abort id answer =>
      refine (List.append_nil fired).symm ▸ inOrder.of_same ?_
      exact congrArg (fun c : Contract => c.automationRuns.keys) (m.abort_contract id answer)
  | deliver env id answer =>
      refine (List.append_nil fired).symm ▸ inOrder.of_same ?_
      show (m.deliver env id answer).contract.automationRuns.keys = _
      cases due : m.due id answer with
      | none => rw [deliver_idle due]
      | some delivered => rw [(deliver_fallen due).runs, runsAfter_keys]
  | transact env method =>
      cases called : m.call env method with
      | error message =>
          rw [step_refused called, fires_of_error called]
          exact (List.append_nil fired).symm ▸ inOrder
      | ok m' =>
          rw [step_transact called]
          have unfired : (Op.transact env method).fires m = none →
              m'.contract.automationRuns = m.contract.automationRuns →
              RunsInOrder (fired ++ (((Op.transact env method).fires m).toList.map
                TriggerExecution.sequenceNamespace)) m' := by
            intro idle runs
            rw [idle]
            exact (List.append_nil fired).symm ▸ inOrder.of_same (congrArg IterableMap.keys runs)
          cases Effect.of_call called with
          | executeTrigger authorized stored undisturbed books contexts execution ran about =>
              obtain ⟨absent, run, runs⟩ := executeTrigger_runs ran
              rw [fires_executeTrigger called ran, RunsInOrder, runs]
              exact inOrder.append run fun inside => IterableMap.mem_keys_iff.mp inside absent
          | pruneFinishedAutomationRuns =>
              obtain ⟨_, free, _⟩ := bind_eq_ok.mp called
              have kept := inOrder.removeAll stay
              simp only [prunedRuns, of_decide_eq_true (require_eq_ok.mp free), if_pos] at kept
              refine (List.append_nil fired).symm ▸ ?_
              rw [RunsInOrder, (pruneFinishedAutomationRuns_eq m).2.1]
              exact kept
          | executeSteps => exact unfired rfl (manual_runs called (.inl ⟨_, rfl⟩))
          | registerStep => exact unfired rfl (manual_runs called (.inr (.inl ⟨_, rfl⟩)))
          | runSequence => exact unfired rfl (manual_runs called (.inr (.inr ⟨_, _, rfl⟩)))
          | revokeExpiredSessions =>
              exact unfired rfl (by rw [(revokeExpiredSessions_eq env m).2.1])
          | revokeExpiredProxyKeys =>
              exact unfired rfl (by rw [(revokeExpiredProxyKeys_eq env m).2.1])
          | _ => exact unfired rfl rfl

/-! ## Listings of a run -/

/-- The caller's steps are listed in the order of their registrations, and the runs in the
order of their fires. -/
structure ListsInOrder (m : Machine) (callerId : AccountId) (fired : List TriggerExecution) :
    Prop where
  steps : (m.contract.registeredStepsFor callerId).map (fun view => view.stepId) =
    (m.trace.registrations (manualNamespace callerId)).dedup.filter fun stepId =>
      (m.getStep (manualNamespace callerId) stepId).isSome
  runs : ∀ fromIndex limit,
    (m.contract.listAutomationRuns fromIndex limit).map AutomationRunView.sequenceNamespace =
      ((((fired.map TriggerExecution.sequenceNamespace).dedup.filter fun ns =>
        (m.contract.automationRuns.get ns).isSome).drop fromIndex).take (min limit 100))

/-- What the listing of a caller's steps shows are the keys with the prefix of the caller. -/
theorem listed_keys {m : Machine} (wf : Wf m) (callerId : AccountId) :
    ((m.contract.registeredStepsFor callerId).map fun view => view.stepId).map
        (registeredStepKey (manualNamespace callerId)) =
      m.contract.registeredSteps.keys.filter
        (startsWith · (manualNamespace callerId ++ "#")) := by
  rw [Contract.registeredStepsFor, Contract.registeredStepsForNamespace, List.map_map,
    List.map_map, IterableMap.keys, List.filter_map]
  refine List.map_congr_left fun entry inside => ?_
  obtain ⟨inside, shown⟩ := List.mem_filter.mp inside
  obtain ⟨ns, gas, member, key⟩ := wf.stored _ _ (IterableMap.get_eq_some_iff.mpr inside)
  obtain ⟨stepId, prefixed⟩ := startsWith_namespace_iff.mp shown
  have same : ns = manualNamespace callerId := by
    by_contra other
    have separate := IsManual.separate ⟨callerId, rfl⟩ other (wf.created _ _ _ _ member)
    exact separate stepId _ (prefixed.symm.trans key)
  exact (key.trans (congrArg (registeredStepKey · _) same)).symm

/-- The keys registered with the prefix of a caller are those of the caller's namespace. -/
theorem registered_keys {m : Machine} (wf : Wf m) (callerId : AccountId) :
    m.trace.registeredKeys.filter (startsWith · (manualNamespace callerId ++ "#")) =
      (m.trace.registrations (manualNamespace callerId)).map
        (registeredStepKey (manualNamespace callerId)) := by
  rw [Trace.registeredKeys, Trace.registrations, List.filter_filterMap, List.map_filterMap]
  refine List.filterMap_congr fun event member => ?_
  cases event with
  | registered ns id call gas =>
      show Option.filter _ (some _) = Option.map _ (if ns = manualNamespace callerId then _ else _)
      by_cases same : ns = manualNamespace callerId
      · subst same
        rw [if_pos rfl, Option.filter_some, startsWith_namespace_iff.mpr ⟨_, rfl⟩]
        rfl
      · rw [if_neg same, Option.filter_some, if_neg]
        · rfl
        · intro shown
          obtain ⟨stepId, prefixed⟩ := startsWith_namespace_iff.mp shown
          have separate := IsManual.separate ⟨callerId, rfl⟩ same (wf.created _ _ _ _ member)
          exact separate stepId _ prefixed.symm
  | _ => rfl

/-- Steps in order are listed in order. -/
theorem StepsInOrder.shows {callerId : AccountId} {m : Machine} (wf : Wf m)
    (inOrder : StepsInOrder (startsWith · (manualNamespace callerId ++ "#")) m) :
    (m.contract.registeredStepsFor callerId).map (fun view => view.stepId) =
      (m.trace.registrations (manualNamespace callerId)).dedup.filter fun stepId =>
        (m.getStep (manualNamespace callerId) stepId).isSome := by
  have injective : Function.Injective (registeredStepKey (manualNamespace callerId)) :=
    fun _ _ same => registeredStepKey_inj.mp same
  apply List.map_injective_iff.mpr injective
  rw [listed_keys wf, inOrder, registered_keys wf, List.dedup_map_of_injective injective,
    List.filter_map]
  exact congrArg _ (List.filter_congr fun stepId _ => IterableMap.decide_mem_keys ..)

/-- Runs in order are listed in order. -/
theorem RunsInOrder.shows {fired : List String} {m : Machine} (inOrder : RunsInOrder fired m)
    (fromIndex limit : Nat) :
    (m.contract.listAutomationRuns fromIndex limit).map AutomationRunView.sequenceNamespace =
      (((fired.dedup.filter fun ns => (m.contract.automationRuns.get ns).isSome).drop
        fromIndex).take (min limit 100)) := by
  have keys : m.contract.automationRuns.entries.map Prod.fst =
      fired.dedup.filter fun ns => (m.contract.automationRuns.get ns).isSome := by
    have shape := inOrder
    rw [RunsInOrder, IterableMap.InOrder, List.filter_true, List.filter_true] at shape
    exact shape.trans (List.filter_congr fun ns _ => IterableMap.decide_mem_keys ..)
  rw [← keys, Contract.listAutomationRuns, List.map_map, ← List.map_drop, ← List.map_take]
  rfl

theorem StepsInOrder.run {callerId : AccountId} {m : Machine}
    (inOrder : StepsInOrder (startsWith · (manualNamespace callerId ++ "#")) m) {ops : List Op}
    (stay : Along (StepsStay callerId) m ops) :
    StepsInOrder (startsWith · (manualNamespace callerId ++ "#")) (m.run ops) := by
  induction ops generalizing m with
  | nil => exact inOrder
  | cons op ops ih => exact ih (inOrder.step stay.1) stay.2

theorem RunsInOrder.run {fired : List String} {m : Machine} (inOrder : RunsInOrder fired m)
    {ops : List Op} (stay : Along RunsStay m ops) :
    RunsInOrder (fired ++ (m.firings ops).map TriggerExecution.sequenceNamespace)
      (m.run ops) := by
  induction ops generalizing fired m with
  | nil => exact (List.append_nil fired).symm ▸ inOrder
  | cons op ops ih =>
      have rest := ih (inOrder.step stay.1) stay.2
      rw [firings_cons, List.map_append, ← List.append_assoc]
      exact rest

instance (callerId : AccountId) (m : Machine) (op : Op) : Decidable (m.StepsStay callerId op) :=
  inferInstanceAs (Decidable (IterableMap.JumpFree _ _ _))

instance (m : Machine) (op : Op) : Decidable (m.RunsStay op) :=
  inferInstanceAs (Decidable (IterableMap.JumpFree _ _ _))

end Machine

/-- From deployment on, as long as no removal makes a step of the caller or a run jump, the
caller's steps are listed in the order of their registrations and the runs in the order of
their fires. -/
theorem run_lists_in_order (host : Host) (ownerId : AccountId) (authorizerId : Option AccountId)
    (callerId : AccountId) (ops : List Op)
    (steps : Machine.Along (Machine.StepsStay callerId) (.init host ownerId authorizerId) ops)
    (runs : Machine.Along Machine.RunsStay (.init host ownerId authorizerId) ops) :
    ((Machine.init host ownerId authorizerId).run ops).ListsInOrder callerId
      ((Machine.init host ownerId authorizerId).firings ops) := by
  have deployed := Machine.Reachable.init host ownerId authorizerId
  have noSteps : Machine.StepsInOrder (startsWith · (manualNamespace callerId ++ "#"))
      (.init host ownerId authorizerId) := IterableMap.InOrder.empty
  have noRuns : Machine.RunsInOrder [] (.init host ownerId authorizerId) :=
    IterableMap.InOrder.empty
  exact ⟨(noSteps.run steps).shows (deployed.run ops).wf, (noRuns.run runs).shows⟩

/-- Step `a` of Alice's plan resolves while a run that began after it waits. -/
theorem run_lists_in_order_resolved :
    (deployed.run (arming ++ [.transact aliceEnv (.executeSteps [plainStep "a", plainStep "b"]),
      fire, .deliver aliceEnv 0 okResult, .deliver aliceEnv 0 okResult])).ListsInOrder alice
        (deployed.firings (arming ++ [.transact aliceEnv (.executeSteps [plainStep "a",
          plainStep "b"]), fire, .deliver aliceEnv 0 okResult, .deliver aliceEnv 0 okResult])) :=
  run_lists_in_order aliceHost alice none alice _ (by decide) (by decide)

/-- Step `a` of three resolves, and `c` takes its place before `b`. -/
theorem resolved_step_reorders_listing :
    ¬ ∀ host ownerId authorizerId callerId ops,
      ((Machine.init host ownerId authorizerId).run ops).ListsInOrder callerId
        ((Machine.init host ownerId authorizerId).firings ops) := by
  intro ordered
  have steps := (ordered aliceHost alice none alice
    [.transact aliceEnv (.executeSteps [plainStep "a", plainStep "b", plainStep "c"]),
      .deliver aliceEnv 0 okResult, .deliver aliceEnv 0 okResult]).steps
  revert steps
  decide

end SmartAccount
