import SmartAccount.StoredAutomation
import SmartAccount.TerminalRuns

/-!
# When a fire goes through

An authorized fire of an idle trigger with runs and balance left is accepted exactly when no
run row is stored under the namespace it is about to use and none of its steps is registered
there (`executeTrigger_ok_iff`): the template is stored and well formed, and the queue of a
namespace without a run in flight is empty.  The row is in the way after the trigger was
deleted and created again.
-/

namespace SmartAccount

open Foundation Function

namespace Machine

/-! ## Queues without a run -/

/-- A namespace without a run in flight has no queue. -/
def QueueIdle (m : Machine) (ns : String) : Prop :=
  m.RunOver ns → m.contract.sequenceQueue.get ns = none

/-- What a callback does to the queue of its namespace: it leaves none, or it leaves the run
alone and there was one before. -/
def QueueKept (m m' : Machine) (ns : String) : Prop :=
  m'.contract.sequenceQueue.get ns = none ∨
    m'.contract.automationRuns.get ns = m.contract.automationRuns.get ns ∧
      m.contract.sequenceQueue.get ns ≠ none

theorem QueueKept.of_contract {m m' : Machine} {ns : String}
    (same : m'.contract = m.contract) : QueueKept m m' ns := by
  by_cases empty : m.contract.sequenceQueue.get ns = none
  · exact .inl (by rw [same, empty])
  · exact .inr ⟨by rw [same], empty⟩

theorem finishAutomationRun_queue {env : Env} {m : Machine} {ns : String}
    {status : AutomationRunStatus} {failedStepId : Option String}
    (empty : m.contract.sequenceQueue.get ns = none) :
    (m.finishAutomationRun env ns status failedStepId).contract.sequenceQueue.get ns = none := by
  unfold finishAutomationRun
  split
  · exact empty
  · split
    · exact empty
    · exact IterableMap.get_remove_self ..

theorem haltSequence_queue (env : Env) (m : Machine) (ns stepId : String)
    (status : AutomationRunStatus) (data : HaltData) :
    (m.haltSequence env ns stepId status data).contract.sequenceQueue.get ns = none :=
  finishAutomationRun_queue (IterableMap.get_remove_self ..)

theorem takeNextQueuedStep_queue (c : Contract) (ns : String) :
    (c.takeNextQueuedStep ns).2.automationRuns = c.automationRuns ∧
      ((c.takeNextQueuedStep ns).1 = none →
        (c.takeNextQueuedStep ns).2.sequenceQueue.get ns = none) ∧
      ((c.takeNextQueuedStep ns).1 ≠ none → c.sequenceQueue.get ns ≠ none) := by
  unfold Contract.takeNextQueuedStep
  split
  · rename_i empty
    exact ⟨rfl, fun _ => empty, fun absent => absurd rfl absent⟩
  · rename_i queued
    exact ⟨rfl, fun _ => IterableMap.get_remove_self .., fun absent => absurd rfl absent⟩
  · rename_i next queued
    refine ⟨rfl, fun none => ?_, fun _ => by rw [queued]; exact Option.some_ne_none _⟩
    cases none
  · rename_i next remaining queued
    refine ⟨rfl, fun none => ?_, fun _ => by rw [queued]; exact Option.some_ne_none _⟩
    cases none

theorem progress_queue (env : Env) (m : Machine) (ns stepId : String) (resultLen : Nat)
    (call : Option CallMetadata) (registeredAtMs : Nat) :
    QueueKept m (m.progressSequenceAfterSuccessfulResolution env ns stepId resultLen call
      registeredAtMs) ns := by
  obtain ⟨runs, drained, queued⟩ := takeNextQueuedStep_queue m.contract ns
  unfold progressSequenceAfterSuccessfulResolution
  simp only
  split
  · rename_i next c eq
    rw [eq] at runs queued
    split
    · rename_i resumed woken
      obtain ⟨yielded, m₁, -, resumedYield, rfl⟩ := resumeRegisteredStep_ok.mp woken
      obtain ⟨thens, -, rfl⟩ := resumeYield_eq_some.mp resumedYield
      exact .inr ⟨congrFun (congrArg IterableMap.get runs) ns, queued (Option.some_ne_none _)⟩
    · exact .inl (finishAutomationRun_queue (IterableMap.get_remove_self ..))
  · rename_i c eq
    rw [eq] at drained
    exact .inl (finishAutomationRun_queue (drained rfl))

theorem onStepResolved_queue (env : Env) (m : Machine) (ns stepId : String)
    (result : PromiseResult) : QueueKept m (m.onStepResolved env ns stepId result) ns := by
  unfold onStepResolved
  simp only
  split
  · rename_i bytes _
    have saved : ∀ spec, ((m.removeStep ns stepId).saveIfAsked ns stepId spec
        bytes).contract.automationRuns = m.contract.automationRuns ∧
        ((m.removeStep ns stepId).saveIfAsked ns stepId spec
          bytes).contract.sequenceQueue = m.contract.sequenceQueue := by
      intro spec
      cases spec <;> exact ⟨rfl, rfl⟩
    rcases progress_queue env _ ns stepId _ _ _ with empty | ⟨runs, queued⟩
    · exact .inl empty
    · rw [(saved _).1] at runs
      rw [(saved _).2] at queued
      exact .inr ⟨runs, queued⟩
  · exact .inl (finishAutomationRun_queue (IterableMap.get_remove_self ..))

theorem runCallback_queue {env : Env} {m m' : Machine} {callback : Callback}
    {result : PromiseResult} {out : PromiseOrValue}
    (ran : m.runCallback env callback result = .ok (m', out)) :
    QueueKept m m' callback.sequenceNamespace := by
  cases Leaves.of_runCallback ran with
  | kept same => exact .of_contract same
  | halted m₁ stepId status data => exact .inl (haltSequence_queue ..)
  | resolved stepId about => exact onStepResolved_queue env m _ stepId result

/-! ## Queues of other namespaces -/

theorem write_queue_other {ns ns' : String} {m m' : Machine} (write : Write ns' m m')
    (other : ns' ≠ ns) :
    m'.contract.sequenceQueue.get ns = m.contract.sequenceQueue.get ns := by
  cases write with
  | resume stored resumed =>
      obtain ⟨thens, -, rfl⟩ := resumeYield_eq_some.mp resumed
      rfl
  | setQueue waiting => exact IterableMap.get_insert_of_ne _ _ (Ne.symm other)
  | removeQueue => exact IterableMap.get_remove_of_ne _ (Ne.symm other)
  | _ => rfl

theorem writes_queue_other {ns ns' : String} {m m' : Machine} (writes : Writes ns' m m')
    (other : ns' ≠ ns) :
    m'.contract.sequenceQueue.get ns = m.contract.sequenceQueue.get ns := by
  induction writes with
  | refl => rfl
  | tail _ last ih => exact (write_queue_other last other).trans ih

theorem registerSteps_queue {env : Env} {m m' : Machine} {ns : String} {calls : List Step}
    (registered : m.registerSteps env ns calls = .ok m') :
    m'.contract.sequenceQueue = m.contract.sequenceQueue := by
  induction calls generalizing m with
  | nil => rw [registerSteps_nil.mp registered]
  | cons call calls ih => exact (ih (registerSteps_cons.mp registered).2).trans rfl

/-- An accepted call starts a run of the namespace or leaves its queue alone. -/
theorem accepted_queue {env : Env} {m m' : Machine} {ns : String} (auto : IsAutomation ns)
    (accepted : Accepted env m m') :
    ¬ m'.RunOver ns ∨ m'.contract.sequenceQueue.get ns = m.contract.sequenceQueue.get ns := by
  cases accepted with
  | aside aside edit => exact .inr (by rw [aside.sequenceQueue])
  | pruned => exact .inr (by rw [(pruneFinishedAutomationRuns_eq m).2.1])
  | registered caller call valid registered =>
      obtain ⟨-, rfl⟩ := registerStepInNamespace_ok.mp registered
      exact .inr rfl
  | released caller calls order valid registered released =>
      have other : manualNamespace caller ≠ ns := by
        rintro rfl
        exact IsManual.not_automation ⟨caller, rfl⟩ auto
      rw [← registerSteps_queue registered]
      exact .inr (writes_queue_other (startSequenceRelease_writes released) other)
  | fired triggerId authorized stored known checked registered released =>
      rename_i m₁ m₂ m₃ n trigger template
      by_cases same : ns = automationNamespace triggerId (trigger.runsStarted + 1)
      · subst same
        exact .inl fun ended => ended _ (IterableMap.get_insert_self ..) rfl
      · have queue := writes_queue_other (startSequenceRelease_writes released) (Ne.symm same)
        refine .inr (queue.trans ?_)
        change m₂.contract.sequenceQueue.get ns = _
        rw [registerSteps_queue registered, (authorizeFire_aside authorized).1.sequenceQueue]

theorem QueueIdle.step {m : Machine} {ns : String} (auto : IsAutomation ns)
    (idle : m.QueueIdle ns) (op : Op) : (m.step op).QueueIdle ns := by
  refine RunOver.step (P := fun c => c.sequenceQueue.get ns = none) idle ?_ ?_ ?_ op
  · intro env method m' called ended before
    rcases accepted_queue auto (.of_call called) with running | kept
    · exact absurd ended running
    · exact kept.trans before
  · intro env m₀ m₁ callback result out same ran own ended
    rcases own ▸ runCallback_queue ran with empty | ⟨runs, queued⟩
    · exact empty
    · rw [same] at runs queued
      exact absurd (idle fun run stored => ended run (runs.trans stored)) queued
  · intro ns' m₀ m₁ same writes other before
    rw [← same] at before
    exact (writes_queue_other writes other).trans before

theorem Reachable.queueIdle {m : Machine} (reachable : m.Reachable) {ns : String}
    (auto : IsAutomation ns) : m.QueueIdle ns :=
  @Reachable.induct (fun m => m.QueueIdle ns) (fun _ _ _ _ => rfl)
    (fun _ op idle => QueueIdle.step auto idle op) m reachable

/-! ## Registration goes through -/

/-- A step with its yield still dormant. -/
def Waiting (m : Machine) (ns stepId : String) : Prop :=
  ∃ yielded thens, m.getStep ns stepId = some yielded ∧
    m.pool.get yielded.yieldId = some ⟨.yielded, thens⟩

theorem Waiting.registered (env : Env) (m : Machine) (ns : String) (call : Step) :
    (m.withRegistered env ns call).Waiting ns call.stepId := by
  have stored := getStep_withRegistered env m ns call call.stepId
  rw [if_pos rfl] at stored
  exact ⟨_, _, stored, Pool.get_create_self ..⟩

theorem Waiting.withRegistered {m : Machine} {ns stepId : String} (waiting : m.Waiting ns stepId)
    (env : Env) {call : Step} (absent : m.getStep ns call.stepId = none) :
    (m.withRegistered env ns call).Waiting ns stepId := by
  obtain ⟨yielded, thens, stored, dormant⟩ := waiting
  have other : stepId ≠ call.stepId := by
    rintro rfl
    rw [absent] at stored
    cases stored
  refine ⟨yielded, thens, ?_, Pool.get_create_of_get dormant⟩
  rw [getStep_withRegistered, if_neg other, stored]

theorem Waiting.registerSteps {env : Env} {ns stepId : String} {calls : List Step}
    {m m' : Machine} (waiting : m.Waiting ns stepId)
    (registered : m.registerSteps env ns calls = .ok m') : m'.Waiting ns stepId := by
  induction calls generalizing m with
  | nil => rwa [registerSteps_nil.mp registered]
  | cons call calls ih =>
      obtain ⟨absent, rest⟩ := registerSteps_cons.mp registered
      exact ih (waiting.withRegistered env absent) rest

/-- Registered steps were absent before, and wait afterwards. -/
theorem registerSteps_waiting {env : Env} {ns : String} {calls : List Step} {m m' : Machine}
    (registered : m.registerSteps env ns calls = .ok m') :
    ∀ call ∈ calls, m.getStep ns call.stepId = none ∧ m'.Waiting ns call.stepId := by
  induction calls generalizing m with
  | nil => exact fun _ inside => absurd inside List.not_mem_nil
  | cons call calls ih =>
      obtain ⟨absent, rest⟩ := registerSteps_cons.mp registered
      refine List.forall_mem_cons.mpr ⟨⟨absent, ?_⟩, fun later inside => ?_⟩
      · exact (Waiting.registered env m ns call).registerSteps rest
      · obtain ⟨fresh, waiting⟩ := ih rest later inside
        rw [getStep_withRegistered] at fresh
        split at fresh
        · cases fresh
        · exact ⟨fresh, waiting⟩

/-- Distinct steps that are all absent can be registered. -/
theorem registerSteps_of_absent (env : Env) {ns : String} {calls : List Step} {m : Machine}
    (distinct : (calls.map Step.stepId).Nodup)
    (absent : ∀ call ∈ calls, m.getStep ns call.stepId = none) :
    ∃ m', m.registerSteps env ns calls = .ok m' := by
  induction calls generalizing m with
  | nil => exact ⟨m, registerSteps_nil.mpr rfl⟩
  | cons call calls ih =>
      obtain ⟨here, later⟩ := List.forall_mem_cons.mp absent
      rw [List.map_cons, List.nodup_cons] at distinct
      obtain ⟨m', rest⟩ := ih (m := m.withRegistered env ns call) distinct.2 (by
        intro other inside
        rw [getStep_withRegistered, if_neg, later other inside]
        intro same
        exact distinct.1 (same ▸ List.mem_map_of_mem inside))
      exact ⟨m', registerSteps_cons.mpr ⟨here, rest⟩⟩

/-! ## So does the release -/

theorem checkOrder_of_waiting {m : Machine} {ns : String} {order : List String}
    (waiting : ∀ stepId ∈ order, m.Waiting ns stepId) : m.checkOrder ns order = .ok () := by
  induction order with
  | nil => rfl
  | cons stepId rest ih =>
      obtain ⟨⟨yielded, thens, stored, -⟩, later⟩ := List.forall_mem_cons.mp waiting
      simp only [checkOrder, bind_eq_ok, require_eq_ok, stored, Option.isSome_some]
      exact ⟨(), trivial, ih later⟩

/-- Waiting steps are released where no queue is in the way. -/
theorem startSequenceRelease_of_waiting (m : Machine) {ns : String} (order : List String)
    (nonempty : order ≠ []) (idle : m.contract.sequenceQueue.get ns = none)
    (waiting : ∀ stepId ∈ order, m.Waiting ns stepId) :
    ∃ released, m.startSequenceReleaseInNamespace ns order = .ok released := by
  cases order with
  | nil => exact absurd rfl nonempty
  | cons first rest =>
      obtain ⟨yielded, thens, stored, dormant⟩ := waiting first (List.mem_cons_self ..)
      have resumable : ∀ m' : Machine, m'.getStep ns first = some yielded →
          m'.pool.get yielded.yieldId = some ⟨.yielded, thens⟩ →
            ∃ resumed, m'.resumeRegisteredStep ns first = .ok resumed :=
        fun m' stored dormant => ⟨_, resumeRegisteredStep_ok.mpr
          ⟨yielded, _, stored, resumeYield_eq_some.mpr ⟨thens, dormant, rfl⟩, rfl⟩⟩
      obtain ⟨resumed, woken⟩ := resumable
        ((if rest ≠ [] then m.setQueue ns rest else m).note (.released ns (first :: rest)))
        (by split <;> exact stored) (by split <;> exact dormant)
      simp only [startSequenceReleaseInNamespace, bind_eq_ok, require_eq_ok,
        decide_eq_true_eq, Option.isNone_iff_eq_none, Except.ok.injEq]
      exact ⟨_, (), nonempty, (), idle, (), checkOrder_of_waiting waiting, resumed, woken, rfl⟩

/-! ## The fire -/

/-- The checks on an idle trigger with runs and balance left come down to the run row. -/
theorem checkTrigger_ok_iff {env : Env} {trigger : BalanceTrigger} {template : SequenceTemplate}
    (m : Machine) (triggerId : String) (idle : trigger.inFlight = false)
    (left : trigger.runsStarted < trigger.maxRuns) (word : trigger.maxRuns < 2 ^ 32)
    (funded : requiredBalanceYocto trigger template ≤ env.accountBalance) :
    m.checkTrigger env triggerId trigger template = .ok () ↔
      m.contract.automationRuns.get (automationNamespace triggerId (trigger.runsStarted + 1)) =
        none := by
  simp [checkTrigger, bind_eq_ok, idle, left, funded]
  omega

/-- In every reachable state an authorized fire of an idle trigger with runs and balance left
goes through exactly when no run is stored under its next namespace and no step of its template
is registered there. -/
theorem executeTrigger_ok_iff {env : Env} {m authorized : Machine} {triggerId : String}
    {trigger : BalanceTrigger} (reachable : m.Reachable)
    (may : m.authorizeFire env triggerId = .ok authorized)
    (stored : m.contract.balanceTriggers.get triggerId = some trigger)
    (idle : trigger.inFlight = false) (left : trigger.runsStarted < trigger.maxRuns)
    (word : trigger.maxRuns < 2 ^ 32)
    (funded : ∀ template, m.contract.sequenceTemplates.get trigger.sequenceId = some template →
      requiredBalanceYocto trigger template ≤ env.accountBalance) :
    (∃ out, m.executeTrigger env triggerId = .ok out) ↔
      m.contract.automationRuns.get (automationNamespace triggerId (trigger.runsStarted + 1)) =
          none ∧
        ∀ template, m.contract.sequenceTemplates.get trigger.sequenceId = some template →
          ∀ call ∈ template.calls,
            m.getStep (automationNamespace triggerId (trigger.runsStarted + 1)) call.stepId =
              none := by
  obtain ⟨template, source⟩ := reachable.storedAutomation.triggers triggerId trigger stored
  have formed := reachable.storedAutomation.templates _ template source
  obtain ⟨aside, triggers⟩ := authorizeFire_aside may
  have templates : authorized.contract.sequenceTemplates = m.contract.sequenceTemplates := by
    cases authorizeFire_ok may <;> rfl
  have steps : ∀ ns stepId, authorized.getStep ns stepId = m.getStep ns stepId := by
    intro ns stepId
    exact congrFun (congrArg IterableMap.get aside.registeredSteps) _
  have checked := checkTrigger_ok_iff authorized triggerId idle left word
    (funded template source)
  rw [aside.automationRuns] at checked
  have stored' : authorized.contract.balanceTriggers.get triggerId = some trigger := by
    rw [triggers, stored]
  have source' : authorized.contract.sequenceTemplates.get trigger.sequenceId =
      some template := by
    rw [templates, source]
  simp only [executeTrigger, bind_eq_ok, expect_eq_ok]
  constructor
  · rintro ⟨out, _, same, _, here, _, found, _, accepted, registered, ran, -⟩
    obtain rfl := Except.ok.inj (may.symm.trans same)
    obtain rfl := Option.some.inj (stored'.symm.trans here)
    obtain rfl := Option.some.inj (source'.symm.trans found)
    refine ⟨checked.mp accepted, fun template' source'' call inside => ?_⟩
    obtain rfl := Option.some.inj (source.symm.trans source'')
    rw [← steps]
    exact (registerSteps_waiting ran call inside).1
  · rintro ⟨row, absent⟩
    obtain ⟨registered, ran⟩ := registerSteps_of_absent env (m := authorized) formed.distinct
      fun call inside => (steps _ _).trans (absent template source call inside)
    have empty : m.contract.sequenceQueue.get
        (automationNamespace triggerId (trigger.runsStarted + 1)) = none := by
      refine reachable.queueIdle ⟨triggerId, _, rfl⟩ fun run held => ?_
      rw [row] at held
      cases held
    have queue : registered.contract.sequenceQueue.get
        (automationNamespace triggerId (trigger.runsStarted + 1)) = none := by
      rw [registerSteps_queue ran, aside.sequenceQueue, empty]
    obtain ⟨⟨released, n⟩, started⟩ := startSequenceRelease_of_waiting
      (registered.emit (.triggerFired (triggerFiredEvent env triggerId
        (automationNamespace triggerId (trigger.runsStarted + 1)) (trigger.runsStarted + 1)
        trigger template)))
      (template.calls.map Step.stepId) (by simpa using formed.nonempty) queue (by
        intro stepId inside
        obtain ⟨call, member, rfl⟩ := List.mem_map.mp inside
        exact (registerSteps_waiting ran call member).2)
    exact ⟨_, authorized, may, trigger, stored', template, source', (), checked.mpr row,
      registered, ran, (released, n), started, rfl⟩

end Machine

/-! ## A trigger created again -/

/-- The trigger runs once, and is deleted and created again while the row of its run is kept. -/
def recreatedTrigger : Machine :=
  (armed [plainStep "a"]).run
    [fire, .deliver aliceEnv 0 okResult, .deliver aliceEnv 0 okResult,
      .transact aliceEnv (.deleteBalanceTrigger "daily"),
      .transact aliceEnv (.createBalanceTrigger "daily" "plan" 0 5)]

/-- Alice may fire it, it is idle with all its runs left and asks for no balance, and every fire
is refused because of the old row. -/
theorem recreated_trigger_refused :
    recreatedTrigger.Reachable ∧
      (recreatedTrigger.authorizeFire aliceEnv "daily").toBool = true ∧
      (recreatedTrigger.contract.balanceTriggers.get "daily").map (fun trigger =>
        (trigger.inFlight, trigger.runsStarted, trigger.maxRuns)) = some (false, 0, 5) ∧
      Machine.executeTrigger aliceEnv recreatedTrigger "daily" =
        .error "automation namespace already exists" := by
  refine ⟨(armed_reachable _).run _, by decide, by decide, ?_⟩
  have refused : (match Machine.executeTrigger aliceEnv recreatedTrigger "daily" with
      | .error message => some message
      | .ok _ => none) = some "automation namespace already exists" := by
    decide
  cases ran : Machine.executeTrigger aliceEnv recreatedTrigger "daily" with
  | ok out =>
      rw [ran] at refused
      cases refused
  | error message =>
      rw [ran] at refused
      rw [Option.some.inj refused]

theorem executeTrigger_ok_iff_armed :
    ∃ out, (armed [plainStep "a"]).executeTrigger aliceEnv "daily" = .ok out := by
  have may : (armed [plainStep "a"]).authorizeFire aliceEnv "daily" =
      .ok (armed [plainStep "a"]) := rfl
  refine (Machine.executeTrigger_ok_iff (armed_reachable _) may rfl rfl (by decide) (by decide)
    ?_).mpr ⟨rfl, ?_⟩
  · intro template source
    have known : (armed [plainStep "a"]).contract.sequenceTemplates.get "plan" =
        some ⟨[plainStep "a"], 0, 0⟩ := by
      decide
    obtain rfl := Option.some.inj (known.symm.trans source)
    decide
  · intro template source call inside
    rfl

end SmartAccount
