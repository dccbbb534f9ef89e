import Mathlib.Data.List.Induction
import SmartAccount.Methods

/-!
# Run namespaces over time

The namespace of a run is made of its trigger's id and a nonce, which is counted in the
trigger's record.  The count is lost when the trigger is deleted: no namespace is used twice
as long as no trigger is created again under an id that has already fired
(`run_namespaces_never_reused`), and the first run of a trigger created again may use the
namespace of an earlier run (`recreated_trigger_reuses_namespace`).
-/

namespace SmartAccount

open Foundation

/-! ## Accepted fires -/

/-- The view that an operation returns when it is an accepted `execute_trigger`. -/
def Op.fires (m : Machine) : Op → Option Machine.TriggerExecution
  | .transact env (.executeTrigger triggerId) =>
      if env.attachedDeposit = 0 then (m.executeTrigger env triggerId).toOption.map Prod.snd
      else none
  | _ => none

namespace Machine

/-- The accepted `execute_trigger` calls of a run, oldest first. -/
def firings (m : Machine) (ops : List Op) : List TriggerExecution :=
  m.observe (fun m op => op.fires m) ops

theorem firings_cons (m : Machine) (op : Op) (ops : List Op) :
    m.firings (op :: ops) = (op.fires m).toList ++ (m.step op).firings ops := rfl

theorem firings_append (m : Machine) (before after : List Op) :
    m.firings (before ++ after) = m.firings before ++ (m.run before).firings after :=
  observe_append ..

/-- No trigger is created under an id that fired before. -/
def FreshIds (m : Machine) (ops : List Op) : Prop :=
  ∀ before env triggerId sequenceId minBalance maxRuns m' after,
    ops = before ++ .transact env (.createBalanceTrigger triggerId sequenceId minBalance maxRuns)
      :: after →
    (m.run before).call env
      (.createBalanceTrigger triggerId sequenceId minBalance maxRuns) = .ok m' →
    ∀ execution ∈ m.firings before, execution.triggerId ≠ triggerId

/-! ## The counter of a trigger -/

/-- How many runs the trigger's record says were started. -/
def runsStarted (m : Machine) (triggerId : String) : Option Nat :=
  (m.contract.balanceTriggers.get triggerId).map BalanceTrigger.runsStarted

theorem runsStarted_eq {m m' : Machine}
    (same : m'.contract.balanceTriggers = m.contract.balanceTriggers) (triggerId : String) :
    m'.runsStarted triggerId = m.runsStarted triggerId := by
  rw [runsStarted, same, runsStarted]

theorem fires_executeTrigger {env : Env} {m m' : Machine} {triggerId : String}
    {execution : TriggerExecution} (called : m.call env (.executeTrigger triggerId) = .ok m')
    (ran : m.executeTrigger env triggerId = .ok (m', execution)) :
    (Op.transact env (.executeTrigger triggerId)).fires m = some execution := by
  simp only [call, bind_eq_ok, require_eq_ok, PublicCall.payable, Bool.false_or,
    decide_eq_true_eq] at called
  obtain ⟨-, free, -⟩ := called
  simp only [Op.fires, if_pos free, ran, Except.toOption, Option.map_some]

/-- A call that is refused fires nothing. -/
theorem fires_of_error {env : Env} {m : Machine} {method : PublicCall} {message : String}
    (refused : m.call env method = .error message) : (Op.transact env method).fires m = none := by
  cases method with
  | executeTrigger triggerId =>
      simp only [Op.fires]
      split
      · rename_i free
        cases ran : m.executeTrigger env triggerId with
        | error message => rfl
        | ok out =>
            simp [call, execute, require, PublicCall.payable, free, ran, bind, Except.bind,
              Except.map] at refused
      · rfl
  | _ => rfl

/-- What an operation does to the counters, and what it fires. -/
inductive Counting (m : Machine) (op : Op) : Prop
  | fires (execution : TriggerExecution) (fired : op.fires m = some execution)
      (named : execution.sequenceNamespace =
        automationNamespace execution.triggerId execution.runNonce)
      (next : ∃ n, m.runsStarted execution.triggerId = some n ∧ execution.runNonce = n + 1)
      (counted : ∀ triggerId, (m.step op).runsStarted triggerId =
        if triggerId = execution.triggerId then some execution.runNonce
        else m.runsStarted triggerId) : Counting m op
  | creates (idle : op.fires m = none) {env : Env} {triggerId sequenceId : String}
      {minBalance maxRuns : Nat} {m' : Machine}
      (created : op = .transact env
        (.createBalanceTrigger triggerId sequenceId minBalance maxRuns))
      (accepted : m.call env
        (.createBalanceTrigger triggerId sequenceId minBalance maxRuns) = .ok m')
      (others : ∀ id, id ≠ triggerId → (m.step op).runsStarted id = m.runsStarted id) :
      Counting m op
  | keeps (idle : op.fires m = none)
      (kept : ∀ id n, (m.step op).runsStarted id = some n → m.runsStarted id = some n) :
      Counting m op

theorem Counting.of_same {m m' : Machine} {op : Op} (idle : op.fires m = none)
    (stepped : m.step op = m')
    (same : m'.contract.balanceTriggers = m.contract.balanceTriggers) : Counting m op := by
  refine .keeps idle fun id n counted => ?_
  rw [stepped, runsStarted_eq same] at counted
  exact counted

theorem Counting.of_sequencing {m m' : Machine} {op : Op} (idle : op.fires m = none)
    (stepped : m.step op = m') (sequencing : Sequencing m m') : Counting m op := by
  refine .keeps idle fun id n counted => ?_
  rw [stepped] at counted
  have same := congrFun (congrArg Books.triggers sequencing.books) id
  have looked : m'.runsStarted id = m.runsStarted id :=
    congrArg (Option.map BalanceTrigger.runsStarted) same
  rw [looked] at counted
  exact counted

/-- Every operation fires, creates, or raises no counter. -/
theorem step_counting (m : Machine) (op : Op) : Counting m op := by
  cases op with
  | timeout id =>
      refine .of_same rfl rfl ?_
      exact congrArg (fun c : Contract => c.balanceTriggers) (m.timeout_contract id)
  | abort id answer =>
      refine .of_same rfl rfl ?_
      exact congrArg (fun c : Contract => c.balanceTriggers) (m.abort_contract id answer)
  | deliver env id answer =>
      refine .keeps rfl fun triggerId n counted => ?_
      have same := m.deliver_triggers (f := BalanceTrigger.runsStarted) (fun _ _ _ => rfl) env id
        answer triggerId
      exact same.symm.trans counted
  | transact env method =>
      cases called : m.call env method with
      | error message =>
          exact @Counting.of_same m m _ (fires_of_error called) (step_refused called) rfl
      | ok m' =>
          have stepped := step_transact called
          have effect := Effect.of_call called
          cases effect with
          | executeTrigger authorized stored undisturbed books contexts execution ran about nonce
              named =>
              rename_i triggerId trigger m₁
              have fired := fires_executeTrigger called ran
              refine .fires execution fired (about ▸ named) ⟨trigger.runsStarted, ?_, nonce⟩ ?_
              · rw [about, runsStarted, stored, Option.map_some]
              · intro id
                rw [stepped, about]
                have after := congrFun (congrArg Books.triggers books) id
                have looked : m'.runsStarted id = _ :=
                  congrArg (Option.map BalanceTrigger.runsStarted) after
                rw [looked]
                simp only [Books.start, Function.update_apply]
                split
                · rw [Option.map_some, nonce]
                  rfl
                · rfl
          | createBalanceTrigger template owner absent =>
              refine .creates rfl rfl called fun id other => ?_
              rw [stepped]
              simp only [runsStarted, emit, note, withContract]
              rw [IterableMap.get_insert_of_ne _ _ other]
          | deleteBalanceTrigger owner =>
              refine .keeps rfl fun id n counted => ?_
              rw [stepped] at counted
              simp only [runsStarted, withContract, IterableMap.get_remove] at counted
              split at counted
              · cases counted
              · exact counted
          | executeSteps executor sequencing => exact .of_sequencing rfl stepped sequencing
          | registerStep sequencing => exact .of_sequencing rfl stepped sequencing
          | runSequence executor sequencing => exact .of_sequencing rfl stepped sequencing
          | pruneFinishedAutomationRuns =>
              exact .of_same rfl stepped (by rw [(pruneFinishedAutomationRuns_eq m).2.1])
          | revokeExpiredSessions =>
              exact .of_same rfl stepped (by rw [(revokeExpiredSessions_eq env m).2.1])
          | revokeExpiredProxyKeys =>
              exact .of_same rfl stepped (by rw [(revokeExpiredProxyKeys_eq env m).2.1])
          | _ => exact .of_same rfl stepped rfl

/-! ## Namespaces are not used twice -/

/-- The fires so far, as the counters of the stored triggers know them. -/
structure FiresCounted (m : Machine) (fired : List TriggerExecution) : Prop where
  named : ∀ execution ∈ fired, execution.sequenceNamespace =
    automationNamespace execution.triggerId execution.runNonce
  counted : ∀ execution ∈ fired, ∀ n, m.runsStarted execution.triggerId = some n →
    execution.runNonce ≤ n
  distinct : (fired.map TriggerExecution.sequenceNamespace).Nodup

theorem FiresCounted.step {m : Machine} {fired : List TriggerExecution} (holds : FiresCounted m fired)
    (op : Op)
    (fresh : ∀ env triggerId sequenceId minBalance maxRuns m',
      op = .transact env (.createBalanceTrigger triggerId sequenceId minBalance maxRuns) →
      m.call env (.createBalanceTrigger triggerId sequenceId minBalance maxRuns) = .ok m' →
      ∀ execution ∈ fired, execution.triggerId ≠ triggerId) :
    FiresCounted (m.step op) (fired ++ (op.fires m).toList) := by
  cases m.step_counting op with
  | fires execution fires named next counted =>
      obtain ⟨n, stored, nonce⟩ := next
      rw [fires, Option.toList_some]
      refine ⟨fun other inside => ?_, fun other inside k after => ?_, ?_⟩
      · rcases List.mem_append.mp inside with old | new
        · exact holds.named other old
        · exact List.mem_singleton.mp new ▸ named
      · rw [counted] at after
        rcases List.mem_append.mp inside with old | new
        · split at after
          · rename_i same
            have below := holds.counted other old n (same ▸ stored)
            have eq := Option.some.inj after
            omega
          · exact holds.counted other old k after
        · rw [List.mem_singleton.mp new] at after ⊢
          rw [if_pos rfl] at after
          exact Nat.le_of_eq (Option.some.inj after)
      · rw [List.map_append, List.nodup_append]
        refine ⟨holds.distinct, List.nodup_singleton _, ?_⟩
        rintro ns old ns' new rfl
        obtain ⟨other, inside, used⟩ := List.mem_map.mp old
        have again := List.mem_singleton.mp new
        have same := (holds.named other inside).symm.trans (used.trans (again.trans named))
        obtain ⟨id, equal⟩ := automationNamespace_injective same
        have below := holds.counted other inside n (id ▸ stored)
        omega
  | creates idle created accepted others =>
      rw [idle, Option.toList_none, List.append_nil]
      refine ⟨holds.named, fun execution inside n after => ?_, holds.distinct⟩
      have other := fresh _ _ _ _ _ _ created accepted execution inside
      rw [others _ other] at after
      exact holds.counted execution inside n after
  | keeps idle kept =>
      rw [idle, Option.toList_none, List.append_nil]
      exact ⟨holds.named, fun execution inside n after =>
        holds.counted execution inside n (kept _ n after), holds.distinct⟩

/-- Along a run in which no fired id is created again, the counters know every fire. -/
theorem counted_run (host : Host) (ownerId : AccountId) (authorizerId : Option AccountId)
    (ops : List Op) (fresh : (Machine.init host ownerId authorizerId).FreshIds ops) :
    FiresCounted ((Machine.init host ownerId authorizerId).run ops)
      ((Machine.init host ownerId authorizerId).firings ops) := by
  induction ops using List.reverseRecOn with
  | nil => exact ⟨fun _ inside => absurd inside List.not_mem_nil,
      fun _ inside => absurd inside List.not_mem_nil, List.nodup_nil⟩
  | append_singleton ops op ih =>
      have shorter : (Machine.init host ownerId authorizerId).FreshIds ops := by
        intro before env triggerId sequenceId minBalance maxRuns m' after eq
        refine fresh before env triggerId sequenceId minBalance maxRuns m' (after ++ [op]) ?_
        rw [eq, List.append_assoc, List.cons_append]
      rw [run_snoc, firings_append]
      have stepped := (ih shorter).step op fun env triggerId sequenceId minBalance maxRuns m' eq =>
        fresh ops env triggerId sequenceId minBalance maxRuns m' [] (by rw [eq])
      simpa only [firings, observe, List.append_nil] using stepped

end Machine

/-- From deployment on, no two accepted fires use one namespace, as long as no trigger is
created under an id that has fired before. -/
theorem run_namespaces_never_reused (host : Host) (ownerId : AccountId)
    (authorizerId : Option AccountId) (ops : List Op)
    (fresh : (Machine.init host ownerId authorizerId).FreshIds ops) :
    (((Machine.init host ownerId authorizerId).firings ops).map
      Machine.TriggerExecution.sequenceNamespace).Nodup :=
  (Machine.counted_run host ownerId authorizerId ops fresh).distinct

/-- Triggers that are all created before the first fire have fresh ids. -/
theorem Machine.FreshIds.of_unfired {m : Machine} {before after : List Op}
    (idle : m.firings before = [])
    (stable : ∀ env triggerId sequenceId minBalance maxRuns,
      .transact env (.createBalanceTrigger triggerId sequenceId minBalance maxRuns) ∉ after) :
    m.FreshIds (before ++ after) := by
  intro earlier env triggerId sequenceId minBalance maxRuns m' later split _ execution inside
  rcases List.append_eq_append_iff.mp split with ⟨middle, -, shape⟩ | ⟨middle, shape, -⟩
  · refine absurd ?_ (stable env triggerId sequenceId minBalance maxRuns)
    rw [shape]
    exact List.mem_append_right _ (List.mem_cons_self ..)
  · rw [shape, Machine.firings_append, List.append_eq_nil_iff] at idle
    rw [idle.1] at inside
    exact absurd inside List.not_mem_nil

/-- Alice saves a plan of one step and creates its trigger. -/
def arming : List Op :=
  [.transact aliceEnv (.saveSequenceTemplate "plan" [plainStep "a"]),
    .transact aliceEnv (.createBalanceTrigger "daily" "plan" 0 5)]

/-- A run of one step starts, succeeds and is pruned. -/
def prunedRun : List Op :=
  [fire, .deliver aliceEnv 0 okResult, .deliver aliceEnv 0 okResult,
    .transact aliceEnv .pruneFinishedAutomationRuns]

/-- The trigger fires, its run is pruned, and it fires again. -/
theorem run_namespaces_never_reused_pruned :
    ((deployed.firings (arming ++ (prunedRun ++ [fire]))).map
      Machine.TriggerExecution.sequenceNamespace).Nodup := by
  refine run_namespaces_never_reused aliceHost alice none _ (.of_unfired (by decide) ?_)
  intro env triggerId sequenceId minBalance maxRuns inside
  simp [prunedRun, fire] at inside

/-- The trigger fires, its run is pruned, it is deleted and created again, and fires again:
both runs are `auto:daily:1`. -/
theorem recreated_trigger_reuses_namespace :
    ¬ ∀ host ownerId authorizerId ops,
      (((Machine.init host ownerId authorizerId).firings ops).map
        Machine.TriggerExecution.sequenceNamespace).Nodup := by
  intro never
  have distinct := never aliceHost alice none (arming ++ (prunedRun ++
    [.transact aliceEnv (.deleteBalanceTrigger "daily"),
      .transact aliceEnv (.createBalanceTrigger "daily" "plan" 0 5), fire]))
  revert distinct
  decide

end SmartAccount
