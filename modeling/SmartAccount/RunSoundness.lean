import SmartAccount.RunStanding
import SmartAccount.StoredAutomation
import SmartAccount.TerminalRuns

/-!
# The success of a run

The run of a namespace that fires once and shares no registered-step key with another
succeeds if and only if every call of its template was dispatched exactly once, in order, each
after an Ok of the call before it, and all of them resolved Ok (`run_succeeds_iff`).  A step
that another namespace registers under a key of this one is dispatched in place of the run's
own, and the run succeeds with it (`foreign_step_succeeds`).
-/

namespace SmartAccount

open Foundation Function
open Relation (ReflTransGen)

/-! ## The fire -/

/-- Registering copies records them in turn, each under a new id. -/
theorem Lane.Registers.records {ns : String} {copies : List (RegisteredStep × Nat)} {ℓ ℓ' : Lane}
    (registers : Lane.Registers ns copies ℓ ℓ') : ℓ'.trace = ℓ.trace ++
      copies.map fun copy => .registered ns copy.1.yieldId copy.1.call copy.2 := by
  induction registers with
  | nil => exact (List.append_nil _).symm
  | cons can rest ih =>
      rw [ih]
      simp [Lane.register]

/-- The copies of a fire in an unused lane are those of the template. -/
theorem Copied.of_registers {ns : String} {copies : List (RegisteredStep × Nat)} {ℓ : Lane}
    {calls : List Step} (registers : Lane.Registers ns copies Lane.fresh ℓ)
    (same : (copies.map fun copy => copy.1.call) = calls)
    (distinct : (calls.map Step.stepId).Nodup) : Copied ns calls ℓ.trace := by
  have recorded : ∀ {id gas : Nat} {call : Step}, .registered ns id call gas ∈ ℓ.trace →
      ∃ copy ∈ copies, copy.1.yieldId = id ∧ copy.1.call = call := by
    intro id gas call inside
    rw [registers.records] at inside
    obtain ⟨copy, member, eq⟩ := List.mem_map.mp ((List.nil_append _) ▸ inside)
    cases eq
    exact ⟨copy, member, rfl, rfl⟩
  subst same
  refine ⟨distinct, fun id call gas inside => ?_, fun call inside => ?_, ?_⟩
  · obtain ⟨copy, member, -, rfl⟩ := recorded inside
    exact List.mem_map_of_mem member
  · obtain ⟨copy, member, rfl⟩ := List.mem_map.mp inside
    refine ⟨copy.1.yieldId, copy.2, ?_⟩
    rw [registers.records]
    exact List.mem_append_right _ (List.mem_map.mpr ⟨copy, member, rfl⟩)
  · intro id id' call gas gas' inside inside'
    obtain ⟨copy, member, rfl, rfl⟩ := recorded inside
    obtain ⟨copy', member', rfl, eq⟩ := recorded inside'
    rw [List.map_map] at distinct
    have one : copy' = copy := List.inj_on_of_nodup_map distinct member' member
      (congrArg Step.stepId eq)
    rw [one]

/-- A run starts with its first call in flight. -/
theorem Advancing.start {ns : String} {copies : List (RegisteredStep × Nat)} {ℓ₁ ℓ₂ : Lane}
    {calls : List Step} {run : AutomationRun}
    (registers : Lane.Registers ns copies Lane.fresh ℓ₁)
    (same : (copies.map fun copy => copy.1.call) = calls)
    (released : Lane.Release ns (calls.map Step.stepId) ℓ₁ ℓ₂) (running : run.status = .inFlight)
    (distinct : (calls.map Step.stepId).Nodup) :
    ∃ id call, Advancing ns calls 0 id call { ℓ₂ with row := some run } ∧
      Copied ns calls ℓ₂.trace := by
  have tidy := Tidy.fresh.registers registers
  have counted := Counted.fresh.registers registers
  have quiet : Lane.Quiet ns ℓ₁ := by
    intro id f flying
    rcases registers.eq.2.2.2 id f flying with old | dormant
    · cases old
    · exact dormant
  have copied := Copied.of_registers registers same distinct
  have count : ℓ₁.trace.releaseCount ns = 0 := registers.count
  have inFlight : IsAutomation ns → ∃ run', some run = some run' ∧ run'.status = .inFlight :=
    fun _ => ⟨run, rfl, running⟩
  obtain ⟨first, rest, copy, order, stored, trace, started⟩ :=
    Running.start tidy counted quiet released inFlight
  rw [count] at trace started
  obtain ⟨first', rest', copy', thens, order', -, -, kept, -, eq⟩ := released.eq counted
  obtain ⟨rfl, -⟩ := List.cons.inj (order.symm.trans order')
  rw [eq] at stored
  obtain rfl : copy' = copy := Option.some.inj (kept.symm.trans stored)
  obtain ⟨own, gas, record⟩ := tidy.stored first copy' kept
  have marked : ∀ id call gas, .registered ns id call gas ∈ ℓ₂.trace ↔
      .registered ns id call gas ∈ ℓ₁.trace := by
    intro id call gas
    rw [trace]
    simp
  have here : calls[0]? = some copy'.call := by
    cases calls with
    | nil => cases order
    | cons call calls =>
        have named : call.stepId = first := (List.cons.inj order).1
        rw [copied.call_eq (copied.records _ _ _ record) (List.mem_cons_self ..)
          (own.trans named.symm)]
        rfl
  refine ⟨copy'.yieldId, copy'.call, ⟨started, here, ?_, fun f flying => ?_⟩,
    copied.of_records marked⟩
  · intro id f call gas' other flying record'
    have old : .registered ns id call gas' ∈ ℓ₁.trace := (marked _ _ _).mp record'
    have inside := copied.records _ _ _ old
    rw [parted here, List.take_zero, List.nil_append] at inside
    rcases List.mem_cons.mp inside with rfl | later
    · exact absurd (copied.single _ _ _ _ _ old record) other
    · exact later
  · have told_none : ℓ₂.trace.milestones ns = told (calls.take 0) := by
      have nothing : Trace.milestones [.released ns (calls.map Step.stepId),
          .resumed ns 0 0 first copy'.yieldId] ns = [] := rfl
      rw [trace, Trace.milestones_append, nothing, registers.records, List.append_nil]
      refine List.filterMap_eq_nil_iff.mpr fun event inside => ?_
      obtain ⟨copy, -, rfl⟩ := List.mem_map.mp ((List.nil_append _) ▸ inside)
      rfl
    obtain ⟨-, early | late⟩ := started.underway.own f flying
    · exact .inl ⟨early, told_none⟩
    · have resumed : ℓ₂.flight copy'.yieldId = some ⟨.done resumeSignal, thens⟩ := by
        rw [eq]
        exact update_self ..
      obtain rfl : _ = f := Option.some.inj (resumed.symm.trans flying)
      exact absurd late Late.not_resumed

namespace Machine

/-- What an accepted `execute_trigger` ran. -/
theorem fires_ok {m : Machine} {op : Op} {execution : TriggerExecution}
    (fires : op.fires m = some execution) : ∃ env triggerId m',
      m.executeTrigger env triggerId = .ok (m', execution) ∧ m.step op = m' := by
  unfold Op.fires at fires
  split at fires
  · rename_i env triggerId
    split at fires
    · rename_i free
      cases ran : m.executeTrigger env triggerId with
      | error message =>
          rw [ran] at fires
          cases fires
      | ok out =>
          obtain ⟨m', execution'⟩ := out
          rw [ran] at fires
          obtain rfl := Option.some.inj fires
          refine ⟨env, triggerId, m', ran, step_transact ?_⟩
          simp [call, execute, PublicCall.payable, free, ran, require, bind, Except.bind,
            Except.map]
    · cases fires
  · cases fires

/-- An accepted `execute_trigger` starts a run of the template as it is stored then. -/
theorem Reachable.run_starts {m : Machine} (reachable : m.Reachable) {op : Op}
    {execution : TriggerExecution} {template : SequenceTemplate}
    (fires : op.fires m = some execution)
    (known : m.contract.sequenceTemplates.get execution.sequenceId = some template)
    (isolated : Isolated (m.step op).trace execution.sequenceNamespace)
    (unused : m.lane execution.sequenceNamespace = Lane.fresh) :
    ∃ id call,
      Advancing execution.sequenceNamespace template.calls 0 id call
        ((m.step op).lane execution.sequenceNamespace) ∧
      Copied execution.sequenceNamespace template.calls
        ((m.step op).lane execution.sequenceNamespace).trace := by
  have formed := reachable.storedAutomation.templates _ template known
  obtain ⟨env, triggerId, m', ran, stepped⟩ := fires_ok fires
  rw [stepped] at isolated ⊢
  simp only [executeTrigger, bind_eq_ok, expect_eq_ok] at ran
  obtain ⟨m₁, authorized, trigger, stored, template', source, _, checked, m₂, registered,
    ⟨m₃, n⟩, released, eq⟩ := ran
  cases eq
  obtain ⟨aside, -⟩ := authorizeFire_aside authorized
  have templates : m₁.contract.sequenceTemplates = m.contract.sequenceTemplates := by
    cases authorizeFire_ok authorized <;> rfl
  obtain rfl : template = template' := by
    rw [templates] at source
    exact Option.some.inj (known.symm.trans source)
  have auto : IsAutomation (automationNamespace triggerId (trigger.runsStarted + 1)) := ⟨_, _, rfl⟩
  generalize automationNamespace triggerId (trigger.runsStarted + 1) = ns at *
  have wf₁ := reachable.wf.of_keeps (.of_aside aside)
  have wf₂ := (wf₁.registerSteps (.inr auto) registered).of_keeps
    (.emit m₂ (.triggerFired (triggerFiredEvent env triggerId ns (trigger.runsStarted + 1)
      trigger template)))
  have isolated₃ : Isolated m₃.trace ns := isolated
  obtain ⟨copies, same, chain⟩ := lane_registerSteps wf₁ (.inr auto) registered
  rw [lane_of_aside ns aside, unused] at chain
  have release := lane_startSequenceRelease wf₂
    (isolated₃.of_writes (startSequenceRelease_writes released)) released
  rw [lane_emit_of_not rfl] at release
  have row : (m₃.recordRunStarted env triggerId ns (trigger.runsStarted + 1) trigger).lane ns =
      { m₃.lane ns with row := some (startedRun env triggerId trigger.sequenceId ns
        (trigger.runsStarted + 1)) } := by
    simp [lane, recordRunStarted, withContract, getStep]
  have running : (startedRun env triggerId trigger.sequenceId ns
      (trigger.runsStarted + 1)).status = .inFlight := rfl
  obtain ⟨id, call, advancing, copied⟩ :=
    Advancing.start chain same release running formed.distinct
  exact ⟨id, call, row ▸ advancing, row ▸ copied⟩

/-! ## After the fire -/

/-- A release in an automation namespace starts a run there. -/
theorem started_of_release {m m' : Machine} {ns : String} (auto : IsAutomation ns) {ℓ : Lane}
    (chain : ReflTransGen (Lane.Step ns .aside) (m.lane ns) ℓ)
    (step : Lane.Step ns .release ℓ (m'.lane ns)) :
    ¬ m'.RunOver ns ∧
      m'.contract.automationRuns.get ns ≠ m.contract.automationRuns.get ns := by
  have started : ∃ run, (m'.lane ns).row = some run ∧ run.status = .inFlight ∧ ℓ.row = none := by
    generalize m'.lane ns = ℓ' at step
    cases step with
    | release manual released => exact absurd auto manual.not_automation
    | fire auto absent registered released running => exact ⟨_, rfl, running, absent⟩
  obtain ⟨run, row, running, absent⟩ := started
  refine ⟨fun ended => ended run row running, fun same => ?_⟩
  have before : m.contract.automationRuns.get ns = some run := same.symm.trans row
  have kept := asides_row running (before : (m.lane ns).row = some run) chain
  cases absent.symm.trans kept

/-- An operation that does not fire the namespace moves its lane by steps aside or by one
delivery. -/
theorem Reachable.lane_unfired {m : Machine} (reachable : m.Reachable) {ns : String}
    (auto : IsAutomation ns) {op : Op} (isolated : Isolated (m.step op).trace ns)
    (idle : ∀ execution, op.fires m = some execution → execution.sequenceNamespace ≠ ns) :
    ReflTransGen (Lane.Step ns .aside) (m.lane ns) ((m.step op).lane ns) ∨
      ∃ id, Lane.Deliver ns (m.lane ns) id ((m.step op).lane ns) := by
  cases op with
  | deliver env id answer =>
      rcases lane_deliver reachable.wf env id answer
        (isolated.earlier (step_trace m (.deliver env id answer))) with same | delivered
      · exact .inl ((same : (m.step (.deliver env id answer)).lane ns = _) ▸ .refl)
      · exact .inr ⟨id, delivered⟩
  | abort id answer =>
      rcases lane_abort reachable.wf id answer
        (isolated.earlier (step_trace m (.abort id answer))) with same | failed
      · exact .inl ((same : (m.step (.abort id answer)).lane ns = _) ▸ .refl)
      · exact .inr ⟨id, failed.deliver⟩
  | timeout id =>
      obtain ⟨ℓ, chain, same | step⟩ := lane_timeout m id ns
      · exact .inl ((same : (m.step (.timeout id)).lane ns = _) ▸ chain)
      · exact absurd (congrArg (fun c : Contract => c.automationRuns.get ns) (m.timeout_contract id))
          (started_of_release auto chain step).2
  | transact env method =>
      obtain ⟨ℓ, chain, same | step⟩ := lane_transact reachable.wf env method isolated
      · exact .inl ((same : (m.step (.transact env method)).lane ns = _) ▸ chain)
      · obtain ⟨running, started⟩ := started_of_release auto chain step
        cases called : m.call env method with
        | error message =>
            have refused : m.transact env method = m := step_refused called
            rw [refused] at started
            exact absurd rfl started
        | ok m' =>
            have accepted : m.transact env method = m' := step_transact called
            rw [accepted] at running started
            rcases call_row called ns with ⟨execution, fires, same, -⟩ | kept | ⟨gone, -⟩
            · exact absurd same (idle execution fires)
            · exact absurd kept started
            · refine absurd (fun run stored => ?_) running
              rw [gone] at stored
              cases stored

/-- Nothing happens in the lane of an automation namespace before its first fire. -/
theorem Reachable.lane_unused {m : Machine} (reachable : m.Reachable) {ns : String}
    (auto : IsAutomation ns) {ops : List Op} (isolated : Isolated (m.run ops).trace ns)
    (idle : ∀ execution ∈ m.firings ops, execution.sequenceNamespace ≠ ns)
    (unused : m.lane ns = Lane.fresh) : (m.run ops).lane ns = Lane.fresh := by
  induction ops generalizing m with
  | nil => exact unused
  | cons op ops ih =>
      rw [firings_cons] at idle
      have isolated₁ := isolated.earlier (run_trace (m.step op) ops)
      refine ih (reachable.run [op]) isolated
        (fun execution inside => idle execution (List.mem_append_right _ inside)) ?_
      rcases reachable.lane_unfired auto isolated₁ (fun execution fires => idle execution
        (List.mem_append_left _ (by rw [fires]; exact List.mem_singleton_self _))) with
          chain | ⟨id, delivered⟩
      · exact asides_fresh auto (unused ▸ chain)
      · obtain ⟨f, flying⟩ := delivered.flew
        rw [unused] at flying
        cases flying

/-- One operation after the fire: the run has succeeded only if all its calls have run
through. -/
theorem Reachable.stands_step {m : Machine} (reachable : m.Reachable) {ns : String}
    (auto : IsAutomation ns) {calls : List Step} {op : Op}
    (isolated : Isolated (m.step op).trace ns)
    (idle : ∀ execution, op.fires m = some execution → execution.sequenceNamespace ≠ ns)
    (copied : Copied ns calls (m.lane ns).trace) :
    Copied ns calls ((m.step op).lane ns).trace ∧
      (Undecided ns calls (m.lane ns) → Undecided ns calls ((m.step op).lane ns) ∨
        Complete ns calls ((m.step op).lane ns) ∧ (m.step op).Succeeded ns) ∧
      (Complete ns calls (m.lane ns) → Complete ns calls ((m.step op).lane ns)) := by
  obtain ⟨tidy, -⟩ := reachable.lane_tidy (isolated.earlier (step_trace m op))
  rcases reachable.lane_unfired auto isolated idle with chain | ⟨id, delivered⟩
  · obtain ⟨-, copied', opens, completes⟩ := asides_stand auto tidy copied chain
    exact ⟨copied', fun stands => .inl (opens stands), completes⟩
  · have step : Lane.Step ns (.deliver id) (m.lane ns) ((m.step op).lane ns) := .deliver delivered
    refine ⟨copied.of_records (step.records auto tidy Lane.Kind.noConfusion), fun stands => ?_,
      fun stands => stands.step auto step Lane.Kind.noConfusion⟩
    exact (stands.step auto tidy copied step Lane.Kind.noConfusion).imp_right fun done => done.2

/-- The operations after the fire: the run succeeds in one of the states exactly if all its
calls have run through in the end. -/
theorem Reachable.stands_run {m : Machine} (reachable : m.Reachable) {ns : String}
    (auto : IsAutomation ns) {calls : List Step} {ops : List Op}
    (isolated : Isolated (m.run ops).trace ns)
    (idle : ∀ execution ∈ m.firings ops, execution.sequenceNamespace ≠ ns)
    (copied : Copied ns calls (m.lane ns).trace) :
    Copied ns calls ((m.run ops).lane ns).trace ∧ (Undecided ns calls (m.lane ns) →
      (Undecided ns calls ((m.run ops).lane ns) ∧
          ∀ earlier, earlier <+: ops → ¬ (m.run earlier).Succeeded ns) ∨
        Complete ns calls ((m.run ops).lane ns) ∧
          ∃ earlier, earlier <+: ops ∧ (m.run earlier).Succeeded ns) ∧
      (Complete ns calls (m.lane ns) → Complete ns calls ((m.run ops).lane ns)) := by
  induction ops generalizing m with
  | nil =>
      refine ⟨copied, fun stands => .inl ⟨stands, fun earlier short => ?_⟩, fun stands => stands⟩
      rw [List.prefix_nil.mp short]
      exact stands.unsuccessful auto
  | cons op ops ih =>
      rw [firings_cons] at idle
      have isolated₁ := isolated.earlier (run_trace (m.step op) ops)
      obtain ⟨copied₁, opens, completes⟩ := reachable.stands_step auto isolated₁
        (fun execution fires => idle execution (List.mem_append_left _ (by
          rw [fires]
          exact List.mem_singleton_self _))) copied
      obtain ⟨copied', opens', completes'⟩ := ih (reachable.run [op]) isolated
        (fun execution inside => idle execution (List.mem_append_right _ inside)) copied₁
      refine ⟨copied', fun stands => ?_, fun stands => completes' (completes stands)⟩
      rcases opens stands with stands₁ | ⟨stands₁, succeeded⟩
      · refine (opens' stands₁).imp ?_ ?_
        · intro ⟨stands', never⟩
          refine ⟨stands', fun earlier short => ?_⟩
          rcases List.prefix_cons_iff.mp short with rfl | ⟨rest, rfl, shorter⟩
          · exact stands.unsuccessful auto
          · exact never rest shorter
        · intro ⟨stands', earlier, short, succeeded⟩
          exact ⟨stands', op :: earlier, List.prefix_cons_inj op |>.mpr short, succeeded⟩
      · exact .inr ⟨completes' stands₁, [op], List.prefix_cons_inj op |>.mpr (List.nil_prefix),
          succeeded⟩

end Machine

/-- A namespace that fires once and shares no key with another: its run succeeds if and only if
every call of the template as it was stored at the fire was dispatched exactly once, in order,
each after an Ok of the one before, and all of them resolved Ok. -/
theorem run_succeeds_iff (host : Host) (ownerId : AccountId) (authorizerId : Option AccountId)
    (before after : List Op) {op : Op} {execution : Machine.TriggerExecution}
    {template : SequenceTemplate}
    (fires : op.fires ((Machine.init host ownerId authorizerId).run before) = some execution)
    (known : ((Machine.init host ownerId authorizerId).run
      before).contract.sequenceTemplates.get execution.sequenceId = some template)
    (once : ((Machine.init host ownerId authorizerId).firings (before ++ op :: after)).countP
      (fun other => other.sequenceNamespace = execution.sequenceNamespace) = 1)
    (isolated : Isolated ((Machine.init host ownerId authorizerId).run
      (before ++ op :: after)).trace execution.sequenceNamespace) :
    (∃ earlier, earlier <+: after ∧ ((Machine.init host ownerId authorizerId).run
        (before ++ op :: earlier)).Succeeded execution.sequenceNamespace) ↔
      RanThrough execution.sequenceNamespace template.calls
        ((Machine.init host ownerId authorizerId).run (before ++ op :: after)).trace := by
  have reachable := Machine.Reachable.init host ownerId authorizerId
  have empty := Machine.lane_init host ownerId authorizerId execution.sequenceNamespace
  generalize Machine.init host ownerId authorizerId = m₀ at *
  have auto : IsAutomation execution.sequenceNamespace := by
    cases (m₀.run before).step_counting op with
    | fires execution' fired named next counted =>
        obtain rfl := Option.some.inj (fires.symm.trans fired)
        exact ⟨_, _, named⟩
    | creates idle created accepted others => cases idle.symm.trans fires
    | keeps idle kept => cases idle.symm.trans fires
  rw [Machine.firings_append, Machine.firings_cons, fires, List.countP_append,
    List.countP_append] at once
  have own : ((some execution).toList).countP (fun other =>
      decide (other.sequenceNamespace = execution.sequenceNamespace)) = 1 := by
    simp
  rw [Machine.run_append, Machine.run_cons] at isolated ⊢
  have isolated₁ := isolated.earlier (Machine.run_trace _ after)
  have isolated₀ := isolated₁.earlier (Machine.step_trace _ op)
  have unfired : ∀ fired : List Machine.TriggerExecution, fired.countP (fun other =>
      decide (other.sequenceNamespace = execution.sequenceNamespace)) = 0 →
      ∀ other ∈ fired, other.sequenceNamespace ≠ execution.sequenceNamespace := by
    intro fired none other inside
    simpa using List.countP_eq_zero.mp none other inside
  have unused := reachable.lane_unused auto isolated₀ (unfired _ (by omega)) empty
  have reached := reachable.run before
  obtain ⟨id, call, advancing, copied⟩ := reached.run_starts fires known isolated₁ unused
  have reached₁ : ((m₀.run before).step op).Reachable := reached.run [op]
  obtain ⟨copied', stands, -⟩ := reached₁.stands_run auto isolated (unfired _ (by omega)) copied
  have milestones : ((((m₀.run before).step op).run after).lane
      execution.sequenceNamespace).trace.milestones execution.sequenceNamespace =
        (((m₀.run before).step op).run after).trace.milestones execution.sequenceNamespace :=
    Trace.milestones_filter _ _
  have runs : ∀ earlier, m₀.run (before ++ op :: earlier) =
      ((m₀.run before).step op).run earlier := fun earlier => by
    rw [Machine.run_append, Machine.run_cons]
  simp only [runs]
  rcases stands (.advancing advancing) with ⟨unfinished, never⟩ | ⟨complete, earlier, short, done⟩
  · constructor
    · intro ⟨earlier, short, succeeded⟩
      exact absurd succeeded (never earlier short)
    · intro through
      obtain ⟨call, inside, unresolved⟩ := unfinished.unresolved copied'
      rw [milestones] at unresolved
      exact absurd (Trace.resolvedOk_iff.mp (through.resolved call inside)) unresolved
  · exact ⟨fun _ => .of_told copied'.distinct (milestones ▸ complete.tells),
      fun _ => ⟨earlier, short, done⟩⟩

/-- Both steps of a run are resumed, dispatched and resolved Ok. -/
def bothSteps : List Op :=
  [.deliver aliceEnv 0 okResult, .deliver aliceEnv 0 okResult, .deliver aliceEnv 1 okResult,
    .deliver aliceEnv 1 okResult]

theorem run_succeeds_iff_two_steps :
    (∃ earlier, earlier <+: bothSteps ∧ (deployed.run
      ([.transact aliceEnv (.saveSequenceTemplate "plan" [plainStep "a", plainStep "b"]),
        .transact aliceEnv (.createBalanceTrigger "daily" "plan" 0 5)] ++
          fire :: earlier)).Succeeded "auto:daily:1") ↔
      RanThrough "auto:daily:1" [plainStep "a", plainStep "b"] (deployed.run
        ([.transact aliceEnv (.saveSequenceTemplate "plan" [plainStep "a", plainStep "b"]),
          .transact aliceEnv (.createBalanceTrigger "daily" "plan" 0 5)] ++
            fire :: bothSteps)).trace := by
  have started : ((fire.fires (armed [plainStep "a", plainStep "b"])).map fun execution =>
      (execution.sequenceNamespace, execution.sequenceId)) = some ("auto:daily:1", "plan") := by
    decide
  obtain ⟨execution, fires, named⟩ := Option.map_eq_some_iff.mp started
  obtain ⟨ns, sequence⟩ := Prod.mk.inj named
  have known : (armed [plainStep "a", plainStep "b"]).contract.sequenceTemplates.get
      execution.sequenceId = some ⟨[plainStep "a", plainStep "b"], 0, 0⟩ := by
    rw [sequence]
    decide
  rw [← ns]
  refine run_succeeds_iff aliceHost alice none _ bothSteps fires known ?_ (.of_alone ?_)
  · rw [ns]
    decide
  · rw [ns]
    decide

/-! ## A run that succeeds with another template's step -/

/-- Three triggers whose ids extend one another past a `#`; the first one fires. -/
def collidingTriggers : List Op :=
  [.transact aliceEnv (.saveSequenceTemplate "first" [plainStep "a"]),
    .transact aliceEnv (.saveSequenceTemplate "second"
      [{ plainStep "b:1#x" with methodName := "withdraw" }]),
    .transact aliceEnv (.saveSequenceTemplate "third" [plainStep "x"]),
    .transact aliceEnv (.createBalanceTrigger "p" "first" 0 5),
    .transact aliceEnv (.createBalanceTrigger "p:1#a" "second" 0 5),
    .transact aliceEnv (.createBalanceTrigger "p:1#a:1#b" "third" 0 5),
    .transact aliceEnv (.executeTrigger "p")]

/-- The third trigger fires. -/
def thirdFire : Op := .transact aliceEnv (.executeTrigger "p:1#a:1#b")

/-- The end of the first run clears the third one's step, and the second trigger registers its
own under the same key. -/
def crossedRuns : List Op :=
  [.deliver aliceEnv 0 okResult, .deliver aliceEnv 0 okResult,
    .transact aliceEnv (.executeTrigger "p:1#a"), .deliver aliceEnv 1 okResult,
    .deliver aliceEnv 1 okResult]

/-- The third run succeeds with the second template's step dispatched in place of its own. -/
theorem foreign_step_succeeds : ¬ ∀ (host : Host) (ownerId : AccountId)
    (authorizerId : Option AccountId) (before after : List Op) (op : Op)
    (execution : Machine.TriggerExecution) (template : SequenceTemplate),
    op.fires ((Machine.init host ownerId authorizerId).run before) = some execution →
    ((Machine.init host ownerId authorizerId).run before).contract.sequenceTemplates.get
      execution.sequenceId = some template →
    ((Machine.init host ownerId authorizerId).firings (before ++ op :: after)).countP
      (fun other => other.sequenceNamespace = execution.sequenceNamespace) = 1 →
    ((∃ earlier, earlier <+: after ∧ ((Machine.init host ownerId authorizerId).run
        (before ++ op :: earlier)).Succeeded execution.sequenceNamespace) ↔
      RanThrough execution.sequenceNamespace template.calls
        ((Machine.init host ownerId authorizerId).run (before ++ op :: after)).trace) := by
  intro always
  have started : ((thirdFire.fires (deployed.run collidingTriggers)).map fun execution =>
      (execution.sequenceNamespace, execution.sequenceId)) =
        some ("auto:p:1#a:1#b:1", "third") := by
    decide
  obtain ⟨execution, fires, named⟩ := Option.map_eq_some_iff.mp started
  obtain ⟨ns, sequence⟩ := Prod.mk.inj named
  have known : (deployed.run collidingTriggers).contract.sequenceTemplates.get
      execution.sequenceId = some ⟨[plainStep "x"], 0, 0⟩ := by
    rw [sequence]
    decide
  have sound := always aliceHost alice none collidingTriggers crossedRuns thirdFire execution _
    fires known (by rw [ns]; decide)
  rw [ns] at sound
  have succeeded : ((deployed.run (collidingTriggers ++ thirdFire ::
      crossedRuns)).contract.automationRuns.get "auto:p:1#a:1#b:1").map AutomationRun.status =
        some .succeeded := by
    decide
  obtain ⟨run, stored, status⟩ := Option.map_eq_some_iff.mp succeeded
  have through := sound.mp ⟨crossedRuns, List.prefix_refl _, run, stored, status⟩
  have foreign : (deployed.run (collidingTriggers ++ thirdFire :: crossedRuns)).trace.dispatches
      "auto:p:1#a:1#b:1" = [{ plainStep "b:1#x" with methodName := "withdraw" }] := by
    decide
  have dispatched := foreign.symm.trans through.dispatched
  simp [plainStep] at dispatched

end SmartAccount
