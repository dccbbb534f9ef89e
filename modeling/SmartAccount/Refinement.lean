import SmartAccount.Fates
import SmartAccount.Projection

/-!
# Machine steps as lane steps

A machine step moves the lane of an isolated namespace by lane steps
(`lane_transact`, `lane_timeout`, `lane_deliver`), so whatever lane steps preserve
holds of that lane in every reachable machine (`lane_run_induct`).
-/

namespace SmartAccount

open Foundation Function

/-- A remark decides nothing. -/
theorem Event.isVerdict_of_isRemark {event : Event} (remark : event.isRemark = true) :
    event.isVerdict = false := by
  cases event <;> first | rfl | cases remark

namespace Machine

/-! ## Registration -/

/-- Registering a step under the lane's namespace. -/
theorem lane_withRegistered (env : Env) (m : Machine) (ns : String) (call : Step) :
    (m.withRegistered env ns call).lane ns =
      (m.lane ns).register ns ⟨m.pool.next, call, env.now⟩
        (resumeCallbackGas call + env.spareGas) := by
  unfold withRegistered
  rw [lane_emit_of_not rfl, lane_note_of_concerns (by
    simp [TraceEvent.concerns, TraceEvent.sequenceNamespace])]
  simp only [Lane.register, Lane.note, Lane.putFlight, lane, storeStep, withContract, getStep,
    Lane.mk.injEq, true_and, and_true]
  constructor
  · funext stepId
    rw [IterableMap.get_insert]
    by_cases same : stepId = call.stepId
    · rw [if_pos (congrArg _ same), same, update_self]
    · rw [if_neg fun eq => same (registeredStepKey_inj.mp eq), update_of_ne same]
  · funext id
    rw [Pool.get_create]
    by_cases same : id = m.pool.next
    · rw [if_pos same, same, update_self, Option.filter_some]
      simp [Flight.addressedTo, Callback.sequenceNamespace]
    · rw [if_neg same, update_of_ne same]

theorem canRegister {env : Env} {m : Machine} (wf : Wf m) {ns : String} {call : Step}
    (absent : m.getStep ns call.stepId = none) :
    Lane.CanRegister ns (m.lane ns) ⟨m.pool.next, call, env.now⟩
      (resumeCallbackGas call + env.spareGas) where
  absent := absent
  free := by
    show (m.pool.get m.pool.next).filter _ = none
    rw [Pool.get_next, Option.filter_none]
  new call' gas member :=
    absurd (wf.known _ _ _ _ (List.mem_filter.mp member).1) (Nat.lt_irrefl _)
  enough := Nat.le_add_right _ _

/-- Registering a step under a namespace that shares no key. -/
theorem lane_withRegistered_other (env : Env) {m : Machine} {ns ns' : String} (call : Step)
    (separate : Separate ns ns') : (m.withRegistered env ns' call).lane ns = m.lane ns := by
  have other : ns' ≠ ns := fun same => not_separate_self ns (same ▸ separate)
  unfold withRegistered
  rw [lane_emit_of_not rfl, lane_note_of_not (TraceEvent.concerns_of_ne rfl other)]
  simp only [lane, storeStep, withContract, getStep, Lane.mk.injEq, true_and, and_true]
  constructor
  · funext stepId
    rw [IterableMap.get_insert_of_ne _ _ (separate _ _)]
  · funext id
    rw [Pool.get_create]
    by_cases same : id = m.pool.next
    · rw [if_pos same, same, Pool.get_next, Option.filter_some, Option.filter_none]
      simp [Flight.addressedTo, Callback.sequenceNamespace, other]
    · rw [if_neg same]

theorem withRegistered_trace (env : Env) (m : Machine) (ns : String) (call : Step) :
    m.trace <+: (m.withRegistered env ns call).trace := by
  simp [withRegistered, emit, note, storeStep, withContract]

/-- Registering a plan under the lane's namespace. -/
theorem lane_registerSteps {env : Env} {m m' : Machine} (wf : Wf m) {ns : String}
    (created : IsManual ns ∨ IsAutomation ns) {calls : List Step}
    (registered : m.registerSteps env ns calls = .ok m') :
    ∃ copies : List (RegisteredStep × Nat), (copies.map fun copy => copy.1.call) = calls ∧
      Lane.Registers ns copies (m.lane ns) (m'.lane ns) := by
  induction calls generalizing m with
  | nil =>
      rw [registerSteps_nil.mp registered]
      exact ⟨[], rfl, .nil⟩
  | cons call calls ih =>
      obtain ⟨absent, rest⟩ := registerSteps_cons.mp registered
      obtain ⟨copies, same, chain⟩ := ih (wf.withRegistered call created) rest
      rw [lane_withRegistered] at chain
      exact ⟨(⟨m.pool.next, call, env.now⟩, resumeCallbackGas call + env.spareGas) :: copies,
        congrArg _ same, .cons (canRegister wf absent) chain⟩

theorem lane_registerSteps_other {env : Env} {m m' : Machine} {ns ns' : String}
    (separate : Separate ns ns') {calls : List Step}
    (registered : m.registerSteps env ns' calls = .ok m') : m'.lane ns = m.lane ns := by
  induction calls generalizing m with
  | nil => rw [registerSteps_nil.mp registered]
  | cons call calls ih =>
      obtain ⟨_, rest⟩ := registerSteps_cons.mp registered
      rw [ih rest, lane_withRegistered_other env call separate]

theorem registerSteps_trace {env : Env} {m m' : Machine} {ns : String} {calls : List Step}
    (registered : m.registerSteps env ns calls = .ok m') : m.trace <+: m'.trace := by
  induction calls generalizing m with
  | nil => exact registerSteps_nil.mp registered ▸ List.prefix_refl _
  | cons call calls ih =>
      obtain ⟨_, rest⟩ := registerSteps_cons.mp registered
      exact (withRegistered_trace env m ns call).trans (ih rest)

/-! ## Release -/

theorem lane_noteResumed (m : Machine) (ns stepId : String) (yieldId : YieldId) :
    (m.noteResumed ns stepId yieldId).lane ns =
      (m.lane ns).note (.resumed ns (Trace.releaseCount (m.lane ns).trace ns - 1)
        (Trace.resumeCount (m.lane ns).trace ns (Trace.releaseCount (m.lane ns).trace ns - 1))
        stepId yieldId) := by
  unfold noteResumed
  rw [lane_note_of_concerns (by simp [TraceEvent.concerns, TraceEvent.sequenceNamespace])]
  simp only [lane, Lane.releaseCount_filter, Lane.resumeCount_filter]

/-- Resuming the next step of the lane's namespace. -/
theorem lane_resumeRegisteredStep {m m' : Machine} (wf : Wf m) {ns stepId : String}
    (isolated : Isolated m.trace ns) (resumed : m.resumeRegisteredStep ns stepId = .ok m') :
    ∃ yielded thens, m.getStep ns stepId = some yielded ∧
      (m.lane ns).flight yielded.yieldId = some ⟨.yielded, thens⟩ ∧
      m'.lane ns = (m.lane ns).resume ns stepId yielded.yieldId thens := by
  obtain ⟨yielded, woken, stored, revived, rfl⟩ := resumeRegisteredStep_ok.mp resumed
  obtain ⟨thens, flying, rfl⟩ := resumeYield_eq_some.mp revived
  obtain ⟨⟨gas, member⟩, -⟩ := wf.registered_of_getStep isolated stored
  obtain ⟨nonempty, addressed⟩ := wf.addressed_of_registered member flying
  have own : Flight.addressedTo ns ⟨.yielded, thens⟩ = true := by
    rw [Flight.addressedTo_of_all nonempty addressed]
    exact decide_eq_true rfl
  refine ⟨yielded, thens, stored, ?_, ?_⟩
  · show (m.pool.get yielded.yieldId).filter _ = _
    rw [flying, Option.filter_some, if_pos own]
  · rw [lane_noteResumed, lane_updateHead _ ns flying, if_pos own]
    rfl

theorem lane_withQueued (m : Machine) (ns : String) (rest : List String)
    (idle : m.contract.sequenceQueue.get ns = none) :
    (m.withQueued ns rest).lane ns = (m.lane ns).setQueue rest := by
  unfold withQueued
  split
  · rename_i nonempty
    exact lane_setQueue m ns nonempty
  · rename_i empty
    simp [Lane.setQueue, lane, idle, not_not.mp empty]

theorem withQueued_writes (m : Machine) (ns : String) (rest : List String) :
    Writes ns m (m.withQueued ns rest) := by
  unfold withQueued
  split
  · exact .single (.setQueue _)
  · exact .refl

/-- An accepted release of the lane's namespace. -/
theorem lane_startSequenceRelease {m m' : Machine} (wf : Wf m) {ns : String}
    {order : List String} {n : Nat} (isolated : Isolated m.trace ns)
    (accepted : m.startSequenceReleaseInNamespace ns order = .ok (m', n)) :
    Lane.Release ns order (m.lane ns) (m'.lane ns) := by
  obtain ⟨first, rest, resumed, rfl, idle, known, woken, rfl, _⟩ :=
    startSequenceRelease_ok accepted
  have queued : Writes ns m ((m.withQueued ns rest).note (.released ns (first :: rest))) :=
    (withQueued_writes m ns rest).tail (.note _ rfl rfl)
  have keeps := Keeps.of_writes queued
  have isolated' : Isolated ((m.withQueued ns rest).note (.released ns (first :: rest))).trace
      ns := fun ns' id call gas member =>
    isolated ns' id call gas ((keeps.registered ns' id call gas).mp member)
  obtain ⟨yielded, thens, stored, dormant, eq⟩ :=
    lane_resumeRegisteredStep (wf.of_keeps keeps) isolated' woken
  have same : ((m.withQueued ns rest).note (.released ns (first :: rest))).lane ns =
      ((m.lane ns).setQueue rest).note (.released ns (first :: rest)) := by
    rw [lane_note_of_concerns (by simp [TraceEvent.concerns, TraceEvent.sequenceNamespace]),
      lane_withQueued m ns rest idle]
  rw [same] at dormant eq
  have stored' : (m.lane ns).step first = some yielded := by
    have through := congrArg (fun ℓ => Lane.step ℓ first) same
    exact through.symm.trans stored
  rw [lane_emit_of_not rfl, eq]
  exact .mk rfl idle known stored' dormant

/-! ## Callbacks -/

/-- What a callback returned, as an effect on the lane. -/
def Lands (ns : String) (id : Nat) (ℓ : Lane) (callback : Callback) (result : PromiseResult)
    (m' : Machine) : PromiseOrValue → Prop
  | .value bytes =>
      Lane.Effect ns id ℓ callback result (m'.lane ns) (.done (.successful bytes)) []
  | .promise p =>
      Lane.Effect ns id ℓ callback result ((m'.lane ns).note (.called ns id p.call))
        (.call p.call) p.thens

/-- Dispatching a cleared step, or halting on its arguments. -/
theorem lands_materializeAndDispatch {env : Env} {m m₀ : Machine} {ns stepId : String} {id : Nat}
    {callback : Callback} {result : PromiseResult} {yielded : RegisteredStep}
    (executing : m.executing = some id) (same : m.lane ns = m₀.lane ns)
    (stored : m₀.getStep ns stepId = some yielded)
    (cleared : Lane.Cleared ns yielded stepId callback result)
    (cause : callback = .onStepResumed ns stepId ∨ callback = .onPreGateChecked ns stepId) :
    Lands ns id (m₀.lane ns) callback result (m.materializeAndDispatch env ns stepId yielded).1
      (m.materializeAndDispatch env ns stepId yielded).2 := by
  unfold materializeAndDispatch
  split
  · unfold haltSequenceOnMaterializeFailure
    show Lane.Effect ns id _ _ _ ((m.haltSequence env ns stepId _ _).lane ns) _ _
    rw [lane_haltSequence env m ns stepId _ executing rfl, same]
    exact .halted cause stored (.inr rfl) rfl
  · rename_i effective materialized
    have shape : effective = { yielded.call with args := effective.args } :=
      materializeStepCall_ok materialized
    show Lane.Effect ns id _ _ _ (((m.note _).lane ns).note _) _ _
    rw [lane_note_of_concerns (by simp [TraceEvent.concerns, TraceEvent.sequenceNamespace]),
      same]
    exact .dispatched stored cleared (by rw [← shape])

theorem lands_onStepResumed {env : Env} {m : Machine} {ns stepId : String} {id : Nat}
    {signal : PromiseResult} (executing : m.executing = some id) :
    Lands ns id (m.lane ns) (.onStepResumed ns stepId) signal
      (m.onStepResumed env ns stepId signal).1 (m.onStepResumed env ns stepId signal).2 := by
  unfold onStepResumed
  split
  · rename_i absent
    exact .asleep absent
  · rename_i yielded stored
    split
    · show Lane.Effect ns id _ _ _ ((m.haltSequence env ns stepId _ _).lane ns) _ _
      rw [lane_haltSequence env m ns stepId _ executing rfl]
      exact .halted (.inl rfl) stored (.inl rfl) rfl
    · simp only
      split
      · rename_i preGate gate
        show Lane.Effect ns id _ _ _ (((m.emit _).lane ns).note _) _ _
        rw [lane_emit_of_not rfl]
        exact .gated stored gate rfl
      · rename_i ungated
        exact lands_materializeAndDispatch executing (lane_emit_of_not rfl) stored
          (.ungated ungated) (.inl rfl)

theorem lands_onPreGateChecked {env : Env} {m : Machine} {ns stepId : String} {id : Nat}
    {result : PromiseResult} (executing : m.executing = some id) :
    Lands ns id (m.lane ns) (.onPreGateChecked ns stepId) result
      (m.onPreGateChecked env ns stepId result).1
      (m.onPreGateChecked env ns stepId result).2 := by
  have refused : ∀ (event : Event) (registeredAtMs : Nat) (reason : String)
      (yielded : RegisteredStep), event.isVerdict = false →
      m.getStep ns stepId = some yielded →
      Lane.Effect ns id (m.lane ns) (.onPreGateChecked ns stepId) result
        (((m.emit event).haltSequenceOnPreGateFailure env ns stepId registeredAtMs reason).lane
          ns) (.done resumeSignal) [] := by
    intro event registeredAtMs reason yielded plain stored
    unfold haltSequenceOnPreGateFailure
    have running : (m.emit event).executing = some id := executing
    rw [lane_haltSequence env (m.emit event) ns stepId _ running rfl, lane_emit_of_not plain]
    exact .halted (.inr rfl) stored (.inr rfl) rfl
  unfold onPreGateChecked
  split
  · rename_i absent
    exact .unchecked fun yielded stored => absurd (stored.symm.trans absent) nofun
  · rename_i yielded stored
    split
    · rename_i ungated
      refine .unchecked fun yielded' stored' => ?_
      rw [Option.some.inj (stored'.symm.trans stored), ungated]
    · rename_i preGate gate
      split
      · exact refused _ _ _ yielded rfl stored
      · rename_i bytes small
        simp only
        split
        · rename_i inRange
          have verdict := PreGateOutcome.matched_iff.mp inRange
          exact lands_materializeAndDispatch executing (lane_emit_of_not rfl) stored
            (.inRange gate small verdict) (.inr rfl)
        · exact refused _ _ _ yielded rfl stored

/-- Taking the next step off a nonempty queue. -/
theorem takeNextQueuedStep_cons {c : Contract} {ns next : String} {waiting : List String}
    (queued : c.sequenceQueue.get ns = some (next :: waiting)) :
    c.takeNextQueuedStep ns = (some next, { c with
      sequenceQueue :=
        if waiting = [] then c.sequenceQueue.remove ns
        else c.sequenceQueue.insert ns waiting }) := by
  unfold Contract.takeNextQueuedStep
  cases waiting with
  | nil => simp [queued]
  | cons step rest => simp [queued]

/-- There is no next step on an empty or absent queue. -/
theorem takeNextQueuedStep_drained {c : Contract} {ns : String}
    (drained : c.sequenceQueue.get ns = none ∨ c.sequenceQueue.get ns = some []) :
    ∃ c', c.takeNextQueuedStep ns = (none, c') ∧
      (c' = c ∨ c' = { c with sequenceQueue := c.sequenceQueue.remove ns }) := by
  unfold Contract.takeNextQueuedStep
  rcases drained with absent | empty
  · exact ⟨c, by simp [absent], .inl rfl⟩
  · exact ⟨_, by simp only [empty], .inr rfl⟩

theorem lane_takeNext (m : Machine) (ns : String) (waiting : List String) :
    (m.withContract { m.contract with
      sequenceQueue :=
        if waiting = [] then m.contract.sequenceQueue.remove ns
        else m.contract.sequenceQueue.insert ns waiting }).lane ns =
          (m.lane ns).setQueue waiting := by
  by_cases last : waiting = []
  · simp only [if_pos last]
    rw [last]
    exact lane_removeQueue m ns
  · simp only [if_neg last]
    exact lane_setQueue m ns last

theorem lane_drained {m : Machine} {ns : String} {c' : Contract}
    (drained : m.contract.sequenceQueue.get ns = none ∨ m.contract.sequenceQueue.get ns = some [])
    (taken : m.contract.takeNextQueuedStep ns = (none, c')) :
    (m.withContract c').lane ns = (m.lane ns).setQueue [] := by
  obtain ⟨c₁, eq, rfl | rfl⟩ := takeNextQueuedStep_drained drained
  · rw [eq] at taken
    cases taken
    rcases drained with absent | empty
    · simp [lane, Lane.setQueue, withContract, getStep, absent]
    · unfold Contract.takeNextQueuedStep at eq
      rw [empty] at eq
      have through := congrArg (fun pair => (Prod.snd pair).sequenceQueue.get ns) eq
      simp [empty] at through
  · rw [eq] at taken
    cases taken
    exact lane_removeQueue m ns

/-- Progress after a step resolved successfully. -/
theorem effect_progress {env : Env} {m : Machine} {ns stepId : String} {id : Nat} {ℓ : Lane}
    {result : PromiseResult} {bytes : Bytes} (wf : Wf m) (isolated : Isolated m.trace ns)
    (executing : m.executing = some id) (same : m.lane ns = ℓ.dropStep stepId)
    (small : result.checked = .ok bytes) (call : Option CallMetadata) (registeredAtMs : Nat) :
    Lane.Effect ns id ℓ (.onStepResolved ns stepId) result
      ((m.progressSequenceAfterSuccessfulResolution env ns stepId bytes.length call
        registeredAtMs).lane ns) (.done (.successful [])) [] := by
  have queue : ℓ.queue = m.contract.sequenceQueue.get ns := (congrArg Lane.queue same).symm
  unfold progressSequenceAfterSuccessfulResolution
  rcases queued : m.contract.sequenceQueue.get ns with _ | _ | ⟨next, waiting⟩
  case some.cons =>
    rw [takeNextQueuedStep_cons queued]
    simp only
    -- the queue without its head, and the announcement, which the lane does not keep
    generalize takenEq : (m.withContract _).emit _ = taken
    have takenLane : taken.lane ns = (ℓ.dropStep stepId).setQueue waiting := by
      rw [← takenEq, lane_emit_of_not rfl, lane_takeNext, same]
    have takenKeeps : Keeps m taken := by
      rw [← takenEq]
      refine .trans (.withContract ?_ ?_) (.note _ rfl)
      · exact fun _ _ stored => stored
      · exact fun _ run stored => ⟨run, stored⟩
    have takenExecuting : taken.executing = some id := takenEq ▸ executing
    split
    · rename_i resumed woken
      have isolated' : Isolated taken.trace ns := fun ns' id call gas member =>
        isolated ns' id call gas ((takenKeeps.registered ns' id call gas).mp member)
      obtain ⟨yielded, thens, stored, dormant, eq⟩ :=
        lane_resumeRegisteredStep (wf.of_keeps takenKeeps) isolated' woken
      have stored' : (taken.lane ns).step next = some yielded := stored
      rw [takenLane] at stored' dormant eq
      have other : next ≠ stepId := by
        rintro rfl
        simp [Lane.setQueue, Lane.dropStep] at stored'
      rw [eq]
      refine .advanced small (queue.trans queued) other ?_ dormant
      simpa [Lane.setQueue, Lane.dropStep, update_of_ne other] using stored'
    · rename_i message _
      unfold haltOnResumeFailure
      rw [lane_emit_verdict rfl rfl, lane_finishAutomationRun, lane_clearContext,
        lane_removeQueue, takenLane]
      have running : ((taken.removeQueue ns).clearContext ns).executing = some id :=
        takenExecuting
      have running' : (finishAutomationRun env ((taken.removeQueue ns).clearContext ns) ns
          .resumeFailed (some next)).executing = some id := by
        unfold finishAutomationRun
        split
        · exact running
        · split <;> exact running
      rw [running, running']
      exact .stuck small (queue.trans queued) rfl
  all_goals
    have drained : m.contract.sequenceQueue.get ns = none ∨
        m.contract.sequenceQueue.get ns = some [] := by simp [queued]
    obtain ⟨c', taken, -⟩ := takeNextQueuedStep_drained drained
    rw [taken]
    simp only
    rw [lane_clearContext, lane_finishAutomationRun, lane_emit_verdict rfl rfl,
      lane_emit_of_not rfl, lane_drained drained taken, same]
    have running : ∀ event, ((m.withContract c').emit event).executing = some id :=
      fun _ => executing
    have running' : ∀ event event',
        (((m.withContract c').emit event).emit event').executing = some id :=
      fun _ _ => executing
    rw [running', running]
    exact .completed small (queue ▸ drained)

theorem lane_saveIfAsked (m : Machine) (ns stepId : String) (saveSpec : Option SaveResult)
    (bytes : Bytes) : (m.saveIfAsked ns stepId saveSpec bytes).lane ns = m.lane ns := by
  unfold saveIfAsked
  split
  · unfold saveStepResult
    rw [lane_emit_of_not rfl, lane_saveResult]
  · rfl

theorem executing_saveIfAsked (m : Machine) (ns stepId : String) (saveSpec : Option SaveResult)
    (bytes : Bytes) : (m.saveIfAsked ns stepId saveSpec bytes).executing = m.executing := by
  unfold saveIfAsked
  split <;> rfl

theorem lands_onStepResolved {env : Env} {m : Machine} {ns stepId : String} {id : Nat}
    {result : PromiseResult} (wf : Wf m) (isolated : Isolated m.trace ns)
    (executing : m.executing = some id) :
    Lands ns id (m.lane ns) (.onStepResolved ns stepId) result
      (m.onStepResolved env ns stepId result) (.value []) := by
  show Lane.Effect ns id _ _ _ ((m.onStepResolved env ns stepId result).lane ns) _ _
  unfold onStepResolved
  simp only
  split
  · rename_i bytes small
    -- saving a result changes nothing the lane keeps
    have saved : Writes ns (m.removeStep ns stepId) _ := .saveIfAsked _ ns stepId
      ((m.getStep ns stepId).bind fun y => y.call.saveResult) bytes
    have keeps := (Keeps.of_write (.removeStep stepId)).trans (.of_writes saved)
    exact effect_progress (wf.of_keeps keeps)
      (fun ns' id call gas member =>
        isolated ns' id call gas ((keeps.registered ns' id call gas).mp member))
      (executing_saveIfAsked _ ns stepId _ bytes |>.trans executing)
      ((lane_saveIfAsked _ ns stepId _ bytes).trans (lane_removeStep m ns stepId)) small _ _
  · rename_i error failure
    have running : ((m.removeStep ns stepId).removeQueue ns |>.clearContext ns).executing =
      some id := executing
    rw [lane_emit_of_not rfl, lane_finishAutomationRun, lane_clearContext, lane_removeQueue,
      lane_removeStep, running]
    exact .failed failure

/-- Every callback lands on the lane it is addressed to. -/
theorem lands_runCallback {env : Env} {m m' : Machine} {ns : String} {id : Nat}
    {callback : Callback} {result : PromiseResult} {out : PromiseOrValue} (wf : Wf m)
    (isolated : Isolated m.trace ns) (executing : m.executing = some id)
    (own : callback.sequenceNamespace = ns)
    (ran : m.runCallback env callback result = .ok (m', out)) :
    Lands ns id (m.lane ns) callback result m' out := by
  subst own
  cases callback with
  | onStepResumed ns stepId =>
      have pair : m.onStepResumed env ns stepId result = (m', out) := Except.ok.inj ran
      have lands : Lands ns id (m.lane ns) (.onStepResumed ns stepId) result
          (m.onStepResumed env ns stepId result).1 (m.onStepResumed env ns stepId result).2 :=
        lands_onStepResumed executing
      rwa [pair] at lands
  | onPreGateChecked ns stepId =>
      have pair : m.onPreGateChecked env ns stepId result = (m', out) := Except.ok.inj ran
      have lands : Lands ns id (m.lane ns) (.onPreGateChecked ns stepId) result
          (m.onPreGateChecked env ns stepId result).1 (m.onPreGateChecked env ns stepId result).2 :=
        lands_onPreGateChecked executing
      rwa [pair] at lands
  | onAssertedRunPostcheck ns stepId assertionId method args expected gas =>
      obtain ⟨p, posted, eq⟩ := bind_eq_ok.mp ran
      cases eq
      obtain ⟨⟨bytes, small⟩, built⟩ := onAssertedRunPostcheck_ok posted
      exact .posted small built
  | onAssertedEvaluatePostcheck ns stepId expected =>
      obtain ⟨checked, matched, eq⟩ := bind_eq_ok.mp ran
      cases eq
      obtain ⟨equal, rfl⟩ := onAssertedEvaluatePostcheck_ok matched
      show Lane.Effect ns id _ _ _ ((m.emit _).lane ns) _ _
      rw [lane_emit_of_not rfl]
      exact .matched equal
  | onStepResolved ns stepId =>
      cases ran
      exact lands_onStepResolved wf isolated executing

/-! ## Deliveries -/

/-- An attempt fails with its callback, or where the host does not create its promise. -/
theorem attempt_error {env : Env} {m : Machine} {id : Nat} {t : Then} {result : PromiseResult}
    {panic : Panic} (failed : m.attempt env id t result = .error panic) :
    ({ m with executing := some id }.note (.delivered id t.callback result)).runCallback env
        t.callback result = .error panic ∨
      ∃ m' p, ({ m with executing := some id }.note (.delivered id t.callback result)).runCallback
        env t.callback result = .ok (m', .promise p) ∧
          (env.accountBalance < p.call.depositYocto ∨ t.gasTgas ≤ p.staticGas) := by
  unfold attempt at failed
  simp only at failed
  cases ran : ({ m with executing := some id }.note
      (.delivered id t.callback result)).runCallback env t.callback result with
  | error panic' =>
      rw [ran] at failed
      exact .inl failed
  | ok pair =>
      obtain ⟨m', out⟩ := pair
      rw [ran] at failed
      simp only [bind, Except.bind] at failed
      split at failed
      · cases failed
      · rename_i message refused
        cases out with
        | value bytes => cases refused
        | promise p =>
            refine .inr ⟨m', p, rfl, ?_⟩
            by_contra enough
            rw [not_or, Nat.not_lt, Nat.not_le] at enough
            rw [PromiseOrValue.refusal_promise.mpr enough] at refused
            cases refused

/-- What a failing callback logged decides nothing. -/
theorem attempt_logs {env : Env} {m : Machine} {id : Nat} {t : Then} {result : PromiseResult}
    {panic : Panic} (failed : m.attempt env id t result = .error panic) :
    ∀ event ∈ panic.logged, event.isVerdict = false :=
  fun event inside => Event.isVerdict_of_isRemark ((attempt_panics failed).2 event inside).1

theorem lane_emits {ns : String} {events : List Event} (m : Machine)
    (plain : ∀ event ∈ events, event.isVerdict = false) :
    (events.foldl emit m).lane ns = m.lane ns := by
  induction events generalizing m with
  | nil => rfl
  | cons event events ih =>
      rw [List.foldl_cons, ih _ fun e inside => plain e (List.mem_cons_of_mem _ inside),
        lane_emit_of_not (plain event (List.mem_cons_self ..))]

theorem lane_rollBack {m : Machine} {ns : String} (id : Nat) {t : Then} (result : PromiseResult)
    {panic : Panic} (own : t.callback.sequenceNamespace = ns)
    (plain : ∀ event ∈ panic.logged, event.isVerdict = false) :
    (m.rollBack id t result panic).lane ns =
      (m.lane ns).note (.rolledBack id t.callback result) := by
  unfold rollBack
  rw [lane_emits _ plain, lane_note_of_concerns]
  · rfl
  · simp [TraceEvent.concerns, TraceEvent.sequenceNamespace, own]

theorem lane_rollBack_other {m : Machine} {ns ns' : String} (id : Nat) {t : Then}
    (result : PromiseResult) {panic : Panic} (own : t.callback.sequenceNamespace = ns')
    (other : ns' ≠ ns) (plain : ∀ event ∈ panic.logged, event.isVerdict = false) :
    (m.rollBack id t result panic).lane ns = m.lane ns := by
  have about : TraceEvent.sequenceNamespace (.rolledBack id t.callback result) = some ns' :=
    congrArg some own
  unfold rollBack
  rw [lane_emits _ plain, lane_note_of_not (TraceEvent.concerns_of_ne about other)]
  rfl

theorem lane_delivered {m : Machine} {ns : String} (id : Nat) {callback : Callback}
    (result : PromiseResult) (own : callback.sequenceNamespace = ns) :
    ({ m with executing := some id }.note (.delivered id callback result)).lane ns =
      (m.lane ns).note (.delivered id callback result) := by
  rw [lane_note_of_concerns]
  · rfl
  · simp [TraceEvent.concerns, TraceEvent.sequenceNamespace, own]

/-- A flight whose callbacks are all addressed to the namespace is its lane's. -/
theorem lane_flight_of_addressed {m : Machine} {ns : String} {id : Nat} {f : Flight}
    (stored : m.pool.get id = some f) (nonempty : f.thens ≠ [])
    (addressed : ∀ t ∈ f.thens, t.callback.sequenceNamespace = ns) :
    (m.lane ns).flight id = some f := by
  show (m.pool.get id).filter _ = _
  rw [stored, Option.filter_some, Flight.addressedTo_of_all nonempty addressed]
  simp

theorem lane_flight_of_not (m : Machine) (ns : String) {id : Nat} (gone : m.pool.get id = none) :
    (m.lane ns).flight id = none := by
  show (m.pool.get id).filter _ = none
  rw [gone]
  rfl

/-- A callback of the lane's namespace that failed. -/
theorem lane_rolledBack {m : Machine} {ns : String} {id : Nat} {head : Head} {t : Then}
    {rest : List Then} (stored : m.pool.get id = some ⟨head, t :: rest⟩)
    (addressed : ∀ t' ∈ t :: rest, t'.callback.sequenceNamespace = ns) (result : PromiseResult)
    {panic : Panic} (plain : ∀ event ∈ panic.logged, event.isVerdict = false) :
    ((m.rollBack id t result panic).settle id ⟨.done .failed, rest⟩).lane ns =
      ((m.lane ns).note (.rolledBack id t.callback result)).settle id ⟨.done .failed, rest⟩ := by
  obtain ⟨f, stored', _⟩ := (Keeps.rollBack m id t result panic).flying stored
  rw [lane_settle stored' fun t' inside => addressed t' (List.mem_cons_of_mem _ inside),
    lane_rollBack id result (addressed t (List.mem_cons_self ..)) plain]

/-- A delivery to a flight of the lane's namespace: the callback fails and is rolled back, or
has its effect. -/
theorem lane_runThen_cases {env : Env} {m : Machine} (wf : Wf m) {ns : String} {id : Nat}
    {head : Head} {t : Then} {rest : List Then} {result : PromiseResult}
    (isolated : Isolated m.trace ns) (stored : m.pool.get id = some ⟨head, t :: rest⟩)
    (addressed : ∀ t' ∈ t :: rest, t'.callback.sequenceNamespace = ns) :
    (∃ panic, m.attempt env id t result = .error panic ∧
      (m.runThen env id t rest result).lane ns =
        ((m.lane ns).note (.rolledBack id t.callback result)).settle id ⟨.done .failed, rest⟩) ∨
    ∃ done ℓ' head' thens, m.attempt env id t result = .ok done ∧
      Lane.Effect ns id ((m.lane ns).note (.delivered id t.callback result)) t.callback result ℓ'
        head' thens ∧
      (m.runThen env id t rest result).lane ns = ℓ'.settle id ⟨head', thens ++ rest⟩ := by
  have own : t.callback.sequenceNamespace = ns := addressed t (List.mem_cons_self ..)
  have behind : ∀ t' ∈ rest, t'.callback.sequenceNamespace = ns :=
    fun t' inside => addressed t' (List.mem_cons_of_mem _ inside)
  have keeps := Keeps.delivered m id t.callback result
  have wf' := wf.of_keeps keeps
  have isolated' : Isolated ({ m with executing := some id }.note
      (.delivered id t.callback result)).trace ns := fun ns' id' call gas member =>
    isolated ns' id' call gas ((keeps.registered ns' id' call gas).mp member)
  have lands : ∀ {m' : Machine} {out : PromiseOrValue},
      runCallback env ({ m with executing := some id }.note
        (.delivered id t.callback result)) t.callback result = .ok (m', out) →
      Lands ns id (({ m with executing := some id }.note
        (.delivered id t.callback result)).lane ns) t.callback result m' out :=
    lands_runCallback wf' isolated' rfl own
  simp only [lane_delivered id result own] at lands
  unfold runThen
  split
  · rename_i panic failed
    exact .inl ⟨panic, failed, lane_rolledBack stored addressed result (attempt_logs failed)⟩
  · rename_i m' bytes attempted
    obtain ⟨ran, _⟩ := attempt_ok.mp attempted
    obtain ⟨f, stored', _⟩ := (keeps.trans (.of_writes (.runCallback ran))).flying stored
    rw [lane_settle stored' behind]
    exact .inr ⟨_, _, _, _, attempted, lands ran, rfl⟩
  · rename_i m' p attempted
    obtain ⟨ran, _⟩ := attempt_ok.mp attempted
    obtain ⟨f, stored', _⟩ :=
      ((keeps.trans (.of_writes (.runCallback ran))).trans (.called m' _ id p.call)).flying stored
    have onward : ∀ t' ∈ p.thens ++ rest, t'.callback.sequenceNamespace = ns := by
      intro t' inside
      rcases List.mem_append.mp inside with new | old
      · exact (runCallback_addressed ran t' new).trans own
      · exact behind t' old
    rw [lane_settle stored' onward, own, lane_note_of_concerns (by
      simp [TraceEvent.concerns, TraceEvent.sequenceNamespace])]
    exact .inr ⟨_, _, _, _, attempted, lands ran, rfl⟩

/-- A delivery to a flight of the lane's namespace. -/
theorem lane_runThen {env : Env} {m : Machine} (wf : Wf m) {ns : String} {id : Nat} {head : Head}
    {t : Then} {rest : List Then} {answer result : PromiseResult}
    (isolated : Isolated m.trace ns) (stored : m.pool.get id = some ⟨head, t :: rest⟩)
    (addressed : ∀ t' ∈ t :: rest, t'.callback.sequenceNamespace = ns)
    (outcome : head.outcome answer = some result) :
    Lane.Deliver ns (m.lane ns) id ((m.runThen env id t rest result).lane ns) := by
  have due : Lane.Due (m.lane ns) id head t rest result :=
    ⟨lane_flight_of_addressed stored (List.cons_ne_nil _ _) addressed, answer, outcome⟩
  rcases lane_runThen_cases wf isolated stored addressed with
    ⟨panic, -, after⟩ | ⟨ran, ℓ', head', thens, -, effect, after⟩
  · exact after ▸ .rolledBack due
  · exact after ▸ .ran due effect

/-- A callback of a namespace that shares no key failed. -/
theorem lane_rolledBack_other {m : Machine} {ns ns' : String} {id : Nat} {head : Head} {t : Then}
    {rest : List Then} (separate : Separate ns ns')
    (stored : m.pool.get id = some ⟨head, t :: rest⟩)
    (addressed : ∀ t' ∈ t :: rest, t'.callback.sequenceNamespace = ns') (result : PromiseResult)
    {panic : Panic} (plain : ∀ event ∈ panic.logged, event.isVerdict = false) :
    ((m.rollBack id t result panic).settle id ⟨.done .failed, rest⟩).lane ns = m.lane ns := by
  have other : ns' ≠ ns := fun same => not_separate_self ns (same ▸ separate)
  obtain ⟨f, stored', thens⟩ := (Keeps.rollBack m id t result panic).flying stored
  have nonempty : f.thens ≠ [] := by
    rw [thens]
    exact List.cons_ne_nil _ _
  rw [lane_settle_other stored' nonempty (thens ▸ addressed)
      (fun t' inside => addressed t' (List.mem_cons_of_mem _ inside)) other,
    lane_rollBack_other id result (addressed t (List.mem_cons_self ..)) other plain]

/-- A delivery to a flight of a namespace that shares no key. -/
theorem lane_runThen_other {env : Env} {m : Machine} (wf : Wf m) {ns ns' : String} {id : Nat}
    {head : Head} {t : Then} {rest : List Then} {result : PromiseResult}
    (separate : Separate ns ns') (stored : m.pool.get id = some ⟨head, t :: rest⟩)
    (addressed : ∀ t' ∈ t :: rest, t'.callback.sequenceNamespace = ns') :
    (m.runThen env id t rest result).lane ns = m.lane ns := by
  have other : ns' ≠ ns := fun same => not_separate_self ns (same ▸ separate)
  have own : t.callback.sequenceNamespace = ns' := addressed t (List.mem_cons_self ..)
  have behind : ∀ t' ∈ rest, t'.callback.sequenceNamespace = ns' :=
    fun t' inside => addressed t' (List.mem_cons_of_mem _ inside)
  have keeps := Keeps.delivered m id t.callback result
  have delivered : ({ m with executing := some id }.note
      (.delivered id t.callback result)).lane ns = m.lane ns := by
    have about : TraceEvent.sequenceNamespace (.delivered id t.callback result) = some ns' :=
      congrArg some own
    rw [lane_note_of_not (TraceEvent.concerns_of_ne about other)]
    rfl
  -- settling hides the flight from this lane whatever it goes on with
  have settled : ∀ {m' : Machine} (f' : Flight), Keeps m m' →
      (∀ t' ∈ f'.thens, t'.callback.sequenceNamespace = ns') →
      (m'.settle id f').lane ns = m'.lane ns := by
    intro m' f' keeps' onward
    obtain ⟨f, stored', thens⟩ := keeps'.flying stored
    have nonempty : f.thens ≠ [] := by
      rw [thens]
      exact List.cons_ne_nil _ _
    exact lane_settle_other stored' nonempty (thens ▸ addressed) onward other
  unfold runThen
  split
  · rename_i panic failed
    exact lane_rolledBack_other separate stored addressed result (attempt_logs failed)
  · rename_i m' bytes attempted
    obtain ⟨ran, _⟩ := attempt_ok.mp attempted
    have writes := Writes.runCallback ran
    rw [settled _ (keeps.trans (.of_writes writes)) behind,
      lane_writes_other (wf.of_keeps keeps) separate (own ▸ writes), delivered]
  · rename_i m' p attempted
    obtain ⟨ran, _⟩ := attempt_ok.mp attempted
    have writes := Writes.runCallback ran
    have onward : ∀ t' ∈ p.thens ++ rest, t'.callback.sequenceNamespace = ns' := by
      intro t' inside
      rcases List.mem_append.mp inside with new | old
      · exact (runCallback_addressed ran t' new).trans own
      · exact behind t' old
    have about : TraceEvent.sequenceNamespace
        (.called t.callback.sequenceNamespace id p.call) = some ns' := congrArg some own
    rw [settled _ ((keeps.trans (.of_writes writes)).trans (.called m' _ id p.call)) onward,
      lane_note_of_not (TraceEvent.concerns_of_ne about other),
      lane_writes_other (wf.of_keeps keeps) separate (own ▸ writes), delivered]

end Machine

end SmartAccount
