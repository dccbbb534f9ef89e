import SmartAccount.TerminalRuns
import SmartAccount.Wedges
import SmartAccount.Foundation.Potential

/-!
# The cascade settles

Once nobody calls the contract any more, only timeouts and callbacks are left.  Each of them
lowers the number of deliveries that are still to come (`Machine.outstanding`): a callback that
hands on a promise has less behind it than it had itself, and resuming a yield creates nothing.
So the cascade is finite, and at its end a run of an isolated namespace has ended, because the
flight of a registered step is never given less gas than the step's budget (`Machine.Funded`).
-/

namespace SmartAccount

open Foundation

/-! ## What is still to come -/

/-- The deliveries a callback can lead to, its own included. -/
def Callback.deliveries : Callback → Nat
  | onStepResumed _ _ => 5
  | onPreGateChecked _ _ => 4
  | onAssertedRunPostcheck _ _ _ _ _ _ _ => 2
  | onAssertedEvaluatePostcheck _ _ _ => 1
  | onStepResolved _ _ => 1

def deliveriesOf (thens : List Then) : Nat := (thens.map fun t => t.callback.deliveries).sum

/-- A yield has its timeout or its resumption before it, too. -/
def Head.wait : Head → Nat
  | yielded => 1
  | _ => 0

def Flight.deliveries (f : Flight) : Nat := f.head.wait + deliveriesOf f.thens

theorem deliveriesOf_append (thens rest : List Then) :
    deliveriesOf (thens ++ rest) = deliveriesOf thens + deliveriesOf rest := by
  rw [deliveriesOf, List.map_append, List.sum_append]
  rfl

theorem deliveriesOf_cons (t : Then) (rest : List Then) :
    deliveriesOf (t :: rest) = t.callback.deliveries + deliveriesOf rest := List.sum_cons

theorem deliveriesOf_resolvedPromise (authorizerId : Option AccountId) (ns stepId : String)
    (call : Step) : deliveriesOf (resolvedPromise authorizerId ns stepId call).thens ≤ 3 := by
  unfold resolvedPromise dispatchPromiseForCall buildCallPromise
  cases call.policy <;> cases authorizerId <;>
    simp [deliveriesOf, Promise.andThen, Callback.deliveries]

theorem Callback.deliveries_pos (callback : Callback) : 0 < callback.deliveries := by
  cases callback <;> exact Nat.succ_pos _

namespace Machine

variable {env : Env} {m m' : Machine} {id : Nat}

def outstanding (m : Machine) : Nat := m.pool.total Flight.deliveries

/-- The promise of a callback has less behind it than the callback. -/
theorem runCallback_lighter {callback : Callback} {result : PromiseResult} {p : Promise}
    (ran : m.runCallback env callback result = .ok (m', .promise p)) :
    deliveriesOf p.thens < callback.deliveries := by
  cases plain : callback.isPostcheck with
  | false =>
      have builds := builds_of_runCallback plain ran
      generalize callback.sequenceNamespace = ns at builds
      cases builds with
      | gate stored gate => exact Nat.lt_succ_self 4
      | dispatch stored cleared materialized =>
          have light := deliveriesOf_resolvedPromise m.contract.authorizerId ns
          cases cleared with
          | ungated ungated => exact Nat.lt_of_le_of_lt (light _ _) (by decide : 3 < 5)
          | inRange gate small verdict => exact Nat.lt_of_le_of_lt (light _ _) (by decide : 3 < 4)
  | true =>
      cases callback with
      | onAssertedRunPostcheck ns stepId assertionId method args expected gas =>
          obtain ⟨q, posted, same⟩ := bind_eq_ok.mp ran
          cases same
          obtain ⟨-, rfl⟩ := onAssertedRunPostcheck_ok posted
          exact Nat.lt_succ_self 1
      | onAssertedEvaluatePostcheck ns stepId expected =>
          obtain ⟨checked, -, same⟩ := bind_eq_ok.mp ran
          cases same
      | onStepResumed ns stepId => cases plain
      | onPreGateChecked ns stepId => cases plain
      | onStepResolved ns stepId => cases plain

/-! ## One step -/

/-- No flight came into being, and none has more to come. -/
structure Lighter (m m' : Machine) : Prop where
  next : m'.pool.next = m.pool.next
  weights : ∀ id, m'.pool.weigh Flight.deliveries id ≤ m.pool.weigh Flight.deliveries id

theorem Lighter.of_pool (same : m'.pool = m.pool) : Lighter m m' where
  next := by rw [same]
  weights _ := by rw [same]

theorem Lighter.trans {m₁ m₂ m₃ : Machine} (first : Lighter m₁ m₂) (second : Lighter m₂ m₃) :
    Lighter m₁ m₃ where
  next := second.next.trans first.next
  weights id := (second.weights id).trans (first.weights id)

theorem Lighter.of_write {ns : String} (write : Write ns m m') : Lighter m m' := by
  cases write with
  | resume stored resumed =>
      obtain ⟨thens, flying, rfl⟩ := resumeYield_eq_some.mp resumed
      refine ⟨rfl, fun id => ?_⟩
      show (m.pool.update _ _).weigh _ id ≤ _
      rw [Pool.weigh_update flying]
      split
      · rename_i same
        subst same
        rw [Pool.weigh_of_get flying]
        exact Nat.add_le_add_right (Nat.zero_le _) _
      · exact Nat.le_refl _
  | note event about plain => exact of_pool rfl
  | removeStep stepId => exact of_pool rfl
  | setQueue waiting => exact of_pool rfl
  | removeQueue => exact of_pool rfl
  | clearContext => exact of_pool rfl
  | saveResult spec bytes => exact of_pool rfl
  | finishRun stored running closing => exact of_pool rfl
  | clearNamespace => exact of_pool rfl

theorem Lighter.of_writes {ns : String} (writes : Writes ns m m') : Lighter m m' := by
  induction writes with
  | refl => exact of_pool rfl
  | tail _ last ih => exact ih.trans (of_write last)

/-- A flight that goes on with less behind it lowers what is to come. -/
theorem outstanding_settle (lighter : Lighter m m') {f f' : Flight}
    (flying : m.pool.get id = some f) (flying' : (m'.pool.get id).isSome)
    (less : f'.deliveries < f.deliveries) :
    (m'.settle id f').pool.next = m.pool.next ∧ (m'.settle id f').outstanding < m.outstanding := by
  have settled : ∀ id', (m'.settle id f').pool.weigh Flight.deliveries id' ≤
      if id' = id then f'.deliveries else m'.pool.weigh Flight.deliveries id' := by
    intro id'
    unfold settle
    dsimp only
    split
    · rw [Pool.weigh_remove]
      split
      · exact Nat.zero_le _
      · exact Nat.le_refl _
    · obtain ⟨g, stored⟩ := Option.isSome_iff_exists.mp flying'
      rw [Pool.weigh_update stored]
  have here : (m'.settle id f').pool.weigh Flight.deliveries id <
      m.pool.weigh Flight.deliveries id := by
    have bound := settled id
    rw [if_pos rfl] at bound
    rw [Pool.weigh_of_get flying]
    omega
  have next : (m'.settle id f').pool.next = m.pool.next := by
    have same : (m'.settle id f').pool.next = m'.pool.next := by
      unfold settle
      dsimp only
      split <;> rfl
    exact same.trans lighter.next
  refine ⟨next, Pool.total_lt next (fun id' => ?_) here⟩
  by_cases same : id' = id
  · subst same
    exact Nat.le_of_lt here
  · have bound := settled id'
    rw [if_neg same] at bound
    exact bound.trans (lighter.weights id')

/-- A callback that fails lowers what is to come. -/
theorem outstanding_rollBack {head : Head} {t : Then} {rest : List Then} {result : PromiseResult}
    {panic : Panic} (flying : m.pool.get id = some ⟨head, t :: rest⟩) :
    ((m.rollBack id t result panic).settle id ⟨.done .failed, rest⟩).pool.next = m.pool.next ∧
      ((m.rollBack id t result panic).settle id ⟨.done .failed, rest⟩).outstanding <
        m.outstanding := by
  obtain ⟨f, stored, -⟩ := (Keeps.rollBack m id t result panic).flying flying
  have positive := t.callback.deliveries_pos
  refine outstanding_settle (.of_pool ?_) flying (Option.isSome_of_eq_some stored) ?_
  · rw [rollBack_eq]
  · simp only [Flight.deliveries, Head.wait, deliveriesOf_cons]
    omega

/-- A callback that runs lowers what is to come. -/
theorem outstanding_runThen {head : Head} {t : Then} {rest : List Then} {result : PromiseResult}
    (flying : m.pool.get id = some ⟨head, t :: rest⟩) :
    (m.runThen env id t rest result).pool.next = m.pool.next ∧
      (m.runThen env id t rest result).outstanding < m.outstanding := by
  have onward : ∀ {m' : Machine} {f' : Flight}, Lighter m m' → Keeps m m' →
      f'.deliveries < t.callback.deliveries + deliveriesOf rest →
      (m'.settle id f').pool.next = m.pool.next ∧
        (m'.settle id f').outstanding < m.outstanding := by
    intro m' f' lighter keeps less
    obtain ⟨f, stored, -⟩ := keeps.flying flying
    refine outstanding_settle lighter flying (Option.isSome_of_eq_some stored) ?_
    show f'.deliveries < head.wait + deliveriesOf (t :: rest)
    rw [deliveriesOf_cons]
    omega
  have delivered : Lighter m ({ m with executing := some id }.note
      (.delivered id t.callback result)) := .of_pool rfl
  have kept := Keeps.delivered m id t.callback result
  have positive := t.callback.deliveries_pos
  unfold runThen
  split
  · exact outstanding_rollBack flying
  · rename_i m' bytes attempted
    obtain ⟨ran, -⟩ := attempt_ok.mp attempted
    refine onward (delivered.trans (.of_writes (.runCallback ran)))
      (kept.trans (.of_writes (.runCallback ran))) ?_
    simp only [Flight.deliveries, Head.wait]
    omega
  · rename_i m' p attempted
    obtain ⟨ran, -⟩ := attempt_ok.mp attempted
    have lighter : Lighter m m' := delivered.trans (.of_writes (.runCallback ran))
    refine onward (lighter.trans (.of_pool rfl))
      ((kept.trans (.of_writes (.runCallback ran))).trans (.note m' rfl)) ?_
    have less := runCallback_lighter ran
    simp only [Flight.deliveries, Head.wait, deliveriesOf_append]
    omega

/-! ## Public calls -/

/-- What became of the flights is paid for by the flights that were created. -/
def Fed (m m' : Machine) : Prop :=
  m'.outstanding + 6 * m.pool.next ≤ m.outstanding + 6 * m'.pool.next

theorem Fed.of_lighter (lighter : Lighter m m') : Fed m m' := by
  have less : m'.outstanding ≤ m.outstanding := Pool.total_mono lighter.next lighter.weights
  rw [Fed, lighter.next]
  omega

theorem Fed.of_pool (same : m'.pool = m.pool) : Fed m m' := .of_lighter (.of_pool same)

theorem Fed.trans {m₁ m₂ m₃ : Machine} (first : Fed m₁ m₂) (second : Fed m₂ m₃) :
    Fed m₁ m₃ := by
  unfold Fed at first second ⊢
  omega

theorem Fed.withRegistered (env : Env) (m : Machine) (ns : String) (call : Step) :
    Fed m (m.withRegistered env ns call) := by
  have created : (m.withRegistered env ns call).outstanding = m.outstanding + 6 :=
    Pool.total_create m.pool _
  have next : (m.withRegistered env ns call).pool.next = m.pool.next + 1 := rfl
  rw [Fed, created, next]
  omega

theorem Fed.registerSteps {ns : String} {calls : List Step}
    (registered : m.registerSteps env ns calls = .ok m') : Fed m m' := by
  induction calls generalizing m with
  | nil => exact registerSteps_nil.mp registered ▸ .of_pool rfl
  | cons call calls ih =>
      exact (Fed.withRegistered env m ns call).trans (ih (registerSteps_cons.mp registered).2)

theorem Fed.of_accepted (accepted : Accepted env m m') : Fed m m' := by
  cases accepted with
  | aside aside edit => exact .of_pool aside.pool
  | pruned =>
      refine .of_pool ?_
      unfold pruneFinishedAutomationRuns
      dsimp only
      split <;> rfl
  | registered caller call valid registered =>
      obtain ⟨_, rfl⟩ := registerStepInNamespace_ok.mp registered
      exact .withRegistered env m _ call
  | released caller calls order valid registered released =>
      exact (Fed.registerSteps registered).trans
        (.of_lighter (.of_writes (startSequenceRelease_writes released)))
  | fired triggerId authorized stored known checked registered released =>
      rename_i m₁ m₂ m₃ n trigger template
      have begun : Fed m m₂ :=
        (Fed.of_pool (authorizeFire_aside authorized).1.pool).trans (Fed.registerSteps registered)
      have emitted : ∀ event, Fed m₂ (m₂.emit event) := fun _ => .of_pool rfl
      have woken := Fed.of_lighter (.of_writes (startSequenceRelease_writes released))
      exact (begun.trans ((emitted _).trans woken)).trans (.of_pool rfl)

/-! ## Moves -/

/-- The next callback of the flight can run: its call may be answered, or its outcome is known. -/
def awaits (m : Machine) (id : Nat) : Bool :=
  match m.pool.get id with
  | some ⟨.call _, _⟩ => true
  | some ⟨.done _, _⟩ => true
  | _ => false

/-- A flight changes, by a timeout or a callback. -/
def moves (m : Machine) : Op → Bool
  | .transact _ _ => false
  | .timeout id =>
      match m.pool.get id with
      | some ⟨.yielded, _⟩ => true
      | _ => false
  | .deliver _ id _ => m.awaits id
  | .abort id _ => m.awaits id

theorem timeout_still (still : m.moves (.timeout id) = false) : m.timeout id = m := by
  simp only [moves] at still
  unfold timeout
  split
  · rename_i thens flying
    rw [flying] at still
    cases still
  · rfl

theorem outcome_of_awaits {answer : PromiseResult} {head : Head} {thens : List Then}
    (flying : m.pool.get id = some ⟨head, thens⟩) :
    m.awaits id = (head.outcome answer).isSome := by
  unfold awaits
  rw [flying]
  cases head <;> rfl

theorem deliver_still {answer : PromiseResult} (still : m.moves (.deliver env id answer) = false) :
    m.deliver env id answer = m := by
  rcases m.deliver_cases env id answer with same | ⟨head, t, rest, result, flying, outcome, -⟩
  · exact same
  · have awaits : m.awaits id = true := by
      rw [outcome_of_awaits flying, outcome, Option.isSome_some]
    rw [moves, awaits] at still
    cases still

theorem abort_still {answer : PromiseResult} (still : m.moves (.abort id answer) = false) :
    m.abort id answer = m := by
  rcases m.abort_cases id answer with same | ⟨head, t, rest, result, -, flying, outcome, -, -⟩
  · exact same
  · have awaits : m.awaits id = true := by
      rw [outcome_of_awaits flying, outcome, Option.isSome_some]
    rw [moves, awaits] at still
    cases still

theorem timeout_lower (moving : m.moves (.timeout id) = true) :
    (m.timeout id).pool.next = m.pool.next ∧ (m.timeout id).outstanding < m.outstanding := by
  simp only [moves] at moving
  split at moving
  · rename_i thens flying
    have timed : m.timeout id = { m with pool := m.pool.update id ⟨.done .failed, thens⟩ } := by
      unfold timeout
      rw [flying]
    rw [timed]
    refine ⟨rfl, Pool.total_update_lt flying ?_⟩
    simp only [Flight.deliveries, Head.wait]
    omega
  · cases moving

/-- Where the next callback can run, there is one. -/
theorem due_of_awaits (wf : Wf m) (awaits : m.awaits id = true) (answer : PromiseResult) :
    ∃ head t rest result, m.pool.get id = some ⟨head, t :: rest⟩ ∧
      head.outcome answer = some result := by
  cases flying : m.pool.get id with
  | none =>
      rw [Machine.awaits, flying] at awaits
      cases awaits
  | some f =>
      obtain ⟨head, thens⟩ := f
      rw [outcome_of_awaits flying] at awaits
      obtain ⟨result, outcome⟩ := Option.isSome_iff_exists.mp awaits
      cases thens with
      | nil => exact absurd rfl (wf.flying id _ flying).1
      | cons t rest => exact ⟨head, t, rest, result, rfl, outcome⟩

theorem deliver_lower (wf : Wf m) {answer : PromiseResult}
    (moving : m.moves (.deliver env id answer) = true) :
    (m.deliver env id answer).pool.next = m.pool.next ∧
      (m.deliver env id answer).outstanding < m.outstanding := by
  obtain ⟨head, t, rest, result, flying, outcome⟩ := due_of_awaits wf moving answer
  have ran : m.deliver env id answer = m.runThen env id t rest result := by
    simp only [deliver, flying, outcome]
  rw [ran]
  exact outstanding_runThen flying

theorem abort_lower (wf : Wf m) {answer : PromiseResult}
    (moving : m.moves (.abort id answer) = true) :
    (m.abort id answer).pool.next = m.pool.next ∧
      (m.abort id answer).outstanding < m.outstanding := by
  obtain ⟨head, t, rest, result, flying, outcome⟩ := due_of_awaits wf moving answer
  have ended : m.abort id answer = (m.rollBack id t result
      { message := "The host ended the callback." }).settle id ⟨.done .failed, rest⟩ := by
    simp only [abort, flying, outcome]
  rw [ended]
  exact outstanding_rollBack flying

/-- Timeouts and callbacks lower what is outstanding; a call adds six deliveries for each flight
it creates. -/
theorem pays : Pays step moves Wf outstanding fun m => 6 * m.pool.next where
  kept _ op wf := wf.step op
  lower m op wf moving := by
    cases op with
    | transact env method => cases moving
    | timeout id =>
        obtain ⟨next, less⟩ := timeout_lower moving
        exact ⟨less, Nat.le_of_eq (congrArg (6 * ·) next.symm)⟩
    | deliver env id answer =>
        obtain ⟨next, less⟩ := deliver_lower wf moving
        exact ⟨less, Nat.le_of_eq (congrArg (6 * ·) next.symm)⟩
    | abort id answer =>
        obtain ⟨next, less⟩ := abort_lower wf moving
        exact ⟨less, Nat.le_of_eq (congrArg (6 * ·) next.symm)⟩
  still m op _ still := by
    cases op with
    | transact env method =>
        show (m.transact env method).outstanding + _ ≤ _ + 6 * (m.transact env method).pool.next
        unfold transact
        split
        · rename_i m' accepted
          exact Fed.of_accepted (.of_call accepted)
        · exact Nat.le_refl _
    | timeout id => exact Nat.le_of_eq (by rw [step, timeout_still still])
    | deliver env id answer => exact Nat.le_of_eq (by rw [step, deliver_still still])
    | abort id answer => exact Nat.le_of_eq (by rw [step, abort_still still])

/-! ## Rest -/

/-- At rest nothing is outstanding. -/
theorem get_of_rest (rest : AtRest moves m) (id : Nat) : m.pool.get id = none := by
  cases flying : m.pool.get id with
  | none => rfl
  | some f =>
      obtain ⟨head, thens⟩ := f
      have timed := rest (.timeout id)
      have delivered := rest (.deliver aliceEnv id okResult)
      simp only [moves, awaits, flying] at timed delivered
      cases head with
      | yielded => cases timed
      | call fc => cases delivered
      | done result => cases delivered

/-- Nothing is left of the namespace's run: it is finished, the contract stores nothing for it, and
the trigger that fired it can fire again. -/
structure Ended (m : Machine) (ns : String) : Prop where
  finished : m.RunOver ns
  bare : m.Bare ns
  ready : ∀ triggerId trigger, m.contract.balanceTriggers.get triggerId = some trigger →
    trigger.lastRunNamespace = some ns → trigger.inFlight = false

/-- With nothing outstanding, a run that is not wedged has ended. -/
theorem ended_of_rest (reachable : m.Reachable) (rest : AtRest moves m) {ns : String}
    (auto : IsAutomation ns) (isolated : Isolated m.trace ns) (unwedged : m.Unwedged ns) :
    m.Ended ns := by
  have nothing : ¬ m.Pending ns := by
    rintro ⟨stepId, yielded, head, t, behind, -, flying, -⟩
    rw [get_of_rest rest] at flying
    cases flying
  have finished : m.RunOver ns := fun run stored running =>
    nothing (unwedged.runs ⟨run, stored, running⟩)
  refine ⟨finished, reachable.bare auto isolated finished, fun triggerId trigger stored last => ?_⟩
  cases waiting : trigger.inFlight with
  | false => rfl
  | true => exact absurd (unwedged.triggers triggerId trigger stored waiting last) nothing

end Machine

/-! ## Gas -/

theorem Budgeted.about {ns : String} {call : Step} {t : Then} (budgeted : Budgeted ns call t) :
    t.callback.sequenceNamespace = ns ∧ t.callback.stepId = call.stepId := by
  cases budgeted <;> exact ⟨rfl, rfl⟩

namespace Machine

variable {env : Env} {m m' : Machine}

/-- The callbacks are a step's own, and none is given less gas than its budget. -/
def FundedFor (ns : String) (call : Step) (thens : List Then) : Prop :=
  ∀ t ∈ thens, ∃ gas, gas ≤ t.gasTgas ∧ Budgeted ns call ⟨t.callback, gas⟩

/-- The flight of every registered step is funded for the step. -/
def Funded (m : Machine) : Prop :=
  ∀ key yielded f, m.contract.registeredSteps.get key = some yielded →
    m.pool.get yielded.yieldId = some f →
      ∃ ns, key = registeredStepKey ns yielded.call.stepId ∧
        FundedFor ns yielded.call f.thens

theorem Funded.of_keeps (funded : m.Funded) (keeps : Keeps m m') : m'.Funded := by
  intro key yielded f stored flying
  obtain ⟨f₀, flying₀, same⟩ := keeps.flew flying
  exact same ▸ funded key yielded f₀ (keeps.steps key yielded stored) flying₀

theorem Funded.withRegistered (funded : m.Funded) (wf : Wf m) (env : Env) (ns : String)
    (call : Step) : (m.withRegistered env ns call).Funded := by
  intro key yielded f stored flying
  have stored' : (m.contract.registeredSteps.insert (registeredStepKey ns call.stepId)
      ⟨m.pool.next, call, env.now⟩).get key = some yielded := stored
  have flying' : (m.pool.create ⟨.yielded, [⟨.onStepResumed ns call.stepId,
      resumeCallbackGas call + env.spareGas⟩]⟩).get yielded.yieldId = some f := flying
  rw [IterableMap.get_insert] at stored'
  rw [Pool.get_create] at flying'
  split at stored'
  · rename_i same
    cases stored'
    rw [if_pos rfl] at flying'
    cases flying'
    refine ⟨ns, same, fun t inside => ⟨resumeCallbackGas call, ?_, ?_⟩⟩
    · rw [List.mem_singleton.mp inside]
      exact Nat.le_add_right _ _
    · rw [List.mem_singleton.mp inside]
      exact .resumed
  · obtain ⟨ns', gas, member, -⟩ := wf.stored key yielded stored'
    rw [if_neg (Nat.ne_of_lt (wf.known _ _ _ _ member))] at flying'
    exact funded key yielded f stored' flying'

/-- What the promise of a step's own callback has behind it is funded again. -/
theorem FundedFor.promise {ns : String} {call : Step} {t : Then} {rest : List Then}
    {result : PromiseResult} {p : Promise} (funded : FundedFor ns call (t :: rest))
    (holds : m.Holds ns call) (ran : m.runCallback env t.callback result = .ok (m', .promise p)) :
    FundedFor ns call (p.thens ++ rest) := by
  obtain ⟨gas, -, budgeted⟩ := funded t List.mem_cons_self
  have creates := budgeted.creates holds ran
  intro t' inside
  rcases List.mem_append.mp inside with new | old
  · exact ⟨t'.gasTgas, Nat.le_refl _, creates.behind new⟩
  · exact funded t' (List.mem_cons_of_mem _ old)

/-- Settling on callbacks that are funded where the old ones were. -/
theorem Funded.settle (funded : m.Funded) {id : Nat} {head : Head} {thens : List Then}
    (flying : m.pool.get id = some ⟨head, thens⟩) (f' : Flight) (keeps : Keeps m m')
    (again : ∀ key yielded ns, m.contract.registeredSteps.get key = some yielded →
      key = registeredStepKey ns yielded.call.stepId →
      FundedFor ns yielded.call thens → FundedFor ns yielded.call f'.thens) :
    (m'.settle id f').Funded := by
  intro key yielded f stored there
  have stored' : m'.contract.registeredSteps.get key = some yielded := stored
  have there' : (if f'.thens = [] then m'.pool.remove id else m'.pool.update id f').get
      yielded.yieldId = some f := there
  by_cases same : yielded.yieldId = id
  · subst same
    obtain ⟨ns, eq, own⟩ := funded key yielded _ (keeps.steps key yielded stored') flying
    refine ⟨ns, eq, ?_⟩
    split at there'
    · rw [Pool.get_remove, if_pos rfl] at there'
      cases there'
    · obtain ⟨g, present, -⟩ := keeps.flying flying
      rw [Pool.get_update_self present] at there'
      cases there'
      exact again key yielded ns (keeps.steps key yielded stored') eq own
  · refine funded.of_keeps keeps key yielded f stored' ?_
    split at there'
    · rwa [Pool.get_remove, if_neg same] at there'
    · rwa [Pool.get_update_of_ne _ _ same] at there'

theorem Funded.rollBack (funded : m.Funded) {id : Nat} {head : Head} {t : Then} {rest : List Then}
    (flying : m.pool.get id = some ⟨head, t :: rest⟩) (result : PromiseResult) (panic : Panic) :
    ((m.rollBack id t result panic).settle id ⟨.done .failed, rest⟩).Funded :=
  funded.settle flying _ (.rollBack m id t result panic)
    fun _ _ _ _ _ own t' inside => own t' (List.mem_cons_of_mem _ inside)

theorem Funded.runThen (funded : m.Funded) {id : Nat} {head : Head} {t : Then} {rest : List Then}
    {result : PromiseResult} (flying : m.pool.get id = some ⟨head, t :: rest⟩) :
    (m.runThen env id t rest result).Funded := by
  have delivered := Keeps.delivered m id t.callback result
  unfold Machine.runThen
  split
  · rename_i panic _
    exact funded.rollBack flying result panic
  · rename_i m' bytes attempted
    obtain ⟨ran, -⟩ := attempt_ok.mp attempted
    exact funded.settle flying _ (delivered.trans (.of_writes (.runCallback ran)))
      fun _ _ _ _ _ own t' inside => own t' (List.mem_cons_of_mem _ inside)
  · rename_i m' p attempted
    obtain ⟨ran, -⟩ := attempt_ok.mp attempted
    have kept := delivered.trans (.of_writes (.runCallback ran))
    refine funded.settle flying _ (kept.trans (.note m' rfl)) fun key yielded ns stored eq own =>
      own.promise ⟨yielded.yieldId, yielded.createdAtMs, ?_⟩ ran
    rw [eq] at stored
    exact stored

theorem Funded.registerSteps (funded : m.Funded) (wf : Wf m) {ns : String} {calls : List Step}
    (created : IsManual ns ∨ IsAutomation ns)
    (registered : m.registerSteps env ns calls = .ok m') : m'.Funded := by
  induction calls generalizing m with
  | nil => exact registerSteps_nil.mp registered ▸ funded
  | cons call calls ih =>
      exact ih (funded.withRegistered wf env ns call) (wf.withRegistered call created)
        (registerSteps_cons.mp registered).2

theorem Funded.of_accepted (funded : m.Funded) (wf : Wf m) (accepted : Accepted env m m') :
    m'.Funded := by
  cases accepted with
  | aside aside edit => exact funded.of_keeps (.of_aside aside)
  | pruned =>
      intro key yielded f stored flying
      have kept : (m.pruneFinishedAutomationRuns.1).contract.registeredSteps =
          m.contract.registeredSteps ∧ (m.pruneFinishedAutomationRuns.1).pool = m.pool := by
        unfold pruneFinishedAutomationRuns
        dsimp only
        split
        · exact ⟨rfl, rfl⟩
        · exact ⟨rfl, rfl⟩
      exact funded key yielded f (kept.1 ▸ stored) (kept.2 ▸ flying)
  | registered caller call valid registered =>
      obtain ⟨_, rfl⟩ := registerStepInNamespace_ok.mp registered
      exact funded.withRegistered wf env _ call
  | released caller calls order valid registered released =>
      exact (funded.registerSteps wf (.inl ⟨caller, rfl⟩) registered).of_keeps
        (.of_writes (startSequenceRelease_writes released))
  | fired triggerId authorized stored known checked registered released =>
      rename_i m₁ m₂ m₃ n trigger template
      have aside := (authorizeFire_aside authorized).1
      have woken : m₃.Funded :=
        ((((funded.of_keeps (.of_aside aside)).registerSteps (wf.of_keeps (.of_aside aside))
          (.inr ⟨_, _, rfl⟩) registered).of_keeps (.note _ rfl)).of_keeps
            (.of_writes (startSequenceRelease_writes released)))
      exact fun key yielded f stored flying => woken key yielded f stored flying

theorem Reachable.funded (reachable : m.Reachable) : m.Funded := by
  have both : Wf m ∧ m.Funded := by
    refine reachable.induct (motive := fun m => Wf m ∧ m.Funded)
      (fun host ownerId authorizerId => ⟨Wf.init .., ?_⟩) fun m op ⟨wf, funded⟩ => ⟨wf.step op, ?_⟩
    · intro key yielded f stored
      cases stored
    · cases op with
      | transact env method =>
          show (m.transact env method).Funded
          unfold transact
          split
          · rename_i m' accepted
            exact funded.of_accepted wf (.of_call accepted)
          · exact funded
      | timeout id =>
          show (m.timeout id).Funded
          unfold timeout
          split
          · rename_i thens flying
            exact funded.of_keeps (.updateHead _ flying)
          · exact funded
      | deliver env id answer =>
          rcases m.deliver_cases env id answer with same | ⟨head, t, rest, result, flying, -, ran⟩
          · exact (congrArg Funded same).mpr funded
          · exact (congrArg Funded ran).mpr (funded.runThen flying)
      | abort id answer =>
          rcases m.abort_cases id answer with
            same | ⟨head, t, rest, result, panic, flying, -, -, ended⟩
          · exact (congrArg Funded same).mpr funded
          · exact (congrArg Funded ended).mpr (funded.rollBack flying result panic)
  exact both.2

/-- The gate leaves `on_step_resumed` some of the policy's overhead to run on, and the call behind
it is never made. -/
def GateSpares (call : Step) : Prop :=
  ∀ preGate, call.preGate = some preGate →
    preGate.gateGasTgas + 5 < adapterOverheadTgas call.policy ∧ ¬ Dispatchable preGate call

/-- Every gate registered under the namespace spares some of its step's gas. -/
def GatesSpare (m : Machine) (ns : String) : Prop :=
  ∀ id call gas, .registered ns id call gas ∈ m.trace → GateSpares call

/-- What the host lets the last callbacks of the namespace do: the account can pay what the step
attaches that is delivered to, and no last callback is ended. -/
def Serves (ns : String) (m : Machine) : Op → Prop
  | .deliver env id _ => ∀ stepId yielded, m.getStep ns stepId = some yielded →
      yielded.yieldId = id → yielded.call.attachedDepositYocto ≤ env.accountBalance
  | .abort id answer => ¬ m.LastDue ns id answer
  | _ => True

/-- The last callback of a step whose gate spares some gas is given more than it creates. -/
theorem Builds.spares {ns : String} {call : Step} {t : Then} {result : PromiseResult} {p : Promise}
    (builds : m.Builds ns t.callback result p) (budgeted : Budgeted ns call t)
    (holds : m.Holds ns call) (gateSpares : GateSpares call) :
    p.call.depositYocto ≤ call.attachedDepositYocto ∧ p.staticGas < t.gasTgas := by
  obtain ⟨m', ran⟩ := builds.ran aliceEnv
  have creates := budgeted.creates holds ran
  cases budgeted with
  | resumed =>
      cases creates with
      | gate gated =>
          obtain ⟨paid, -⟩ := gateSpares _ gated
          refine ⟨Nat.zero_le _, ?_⟩
          rw [staticGas_gatePromise]
          simp only [resumeCallbackGas, preGateCheckCallbackGasTgas, stepResolveCallbackGasTgas,
            stepResumeOverheadTgas]
          omega
      | dispatched ungated materialized =>
          rename_i authorizerId c effective
          have hop := hopGas_le authorizerId
          refine ⟨Nat.le_of_eq (depositYocto_materialized materialized ..), ?_⟩
          rw [staticGas_materialized materialized]
          simp only [resumeCallbackGas, stepResolveCallbackGasTgas, stepResumeOverheadTgas]
          omega
  | gateChecked gated =>
      cases creates with
      | passed gated' small matched materialized =>
          obtain ⟨-, never⟩ := gateSpares _ gated'
          exact absurd ⟨⟨_, small, matched⟩, _, _, _, materialized⟩ never
  | postcheckRun assertionId assertionMethod assertionArgs expectedReturn assertionGasTgas =>
      cases builds with
      | dispatch stored cleared materialized => cases cleared
  | postcheckEvaluated expectedReturn => cases creates
  | resolved => cases creates

/-- No last callback that the host serves leaves a run whose gates spare gas without anything
outstanding. -/
theorem not_strands (reachable : m.Reachable) {ns : String} (isolated : Isolated m.trace ns)
    (unwedged : m.Unwedged ns) (spare : m.GatesSpare ns) {op : Op} (served : m.Serves ns op) :
    ¬ m.Strands ns op := by
  rintro ⟨running, id, failing, others⟩
  cases op with
  | transact env method => exact failing
  | timeout id' => exact failing
  | abort id' answer =>
      obtain ⟨rfl, due⟩ := failing
      exact served due
  | deliver env id' answer =>
      obtain ⟨rfl, head, t, result, p, flying, -, builds, short⟩ := failing
      -- what the run has outstanding is this flight
      obtain ⟨stepId, yielded, head', t', rest, stored, own, rfl, rfl⟩ := unwedged.runs running
      by_cases same : yielded.yieldId = id'
      · subst same
        obtain ⟨rfl, rfl, rfl⟩ : head' = head ∧ t' = t ∧ rest = [] := by
          simpa using own.symm.trans flying
        obtain ⟨ns', -, funded⟩ := reachable.funded _ yielded _ stored flying
        obtain ⟨gas, enough, budgeted⟩ := funded t' List.mem_cons_self
        obtain ⟨rfl, step⟩ := budgeted.about
        obtain ⟨⟨gas', member⟩, -⟩ := reachable.wf.registered_of_getStep isolated stored
        have holds : m.Holds t'.callback.sequenceNamespace yielded.call :=
          ⟨yielded.yieldId, yielded.createdAtMs, step ▸ stored⟩
        have budget : m.Builds t'.callback.sequenceNamespace (⟨t'.callback, gas⟩ : Then).callback
          result p := builds
        obtain ⟨paid, less⟩ := budget.spares budgeted holds (spare _ _ _ member)
        have covered := served _ yielded stored rfl
        have gasLess : p.staticGas < gas := less
        omega
      · rw [others _ yielded stored same] at own
        cases own

end Machine

/-- Nobody calls the contract. -/
def Op.Internal : Op → Prop
  | .transact _ _ => False
  | _ => True

open Machine

/-- A run whose gates spare gas and whose last callbacks are served is never wedged. -/
theorem Machine.Reachable.unwedged_run {m : Machine} (reachable : m.Reachable) {ns : String}
    (unwedged : m.Unwedged ns) {ops : List Op} (isolated : Isolated (m.run ops).trace ns)
    (spare : (m.run ops).GatesSpare ns) (served : Along (Serves ns) m ops) :
    (m.run ops).Unwedged ns := by
  have along : Along (fun m op => ¬ m.Strands ns op) m ops := by
    induction ops generalizing m with
    | nil => trivial
    | cons op ops ih =>
        obtain ⟨serves, served⟩ := served
        have later := run_trace (m.step op) ops
        have first := step_trace m op
        have here : ¬ m.Strands ns op := not_strands reachable
          (isolated.earlier (first.trans later)) unwedged
          (fun id call gas member => spare id call gas ((first.trans later).subset member)) serves
        refine ⟨here, ih (reachable.run [op]) ?_ isolated spare served⟩
        exact (@unwedged_from ns m reachable [op] (isolated.earlier later) unwedged).mpr
          ⟨here, trivial⟩ 1
  have always := (unwedged_from reachable isolated unwedged).mpr along ops.length
  rwa [List.take_length] at always

/-- In a whole run there are never more timeouts and callbacks than six for each yield that was
created, whatever their order and outcomes; some of them always bring the contract to rest; and
at rest every run of an isolated namespace has ended whose gates spare gas and whose last
callbacks were served. -/
theorem cascade_settles (host : Host) (ownerId : AccountId) (authorizerId : Option AccountId)
    (ops : List Op) :
    moved step moves (Machine.init host ownerId authorizerId) ops ≤
        6 * ((Machine.init host ownerId authorizerId).run ops).pool.next ∧
      (∃ after : List Op, (∀ op ∈ after, op.Internal) ∧
        AtRest moves ((Machine.init host ownerId authorizerId).run (ops ++ after))) ∧
      (AtRest moves ((Machine.init host ownerId authorizerId).run ops) → ∀ ns, IsAutomation ns →
        Isolated ((Machine.init host ownerId authorizerId).run ops).trace ns →
        ((Machine.init host ownerId authorizerId).run ops).GatesSpare ns →
        Along (Serves ns) (Machine.init host ownerId authorizerId) ops →
        ((Machine.init host ownerId authorizerId).run ops).Ended ns) := by
  have wf := Wf.init host ownerId authorizerId
  have reachable := Machine.Reachable.init host ownerId authorizerId
  refine ⟨?_, ?_, fun rest ns auto isolated spare served => ?_⟩
  · have paid := pays.moved_add_le wf ops
    have start : (Machine.init host ownerId authorizerId).outstanding = 0 := rfl
    have first : (Machine.init host ownerId authorizerId).pool.next = 0 := rfl
    rw [start, first] at paid
    show _ ≤ 6 * (ops.foldl step (Machine.init host ownerId authorizerId)).pool.next
    omega
  · obtain ⟨after, moving, rest⟩ := pays.exists_rest (reachable.run ops).wf
    refine ⟨after, fun op inside => ?_, (run_append _ ops after).symm ▸ rest⟩
    obtain ⟨m, moved⟩ := moving op inside
    cases op with
    | transact env method => cases moved
    | timeout id => trivial
    | deliver env id answer => trivial
    | abort id answer => trivial
  · have unwedged := reachable.unwedged_run ⟨?_, ?_⟩ isolated spare served
    · exact ended_of_rest (reachable.run ops) rest auto isolated unwedged
    · rintro ⟨run, stored, -⟩
      cases stored
    · intro triggerId trigger stored
      cases stored

/-- What is registered has no gate. -/
def TraceEvent.isUngated : TraceEvent → Bool
  | registered _ _ call _ => call.preGate.isNone
  | _ => true

/-- The account can pay for every registered step. -/
theorem Machine.Serves.of_afforded {m : Machine} {ns : String} {env : Env} {id : Nat}
    {answer : PromiseResult} (afforded : m.contract.registeredSteps.entries.all
      (fun entry => entry.2.call.attachedDepositYocto ≤ env.accountBalance) = true) :
    m.Serves ns (.deliver env id answer) := by
  intro stepId yielded stored _
  have listed := IterableMap.get_eq_some_iff.mp stored
  simpa using List.all_eq_true.mp afforded _ listed

/-- A plain run, fired and answered. -/
def plainRun : List Op :=
  fired [plainStep "a"] ++ [.deliver aliceEnv 0 okResult, .deliver aliceEnv 0 okResult]

theorem plain_run_settles : (deployed.run plainRun).Ended "auto:daily:1" := by
  have empty : (deployed.run plainRun).pool.items.entries = [] := by decide
  have landed : ∀ id, (deployed.run plainRun).pool.get id = none := by
    intro id
    rw [Pool.get, IterableMap.get, empty]
    rfl
  refine (cascade_settles aliceHost alice none plainRun).2.2 (fun op => ?_) _ ⟨"daily", 1, rfl⟩
    (.of_alone (by decide)) (fun id call gas member preGate gated => ?_)
    ⟨trivial, trivial, trivial, ?_, ?_, trivial⟩
  · cases op with
    | transact env method => rfl
    | timeout id =>
        show Machine.moves (deployed.run plainRun) _ = false
        simp only [Machine.moves, landed]
    | deliver env id answer =>
        show Machine.moves (deployed.run plainRun) _ = false
        simp only [Machine.moves, Machine.awaits, landed]
    | abort id answer =>
        show Machine.moves (deployed.run plainRun) _ = false
        simp only [Machine.moves, Machine.awaits, landed]
  · have ungated : (deployed.run plainRun).trace.all TraceEvent.isUngated = true := by decide
    have none_ : call.preGate.isNone = true := List.all_eq_true.mp ungated _ member
    rw [gated] at none_
    cases none_
  · exact .of_afforded (by decide)
  · exact .of_afforded (by decide)

end SmartAccount
