import SmartAccount.SimpleSequencer
import SmartAccount.Foundation.Renaming
import SmartAccount.WellFormed

/-!
# The simple sequencer and the smart account agree

One caller of the simple sequencer beside a standalone smart account owned by that caller,
on their common operations.  `Corresponds` relates the two states: the caller's registered
steps and queue, under `manual:` keys on the side of the account, the flights that wait for a
resume or for a resolution, and what was called and resumed so far.  Every common operation is
accepted by both or by neither and keeps the correspondence (`sequencers_agree`).
-/

namespace SmartAccount.SimpleSequencer

open Foundation

/-! ## Common ground -/

/-- The step as the smart account has it: direct, without gate, save or template. -/
def Step.toAccount (call : Step) : SmartAccount.Step where
  stepId := call.stepId
  targetId := call.targetId
  methodName := call.methodName
  args := call.args
  attachedDepositYocto := call.attachedDepositYocto
  gasTgas := call.gasTgas
  policy := .direct
  preGate := none
  saveResult := none
  argsTemplate := none

def RegisteredStep.toAccount (yielded : RegisteredStep) : SmartAccount.RegisteredStep :=
  ⟨yielded.yieldId, yielded.call.toAccount, yielded.createdAtMs⟩

/-- The key of the smart account for a key of the simple sequencer. -/
def accountKey (key : String) : String := "manual:" ++ key

theorem accountKey_injective : Function.Injective accountKey :=
  fun _ _ same => (String.append_right_inj _).mp same

theorem accountKey_registeredStepKey (caller : AccountId) (stepId : String) :
    accountKey (registeredStepKey caller stepId) =
      SmartAccount.registeredStepKey (manualNamespace caller) stepId := by
  simp only [accountKey, registeredStepKey, SmartAccount.registeredStepKey, manualNamespace,
    String.append_assoc]

theorem registeredStepKey_inj {caller : AccountId} {stepId stepId' : String} :
    registeredStepKey caller stepId = registeredStepKey caller stepId' ↔ stepId = stepId' :=
  String.append_right_inj _

/-- What both traces tell: the calls made and the yields resumed. -/
def observed (t : Trace) : List TraceEvent :=
  t.filterMap fun
    | .called _ flight fc => some (.called flight fc)
    | .resumed _ _ _ _ yieldId => some (.resumed yieldId)
    | _ => none

theorem observed_append (t t' : Trace) : observed (t ++ t') = observed t ++ observed t' :=
  List.filterMap_append

/-- Two fallible computations that fail together, and otherwise end in related results. -/
inductive Agree {α β : Type} (R : α → β → Prop) : Except String α → Except String β → Prop
  | ok {a : α} {b : β} (related : R a b) : Agree R (.ok a) (.ok b)
  | error (message message' : String) : Agree R (.error message) (.error message')

namespace Agree

variable {α β α' β' : Type} {R : α → β → Prop} {R' : α' → β' → Prop}
  {x : Except String α} {y : Except String β}

theorem bind {f : α → Except String α'} {g : β → Except String β'} (agree : Agree R x y)
    (next : ∀ a b, R a b → Agree R' (f a) (g b)) : Agree R' (x >>= f) (y >>= g) := by
  cases agree with
  | ok related => exact next _ _ related
  | error message message' => exact .error message message'

theorem require {condition condition' : Bool} (same : condition = condition')
    (message message' : String) :
    Agree (fun _ _ => True) (SmartAccount.require condition message)
      (SmartAccount.require condition' message') := by
  subst same
  cases condition with
  | true => exact .ok trivial
  | false => exact .error message message'

theorem self (x : Except String α) : Agree (fun _ _ => True) x x := by
  cases x with
  | ok a => exact .ok trivial
  | error message => exact .error message message

theorem mono (agree : Agree R x y) {S : α → β → Prop} (weaker : ∀ a b, R a b → S a b) :
    Agree S x y := by
  cases agree with
  | ok related => exact .ok (weaker _ _ related)
  | error message message' => exact .error message message'

theorem isOk (agree : Agree R x y) : x.isOk = y.isOk := by
  cases agree <;> rfl

theorem map {f : α → α'} {g : β → β'} (agree : Agree R x y)
    (kept : ∀ a b, R a b → R' (f a) (g b)) : Agree R' (x.map f) (y.map g) := by
  cases agree with
  | ok related => exact .ok (kept _ _ related)
  | error message message' => exact .error message message'

end Agree

/-! ## The correspondence -/

/-- A flight of either contract: gone, waiting for its resume, or for its resolution.  The
caller's step it was registered for is still there, and of its gas some is left beside what the
step's call takes. -/
inductive FlightsAgree (caller : AccountId) (steps : String → Option RegisteredStep) (id : Nat) :
    Option Flight → Option SmartAccount.Flight → Prop
  | gone : FlightsAgree caller steps id none none
  | waiting {head : Head} {stepId : String} {yielded : RegisteredStep} {gas gas' : Nat}
      (registered : steps stepId = some yielded) (own : yielded.yieldId = id)
      (funded : yielded.call.gasTgas + stepResolveCallbackGasTgas < gas)
      (funded' : yielded.call.gasTgas + stepResolveCallbackGasTgas < gas') :
      FlightsAgree caller steps id (some ⟨head, [⟨.onStepResumed caller stepId, gas⟩]⟩)
        (some ⟨head, [⟨.onStepResumed (manualNamespace caller) stepId, gas'⟩]⟩)
  | resolving {head : Head} {stepId : String} {yielded : RegisteredStep} {gas gas' : Nat}
      (registered : steps stepId = some yielded) (own : yielded.yieldId = id) :
      FlightsAgree caller steps id (some ⟨head, [⟨.onStepResolved caller stepId, gas⟩]⟩)
        (some ⟨head, [⟨.onStepResolved (manualNamespace caller) stepId, gas'⟩]⟩)

/-- A flight keeps agreeing while its step stays registered. -/
theorem FlightsAgree.keep {caller : AccountId} {steps steps' : String → Option RegisteredStep}
    {id : Nat} {f : Option Flight} {f' : Option SmartAccount.Flight}
    (agree : FlightsAgree caller steps id f f')
    (kept : ∀ stepId yielded, steps stepId = some yielded → yielded.yieldId = id →
      steps' stepId = some yielded) : FlightsAgree caller steps' id f f' := by
  cases agree with
  | gone => exact .gone
  | waiting registered own funded funded' =>
      exact .waiting (kept _ _ registered own) own funded funded'
  | resolving registered own => exact .resolving (kept _ _ registered own) own

/-- What a flight waits for may change on both sides alike. -/
theorem FlightsAgree.rehead {caller : AccountId} {steps : String → Option RegisteredStep}
    {id : Nat} {f : Flight} {f' : SmartAccount.Flight}
    (agree : FlightsAgree caller steps id (some f) (some f')) (head : Head) :
    FlightsAgree caller steps id (some ⟨head, f.thens⟩) (some ⟨head, f'.thens⟩) := by
  cases agree with
  | waiting registered own funded funded' => exact .waiting registered own funded funded'
  | resolving registered own => exact .resolving registered own

/-- The two contracts, with at most one flight whose callback is running. -/
structure Corresponds (caller : AccountId) (busy : Option Nat) (s : Sequencer) (m : Machine) :
    Prop where
  owner : m.contract.ownerId = caller
  standalone : m.contract.authorizerId = none
  idle : m.contract.automationRuns.get (manualNamespace caller) = none
  steps : Renames accountKey RegisteredStep.toAccount s.contract.registeredSteps
    m.contract.registeredSteps
  queue : Renames accountKey id s.contract.sequenceQueue m.contract.sequenceQueue
  next : m.pool.next = s.pool.next
  flights : ∀ id, busy ≠ some id →
    FlightsAgree caller (s.getStep caller) id (s.pool.get id) (m.pool.get id)
  running : ∀ id, busy = some id → ∀ thens thens',
    s.pool.get id ≠ some ⟨.yielded, thens⟩ ∧ m.pool.get id ≠ some ⟨.yielded, thens'⟩
  trace : observed m.trace = s.trace

namespace Corresponds

variable {caller : AccountId} {busy : Option Nat} {s : Sequencer} {m : Machine}

theorem getStep (corresponds : Corresponds caller busy s m) (stepId : String) :
    m.getStep (manualNamespace caller) stepId =
      (s.getStep caller stepId).map RegisteredStep.toAccount := by
  rw [Machine.getStep, ← accountKey_registeredStepKey,
    corresponds.steps.get accountKey_injective]
  rfl

theorem queued (corresponds : Corresponds caller busy s m) :
    m.contract.sequenceQueue.get (manualNamespace caller) =
      s.contract.sequenceQueue.get (sequenceQueueKey caller) :=
  (corresponds.queue.get accountKey_injective (sequenceQueueKey caller)).trans
    Option.map_id_apply

/-! ### What the simple sequencer does not have -/

/-- An event that is neither a call nor a resume. -/
theorem note (corresponds : Corresponds caller busy s m) {event : SmartAccount.TraceEvent}
    (silent : observed [event] = []) : Corresponds caller busy s (m.note event) where
  owner := corresponds.owner
  standalone := corresponds.standalone
  idle := corresponds.idle
  steps := corresponds.steps
  queue := corresponds.queue
  next := corresponds.next
  flights := corresponds.flights
  running := corresponds.running
  trace := by
    rw [Machine.note, observed_append, silent, List.append_nil]
    exact corresponds.trace

theorem emit (corresponds : Corresponds caller busy s m) (event : Event) :
    Corresponds caller busy s (m.emit event) := corresponds.note rfl

theorem clearContext (corresponds : Corresponds caller busy s m) (ns : String) :
    Corresponds caller busy s (m.clearContext ns) :=
  ⟨corresponds.owner, corresponds.standalone, corresponds.idle, corresponds.steps,
    corresponds.queue, corresponds.next, corresponds.flights, corresponds.running,
    corresponds.trace⟩

/-- A manual namespace has no run to finish. -/
theorem finishAutomationRun (corresponds : Corresponds caller busy s m) (env : Env)
    (status : AutomationRunStatus) (failedStepId : Option String) :
    m.finishAutomationRun env (manualNamespace caller) status failedStepId = m := by
  rw [Machine.finishAutomationRun, corresponds.idle]

/-! ### Single writes -/

theorem setQueue (corresponds : Corresponds caller busy s m) (waiting : List String) :
    Corresponds caller busy (s.setQueue caller waiting)
      (m.setQueue (manualNamespace caller) waiting) :=
  ⟨corresponds.owner, corresponds.standalone, corresponds.idle, corresponds.steps,
    corresponds.queue.insert accountKey_injective _ waiting, corresponds.next,
    corresponds.flights, corresponds.running, corresponds.trace⟩

theorem clearQueue (corresponds : Corresponds caller busy s m) :
    Corresponds caller busy (s.clearQueue caller) (m.removeQueue (manualNamespace caller)) :=
  ⟨corresponds.owner, corresponds.standalone, corresponds.idle, corresponds.steps,
    corresponds.queue.remove accountKey_injective _, corresponds.next, corresponds.flights,
    corresponds.running, corresponds.trace⟩

/-- The running flight drops its own step. -/
theorem removeStep {id : Nat} (corresponds : Corresponds caller (some id) s m) {stepId : String}
    {yielded : RegisteredStep} (registered : s.getStep caller stepId = some yielded)
    (own : yielded.yieldId = id) :
    Corresponds caller (some id) (s.removeStep caller stepId)
      (m.removeStep (manualNamespace caller) stepId) where
  owner := corresponds.owner
  standalone := corresponds.standalone
  idle := corresponds.idle
  steps := by
    show Renames _ _ _ (m.contract.registeredSteps.remove
      (SmartAccount.registeredStepKey (manualNamespace caller) stepId))
    rw [← accountKey_registeredStepKey]
    exact corresponds.steps.remove accountKey_injective _
  queue := corresponds.queue
  next := corresponds.next
  flights := by
    intro other apart
    refine (corresponds.flights other apart).keep fun stepId' yielded' registered' own' => ?_
    have different : stepId' ≠ stepId := by
      rintro rfl
      cases registered.symm.trans registered'
      exact apart (congrArg some (own.symm.trans own'))
    refine (IterableMap.get_remove_of_ne _ fun same => ?_).trans registered'
    exact different (registeredStepKey_inj.mp same)
  running := corresponds.running
  trace := corresponds.trace

/-! ### Yields -/

/-- A flight that is not running hears something on both sides. -/
theorem rehead (corresponds : Corresponds caller busy s m) {id : Nat} (free : busy ≠ some id)
    {f : Flight} {f' : SmartAccount.Flight} (stored : s.pool.get id = some f)
    (stored' : m.pool.get id = some f') (head : Head) :
    Corresponds caller busy { s with pool := s.pool.update id ⟨head, f.thens⟩ }
      { m with pool := m.pool.update id ⟨head, f'.thens⟩ } where
  owner := corresponds.owner
  standalone := corresponds.standalone
  idle := corresponds.idle
  steps := corresponds.steps
  queue := corresponds.queue
  next := corresponds.next
  flights := by
    intro other apart
    have agree := corresponds.flights other apart
    by_cases same : other = id
    · subst same
      rw [stored, stored'] at agree
      dsimp only
      rw [Pool.get_update_self stored, Pool.get_update_self stored']
      exact agree.rehead head
    · dsimp only
      rw [Pool.get_update_of_ne _ _ same, Pool.get_update_of_ne _ _ same]
      exact agree
  running := by
    intro other runs thens thens'
    have apart : other ≠ id := fun same => free (same ▸ runs)
    dsimp only
    rw [Pool.get_update_of_ne _ _ apart, Pool.get_update_of_ne _ _ apart]
    exact corresponds.running other runs thens thens'
  trace := corresponds.trace

/-- A yield is resumed on both sides or on neither. -/
theorem resumeYield (corresponds : Corresponds caller busy s m) (yieldId : YieldId) :
    (s.resumeYield yieldId = none ∧ m.resumeYield yieldId = none) ∨
      ∃ s' m', s.resumeYield yieldId = some s' ∧ m.resumeYield yieldId = some m' ∧
        Corresponds caller busy s' m' := by
  unfold Sequencer.resumeYield Machine.resumeYield
  by_cases runs : busy = some yieldId
  · refine .inl ⟨?_, ?_⟩
    · split
      · rename_i thens stored
        exact absurd stored (corresponds.running yieldId runs thens []).1
      · rfl
    · split
      · rename_i thens stored
        exact absurd stored (corresponds.running yieldId runs [] thens).2
      · rfl
  · have agree := corresponds.flights yieldId runs
    generalize stored : s.pool.get yieldId = f at agree ⊢
    generalize stored' : m.pool.get yieldId = f' at agree ⊢
    cases agree with
    | gone => exact .inl ⟨rfl, rfl⟩
    | @waiting head =>
        cases head with
        | yielded => exact .inr ⟨_, _, rfl, rfl, corresponds.rehead runs stored stored' _⟩
        | call fc => exact .inl ⟨rfl, rfl⟩
        | done result => exact .inl ⟨rfl, rfl⟩
    | @resolving head =>
        cases head with
        | yielded => exact .inr ⟨_, _, rfl, rfl, corresponds.rehead runs stored stored' _⟩
        | call fc => exact .inl ⟨rfl, rfl⟩
        | done result => exact .inl ⟨rfl, rfl⟩

theorem resumed (corresponds : Corresponds caller busy s m) (stepId : String)
    (yieldId : YieldId) :
    Corresponds caller busy (s.note (.resumed yieldId))
      (m.noteResumed (manualNamespace caller) stepId yieldId) :=
  ⟨corresponds.owner, corresponds.standalone, corresponds.idle, corresponds.steps,
    corresponds.queue, corresponds.next, corresponds.flights, corresponds.running, by
      rw [Machine.noteResumed, Machine.note, observed_append, corresponds.trace]
      rfl⟩

theorem resumeRegisteredStep (corresponds : Corresponds caller busy s m) (stepId : String) :
    Agree (Corresponds caller busy) (s.resumeRegisteredStep caller stepId)
      (m.resumeRegisteredStep (manualNamespace caller) stepId) := by
  unfold Sequencer.resumeRegisteredStep Machine.resumeRegisteredStep
  rw [corresponds.getStep]
  cases s.getStep caller stepId with
  | none => exact .error _ _
  | some yielded =>
      dsimp only [Option.map_some, RegisteredStep.toAccount]
      rcases corresponds.resumeYield yielded.yieldId with
        ⟨failed, failed'⟩ | ⟨s', m', woken, woken', after⟩
      · rw [failed, failed']
        exact .error _ _
      · rw [woken, woken']
        exact .ok (after.resumed stepId yielded.yieldId)

/-- A timeout. -/
theorem timeout (corresponds : Corresponds caller none s m) (id : Nat) :
    Corresponds caller none (s.timeout id) (m.timeout id) := by
  have free : (none : Option Nat) ≠ some id := (Option.some_ne_none id).symm
  unfold Sequencer.timeout Machine.timeout
  have agree := corresponds.flights id free
  generalize stored : s.pool.get id = f at agree ⊢
  generalize stored' : m.pool.get id = f' at agree ⊢
  cases agree with
  | gone => exact corresponds
  | @waiting head =>
      cases head with
      | yielded => exact corresponds.rehead free stored stored' _
      | call fc => exact corresponds
      | done result => exact corresponds
  | @resolving head =>
      cases head with
      | yielded => exact corresponds.rehead free stored stored' _
      | call fc => exact corresponds
      | done result => exact corresponds

/-! ### Releases -/

theorem checkOrder (corresponds : Corresponds caller busy s m) (order : List String) :
    Agree (fun _ _ => True) (s.checkOrder caller order)
      (m.checkOrder (manualNamespace caller) order) := by
  induction order with
  | nil => exact .ok trivial
  | cons stepId rest ih =>
      refine (Agree.require ?_ _ _).bind fun _ _ _ => ih
      rw [corresponds.getStep, Option.isSome_map]

/-- Both accept a release, or neither does. -/
theorem startRelease (corresponds : Corresponds caller busy s m) (order : List String) :
    Agree (fun x y => Corresponds caller busy x.1 y.1 ∧ x.2 = y.2)
      (s.startSequenceReleaseForCaller caller order)
      (m.startSequenceReleaseInNamespace (manualNamespace caller) order) := by
  unfold Sequencer.startSequenceReleaseForCaller Machine.startSequenceReleaseInNamespace
  refine (Agree.require rfl _ _).bind fun _ _ _ => ?_
  refine (Agree.require (by rw [corresponds.queued]) _ _).bind fun _ _ _ => ?_
  refine (corresponds.checkOrder order).bind fun _ _ _ => ?_
  cases order with
  | nil => exact .error _ _
  | cons first rest =>
      have queued : Corresponds caller busy
          (if rest ≠ [] then s.setQueue caller rest else s)
          (if rest ≠ [] then m.setQueue (manualNamespace caller) rest else m) := by
        by_cases last : rest = []
        · rw [if_neg (not_not.mpr last), if_neg (not_not.mpr last)]
          exact corresponds
        · rw [if_pos last, if_pos last]
          exact corresponds.setQueue rest
      refine ((queued.note rfl).resumeRegisteredStep first).bind fun s' m' after => ?_
      exact .ok ⟨after.emit _, rfl⟩

theorem takeNextQueuedStep (corresponds : Corresponds caller busy s m) :
    (m.contract.takeNextQueuedStep (manualNamespace caller)).1 =
        (s.takeNextQueuedStep caller).1 ∧
      Corresponds caller busy (s.takeNextQueuedStep caller).2
        (m.withContract (m.contract.takeNextQueuedStep (manualNamespace caller)).2) := by
  unfold Contract.takeNextQueuedStep Sequencer.takeNextQueuedStep
  rw [corresponds.queued]
  cases s.contract.sequenceQueue.get (sequenceQueueKey caller) with
  | none => exact ⟨rfl, corresponds⟩
  | some waiting =>
      cases waiting with
      | nil => exact ⟨rfl, corresponds.clearQueue⟩
      | cons next remaining =>
          cases remaining with
          | nil => exact ⟨rfl, corresponds.clearQueue⟩
          | cons second later => exact ⟨rfl, corresponds.setQueue (second :: later)⟩

/-- The sequence progresses on both sides, or halts on both where the next step cannot be
resumed. -/
theorem progress (corresponds : Corresponds caller busy s m) (env : Env) (stepId : String)
    (resultLen : Nat) (call : Option CallMetadata) (registeredAtMs : Nat) :
    Corresponds caller busy (s.progressAfterSuccessfulResolution caller)
      (m.progressSequenceAfterSuccessfulResolution env (manualNamespace caller) stepId resultLen
        call registeredAtMs) := by
  obtain ⟨same, taken⟩ := corresponds.takeNextQueuedStep
  unfold Sequencer.progressAfterSuccessfulResolution
    Machine.progressSequenceAfterSuccessfulResolution
  generalize s.takeNextQueuedStep caller = x at same taken ⊢
  generalize m.contract.takeNextQueuedStep (manualNamespace caller) = y at same taken ⊢
  obtain ⟨next, s'⟩ := x
  obtain ⟨next', c⟩ := y
  dsimp only at same taken
  subst same
  cases next' with
  | none =>
      have completed := (taken.emit (.stepResolvedOk stepId (manualNamespace caller) resultLen
        none registeredAtMs (env.now - registeredAtMs) call)).emit
          (.sequenceCompleted (manualNamespace caller) stepId resultLen)
      dsimp only
      rw [completed.finishAutomationRun]
      exact completed.clearContext _
  | some next =>
      have noted := taken.emit (.stepResolvedOk stepId (manualNamespace caller) resultLen
        (some next) registeredAtMs (env.now - registeredAtMs) call)
      have resumed := noted.resumeRegisteredStep next
      dsimp only
      generalize s'.resumeRegisteredStep caller next = x at resumed ⊢
      generalize ((m.withContract c).emit _).resumeRegisteredStep (manualNamespace caller) next = y
        at resumed ⊢
      cases resumed with
      | ok related => exact related
      | error message message' =>
          have cleared := noted.clearQueue.clearContext (manualNamespace caller)
          dsimp only [Machine.haltOnResumeFailure]
          rw [cleared.finishAutomationRun]
          exact cleared.emit _

/-! ### Registration -/

/-- Both register a step, or neither does. -/
theorem registerStep (corresponds : Corresponds caller none s m) (env : Env) (spareGas : Nat)
    (call : Step) :
    Agree (Corresponds caller none) (s.registerStepForCaller env.now spareGas caller call)
      (m.registerStepInNamespace env (manualNamespace caller) call.toAccount) := by
  unfold Sequencer.registerStepForCaller Machine.registerStepInNamespace
  have known := corresponds.getStep call.stepId
  cases absent : s.getStep caller call.stepId with
  | some yielded =>
      rw [absent] at known
      show Agree _ _ (SmartAccount.require
        (m.getStep (manualNamespace caller) call.stepId).isNone _ >>= _)
      rw [known]
      exact .error _ _
  | none =>
      rw [absent] at known
      show Agree _ _ (SmartAccount.require
        (m.getStep (manualNamespace caller) call.stepId).isNone _ >>= _)
      rw [known]
      refine .ok (Corresponds.emit (Corresponds.note ?_ rfl) _)
      refine ⟨corresponds.owner, corresponds.standalone, corresponds.idle, ?_, corresponds.queue,
        congrArg Nat.succ corresponds.next, fun id _ => ?_, fun id runs => ?_, corresponds.trace⟩
      · have inserted := corresponds.steps.insert accountKey_injective
          (registeredStepKey caller call.stepId) ⟨s.pool.next, call, env.now⟩
        have record : RegisteredStep.toAccount ⟨s.pool.next, call, env.now⟩ =
            ⟨m.pool.next, call.toAccount, env.now⟩ := by
          rw [corresponds.next]
          rfl
        rw [accountKey_registeredStepKey, record] at inserted
        exact inserted
      · dsimp only [Machine.storeStep, Machine.withContract, Machine.newYield]
        rw [Pool.get_create, Pool.get_create, corresponds.next]
        by_cases fresh : id = s.pool.next
        · rw [if_pos fresh, if_pos fresh]
          refine .waiting (IterableMap.get_insert_self ..) fresh.symm ?_ ?_
          · simp only [stepResumeOverheadTgas]
            omega
          · simp only [resumeCallbackGas, Step.toAccount, adapterOverheadTgas,
              SmartAccount.stepResolveCallbackGasTgas, stepResolveCallbackGasTgas,
              SmartAccount.stepResumeOverheadTgas]
            omega
        · rw [if_neg fresh, if_neg fresh]
          refine (corresponds.flights id (Option.some_ne_none id).symm).keep
            fun stepId yielded registered _ => ?_
          refine (IterableMap.get_insert_of_ne _ _ fun same => ?_).trans registered
          rw [registeredStepKey_inj.mp same, absent] at registered
          cases registered
      · cases runs

end Corresponds

/-! ## Methods -/

theorem validateStep_agree (call : Step) :
    Agree (fun _ _ => True) (validateStep call) (SmartAccount.validateStep call.toAccount) := by
  unfold validateStep SmartAccount.validateStep
  refine (Agree.require rfl _ _).bind fun _ _ _ => ?_
  refine (Agree.require rfl _ _).bind fun _ _ _ => ?_
  refine (Agree.require rfl _ _).bind fun _ _ _ => ?_
  show Agree _ _ (SmartAccount.require (call.gasTgas ≤ maxStepGasTgas) _ >>= fun _ => .ok ())
  by_cases fits : call.gasTgas ≤ maxStepGasTgas
  · rw [decide_eq_true fits]
    exact .ok trivial
  · rw [decide_eq_false fits]
    exact .error _ _

theorem stepFromRaw_agree (input : Step) :
    Agree (fun call call' => call' = call.toAccount) (stepFromRaw input)
      (SmartAccount.stepFromRaw input.toAccount) :=
  (validateStep_agree input).bind fun _ _ _ => .ok rfl

namespace Corresponds

variable {caller : AccountId} {s : Sequencer} {m : Machine}

theorem registerInputs (corresponds : Corresponds caller none s m) (env : Env) (spareGas : Nat)
    (inputs : List Step) :
    Agree (Corresponds caller none) (s.registerInputs env.now spareGas caller inputs)
      (m.registerInputs env (manualNamespace caller) (inputs.map Step.toAccount)) := by
  induction inputs generalizing s m with
  | nil => exact .ok corresponds
  | cons input rest ih =>
      refine (stepFromRaw_agree input).bind fun call call' same => ?_
      subst same
      exact (corresponds.registerStep env spareGas call).bind fun _ _ registered => ih registered

/-- The caller may execute on the account it owns. -/
theorem assertExecutor (corresponds : Corresponds caller none s m) {env : Env}
    (predecessor : env.predecessor = caller) : m.assertExecutor env = .ok () := by
  rw [Machine.assertExecutor, require_eq_ok, Contract.isExecutor, predecessor, corresponds.owner]
  exact Bool.or_eq_true_iff.mpr (.inl (decide_eq_true rfl))

theorem executeSteps (corresponds : Corresponds caller none s m) (env : Env) (spareGas : Nat)
    (predecessor : env.predecessor = caller) (steps : List Step) :
    Agree (fun x y => Corresponds caller none x.1 y.1 ∧ x.2 = y.2)
      (s.executeSteps env.now spareGas caller steps)
      (m.executeSteps env (steps.map Step.toAccount)) := by
  unfold Sequencer.executeSteps Machine.executeSteps
  rw [corresponds.assertExecutor predecessor, predecessor]
  refine (Agree.require ?_ _ _).bind fun _ _ _ => ?_
  · rw [decide_eq_decide, ne_eq, ne_eq, List.map_eq_nil_iff]
  · have order : (steps.map Step.toAccount).map SmartAccount.Step.stepId =
        steps.map Step.stepId := List.map_map
    rw [order]
    refine (Agree.self _).bind fun _ _ _ => ?_
    exact (corresponds.registerInputs env spareGas steps).bind fun _ _ registered =>
      registered.startRelease (steps.map Step.stepId)

theorem runSequence (corresponds : Corresponds caller none s m) (env : Env)
    (predecessor : env.predecessor = caller) (order : List String) :
    Agree (fun x y => Corresponds caller none x.1 y.1 ∧ x.2 = y.2)
      (s.runSequence env.predecessor caller order) (m.runSequence env caller order) := by
  unfold Sequencer.runSequence Machine.runSequence
  rw [corresponds.assertExecutor predecessor, predecessor, decide_eq_true rfl]
  exact corresponds.startRelease order

end Corresponds

/-! ## Common operations -/

/-- An operation that both contracts have, by the caller, at the same moment; each contract
has its own unspent gas. -/
inductive CommonOp where
  | executeSteps (env : Env) (spareGas : Nat) (steps : List Step)
  | registerStep (env : Env) (spareGas : Nat) (input : Step)
  | runSequence (env : Env) (order : List String)
  | timeout (id : Nat)
  | deliver (env : Env) (id : Nat) (answer : PromiseResult)

namespace CommonOp

/-- The operation on the simple sequencer. -/
def toSimple (caller : AccountId) : CommonOp → Sequencer.Op
  | executeSteps env spareGas steps =>
      .transact { env with predecessor := caller, spareGas := spareGas } (.executeSteps steps)
  | registerStep env spareGas input =>
      .transact { env with predecessor := caller, spareGas := spareGas } (.registerStep input)
  | runSequence env order =>
      .transact { env with predecessor := caller } (.runSequence caller order)
  | timeout id => .timeout id
  | deliver env id answer => .deliver env.accountBalance id answer

/-- The operation on the smart account. -/
def toAccount (caller : AccountId) : CommonOp → Op
  | executeSteps env _ steps =>
      .transact { env with predecessor := caller } (.executeSteps (steps.map Step.toAccount))
  | registerStep env _ input =>
      .transact { env with predecessor := caller } (.registerStep input.toAccount)
  | runSequence env order =>
      .transact { env with predecessor := caller } (.runSequence caller order)
  | timeout id => .timeout id
  | deliver env id answer => .deliver env id answer

end CommonOp

/-- Whether the simple sequencer accepts an operation; only a call can be refused. -/
def Sequencer.accepts (s : Sequencer) : Sequencer.Op → Bool
  | .transact env method => (s.call env method).isOk
  | _ => true

/-- Whether the smart account accepts an operation. -/
def accountAccepts (m : Machine) : Op → Bool
  | .transact env method => (m.call env method).isOk
  | _ => true

namespace Corresponds

variable {caller : AccountId} {s : Sequencer} {m : Machine}

/-- A call of a common method: accepted by both or by neither, with what follows. -/
theorem transact (corresponds : Corresponds caller none s m) {env env' : Env}
    {method : Sequencer.Method} {method' : PublicCall}
    (agree : Agree (Corresponds caller none) (s.call env method) (m.call env' method')) :
    (s.call env method).isOk = (m.call env' method').isOk ∧
      Corresponds caller none (s.transact env method) (m.transact env' method') := by
  refine ⟨agree.isOk, ?_⟩
  unfold Sequencer.transact Machine.transact
  generalize s.call env method = x at agree ⊢
  generalize m.call env' method' = y at agree ⊢
  cases agree with
  | ok related => exact related
  | error message message' => exact corresponds

/-- The check of the deposit comes first on both sides. -/
theorem payable {x : Except String Sequencer} {y : Except String Machine}
    (agree : Agree (Corresponds caller none) x y) (env : Env) :
    Agree (Corresponds caller none)
      (SmartAccount.require (env.attachedDeposit = 0) "Method doesn't accept deposit" >>=
        fun _ => x)
      (SmartAccount.require (false || env.attachedDeposit = 0) "Method doesn't accept deposit" >>=
        fun _ => y) :=
  (Agree.require (Bool.false_or _).symm _ _).bind fun _ _ _ => agree

end Corresponds

/-! ## Callbacks -/

section Resumed

variable {m : Machine} {ns stepId : String} {yielded : RegisteredStep}

theorem onStepResumed_failed (env : Env)
    (found : m.getStep ns stepId = some yielded.toAccount) :
    m.onStepResumed env ns stepId .failed =
      (m.haltOnTimeout env ns stepId yielded.toAccount .failed, unitValue) := by
  unfold Machine.onStepResumed
  rw [found]

/-- An ungated direct step without a template is dispatched as it was registered. -/
theorem onStepResumed_successful (env : Env) (bytes : Bytes)
    (found : m.getStep ns stepId = some yielded.toAccount)
    (standalone : m.contract.authorizerId = none) :
    m.onStepResumed env ns stepId (.successful bytes) =
      ((m.emit (.stepResumed stepId ns yielded.createdAtMs (env.now - yielded.createdAtMs)
          yielded.call.toAccount.metadata)).note
        (.dispatched ns stepId yielded.yieldId yielded.call.toAccount yielded.call.args),
        .promise (resolvedPromise none ns stepId yielded.call.toAccount)) := by
  rw [← standalone]
  unfold Machine.onStepResumed
  rw [found]
  rfl

theorem attempt_resumed {env : Env} {m' : Machine} {id gas : Nat} {result : PromiseResult}
    {out : SmartAccount.PromiseOrValue}
    (ran : ({ m with executing := some id }.note
      (.delivered id (.onStepResumed ns stepId) result)).onStepResumed env ns stepId result =
        (m', out)) (paid : out.refusal gas env.accountBalance = none) :
    m.attempt env id ⟨.onStepResumed ns stepId, gas⟩ result = .ok (m', out) :=
  Machine.attempt_ok.mpr ⟨congrArg Except.ok ran, paid⟩

end Resumed

namespace Corresponds

variable {caller : AccountId} {s : Sequencer} {m : Machine}

/-- The flight whose callback runs has heard its outcome. -/
theorem running_of_heard (corresponds : Corresponds caller none s m) {id : Nat} {f : Flight}
    {f' : SmartAccount.Flight} (stored : s.pool.get id = some f) (heard : f.head ≠ .yielded)
    (stored' : m.pool.get id = some f') (same : f'.head = f.head) :
    Corresponds caller (some id) s { m with executing := some id } := by
  refine ⟨corresponds.owner, corresponds.standalone, corresponds.idle, corresponds.steps,
    corresponds.queue, corresponds.next, fun other _ => ?_, fun other runs thens thens' => ?_,
    corresponds.trace⟩
  · exact corresponds.flights other (Option.some_ne_none other).symm
  · cases runs
    dsimp only
    rw [stored, stored']
    refine ⟨fun yielded => heard ?_, fun yielded => heard ?_⟩
    · rw [Option.some.inj yielded]
    · rw [← same, Option.some.inj yielded]

theorem emits (corresponds : Corresponds caller busy s m) (events : List Event) :
    Corresponds caller busy s (events.foldl Machine.emit m) := by
  induction events generalizing m with
  | nil => exact corresponds
  | cons event events ih => exact ih (corresponds.emit event)

/-- The running flight is over on both sides. -/
theorem finish {id : Nat} (corresponds : Corresponds caller (some id) s m) (head head' : Head) :
    Corresponds caller none (s.settle id ⟨head, []⟩) (m.settle id ⟨head', []⟩) where
  owner := corresponds.owner
  standalone := corresponds.standalone
  idle := corresponds.idle
  steps := corresponds.steps
  queue := corresponds.queue
  next := corresponds.next
  flights := by
    intro other _
    show FlightsAgree _ _ _ ((s.pool.remove id).get other) ((m.pool.remove id).get other)
    rw [Pool.get_remove, Pool.get_remove]
    by_cases same : other = id
    · rw [if_pos same, if_pos same]
      exact .gone
    · rw [if_neg same, if_neg same]
      exact corresponds.flights other fun runs => same (Option.some.inj runs).symm
  running := fun _ runs => by cases runs
  trace := corresponds.trace

/-- The running flight now waits for the call of its step. -/
theorem handOver {id : Nat} (corresponds : Corresponds caller (some id) s m) {f : Flight}
    {f' : SmartAccount.Flight} (stored : s.pool.get id = some f)
    (stored' : m.pool.get id = some f') {stepId : String} {yielded : RegisteredStep}
    (registered : s.getStep caller stepId = some yielded) (own : yielded.yieldId = id)
    (fc : FunctionCall) (gas gas' : Nat) :
    Corresponds caller none
      ((s.note (.called id fc)).settle id ⟨.call fc, [⟨.onStepResolved caller stepId, gas⟩]⟩)
      ((m.note (.called (manualNamespace caller) id fc)).settle id
        ⟨.call fc, [⟨.onStepResolved (manualNamespace caller) stepId, gas'⟩]⟩) where
  owner := corresponds.owner
  standalone := corresponds.standalone
  idle := corresponds.idle
  steps := corresponds.steps
  queue := corresponds.queue
  next := corresponds.next
  flights := by
    intro other _
    show FlightsAgree _ _ _ ((s.pool.update id _).get other) ((m.pool.update id _).get other)
    by_cases same : other = id
    · subst same
      rw [Pool.get_update_self stored, Pool.get_update_self stored']
      exact .resolving registered own
    · rw [Pool.get_update_of_ne _ _ same, Pool.get_update_of_ne _ _ same]
      exact corresponds.flights other fun runs => same (Option.some.inj runs).symm
  running := fun _ runs => by cases runs
  trace := by
    show observed (m.trace ++ [_]) = s.trace ++ [_]
    rw [observed_append, corresponds.trace]
    rfl

/-- `on_step_resumed` on a failed resume. -/
theorem haltOnTimeout {id : Nat} (corresponds : Corresponds caller (some id) s m) (env : Env)
    {stepId : String} {yielded : RegisteredStep}
    (registered : s.getStep caller stepId = some yielded) (own : yielded.yieldId = id) :
    Corresponds caller (some id) ((s.removeStep caller stepId).clearQueue caller)
      (m.haltOnTimeout env (manualNamespace caller) stepId yielded.toAccount .failed) := by
  have cleared := ((corresponds.removeStep registered own).clearQueue).clearContext
    (manualNamespace caller)
  unfold Machine.haltOnTimeout Machine.haltSequence
  rw [cleared.finishAutomationRun]
  exact cleared.emit _

/-- `on_step_resolved`. -/
theorem onStepResolved {id : Nat} (corresponds : Corresponds caller (some id) s m) (env : Env)
    {stepId : String} {yielded : RegisteredStep}
    (registered : s.getStep caller stepId = some yielded) (own : yielded.yieldId = id)
    (result : PromiseResult) :
    Corresponds caller (some id) (s.onStepResolved caller stepId result)
      (m.onStepResolved env (manualNamespace caller) stepId result) := by
  have removed := corresponds.removeStep registered own
  unfold Sequencer.onStepResolved Machine.onStepResolved
  rw [corresponds.getStep, registered]
  cases result.checked with
  | ok bytes => exact removed.progress env stepId bytes.length _ _
  | error error =>
      have cleared := removed.clearQueue.clearContext (manualNamespace caller)
      dsimp only
      rw [cleared.finishAutomationRun]
      exact cleared.emit _

/-- The outcome of a resume is delivered. -/
theorem deliverResumed (corresponds : Corresponds caller none s m) (env : Env) {id : Nat}
    {head : Head} {stepId : String} {yielded : RegisteredStep} {gas gas' : Nat}
    (stored : s.pool.get id = some ⟨head, [⟨.onStepResumed caller stepId, gas⟩]⟩)
    (stored' : m.pool.get id =
      some ⟨head, [⟨.onStepResumed (manualNamespace caller) stepId, gas'⟩]⟩)
    (heard : head ≠ .yielded) (registered : s.getStep caller stepId = some yielded)
    (own : yielded.yieldId = id)
    (funded : yielded.call.gasTgas + stepResolveCallbackGasTgas < gas)
    (funded' : yielded.call.gasTgas + stepResolveCallbackGasTgas < gas')
    (result : PromiseResult) :
    Corresponds caller none
      (s.runThen env.accountBalance id ⟨.onStepResumed caller stepId, gas⟩ [] result)
      (m.runThen env id ⟨.onStepResumed (manualNamespace caller) stepId, gas'⟩ [] result) := by
  have running := corresponds.running_of_heard stored heard stored' rfl
  have started : Corresponds caller (some id) s ({ m with executing := some id }.note
      (.delivered id (.onStepResumed (manualNamespace caller) stepId) result)) := running.note rfl
  have found := started.getStep stepId
  rw [registered, Option.map_some] at found
  unfold Sequencer.runThen Machine.runThen
  dsimp only [Sequencer.runCallback, Sequencer.onStepResumed]
  rw [registered]
  cases result with
  | failed =>
      rw [attempt_resumed (onStepResumed_failed env found) rfl]
      exact (started.haltOnTimeout env registered own).finish _ _
  | successful bytes =>
      have ran := onStepResumed_successful env bytes found started.standalone
      have paid_iff : (SmartAccount.PromiseOrValue.promise (resolvedPromise none
          (manualNamespace caller) stepId yielded.call.toAccount)).refusal gas'
            env.accountBalance = none ↔ yielded.call.attachedDepositYocto ≤ env.accountBalance :=
        PromiseOrValue.refusal_promise.trans (and_iff_left funded')
      dsimp only
      by_cases paid : yielded.call.attachedDepositYocto ≤ env.accountBalance
      · rw [attempt_resumed ran (paid_iff.mpr paid), if_pos ⟨paid, funded⟩]
        exact Corresponds.handOver ((started.emit _).note rfl) stored stored' registered own _ _ _
      · rw [if_neg fun both => paid both.1]
        split
        · exact ((running.note rfl).emits _).finish _ _
        all_goals
          rename_i attempted
          obtain ⟨ran', paid'⟩ := Machine.attempt_ok.mp attempted
          cases ran.symm.trans (Except.ok.inj ran')
        · exact absurd (paid_iff.mp paid') paid

/-- The outcome of a step's call is delivered. -/
theorem deliverResolved (corresponds : Corresponds caller none s m) (env : Env) {id : Nat}
    {head : Head} {stepId : String} {yielded : RegisteredStep} {gas gas' : Nat}
    (stored : s.pool.get id = some ⟨head, [⟨.onStepResolved caller stepId, gas⟩]⟩)
    (stored' : m.pool.get id =
      some ⟨head, [⟨.onStepResolved (manualNamespace caller) stepId, gas'⟩]⟩)
    (heard : head ≠ .yielded) (registered : s.getStep caller stepId = some yielded)
    (own : yielded.yieldId = id) (result : PromiseResult) :
    Corresponds caller none
      (s.runThen env.accountBalance id ⟨.onStepResolved caller stepId, gas⟩ [] result)
      (m.runThen env id ⟨.onStepResolved (manualNamespace caller) stepId, gas'⟩ [] result) := by
  have started : Corresponds caller (some id) s ({ m with executing := some id }.note
      (.delivered id (.onStepResolved (manualNamespace caller) stepId) result)) :=
    (corresponds.running_of_heard stored heard stored' rfl).note rfl
  have ran : m.attempt env id ⟨.onStepResolved (manualNamespace caller) stepId, gas'⟩ result =
      .ok (_, .value []) := Machine.attempt_ok.mpr ⟨rfl, rfl⟩
  unfold Sequencer.runThen Machine.runThen
  rw [ran]
  exact (started.onStepResolved env registered own result).finish _ _

theorem deliver (corresponds : Corresponds caller none s m) (env : Env) (id : Nat)
    (answer : PromiseResult) :
    Corresponds caller none (s.deliver env.accountBalance id answer) (m.deliver env id answer) := by
  have agree := corresponds.flights id (Option.some_ne_none id).symm
  unfold Sequencer.deliver Machine.deliver
  generalize stored : s.pool.get id = f at agree ⊢
  generalize stored' : m.pool.get id = f' at agree ⊢
  cases agree with
  | gone => exact corresponds
  | @waiting head stepId yielded gas gas' registered own funded funded' =>
      dsimp only
      cases due : head.outcome answer with
      | none => exact corresponds
      | some result =>
          have heard : head ≠ .yielded := by
            rintro rfl
            cases due
          exact corresponds.deliverResumed env stored stored' heard registered own funded funded'
            result
  | @resolving head stepId yielded gas gas' registered own =>
      dsimp only
      cases due : head.outcome answer with
      | none => exact corresponds
      | some result =>
          have heard : head ≠ .yielded := by
            rintro rfl
            cases due
          exact corresponds.deliverResolved env stored stored' heard registered own result

/-! ## Runs -/

/-- A fresh deployment of each. -/
theorem init (host : Host) (caller : AccountId) :
    Corresponds caller none Sequencer.new (Machine.init host caller none) where
  owner := rfl
  standalone := rfl
  idle := rfl
  steps := .empty
  queue := .empty
  next := rfl
  flights := fun _ _ => .gone
  running := fun _ runs => by cases runs
  trace := rfl

/-- One common operation. -/
theorem step (corresponds : Corresponds caller none s m) (op : CommonOp) :
    s.accepts (op.toSimple caller) = accountAccepts m (op.toAccount caller) ∧
      Corresponds caller none (s.step (op.toSimple caller)) (m.step (op.toAccount caller)) := by
  cases op with
  | executeSteps env spareGas steps =>
      exact corresponds.transact (payable ((corresponds.executeSteps { env with predecessor := caller }
        spareGas rfl steps).map fun _ _ related => related.1) env)
  | registerStep env spareGas input =>
      exact corresponds.transact (payable ((stepFromRaw_agree input).bind fun call call' same =>
        same ▸ corresponds.registerStep { env with predecessor := caller } spareGas call) env)
  | runSequence env order =>
      exact corresponds.transact (payable ((corresponds.runSequence { env with predecessor := caller }
        rfl order).map fun _ _ related => related.1) env)
  | timeout id => exact ⟨rfl, corresponds.timeout id⟩
  | deliver env id answer => exact ⟨rfl, corresponds.deliver env id answer⟩

theorem run (corresponds : Corresponds caller none s m) (ops : List CommonOp) :
    Corresponds caller none (s.run (ops.map (CommonOp.toSimple caller)))
      (m.run (ops.map (CommonOp.toAccount caller))) := by
  induction ops generalizing s m with
  | nil => exact corresponds
  | cons op ops ih => exact ih (corresponds.step op).2

end Corresponds

/-- The states agree: the caller's registered steps, with their calls, its queue, and the
calls made and the yields resumed so far, in order. -/
structure Agreeing (caller : AccountId) (s : Sequencer) (m : Machine) : Prop where
  registered : ∀ stepId, m.getStep (manualNamespace caller) stepId =
    (s.getStep caller stepId).map RegisteredStep.toAccount
  queue : m.contract.sequenceQueue.get (manualNamespace caller) =
    s.contract.sequenceQueue.get (sequenceQueueKey caller)
  trace : observed m.trace = s.trace

/-- After every run of common operations and callbacks the two contracts agree, and each
operation is accepted by both or by neither. -/
theorem sequencers_agree (host : Host) (caller : AccountId) (ops : List CommonOp) :
    Agreeing caller (Sequencer.new.run (ops.map (CommonOp.toSimple caller)))
      ((Machine.init host caller none).run (ops.map (CommonOp.toAccount caller))) ∧
    ∀ op : CommonOp,
      (Sequencer.new.run (ops.map (CommonOp.toSimple caller))).accepts (op.toSimple caller) =
        accountAccepts ((Machine.init host caller none).run
          (ops.map (CommonOp.toAccount caller))) (op.toAccount caller) := by
  have corresponds := (Corresponds.init host caller).run ops
  exact ⟨⟨corresponds.getStep, corresponds.queued, corresponds.trace⟩,
    fun op => (corresponds.step op).1⟩

end SmartAccount.SimpleSequencer
