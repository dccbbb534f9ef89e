import SmartAccount.Firing

/-!
# A plan in one transaction and in several

`execute_steps` against the calls it stands for: one `register_step` for each step in order,
then `run_sequence`.  The executions differ in nothing but what the host adds to each: the spare
gas that a yield takes up.  So the two ways are related step by step by `SameButGas`, which
says that everything but the gas of yields is the same.
-/

namespace SmartAccount

open Foundation

/-! ## Machines that differ in gas only -/

/-- What a flight waits for, and the callbacks behind it. -/
def Flight.callbacks (f : Flight) : Head × List Callback := (f.head, f.thens.map Then.callback)

def TraceEvent.ungassed : TraceEvent → TraceEvent
  | registered ns yieldId call _ => .registered ns yieldId call 0
  | event => event

/-- The same but for the gas attached to yields. -/
structure SameButGas (m m' : Machine) : Prop where
  host : m.host = m'.host
  contract : m.contract = m'.contract
  receipts : m.receipts = m'.receipts
  executing : m.executing = m'.executing
  next : m.pool.next = m'.pool.next
  flights : ∀ id, (m.pool.get id).map Flight.callbacks = (m'.pool.get id).map Flight.callbacks
  trace : m.trace.map TraceEvent.ungassed = m'.trace.map TraceEvent.ungassed

/-- The same caller at the same block time, attaching the same deposit. -/
structure SameCaller (env env' : Env) : Prop where
  predecessor : env.predecessor = env'.predecessor
  now : env.now = env'.now
  attachedDeposit : env.attachedDeposit = env'.attachedDeposit

namespace SameButGas

variable {m m' : Machine}

theorem refl (m : Machine) : SameButGas m m :=
  ⟨rfl, rfl, rfl, rfl, rfl, fun _ => rfl, rfl⟩

theorem symm (same : SameButGas m m') : SameButGas m' m :=
  ⟨same.host.symm, same.contract.symm, same.receipts.symm, same.executing.symm, same.next.symm,
    fun id => (same.flights id).symm, same.trace.symm⟩

theorem getStep (same : SameButGas m m') (ns stepId : String) :
    m.getStep ns stepId = m'.getStep ns stepId := by
  rw [Machine.getStep, Machine.getStep, same.contract]

theorem note (same : SameButGas m m') {event event' : TraceEvent}
    (ungassed : event.ungassed = event'.ungassed) :
    SameButGas (m.note event) (m'.note event') :=
  { same with
    trace := by
      show List.map _ (m.trace ++ [_]) = List.map _ (m'.trace ++ [_])
      rw [List.map_append, List.map_append, same.trace, List.map_singleton, List.map_singleton,
        ungassed] }

theorem emit (same : SameButGas m m') (event : Event) :
    SameButGas (m.emit event) (m'.emit event) :=
  same.note (by rw [same.executing])

theorem withContract (same : SameButGas m m') (edit : Contract → Contract) :
    SameButGas (m.withContract (edit m.contract)) (m'.withContract (edit m'.contract)) :=
  { same with contract := congrArg edit same.contract }

theorem countP (same : SameButGas m m') {p : TraceEvent → Bool}
    (blind : ∀ event, p event.ungassed = p event) : m.trace.countP p = m'.trace.countP p := by
  have counted : ∀ t : Trace, (t.map TraceEvent.ungassed).countP p = t.countP p := fun t => by
    rw [List.countP_map]
    exact List.countP_congr fun event _ => by rw [Function.comp_apply, blind]
  rw [← counted, same.trace, counted]

theorem noteResumed (same : SameButGas m m') (ns stepId : String) (yieldId : YieldId) :
    SameButGas (m.noteResumed ns stepId yieldId) (m'.noteResumed ns stepId yieldId) := by
  have releases : m.trace.releaseCount ns = m'.trace.releaseCount ns :=
    same.countP fun event => by cases event <;> rfl
  have resumes : ∀ release, m.trace.resumeCount ns release = m'.trace.resumeCount ns release :=
    fun release => same.countP fun event => by cases event <;> rfl
  unfold Machine.noteResumed
  simp only [releases, resumes]
  exact same.note rfl

/-! ## Registration -/

theorem storeStep (same : SameButGas m m') (ns stepId : String) (yielded : RegisteredStep) :
    SameButGas (m.storeStep ns stepId yielded) (m'.storeStep ns stepId yielded) :=
  same.withContract fun c => { c with
    registeredSteps := c.registeredSteps.insert (registeredStepKey ns stepId) yielded }

theorem create (same : SameButGas m m') {f f' : Flight} (callbacks : f.callbacks = f'.callbacks) :
    SameButGas { m with pool := m.pool.create f } { m' with pool := m'.pool.create f' } :=
  { same with
    next := congrArg Nat.succ same.next
    flights := fun id => by
      rw [Pool.get_create, Pool.get_create, same.next]
      split
      · exact congrArg some callbacks
      · exact same.flights id }

theorem withRegistered (same : SameButGas m m') {env env' : Env} (now : env.now = env'.now)
    (ns : String) (call : Step) :
    SameButGas (m.withRegistered env ns call) (m'.withRegistered env' ns call) := by
  unfold Machine.withRegistered
  rw [← same.next, ← now]
  refine SameButGas.emit
    (SameButGas.note (SameButGas.storeStep (SameButGas.create same ?_) ..) ?_) _
  · rfl
  · rfl

/-! ## Release -/

theorem resumeYield (same : SameButGas m m') {yieldId : YieldId} {woken : Machine}
    (resumed : m.resumeYield yieldId = some woken) :
    ∃ woken', m'.resumeYield yieldId = some woken' ∧ SameButGas woken woken' := by
  obtain ⟨thens, flying, rfl⟩ := Machine.resumeYield_eq_some.mp resumed
  have flying' := same.flights yieldId
  rw [flying] at flying'
  obtain ⟨⟨head, thens'⟩, stored, callbacks⟩ := Option.map_eq_some_iff.mp flying'.symm
  obtain ⟨rfl, behind⟩ := Prod.mk.inj callbacks
  refine ⟨_, Machine.resumeYield_eq_some.mpr ⟨thens', stored, rfl⟩, { same with
    next := same.next
    flights := fun id => ?_ }⟩
  rw [Pool.get_update, Pool.get_update]
  split
  · rw [flying, stored]
    exact congrArg (fun cbs => some (Head.done _, cbs)) behind.symm
  · exact same.flights id

theorem resumeRegisteredStep (same : SameButGas m m') {ns stepId : String} {resumed : Machine}
    (wakes : m.resumeRegisteredStep ns stepId = .ok resumed) :
    ∃ resumed', m'.resumeRegisteredStep ns stepId = .ok resumed' ∧
      SameButGas resumed resumed' := by
  obtain ⟨yielded, woken, stored, wake, rfl⟩ := Machine.resumeRegisteredStep_ok.mp wakes
  obtain ⟨woken', wake', same'⟩ := same.resumeYield wake
  exact ⟨_, Machine.resumeRegisteredStep_ok.mpr
    ⟨yielded, woken', (same.getStep ns stepId).symm.trans stored, wake', rfl⟩,
      same'.noteResumed ns stepId _⟩

theorem checkOrder (same : SameButGas m m') (ns : String) (order : List String) :
    m.checkOrder ns order = m'.checkOrder ns order := by
  induction order with
  | nil => rfl
  | cons stepId rest ih => rw [Machine.checkOrder, Machine.checkOrder, same.getStep, ih]

theorem startSequenceRelease (same : SameButGas m m') {ns : String} {order : List String}
    {started : Machine} {n : Nat}
    (released : m.startSequenceReleaseInNamespace ns order = .ok (started, n)) :
    ∃ started', m'.startSequenceReleaseInNamespace ns order = .ok (started', n) ∧
      SameButGas started started' := by
  simp only [Machine.startSequenceReleaseInNamespace, bind_eq_ok, require_eq_ok] at released ⊢
  obtain ⟨_, nonempty, _, idle, _, checked, released⟩ := released
  cases order with
  | nil => cases released
  | cons first rest =>
      simp only [bind_eq_ok, Except.ok.injEq, Prod.mk.injEq] at released
      obtain ⟨resumed, woken, rfl, rfl⟩ := released
      have queued : SameButGas (if rest ≠ [] then m.setQueue ns rest else m)
          (if rest ≠ [] then m'.setQueue ns rest else m') := by
        split
        · exact same.withContract fun c => { c with
            sequenceQueue := c.sequenceQueue.insert ns rest }
        · exact same
      have marked : SameButGas
          ((if rest ≠ [] then m.setQueue ns rest else m).note (.released ns (first :: rest)))
          ((if rest ≠ [] then m'.setQueue ns rest else m').note (.released ns (first :: rest))) :=
        queued.note rfl
      obtain ⟨resumed', woken', same'⟩ := marked.resumeRegisteredStep woken
      refine ⟨_, ⟨(), nonempty, (), same.contract ▸ idle, (),
        (same.checkOrder ns _).symm.trans checked, ?_⟩, same'.emit _⟩
      simp only [bind_eq_ok, Except.ok.injEq, Prod.mk.injEq]
      refine ⟨resumed', woken', ?_, trivial⟩
      rw [Machine.sequenceStartedEvent, Machine.sequenceStartedEvent, same'.contract]

end SameButGas

/-! ## The two ways -/

/-- One `register_step` call for each step in order. -/
def stageSteps (m : Machine) : List (Env × StepInput) → Except String Machine
  | [] => .ok m
  | (env, input) :: rest => do
      let m' ← m.call env (.registerStep input)
      stageSteps m' rest

/-- The steps registered one by one, then released by their caller. -/
def stagePlan (m : Machine) (plan : List (Env × StepInput)) (env : Env) :
    Except String Machine := do
  let registered ← stageSteps m plan
  registered.call env (.runSequence env.predecessor (plan.map fun staged => staged.2.stepId))

/-- The yields the contract resumed, oldest first. -/
def Trace.resumedYields (t : Trace) : List YieldId :=
  t.filterMap fun
    | .resumed _ _ _ _ yieldId => some yieldId
    | _ => none

namespace Machine

/-- What a call of `register_step` checks. -/
theorem call_registerStep {env : Env} {m m' : Machine} {input : StepInput} :
    m.call env (.registerStep input) = .ok m' ↔ env.attachedDeposit = 0 ∧
      validateStep input = .ok () ∧
        m.getStep (manualNamespace env.predecessor) input.stepId = none ∧
          m' = m.withRegistered env (manualNamespace env.predecessor) input := by
  simp only [call, execute, registerStep, bind_eq_ok, require_eq_ok, stepFromRaw_eq_ok,
    registerStepInNamespace_ok, PublicCall.payable, Bool.false_or, decide_eq_true_eq]
  constructor
  · rintro ⟨_, free, _, ⟨valid, rfl⟩, absent, rfl⟩
    exact ⟨free, valid, absent, rfl⟩
  · rintro ⟨free, valid, absent, rfl⟩
    exact ⟨(), free, input, ⟨valid, rfl⟩, absent, rfl⟩

/-- One pass of the registration loop of `execute_steps`. -/
theorem registerInputs_cons {env : Env} {m m' : Machine} {ns : String} {input : StepInput}
    {rest : List StepInput} :
    m.registerInputs env ns (input :: rest) = .ok m' ↔ validateStep input = .ok () ∧
      m.getStep ns input.stepId = none ∧
        (m.withRegistered env ns input).registerInputs env ns rest = .ok m' := by
  simp only [registerInputs, bind_eq_ok, stepFromRaw_eq_ok, registerStepInNamespace_ok]
  constructor
  · rintro ⟨_, ⟨valid, rfl⟩, _, ⟨absent, rfl⟩, looped⟩
    exact ⟨valid, absent, looped⟩
  · rintro ⟨valid, absent, looped⟩
    exact ⟨input, ⟨valid, rfl⟩, _, ⟨absent, rfl⟩, looped⟩

/-- Registered steps have distinct ids. -/
theorem registerSteps_nodup {env : Env} {m m' : Machine} {ns : String} {calls : List Step}
    (registered : m.registerSteps env ns calls = .ok m') : (calls.map Step.stepId).Nodup := by
  induction calls generalizing m with
  | nil => exact List.nodup_nil
  | cons call calls ih =>
      obtain ⟨-, rest⟩ := registerSteps_cons.mp registered
      rw [List.map_cons, List.nodup_cons]
      refine ⟨fun again => ?_, ih rest⟩
      obtain ⟨later, inside, same⟩ := List.mem_map.mp again
      have fresh := (registerSteps_waiting rest later inside).1
      rw [getStep_withRegistered, if_pos same] at fresh
      cases fresh

theorem checkDistinct_eq_ok {seen ids : List String} :
    checkDistinct seen ids = .ok () ↔ ids.Nodup ∧ ∀ id ∈ ids, id ∉ seen := by
  induction ids generalizing seen with
  | nil => simp [checkDistinct]
  | cons id ids ih =>
      simp only [checkDistinct, bind_eq_ok, require_eq_ok, decide_eq_true_eq, ih,
        List.nodup_cons, List.mem_cons, not_or]
      constructor
      · rintro ⟨_, fresh, distinct, others⟩
        refine ⟨⟨fun again => (others id again).1 rfl, distinct⟩, ?_⟩
        rintro stepId (rfl | inside)
        · exact fresh
        · exact (others stepId inside).2
      · rintro ⟨⟨once, distinct⟩, fresh⟩
        refine ⟨(), fresh id (.inl rfl), distinct, fun stepId inside => ⟨?_, ?_⟩⟩
        · rintro rfl
          exact once inside
        · exact fresh stepId (.inr inside)

theorem registerInputs_isExecutor {env : Env} {m m' : Machine} {ns : String}
    {steps : List StepInput} (registered : m.registerInputs env ns steps = .ok m')
    (caller : AccountId) : m'.contract.isExecutor caller = m.contract.isExecutor caller := by
  induction steps generalizing m with
  | nil =>
      cases registered
      rfl
  | cons input rest ih =>
      obtain ⟨-, -, looped⟩ := registerInputs_cons.mp registered
      exact (ih looped).trans rfl

/-- What a call of `execute_steps` does. -/
theorem call_executeSteps {env : Env} {m m' : Machine} {steps : List StepInput} :
    m.call env (.executeSteps steps) = .ok m' ↔ env.attachedDeposit = 0 ∧
      m.contract.isExecutor env.predecessor = true ∧ steps ≠ [] ∧
        ∃ registered n, m.registerInputs env (manualNamespace env.predecessor) steps =
            .ok registered ∧
          registered.startSequenceReleaseInNamespace (manualNamespace env.predecessor)
            (steps.map Step.stepId) = .ok (m', n) := by
  simp only [call, execute, executeSteps, assertExecutor, map_fst_eq_ok, bind_eq_ok,
    require_eq_ok, PublicCall.payable, Bool.false_or, decide_eq_true_eq]
  constructor
  · rintro ⟨_, free, n, _, executor, _, nonempty, _, -, registered, looped, released⟩
    exact ⟨free, executor, nonempty, registered, n, looped, released⟩
  · rintro ⟨free, executor, nonempty, registered, n, looped, released⟩
    have distinct := registerSteps_nodup (registerInputs_ok looped).1
    exact ⟨(), free, n, (), executor, (), nonempty, (),
      checkDistinct_eq_ok.mpr ⟨distinct, fun _ _ => List.not_mem_nil⟩, registered, looped,
        released⟩

theorem call_runSequence {env : Env} {m m' : Machine} {callerId : AccountId}
    {order : List String} :
    m.call env (.runSequence callerId order) = .ok m' ↔ env.attachedDeposit = 0 ∧
      m.contract.isExecutor env.predecessor = true ∧
        ∃ n, m.startSequenceReleaseInNamespace (manualNamespace callerId) order =
          .ok (m', n) := by
  simp only [call, execute, runSequence, assertExecutor, map_fst_eq_ok, bind_eq_ok,
    require_eq_ok, PublicCall.payable, Bool.false_or, decide_eq_true_eq]
  constructor
  · rintro ⟨_, free, n, _, executor, released⟩
    exact ⟨free, executor, n, released⟩
  · rintro ⟨free, executor, n, released⟩
    exact ⟨(), free, n, (), executor, released⟩

end Machine

/-- The loop of `execute_steps` and the staged calls register the same. -/
theorem SameButGas.stageSteps {m m' : Machine} (same : SameButGas m m') {env : Env}
    (free : env.attachedDeposit = 0) {plan : List (Env × StepInput)}
    (callers : ∀ staged ∈ plan, SameCaller env staged.1) :
    (∀ {registered}, m.registerInputs env (manualNamespace env.predecessor)
        (plan.map Prod.snd) = .ok registered →
      ∃ registered', SmartAccount.stageSteps m' plan = .ok registered' ∧
        SameButGas registered registered') ∧
    ∀ {registered'}, SmartAccount.stageSteps m' plan = .ok registered' →
      ∃ registered, m.registerInputs env (manualNamespace env.predecessor)
          (plan.map Prod.snd) = .ok registered ∧ SameButGas registered registered' := by
  induction plan generalizing m m' with
  | nil =>
      constructor
      · rintro _ ⟨⟩
        exact ⟨m', rfl, same⟩
      · rintro _ ⟨⟩
        exact ⟨m, rfl, same⟩
  | cons staged rest ih =>
      obtain ⟨env', input⟩ := staged
      obtain ⟨⟨predecessor, now, deposit⟩, callers⟩ := List.forall_mem_cons.mp callers
      replace predecessor : env'.predecessor = env.predecessor := predecessor.symm
      replace deposit : env'.attachedDeposit = env.attachedDeposit := deposit.symm
      have next := same.withRegistered now (manualNamespace env.predecessor) input
      obtain ⟨there, back⟩ := ih next callers
      simp only [List.map_cons, Machine.registerInputs_cons, SmartAccount.stageSteps, bind_eq_ok,
        Machine.call_registerStep, predecessor, deposit, ← same.getStep]
      constructor
      · rintro _ ⟨valid, absent, looped⟩
        obtain ⟨registered', staged, same'⟩ := there looped
        exact ⟨registered', ⟨_, ⟨free, valid, absent, rfl⟩, staged⟩, same'⟩
      · rintro _ ⟨_, ⟨-, valid, absent, rfl⟩, staged⟩
        obtain ⟨registered, looped, same'⟩ := back staged
        exact ⟨registered, ⟨valid, absent, looped⟩, same'⟩

/-! ## One yield -/

namespace Machine

/-- Registration resumes nothing. -/
theorem registerInputs_resumedYields {env : Env} {m m' : Machine} {ns : String}
    {steps : List StepInput} (registered : m.registerInputs env ns steps = .ok m') :
    m'.trace.resumedYields = m.trace.resumedYields := by
  induction steps generalizing m with
  | nil =>
      cases registered
      rfl
  | cons input rest ih =>
      obtain ⟨-, -, looped⟩ := registerInputs_cons.mp registered
      rw [ih looped]
      show List.filterMap _ ((m.trace ++ [_]) ++ [_]) = _
      rw [List.filterMap_append, List.filterMap_append, Trace.resumedYields]
      exact (List.append_nil _).trans (List.append_nil _)

/-- A release resumes the yield of its first step. -/
theorem startSequenceRelease_resumedYields {m m' : Machine} {ns : String} {order : List String}
    {n : Nat} (released : m.startSequenceReleaseInNamespace ns order = .ok (m', n)) :
    ∃ yieldId, m'.trace.resumedYields = m.trace.resumedYields ++ [yieldId] := by
  obtain ⟨first, rest, _, rfl, _, _, woken, rfl, _⟩ := startSequenceRelease_ok released
  obtain ⟨yielded, woken', _, wakes, rfl⟩ := resumeRegisteredStep_ok.mp woken
  obtain ⟨_, _, rfl⟩ := resumeYield_eq_some.mp wakes
  refine ⟨yielded.yieldId, ?_⟩
  have queued : (m.withQueued ns rest).trace = m.trace := by
    unfold withQueued
    split <;> rfl
  show List.filterMap _ ((((m.withQueued ns rest).trace ++ [_]) ++ [_]) ++ [_]) = _
  rw [queued, List.filterMap_append, List.filterMap_append, List.filterMap_append,
    Trace.resumedYields]
  have kept : ∀ before : List YieldId, (((before ++ []) ++ [yielded.yieldId]) ++ []) =
      before ++ [yielded.yieldId] := fun before => by
    rw [List.append_nil, List.append_nil]
  exact kept _

end Machine

theorem SameButGas.resumedYields {m m' : Machine} (same : SameButGas m m') :
    m.trace.resumedYields = m'.trace.resumedYields := by
  have blind : ∀ t : Trace, Trace.resumedYields (t.map TraceEvent.ungassed) = t.resumedYields :=
    fun t => by
      rw [Trace.resumedYields, List.filterMap_map]
      refine List.filterMap_congr fun event _ => ?_
      cases event <;> rfl
  rw [← blind, same.trace, blind]

/-! ## Equivalence -/

section Staged

variable {m : Machine} {env final : Env} {plan : List (Env × StepInput)}

/-- What `execute_steps` does is also done in stages. -/
theorem stagePlan_of_executeSteps (callers : ∀ staged ∈ plan, SameCaller env staged.1)
    (last : SameCaller env final) {m' : Machine}
    (executed : m.call env (.executeSteps (plan.map Prod.snd)) = .ok m') :
    ∃ m'', stagePlan m plan final = .ok m'' ∧ SameButGas m' m'' := by
  obtain ⟨free, executor, -, registered, n, looped, released⟩ :=
    Machine.call_executeSteps.mp executed
  obtain ⟨registered', staged, same⟩ := ((SameButGas.refl m).stageSteps free callers).1 looped
  rw [List.map_map] at released
  obtain ⟨m'', released', same'⟩ := same.startSequenceRelease released
  refine ⟨m'', ?_, same'⟩
  rw [stagePlan, staged, ← last.predecessor]
  refine Machine.call_runSequence.mpr ⟨last.attachedDeposit ▸ free, ?_, n, released'⟩
  rw [← last.predecessor, ← same.contract, Machine.registerInputs_isExecutor looped]
  exact executor

/-- What is done in stages `execute_steps` does at once. -/
theorem executeSteps_of_stagePlan (callers : ∀ staged ∈ plan, SameCaller env staged.1)
    (last : SameCaller env final) {m'' : Machine} (staged : stagePlan m plan final = .ok m'') :
    ∃ m', m.call env (.executeSteps (plan.map Prod.snd)) = .ok m' ∧ SameButGas m' m'' := by
  obtain ⟨registered', stored, ran⟩ := bind_eq_ok.mp staged
  obtain ⟨free, executor, n, released⟩ := Machine.call_runSequence.mp ran
  rw [← last.attachedDeposit] at free
  obtain ⟨registered, looped, same⟩ := ((SameButGas.refl m).stageSteps free callers).2 stored
  rw [← last.predecessor] at executor released
  obtain ⟨m', released', same'⟩ := same.symm.startSequenceRelease released
  refine ⟨m', Machine.call_executeSteps.mpr ⟨free, ?_, ?_, registered, n, looped, ?_⟩,
    same'.symm⟩
  · rwa [← Machine.registerInputs_isExecutor looped, same.contract]
  · rintro empty
    obtain ⟨_, _, _, order, _⟩ := Machine.startSequenceRelease_ok released
    rw [List.map_eq_nil_iff.mp empty] at order
    cases order
  · rwa [List.map_map]

/-- `execute_steps` succeeds exactly when its steps can be registered one by one and then run,
and the two ways end in the same state, with the same one yield resumed. -/
theorem executeSteps_iff_staged (callers : ∀ staged ∈ plan, SameCaller env staged.1)
    (last : SameCaller env final) :
    ((∃ m', m.call env (.executeSteps (plan.map Prod.snd)) = .ok m') ↔
      ∃ m'', stagePlan m plan final = .ok m'') ∧
    ∀ m' m'', m.call env (.executeSteps (plan.map Prod.snd)) = .ok m' →
      stagePlan m plan final = .ok m'' → SameButGas m' m'' ∧
        ∃ yieldId, m'.trace.resumedYields = m.trace.resumedYields ++ [yieldId] ∧
          m''.trace.resumedYields = m.trace.resumedYields ++ [yieldId] := by
  refine ⟨⟨?_, ?_⟩, fun m' m'' executed staged => ?_⟩
  · rintro ⟨m', executed⟩
    obtain ⟨m'', staged, -⟩ := stagePlan_of_executeSteps callers last executed
    exact ⟨m'', staged⟩
  · rintro ⟨m'', staged⟩
    obtain ⟨m', executed, -⟩ := executeSteps_of_stagePlan callers last staged
    exact ⟨m', executed⟩
  · obtain ⟨_, staged', same⟩ := stagePlan_of_executeSteps callers last executed
    cases staged.symm.trans staged'
    obtain ⟨-, -, -, registered, n, looped, released⟩ := Machine.call_executeSteps.mp executed
    obtain ⟨yieldId, resumed⟩ := Machine.startSequenceRelease_resumedYields released
    rw [Machine.registerInputs_resumedYields looped] at resumed
    exact ⟨same, yieldId, resumed, same.resumedYields ▸ resumed⟩

end Staged

/-- Two steps at once, and one after the other with less gas to spare. -/
theorem executeSteps_iff_staged_pair :
    ∃ m' m'', deployed.call aliceEnv (.executeSteps [plainStep "a", plainStep "b"]) = .ok m' ∧
      stagePlan deployed [(aliceEnv, plainStep "a"), ({ aliceEnv with spareGas := 7 },
        plainStep "b")] aliceEnv = .ok m'' ∧ SameButGas m' m'' := by
  have accepts : (deployed.call aliceEnv
      (.executeSteps [plainStep "a", plainStep "b"])).isOk = true := by decide
  have callers : ∀ staged ∈ [(aliceEnv, plainStep "a"), ({ aliceEnv with spareGas := 7 },
      plainStep "b")], SameCaller aliceEnv staged.1 := by
    intro staged inside
    rcases List.mem_pair.mp inside with rfl | rfl <;> exact ⟨rfl, rfl, rfl⟩
  have last : SameCaller aliceEnv aliceEnv := ⟨rfl, rfl, rfl⟩
  obtain ⟨there, same⟩ := executeSteps_iff_staged (m := deployed) callers last
  cases executed : deployed.call aliceEnv (.executeSteps [plainStep "a", plainStep "b"]) with
  | error message =>
      rw [executed] at accepts
      cases accepts
  | ok m' =>
      obtain ⟨m'', staged⟩ := there.mp ⟨m', executed⟩
      exact ⟨m', m'', rfl, staged, (same m' m'' executed staged).1⟩

end SmartAccount
