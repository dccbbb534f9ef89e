import SmartAccount.Transactions

/-!
# Well-formed machines

Where the entries of a reachable machine come from: every registered step and every
flight was created by one registration, under one namespace the contract can create.
-/

namespace SmartAccount

open Foundation

structure Wf (m : Machine) : Prop where
  created : ∀ ns id call gas, .registered ns id call gas ∈ m.trace →
    IsManual ns ∨ IsAutomation ns
  known : ∀ ns id call gas, .registered ns id call gas ∈ m.trace → id < m.pool.next
  unique : ∀ ns ns' id call call' gas gas', .registered ns id call gas ∈ m.trace →
    .registered ns' id call' gas' ∈ m.trace → ns = ns' ∧ call = call' ∧ gas = gas'
  stored : ∀ key yielded, m.contract.registeredSteps.get key = some yielded →
    ∃ ns gas, .registered ns yielded.yieldId yielded.call gas ∈ m.trace ∧
      key = registeredStepKey ns yielded.call.stepId
  flying : ∀ id f, m.pool.get id = some f → f.thens ≠ [] ∧
    ∃ ns call gas, .registered ns id call gas ∈ m.trace ∧
      ∀ t ∈ f.thens, t.callback.sequenceNamespace = ns
  rows : ∀ ns run, m.contract.automationRuns.get ns = some run → IsAutomation ns

/-! ## What only removes or rewrites entries -/

/-- No step, flight or run came into being. -/
structure Keeps (m m' : Machine) : Prop where
  steps : ∀ key yielded, m'.contract.registeredSteps.get key = some yielded →
    m.contract.registeredSteps.get key = some yielded
  flights : ∀ id, (m'.pool.get id).map Flight.thens = (m.pool.get id).map Flight.thens
  next : m'.pool.next = m.pool.next
  registered : ∀ ns id call gas,
    .registered ns id call gas ∈ m'.trace ↔ .registered ns id call gas ∈ m.trace
  runs : ∀ ns run', m'.contract.automationRuns.get ns = some run' →
    ∃ run, m.contract.automationRuns.get ns = some run
  trace : m.trace <+: m'.trace

namespace Keeps

theorem refl (m : Machine) : Keeps m m :=
  ⟨fun _ _ stored => stored, fun _ => rfl, rfl, fun _ _ _ _ => .rfl,
    fun _ run' stored => ⟨run', stored⟩, List.prefix_refl _⟩

theorem trans {m₁ m₂ m₃ : Machine} (first : Keeps m₁ m₂) (second : Keeps m₂ m₃) :
    Keeps m₁ m₃ where
  steps key yielded stored := first.steps key yielded (second.steps key yielded stored)
  flights id := (second.flights id).trans (first.flights id)
  next := second.next.trans first.next
  registered ns id call gas :=
    (second.registered ns id call gas).trans (first.registered ns id call gas)
  runs ns run' stored := by
    obtain ⟨run₂, stored₂⟩ := second.runs ns run' stored
    exact first.runs ns run₂ stored₂
  trace := first.trace.trans second.trace

/-- New trace events that register nothing. -/
theorem of_trace {m m' : Machine} {events : Trace} (contract : m'.contract = m.contract)
    (pool : m'.pool = m.pool) (trace : m'.trace = m.trace ++ events)
    (plain : ∀ event ∈ events, event.isRegistered = false) : Keeps m m' where
  steps key yielded stored := contract ▸ stored
  flights id := by rw [pool]
  next := congrArg Pool.next pool
  registered ns id call gas := by
    rw [trace, List.mem_append]
    refine ⟨fun member => member.resolve_right fun new => ?_, .inl⟩
    cases plain _ new
  runs ns run' stored := ⟨run', contract ▸ stored⟩
  trace := trace ▸ List.prefix_append _ _

theorem note (m : Machine) {event : TraceEvent} (plain : event.isRegistered = false) :
    Keeps m (m.note event) :=
  of_trace rfl rfl rfl (by simpa using plain)

theorem emit (m : Machine) (event : Event) : Keeps m (m.emit event) := note m rfl

/-- A write to the root record that adds no step and no run. -/
theorem withContract {m : Machine} {c : Contract}
    (steps : ∀ key yielded, c.registeredSteps.get key = some yielded →
      m.contract.registeredSteps.get key = some yielded)
    (runs : ∀ ns run', c.automationRuns.get ns = some run' →
      ∃ run, m.contract.automationRuns.get ns = some run) : Keeps m (m.withContract c) :=
  ⟨steps, fun _ => rfl, rfl, fun _ _ _ _ => .rfl, runs, List.prefix_refl _⟩

/-- A flight that changes its head and keeps its callbacks. -/
theorem updateHead {m : Machine} {id : Nat} {f : Flight} (head : Head)
    (stored : m.pool.get id = some f) :
    Keeps m { m with pool := m.pool.update id ⟨head, f.thens⟩ } where
  steps _ _ stored := stored
  flights id' := by
    simp only [Pool.get_update]
    split
    · rename_i same
      rw [same, stored, Option.map_some, Option.map_some, Option.map_some]
    · rfl
  next := rfl
  registered _ _ _ _ := .rfl
  runs _ run' stored := ⟨run', stored⟩
  trace := List.prefix_refl _

theorem of_aside {m m' : Machine} (aside : Aside m m') : Keeps m m' where
  steps key yielded stored := aside.registeredSteps ▸ stored
  flights id := by rw [aside.pool]
  next := congrArg Pool.next aside.pool
  registered ns id call gas := by
    obtain ⟨events, _, eq⟩ := aside.trace
    rw [eq, List.mem_append]
    refine ⟨fun member => member.resolve_right fun new => ?_, .inl⟩
    obtain ⟨event, _, same⟩ := List.mem_map.mp new
    cases same
  runs ns run' stored := ⟨run', aside.automationRuns ▸ stored⟩
  trace := by
    obtain ⟨events, _, eq⟩ := aside.trace
    exact eq ▸ List.prefix_append _ _

/-- No write of a callback creates an entry. -/
theorem of_write {ns : String} {m m' : Machine} (write : Write ns m m') : Keeps m m' := by
  cases write with
  | note event about plain => exact note m plain
  | removeStep stepId =>
      exact withContract (fun key yielded stored => (IterableMap.get_remove_eq_some stored).2)
        fun _ run' stored => ⟨run', stored⟩
  | setQueue waiting => exact withContract (fun _ _ stored => stored) fun _ r h => ⟨r, h⟩
  | removeQueue => exact withContract (fun _ _ stored => stored) fun _ r h => ⟨r, h⟩
  | clearContext => exact withContract (fun _ _ stored => stored) fun _ r h => ⟨r, h⟩
  | saveResult spec bytes => exact withContract (fun _ _ stored => stored) fun _ r h => ⟨r, h⟩
  | resume stored resumed =>
      obtain ⟨thens, flying, rfl⟩ := Machine.resumeYield_eq_some.mp resumed
      exact updateHead _ flying
  | finishRun stored running closing =>
      refine withContract (fun _ _ stored => stored) fun ns' run' written => ?_
      simp only [IterableMap.get_insert] at written
      split at written
      · rename_i same
        exact ⟨_, same ▸ stored⟩
      · exact ⟨run', written⟩
  | clearNamespace =>
      refine withContract (fun key yielded stored => ?_) fun _ r h => ⟨r, h⟩
      simp only [Contract.clearRegisteredNamespace, IterableMap.get_removeAll] at stored
      split at stored
      · cases stored
      · exact stored

theorem of_writes {ns : String} {m m' : Machine} (writes : Writes ns m m') : Keeps m m' := by
  induction writes with
  | refl => exact refl m
  | tail _ last ih => exact ih.trans (of_write last)

end Keeps

/-- A flight goes on through writes with its callbacks. -/
theorem Keeps.flying {m m' : Machine} (keeps : Keeps m m') {id : Nat} {f : Flight}
    (stored : m.pool.get id = some f) : ∃ f', m'.pool.get id = some f' ∧ f'.thens = f.thens := by
  have same := keeps.flights id
  rw [stored, Option.map_some] at same
  exact Option.map_eq_some_iff.mp same

/-- A flight found after writes was there before, with the same callbacks. -/
theorem Keeps.flew {m m' : Machine} (keeps : Keeps m m') {id : Nat} {f' : Flight}
    (stored : m'.pool.get id = some f') : ∃ f, m.pool.get id = some f ∧ f.thens = f'.thens := by
  have same := keeps.flights id
  rw [stored, Option.map_some] at same
  exact Option.map_eq_some_iff.mp same.symm

theorem Wf.of_keeps {m m' : Machine} (wf : Wf m) (keeps : Keeps m m') : Wf m' where
  created ns id call gas member :=
    wf.created ns id call gas ((keeps.registered ns id call gas).mp member)
  known ns id call gas member := by
    rw [keeps.next]
    exact wf.known ns id call gas ((keeps.registered ns id call gas).mp member)
  unique ns ns' id call call' gas gas' left right :=
    wf.unique ns ns' id call call' gas gas' ((keeps.registered ns id call gas).mp left)
      ((keeps.registered ns' id call' gas').mp right)
  stored key yielded stored := by
    obtain ⟨ns, gas, member, same⟩ := wf.stored key yielded (keeps.steps key yielded stored)
    exact ⟨ns, gas, (keeps.registered _ _ _ _).mpr member, same⟩
  flying id f' stored := by
    obtain ⟨f, stored', same⟩ := keeps.flew stored
    obtain ⟨nonempty, ns, call, gas, member, addressed⟩ := wf.flying id f stored'
    rw [← same]
    exact ⟨nonempty, ns, call, gas, (keeps.registered _ _ _ _).mpr member, addressed⟩
  rows ns run' stored := by
    obtain ⟨run, stored'⟩ := keeps.runs ns run' stored
    exact wf.rows ns run stored'

/-! ## Registration -/

/-- A registration adds one step and one yield under a fresh identifier. -/
theorem Wf.withRegistered {env : Env} {m : Machine} (wf : Wf m) {ns : String} (call : Step)
    (created : IsManual ns ∨ IsAutomation ns) : Wf (m.withRegistered env ns call) := by
  have member : ∀ ns' id call' gas',
      .registered ns' id call' gas' ∈ (m.withRegistered env ns call).trace ↔
        .registered ns' id call' gas' ∈ m.trace ∨ (ns' = ns ∧ id = m.pool.next ∧ call' = call ∧
          gas' = resumeCallbackGas call + env.spareGas) := by
    intro ns' id call' gas'
    simp [Machine.withRegistered, Machine.emit, Machine.note, Machine.storeStep,
      Machine.withContract]
  have next : (m.withRegistered env ns call).pool.next = m.pool.next + 1 := rfl
  refine ⟨?_, ?_, ?_, ?_, ?_, wf.rows⟩
  · intro ns' id call' gas' registered
    rcases (member _ _ _ _).mp registered with old | ⟨rfl, _⟩
    · exact wf.created ns' id call' gas' old
    · exact created
  · intro ns' id call' gas' registered
    rw [next]
    rcases (member _ _ _ _).mp registered with old | ⟨_, rfl, _⟩
    · exact Nat.lt_succ_of_lt (wf.known ns' id call' gas' old)
    · exact Nat.lt_succ_self _
  · intro ns₁ ns₂ id call₁ call₂ gas₁ gas₂ left right
    rcases (member _ _ _ _).mp left with old | ⟨rfl, rfl, rfl, rfl⟩ <;>
      rcases (member _ _ _ _).mp right with old' | ⟨rfl, fresh, rfl, rfl⟩
    · exact wf.unique ns₁ ns₂ id call₁ call₂ gas₁ gas₂ old old'
    · exact absurd (wf.known _ _ _ _ old) (by omega)
    · exact absurd (wf.known _ _ _ _ old') (Nat.lt_irrefl _)
    · exact ⟨rfl, rfl, rfl⟩
  · intro key yielded stored
    have inserted : (m.contract.registeredSteps.insert (registeredStepKey ns call.stepId)
        ⟨m.pool.next, call, env.now⟩).get key = some yielded := stored
    rw [IterableMap.get_insert] at inserted
    split at inserted
    · rename_i same
      cases inserted
      exact ⟨ns, _, (member _ _ _ _).mpr (.inr ⟨rfl, rfl, rfl, rfl⟩), same⟩
    · obtain ⟨ns', gas', old, same⟩ := wf.stored key yielded inserted
      exact ⟨ns', gas', (member _ _ _ _).mpr (.inl old), same⟩
  · intro id f stored
    have inserted : (m.pool.create ⟨.yielded, [⟨.onStepResumed ns call.stepId,
        resumeCallbackGas call + env.spareGas⟩]⟩).get id = some f := stored
    rw [Pool.get_create] at inserted
    split at inserted
    · rename_i same
      cases inserted
      refine ⟨List.cons_ne_nil _ _, ns, call, _,
        (member _ _ _ _).mpr (.inr ⟨rfl, same, rfl, rfl⟩), ?_⟩
      intro t inside
      rw [List.mem_singleton.mp inside]
      rfl
    · obtain ⟨nonempty, ns', call', gas', old, addressed⟩ := wf.flying id f inserted
      exact ⟨nonempty, ns', call', gas', (member _ _ _ _).mpr (.inl old), addressed⟩

theorem Wf.registerSteps {env : Env} {m m' : Machine} (wf : Wf m) {ns : String}
    {calls : List Step} (created : IsManual ns ∨ IsAutomation ns)
    (registered : m.registerSteps env ns calls = .ok m') : Wf m' := by
  induction calls generalizing m with
  | nil => exact Machine.registerSteps_nil.mp registered ▸ wf
  | cons call calls ih =>
      exact ih (wf.withRegistered call created) (Machine.registerSteps_cons.mp registered).2

/-! ## Settling a flight -/

/-- A flight goes on with callbacks of its own namespace. -/
theorem Wf.settle {m : Machine} (wf : Wf m) {id : Nat} {f f' : Flight}
    (stored : m.pool.get id = some f)
    (same : ∀ ns, (∀ t ∈ f.thens, t.callback.sequenceNamespace = ns) →
      ∀ t ∈ f'.thens, t.callback.sequenceNamespace = ns) : Wf (m.settle id f') where
  created := wf.created
  known ns id' call gas member := by
    have known := wf.known ns id' call gas member
    show id' < (if f'.thens = [] then m.pool.remove id else m.pool.update id f').next
    split <;> simpa using known
  unique := wf.unique
  stored := wf.stored
  flying id' g stored' := by
    have inside : (if f'.thens = [] then m.pool.remove id else m.pool.update id f').get id' =
        some g := stored'
    split at inside
    · rw [Pool.get_remove] at inside
      split at inside
      · cases inside
      · exact wf.flying id' g inside
    · rename_i nonempty
      rw [Pool.get_update] at inside
      split at inside
      · rename_i eq
        rw [stored, Option.map_some, Option.some.injEq] at inside
        obtain ⟨_, ns, call, gas, member, addressed⟩ := wf.flying id f stored
        subst inside
        exact ⟨nonempty, ns, call, gas, eq ▸ member, same ns addressed⟩
      · exact wf.flying id' g inside
  rows := wf.rows

/-! ## Callbacks -/

/-- The promise a callback hands on is addressed to the callback's namespace. -/
theorem runCallback_addressed {env : Env} {m m' : Machine} {callback : Callback}
    {result : PromiseResult} {p : Promise}
    (ran : m.runCallback env callback result = .ok (m', .promise p)) :
    ∀ t ∈ p.thens, t.callback.sequenceNamespace = callback.sequenceNamespace := by
  have dispatched : ∀ (m : Machine) (ns stepId : String) (yielded : RegisteredStep) (p : Promise),
      (m.materializeAndDispatch env ns stepId yielded).2 = .promise p →
        ∀ t ∈ p.thens, t.callback.sequenceNamespace = ns := by
    intro m ns stepId yielded p eq t inside
    unfold Machine.materializeAndDispatch at eq
    split at eq
    · cases eq
    · rename_i effective _
      cases eq
      simp only [resolvedPromise, Promise.andThen, List.mem_append, List.mem_singleton] at inside
      rcases inside with inside | rfl
      · unfold dispatchPromiseForCall buildCallPromise at inside
        split at inside <;> split at inside <;>
          simp only [Promise.andThen, List.nil_append, List.mem_singleton, List.not_mem_nil]
            at inside <;>
          rw [inside] <;> rfl
      · rfl
  cases callback with
  | onStepResumed ns stepId =>
      have eq : (m.onStepResumed env ns stepId result).2 = .promise p :=
        congrArg Prod.snd (Except.ok.inj ran)
      unfold Machine.onStepResumed at eq
      split at eq
      · cases eq
      · split at eq
        · cases eq
        · simp only at eq
          split at eq
          · cases eq
            intro t inside
            rw [List.mem_singleton.mp inside]
            rfl
          · exact dispatched _ ns stepId _ p eq
  | onPreGateChecked ns stepId =>
      have eq : (m.onPreGateChecked env ns stepId result).2 = .promise p :=
        congrArg Prod.snd (Except.ok.inj ran)
      unfold Machine.onPreGateChecked at eq
      split at eq
      · cases eq
      · split at eq
        · cases eq
        · split at eq
          · cases eq
          · simp only at eq
            split at eq
            · exact dispatched _ ns stepId _ p eq
            · cases eq
  | onAssertedRunPostcheck ns stepId id method args expected gas =>
      obtain ⟨q, posted, eq⟩ := bind_eq_ok.mp ran
      cases eq
      obtain ⟨-, rfl⟩ := Machine.onAssertedRunPostcheck_ok posted
      intro t inside
      rw [List.mem_singleton.mp inside]
      rfl
  | onAssertedEvaluatePostcheck ns stepId expected =>
      obtain ⟨checked, _, eq⟩ := bind_eq_ok.mp ran
      cases eq
  | onStepResolved ns stepId => cases ran

/-! ## One step -/

theorem Machine.attempt_ok {env : Env} {m m' : Machine} {id : Nat} {t : Then}
    {result : PromiseResult} {out : PromiseOrValue} :
    m.attempt env id t result = .ok (m', out) ↔
      ({ m with executing := some id }.note (.delivered id t.callback result)).runCallback env
        t.callback result = .ok (m', out) ∧ out.refusal t.gasTgas env.accountBalance = none := by
  simp only [Machine.attempt, bind_eq_ok, Prod.exists]
  constructor
  · rintro ⟨m₁, out₁, ran, paid⟩
    split at paid
    · rename_i enough
      cases paid
      exact ⟨ran, enough⟩
    · cases paid
  · rintro ⟨ran, enough⟩
    exact ⟨m', out, ran, by rw [enough]⟩

/-- A delivery either finds nothing to run or runs the next callback of its flight. -/
theorem Machine.deliver_cases (env : Env) (m : Machine) (id : Nat) (answer : PromiseResult) :
    m.deliver env id answer = m ∨
      ∃ head t rest result, m.pool.get id = some ⟨head, t :: rest⟩ ∧
        head.outcome answer = some result ∧
        m.deliver env id answer = m.runThen env id t rest result := by
  unfold Machine.deliver
  split
  · rename_i head t rest stored
    split
    · rename_i result due
      exact .inr ⟨head, t, rest, result, stored, due, rfl⟩
    · exact .inl rfl
  · exact .inl rfl

/-- The host finds nothing to end, or ends the next callback of a flight. -/
theorem Machine.abort_cases (m : Machine) (id : Nat) (answer : PromiseResult) :
    m.abort id answer = m ∨
      ∃ head t rest result panic, m.pool.get id = some ⟨head, t :: rest⟩ ∧
        head.outcome answer = some result ∧ panic.logged = [] ∧
        m.abort id answer = (m.rollBack id t result panic).settle id ⟨.done .failed, rest⟩ := by
  unfold Machine.abort
  split
  · rename_i head t rest stored
    split
    · rename_i result due
      exact .inr ⟨head, t, rest, result, _, stored, due, rfl, rfl⟩
    · exact .inl rfl
  · exact .inl rfl

/-- What the host ends leaves the contract as it was. -/
@[simp] theorem Machine.abort_contract (m : Machine) (id : Nat) (answer : PromiseResult) :
    (m.abort id answer).contract = m.contract := by
  rcases m.abort_cases id answer with same | ⟨head, t, rest, result, panic, -, -, -, ended⟩
  · rw [same]
  · rw [ended]
    show (m.rollBack id t result panic).contract = m.contract
    rw [m.rollBack_eq]

/-- It is noted at most as a callback that was rolled back. -/
theorem Machine.abort_trace (m : Machine) (id : Nat) (answer : PromiseResult) :
    (m.abort id answer).trace = m.trace ∨ ∃ callback result,
      (m.abort id answer).trace = m.trace ++ [.rolledBack id callback result] := by
  rcases m.abort_cases id answer with same | ⟨head, t, rest, result, panic, -, -, silent, ended⟩
  · exact .inl (congrArg Machine.trace same)
  · refine .inr ⟨t.callback, result, ?_⟩
    rw [ended]
    show (m.rollBack id t result panic).trace = _
    rw [Machine.rollBack, silent]
    rfl

/-- Nothing is said. -/
@[simp] theorem Machine.abort_events (m : Machine) (id : Nat) (answer : PromiseResult) :
    (m.abort id answer).trace.events = m.trace.events := by
  rcases m.abort_trace id answer with same | ⟨callback, result, noted⟩
  · rw [same]
  · rw [noted, Trace.events, List.filterMap_append]
    exact List.append_nil _

theorem Keeps.rollBack (m : Machine) (id : Nat) (t : Then) (result : PromiseResult)
    (panic : Panic) : Keeps m (m.rollBack id t result panic) := by
  have emits : ∀ (events : List Event) (m : Machine), Keeps m (events.foldl Machine.emit m) := by
    intro events
    induction events with
    | nil => exact fun m => refl m
    | cons event events ih => exact fun m => (note m rfl).trans (ih _)
  have noted : Keeps m ({ m with executing := some id }.note
      (.rolledBack id t.callback result)) :=
    of_trace rfl rfl rfl (by simp [TraceEvent.isRegistered])
  exact noted.trans (emits panic.logged _)

/-- Notes made at a delivery register nothing. -/
theorem Keeps.delivered (m : Machine) (id : Nat) (callback : Callback) (result : PromiseResult) :
    Keeps m ({ m with executing := some id }.note (.delivered id callback result)) :=
  of_trace rfl rfl rfl (by simp [TraceEvent.isRegistered])

theorem Keeps.called (m : Machine) (ns : String) (id : Nat) (fc : FunctionCall) :
    Keeps m (m.note (.called ns id fc)) := .note m rfl

/-- A callback that failed hands a failure to the next one. -/
theorem Wf.rolledBack {m : Machine} (wf : Wf m) {id : Nat} {head : Head} {t : Then}
    {rest : List Then} (stored : m.pool.get id = some ⟨head, t :: rest⟩) (result : PromiseResult)
    (panic : Panic) : Wf ((m.rollBack id t result panic).settle id ⟨.done .failed, rest⟩) := by
  have keeps := Keeps.rollBack m id t result panic
  obtain ⟨f, stored', thens⟩ := keeps.flying stored
  refine (wf.of_keeps keeps).settle stored' (thens ▸ ?_)
  exact fun ns addressed t' inside => addressed t' (List.mem_cons_of_mem _ inside)

theorem Wf.runThen {env : Env} {m : Machine} (wf : Wf m) {id : Nat} {head : Head} {t : Then}
    {rest : List Then} {result : PromiseResult} (stored : m.pool.get id = some ⟨head, t :: rest⟩) :
    Wf (m.runThen env id t rest result) := by
  -- settling on the remaining callbacks, after machine changes that keep the flight
  have onward : ∀ {m' : Machine} (f' : Flight), Keeps m m' →
      (∀ ns, (∀ t' ∈ t :: rest, t'.callback.sequenceNamespace = ns) →
        ∀ t' ∈ f'.thens, t'.callback.sequenceNamespace = ns) → Wf (m'.settle id f') := by
    intro m' f' keeps same
    obtain ⟨f, stored', thens⟩ := keeps.flying stored
    exact (wf.of_keeps keeps).settle stored' (thens ▸ same)
  unfold Machine.runThen
  split
  · rename_i panic _
    exact wf.rolledBack stored result panic
  · rename_i m' bytes attempted
    obtain ⟨ran, _⟩ := Machine.attempt_ok.mp attempted
    exact onward _ ((Keeps.delivered m id t.callback result).trans (.of_writes (.runCallback ran)))
      fun ns addressed t' inside => addressed t' (List.mem_cons_of_mem _ inside)
  · rename_i m' p attempted
    obtain ⟨ran, _⟩ := Machine.attempt_ok.mp attempted
    refine onward _ (((Keeps.delivered m id t.callback result).trans
      (.of_writes (.runCallback ran))).trans (.note m' rfl)) fun ns addressed t' inside => ?_
    rcases List.mem_append.mp inside with new | old
    · rw [runCallback_addressed ran t' new]
      exact addressed t (List.mem_cons_self ..)
    · exact addressed t' (List.mem_cons_of_mem _ old)

theorem Wf.of_accepted {env : Env} {m m' : Machine} (wf : Wf m) (accepted : Accepted env m m') :
    Wf m' := by
  cases accepted with
  | aside aside edit => exact wf.of_keeps (.of_aside aside)
  | pruned =>
      unfold Machine.pruneFinishedAutomationRuns
      simp only
      split
      · exact wf
      · refine wf.of_keeps (.trans (.withContract ?_ ?_) (.note _ rfl))
        · exact fun _ _ stored => stored
        intro ns run' stored
        rw [IterableMap.get_removeAll] at stored
        split at stored
        · cases stored
        · exact ⟨run', stored⟩
  | registered caller call valid registered =>
      obtain ⟨_, rfl⟩ := Machine.registerStepInNamespace_ok.mp registered
      exact wf.withRegistered call (.inl ⟨caller, rfl⟩)
  | released caller calls order valid registered released =>
      exact (wf.registerSteps (.inl ⟨caller, rfl⟩) registered).of_keeps
        (.of_writes (Machine.startSequenceRelease_writes released))
  | fired triggerId authorized stored known checked registered released =>
      rename_i trigger template
      have auto : IsAutomation (automationNamespace triggerId (trigger.runsStarted + 1)) :=
        ⟨_, _, rfl⟩
      have wf₁ := wf.of_keeps (.of_aside (authorizeFire_aside authorized).1)
      have wf₂ := wf₁.registerSteps (.inr auto) registered
      have wf₃ := (wf₂.of_keeps (.note _ rfl)).of_keeps
        (.of_writes (Machine.startSequenceRelease_writes released))
      refine { wf₃ with rows := fun ns run found => ?_ }
      simp only [Machine.recordRunStarted, Machine.withContract, IterableMap.get_insert] at found
      split at found
      · rename_i same
        exact same ▸ auto
      · exact wf₃.rows ns run found

theorem Wf.step {m : Machine} (wf : Wf m) (op : Op) : Wf (m.step op) := by
  cases op with
  | transact env method =>
      show Wf (m.transact env method)
      unfold Machine.transact
      split
      · rename_i m' accepted
        exact wf.of_accepted (.of_call accepted)
      · exact wf
  | timeout id =>
      show Wf (m.timeout id)
      unfold Machine.timeout
      split
      · rename_i thens stored
        exact wf.of_keeps (.updateHead _ stored)
      · exact wf
  | deliver env id answer =>
      rcases m.deliver_cases env id answer with same | ⟨head, t, rest, result, stored, _, ran⟩
      · exact (congrArg Wf same).mpr wf
      · exact (congrArg Wf ran).mpr (wf.runThen stored)
  | abort id answer =>
      rcases m.abort_cases id answer with same | ⟨head, t, rest, result, panic, stored, _, _, ended⟩
      · exact (congrArg Wf same).mpr wf
      · exact (congrArg Wf ended).mpr (wf.rolledBack stored result panic)

theorem Wf.init (host : Host) (ownerId : AccountId) (authorizerId : Option AccountId) :
    Wf (Machine.init host ownerId authorizerId) where
  created _ _ _ _ member := absurd member List.not_mem_nil
  known _ _ _ _ member := absurd member List.not_mem_nil
  unique _ _ _ _ _ _ _ member := absurd member List.not_mem_nil
  stored _ _ stored := nomatch stored
  flying _ _ stored := nomatch stored
  rows _ _ stored := nomatch stored

theorem Machine.Reachable.wf {m : Machine} (reachable : m.Reachable) : Wf m :=
  reachable.induct Wf.init fun _ op wf => wf.step op

end SmartAccount
