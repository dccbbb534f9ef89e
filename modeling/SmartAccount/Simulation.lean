import SmartAccount.Refinement
import SmartAccount.Releases

/-!
# Runs of the machine as runs of a lane

A step of the machine moves the lane of an isolated namespace by lane steps
(`lane_transact`, `lane_timeout`, `lane_deliver`), so whatever lane steps keep holds of
that lane in every state of a run (`lane_run_induct`).
-/

namespace SmartAccount

open Foundation Function
open Relation (ReflTransGen)

/-- What an operation that delivers nothing can do to a lane: steps aside, and then at most
one release. -/
def Lane.Moves (ns : String) (ℓ ℓ' : Lane) : Prop :=
  ∃ ℓ₁, ReflTransGen (Lane.Step ns .aside) ℓ ℓ₁ ∧ (ℓ' = ℓ₁ ∨ Lane.Step ns .release ℓ₁ ℓ')

namespace Lane.Moves

variable {ns : String} {ℓ ℓ' : Lane}

theorem refl : Lane.Moves ns ℓ ℓ := ⟨ℓ, .refl, .inl rfl⟩

theorem of_eq (same : ℓ' = ℓ) : Lane.Moves ns ℓ ℓ' := ⟨ℓ, .refl, .inl same⟩

theorem aside (step : Lane.Step ns .aside ℓ ℓ') : Lane.Moves ns ℓ ℓ' :=
  ⟨ℓ', .single step, .inl rfl⟩

theorem release (step : Lane.Step ns .release ℓ ℓ') : Lane.Moves ns ℓ ℓ' :=
  ⟨ℓ, .refl, .inr step⟩

end Lane.Moves

theorem Isolated.of_writes {m m' : Machine} {ns ns' : String} (isolated : Isolated m'.trace ns)
    (writes : Writes ns' m m') : Isolated m.trace ns :=
  isolated.earlier (Keeps.of_writes writes).trace

namespace Machine

/-! ## The trace only grows -/

theorem trace_of_accepted {env : Env} {m m' : Machine} (accepted : Accepted env m m') :
    m.trace <+: m'.trace := by
  cases accepted with
  | aside aside edit => exact (Keeps.of_aside aside).trace
  | pruned =>
      unfold pruneFinishedAutomationRuns
      simp only
      split
      · exact List.prefix_refl _
      · exact List.prefix_append _ _
  | registered caller call valid registered =>
      obtain ⟨_, rfl⟩ := registerStepInNamespace_ok.mp registered
      exact withRegistered_trace env m _ call
  | released caller calls order valid registered released =>
      exact (registerSteps_trace registered).trans
        (Keeps.of_writes (startSequenceRelease_writes released)).trace
  | fired triggerId authorized stored known checked registered released =>
      exact (((Keeps.of_aside (authorizeFire_aside authorized).1).trace.trans
        (registerSteps_trace registered)).trans (List.prefix_append _ _)).trans
          (Keeps.of_writes (startSequenceRelease_writes released)).trace

theorem runThen_trace (env : Env) (m : Machine) (id : Nat) (t : Then) (rest : List Then)
    (result : PromiseResult) : m.trace <+: (m.runThen env id t rest result).trace := by
  unfold runThen
  split
  · exact (Keeps.rollBack m id t result _).trace
  · rename_i m' bytes attempted
    exact ((Keeps.delivered m id t.callback result).trans
      (.of_writes (.runCallback (attempt_ok.mp attempted).1))).trace
  · rename_i m' p attempted
    exact (((Keeps.delivered m id t.callback result).trans
      (.of_writes (.runCallback (attempt_ok.mp attempted).1))).trans (.called m' _ id p.call)).trace

theorem step_trace (m : Machine) (op : Op) : m.trace <+: (m.step op).trace := by
  cases op with
  | transact env method =>
      show m.trace <+: (m.transact env method).trace
      unfold transact
      split
      · rename_i m' accepted
        exact trace_of_accepted (.of_call accepted)
      · exact List.prefix_refl _
  | timeout id =>
      show m.trace <+: (m.timeout id).trace
      exact m.timeout_trace id ▸ List.prefix_refl _
  | deliver env id answer =>
      rcases m.deliver_cases env id answer with same | ⟨head, t, rest, result, _, _, ran⟩
      · have kept : (m.deliver env id answer).trace = m.trace := congrArg Machine.trace same
        exact kept ▸ List.prefix_refl _
      · show m.trace <+: (m.deliver env id answer).trace
        rw [ran]
        exact runThen_trace env m id t rest result
  | abort id answer =>
      rcases m.abort_cases id answer with same | ⟨head, t, rest, result, panic, _, _, _, ended⟩
      · have kept : (m.abort id answer).trace = m.trace := congrArg Machine.trace same
        exact kept ▸ List.prefix_refl _
      · show m.trace <+: (m.abort id answer).trace
        rw [ended]
        exact (Keeps.rollBack m id t result panic).trace

theorem run_trace (m : Machine) (ops : List Op) : m.trace <+: (m.run ops).trace := by
  induction ops generalizing m with
  | nil => exact List.prefix_refl _
  | cons op ops ih => exact (step_trace m op).trans (ih (m.step op))

/-! ## Transactions -/

/-- A call about no sequence leaves every lane as it was. -/
theorem lane_of_aside {m m' : Machine} (ns : String) (aside : Aside m m') :
    m'.lane ns = m.lane ns := by
  obtain ⟨events, silent, eq⟩ := aside.trace
  have quiet : (events.map (TraceEvent.emitted m.executing)).filter (TraceEvent.concerns ns) =
      [] := by
    refine List.filter_eq_nil_iff.mpr fun event inside => ?_
    obtain ⟨event', member, rfl⟩ := List.mem_map.mp inside
    simp [TraceEvent.concerns, silent event' member]
  simp [lane, getStep, aside.registeredSteps, aside.sequenceQueue, aside.automationRuns,
    aside.pool, eq, quiet]

theorem lane_pruneFinishedAutomationRuns (m : Machine) (ns : String) :
    Lane.Moves ns (m.lane ns) (m.pruneFinishedAutomationRuns.1.lane ns) := by
  unfold pruneFinishedAutomationRuns
  simp only
  split
  · exact .refl
  · rw [lane_emit_of_not rfl]
    by_cases inside : ns ∈ terminalRuns m.contract
    · obtain ⟨⟨ns', run⟩, member, rfl⟩ := List.mem_map.mp inside
      obtain ⟨entry, terminal⟩ := List.mem_filter.mp member
      have stored := IterableMap.get_eq_some_iff.mpr entry
      refine .aside (?_ : Lane.Step ns' .aside _ _)
      have gone : (m.withContract { m.contract with
          automationRuns := m.contract.automationRuns.removeAll
            (terminalRuns m.contract) }).lane ns' = { m.lane ns' with row := none } := by
        simp [lane, withContract, getStep, IterableMap.get_removeAll, inside]
      rw [gone]
      exact .prune stored (by simpa using terminal)
    · have kept : (m.withContract { m.contract with
          automationRuns := m.contract.automationRuns.removeAll
            (terminalRuns m.contract) }).lane ns = m.lane ns := by
        simp [lane, withContract, getStep, IterableMap.get_removeAll, inside]
      exact .of_eq kept

/-- Registrations in a manual lane are lane steps. -/
theorem asides_of_registers {ns : String} (manual : IsManual ns)
    {copies : List (RegisteredStep × Nat)} {ℓ ℓ' : Lane}
    (registers : Lane.Registers ns copies ℓ ℓ') : ReflTransGen (Lane.Step ns .aside) ℓ ℓ' := by
  induction registers with
  | nil => exact .refl
  | cons can rest ih => exact .head (.register manual can) ih

/-- What is registered in a plan stands in the trace. -/
theorem registered_of_registerSteps {env : Env} {m m' : Machine} {ns : String}
    {calls : List Step} (nonempty : calls ≠ [])
    (registered : m.registerSteps env ns calls = .ok m') :
    ∃ id call gas, .registered ns id call gas ∈ m'.trace := by
  cases calls with
  | nil => exact absurd rfl nonempty
  | cons call calls =>
      obtain ⟨_, rest⟩ := registerSteps_cons.mp registered
      refine ⟨m.pool.next, call, resumeCallbackGas call + env.spareGas,
        (registerSteps_trace rest).subset ?_⟩
      simp [withRegistered, emit, note, storeStep, withContract]

/-- A manual release finds a step that was registered under its namespace. -/
theorem registered_of_released {m m' : Machine} (wf : Wf m) {ns : String} (manual : IsManual ns)
    {order : List String} {n : Nat}
    (released : m.startSequenceReleaseInNamespace ns order = .ok (m', n)) :
    ∃ id call gas, .registered ns id call gas ∈ m.trace := by
  obtain ⟨first, rest, _, rfl, _, known, _⟩ := startSequenceRelease_ok released
  obtain ⟨yielded, stored⟩ :=
    Option.isSome_iff_exists.mp (known first (List.mem_cons_self ..))
  obtain ⟨owner, gas, member, same⟩ := wf.stored _ _ stored
  by_cases eq : owner = ns
  · exact ⟨_, _, _, eq ▸ member⟩
  · exact absurd same (manual.separate eq (wf.created _ _ _ _ member) _ _)

/-- An accepted manual plan moves a lane by registrations and a release. -/
theorem lane_released {env : Env} {m m₁ m' : Machine} (wf : Wf m) {ns ns' : String}
    (manual : IsManual ns') {calls : List Step} {order : List String} {n : Nat}
    (isolated : Isolated m'.trace ns) (registered : m.registerSteps env ns' calls = .ok m₁)
    (released : m₁.startSequenceReleaseInNamespace ns' order = .ok (m', n)) :
    Lane.Moves ns (m.lane ns) (m'.lane ns) := by
  have wf₁ := wf.registerSteps (.inl manual) registered
  have isolated₁ := isolated.of_writes (startSequenceRelease_writes released)
  by_cases same : ns' = ns
  · subst same
    obtain ⟨copies, _, chain⟩ := lane_registerSteps wf (.inl manual) registered
    exact ⟨_, asides_of_registers manual chain,
      .inr (.release manual (lane_startSequenceRelease wf₁ isolated₁ released))⟩
  · obtain ⟨id, call, gas, member⟩ := registered_of_released wf₁ manual released
    have separate := (isolated₁ ns' id call gas member).resolve_left same
    exact .of_eq ((lane_writes_other wf₁ separate (startSequenceRelease_writes released)).trans
      (lane_registerSteps_other separate registered))

/-- The nonce check of `execute_trigger` finds no run under the new namespace. -/
theorem checkTrigger_absent {env : Env} {m : Machine} {triggerId : String}
    {trigger : BalanceTrigger} {template : SequenceTemplate}
    (checked : m.checkTrigger env triggerId trigger template = .ok ()) :
    m.contract.automationRuns.get
      (automationNamespace triggerId (trigger.runsStarted + 1)) = none := by
  simp only [checkTrigger, bind_eq_ok, require_eq_ok, Option.isNone_iff_eq_none] at checked
  obtain ⟨_, _, _, _, _, _, _, _, absent⟩ := checked
  exact absent

theorem lane_recordRunStarted_other (env : Env) (m : Machine) {ns triggerId ns' : String}
    (runNonce : Nat) (trigger : BalanceTrigger) (other : ns' ≠ ns) :
    (m.recordRunStarted env triggerId ns' runNonce trigger).lane ns = m.lane ns := by
  simp only [lane, recordRunStarted, withContract, getStep,
    IterableMap.get_insert_of_ne _ _ (Ne.symm other)]

/-- An accepted fire moves the lane of its namespace by one lane step, and no other. -/
theorem lane_fired {env : Env} {m m₁ m₂ m₃ : Machine} (wf : Wf m) {ns triggerId : String}
    {n : Nat} {trigger : BalanceTrigger} {template : SequenceTemplate}
    (isolated : Isolated (m₃.recordRunStarted env triggerId
      (automationNamespace triggerId (trigger.runsStarted + 1)) (trigger.runsStarted + 1)
        trigger).trace ns)
    (authorized : m.authorizeFire env triggerId = .ok m₁)
    (checked : m₁.checkTrigger env triggerId trigger template = .ok ())
    (registered : m₁.registerSteps env
      (automationNamespace triggerId (trigger.runsStarted + 1)) template.calls = .ok m₂)
    (released : (m₂.emit (.triggerFired (triggerFiredEvent env triggerId
        (automationNamespace triggerId (trigger.runsStarted + 1)) (trigger.runsStarted + 1)
        trigger template))).startSequenceReleaseInNamespace
          (automationNamespace triggerId (trigger.runsStarted + 1))
          (template.calls.map Step.stepId) = .ok (m₃, n)) :
    Lane.Moves ns (m.lane ns) ((m₃.recordRunStarted env triggerId
      (automationNamespace triggerId (trigger.runsStarted + 1)) (trigger.runsStarted + 1)
        trigger).lane ns) := by
  have aside := (authorizeFire_aside authorized).1
  have absent := checkTrigger_absent checked
  have auto : IsAutomation (automationNamespace triggerId (trigger.runsStarted + 1)) := ⟨_, _, rfl⟩
  generalize automationNamespace triggerId (trigger.runsStarted + 1) = fired at *
  have wf₁ := wf.of_keeps (.of_aside aside)
  have wf₂ := (wf₁.registerSteps (.inr auto) registered).of_keeps
    (.emit m₂ (.triggerFired (triggerFiredEvent env triggerId fired (trigger.runsStarted + 1)
      trigger template)))
  have writes := startSequenceRelease_writes released
  have isolated₃ : Isolated m₃.trace ns := isolated
  have isolated₂ := isolated₃.of_writes writes
  rw [← lane_of_aside ns aside]
  by_cases same : fired = ns
  · subst same
    obtain ⟨copies, calls, chain⟩ := lane_registerSteps wf₁ (.inr auto) registered
    have release := lane_startSequenceRelease wf₂ isolated₂ released
    rw [lane_emit_of_not rfl, ← calls, List.map_map] at release
    have row : (m₃.recordRunStarted env triggerId fired (trigger.runsStarted + 1) trigger).lane
        fired = { m₃.lane fired with row := some (startedRun env triggerId trigger.sequenceId fired
          (trigger.runsStarted + 1)) } := by
      simp [lane, recordRunStarted, withContract, getStep]
    rw [row]
    exact .release (.fire auto absent chain release rfl)
  · rw [lane_recordRunStarted_other env m₃ _ trigger same]
    have nonempty : template.calls ≠ [] := by
      intro empty
      obtain ⟨first, rest, _, order, _⟩ := startSequenceRelease_ok released
      rw [empty] at order
      cases order
    obtain ⟨id, call, gas, member⟩ := registered_of_registerSteps nonempty registered
    have separate := (isolated₂ fired id call gas
      (List.mem_append_left _ member)).resolve_left same
    exact .of_eq ((lane_writes_other wf₂ separate writes).trans
      ((lane_emit_of_not rfl).trans (lane_registerSteps_other separate registered)))

/-- A transaction moves a lane by steps that deliver nothing. -/
theorem lane_transact {m : Machine} (wf : Wf m) (env : Env) (method : PublicCall) {ns : String}
    (isolated : Isolated (m.transact env method).trace ns) :
    Lane.Moves ns (m.lane ns) ((m.transact env method).lane ns) := by
  unfold transact at isolated ⊢
  split
  · rename_i m' called
    rw [called] at isolated
    simp only at isolated
    cases Accepted.of_call called with
    | aside aside edit => exact .of_eq (lane_of_aside ns aside)
    | pruned => exact lane_pruneFinishedAutomationRuns m ns
    | registered caller call valid registered =>
        obtain ⟨absent, rfl⟩ := registerStepInNamespace_ok.mp registered
        by_cases same : manualNamespace caller = ns
        · subst same
          rw [lane_withRegistered]
          exact .aside (.register ⟨caller, rfl⟩ (canRegister wf absent))
        · have separate := (isolated (manualNamespace caller) m.pool.next call
            (resumeCallbackGas call + env.spareGas) (by
              simp [withRegistered, emit, note, storeStep, withContract])).resolve_left same
          exact .of_eq (lane_withRegistered_other env call separate)
    | released caller calls order valid registered released =>
        exact lane_released wf ⟨caller, rfl⟩ isolated registered released
    | fired triggerId authorized stored known checked registered released =>
        exact lane_fired wf isolated authorized checked registered released
  · exact .refl

/-! ## Timeouts and deliveries -/

/-- A timeout expires a yield of the lane, or does nothing to it. -/
theorem lane_timeout (m : Machine) (id : Nat) (ns : String) :
    Lane.Moves ns (m.lane ns) ((m.timeout id).lane ns) := by
  unfold timeout
  split
  · rename_i thens stored
    rw [lane_updateHead _ ns stored]
    split
    · rename_i own
      refine .aside (.expire ?_)
      show (m.pool.get id).filter _ = _
      rw [stored, Option.filter_some, if_pos own]
    · exact .refl
  · exact .refl

/-- A delivery moves the lane of the flight it is for, and no other. -/
theorem lane_deliver {m : Machine} (wf : Wf m) (env : Env) (id : Nat) (answer : PromiseResult)
    {ns : String} (isolated : Isolated m.trace ns) :
    (m.deliver env id answer).lane ns = m.lane ns ∨
      Lane.Deliver ns (m.lane ns) id ((m.deliver env id answer).lane ns) := by
  rcases m.deliver_cases env id answer with same | ⟨head, t, rest, result, stored, outcome, ran⟩
  · exact .inl (by rw [same])
  · rw [ran]
    obtain ⟨_, ns', call, gas, member, addressed⟩ := wf.flying id _ stored
    rcases isolated ns' id call gas member with rfl | separate
    · exact .inr (lane_runThen wf isolated stored addressed outcome)
    · exact .inl (lane_runThen_other wf separate stored addressed)

/-- What the host ends is to the lane a delivery that fails. -/
theorem lane_abort {m : Machine} (wf : Wf m) (id : Nat) (answer : PromiseResult) {ns : String}
    (isolated : Isolated m.trace ns) :
    (m.abort id answer).lane ns = m.lane ns ∨
      Lane.RolledBack (m.lane ns) id ((m.abort id answer).lane ns) := by
  rcases m.abort_cases id answer with
    same | ⟨head, t, rest, result, panic, stored, outcome, silent, ended⟩
  · exact .inl (by rw [same])
  · have plain : ∀ event ∈ panic.logged, event.isVerdict = false := by simp [silent]
    rw [ended]
    obtain ⟨_, ns', call, gas, member, addressed⟩ := wf.flying id _ stored
    rcases isolated ns' id call gas member with rfl | separate
    · rw [lane_rolledBack stored addressed result plain]
      exact .inr (.mk ⟨lane_flight_of_addressed stored (List.cons_ne_nil _ _) addressed,
        answer, outcome⟩)
    · exact .inl (lane_rolledBack_other separate stored addressed result plain)

/-- A step of the machine delivers nothing in the lane, or delivers to one of its flights. -/
theorem lane_step {m : Machine} (wf : Wf m) (op : Op) {ns : String}
    (isolated : Isolated (m.step op).trace ns) :
    Lane.Moves ns (m.lane ns) ((m.step op).lane ns) ∨
      ∃ id, Lane.Deliver ns (m.lane ns) id ((m.step op).lane ns) := by
  have before := isolated.earlier (step_trace m op)
  cases op with
  | transact env method => exact .inl (lane_transact wf env method isolated)
  | timeout id => exact .inl (lane_timeout m id ns)
  | deliver env id answer =>
      exact (lane_deliver wf env id answer before).imp .of_eq fun landed => ⟨id, landed⟩
  | abort id answer =>
      exact (lane_abort wf id answer before).imp .of_eq fun failed => ⟨id, failed.deliver⟩

/-! ## Runs -/

/-- Every step of the run is taken in a state that admits it. -/
def Along (admits : Machine → Op → Prop) : Machine → List Op → Prop
  | _, [] => True
  | m, op :: ops => admits m op ∧ Along admits (m.step op) ops

instance decidableAlong {admits : Machine → Op → Prop} [∀ m op, Decidable (admits m op)] :
    (m : Machine) → (ops : List Op) → Decidable (Along admits m ops)
  | _, [] => isTrue trivial
  | m, op :: ops =>
    have := @decidableAlong admits _ (m.step op) ops
    inferInstanceAs (Decidable (admits m op ∧ Along admits (m.step op) ops))

/-- What lane steps keep holds of the lane throughout a run.  A release has to keep it only
where the operation that accepts it finds the lane calm, and a delivery only where it is
allowed or its callback fails. -/
theorem lane_run_induct {ns : String} {motive calm : Lane → Prop} {allowed : Lane → Nat → Prop}
    {admits : Machine → Op → Prop}
    (aside : ∀ ℓ ℓ', Lane.Step ns .aside ℓ ℓ' → motive ℓ → motive ℓ')
    (stays : ∀ ℓ ℓ', Lane.Step ns .aside ℓ ℓ' → calm ℓ → calm ℓ')
    (released : ∀ ℓ ℓ', calm ℓ → Lane.Step ns .release ℓ ℓ' → motive ℓ → motive ℓ')
    (delivered : ∀ ℓ ℓ' id, allowed ℓ id → Lane.Deliver ns ℓ id ℓ' → motive ℓ → motive ℓ')
    (failed : ∀ ℓ ℓ' id, Lane.RolledBack ℓ id ℓ' → motive ℓ → motive ℓ')
    (releasing : ∀ m op, admits m op →
      (m.step op).trace.releaseCount ns ≠ m.trace.releaseCount ns → calm (m.lane ns))
    (delivering : ∀ m env id answer, admits m (.deliver env id answer) → allowed (m.lane ns) id)
    {m : Machine} (wf : Wf m) {ops : List Op} (along : Along admits m ops)
    (isolated : Isolated (m.run ops).trace ns) (start : motive (m.lane ns)) :
    motive ((m.run ops).lane ns) := by
  induction ops generalizing m with
  | nil => exact start
  | cons op ops ih =>
      obtain ⟨here, rest⟩ := along
      have isolatedStep := isolated.earlier (run_trace (m.step op) ops)
      have moves : Lane.Moves ns (m.lane ns) ((m.step op).lane ns) → motive ((m.step op).lane ns) := by
        rintro ⟨ℓ, chain, last⟩
        have reached : motive ℓ ∧ (calm (m.lane ns) → calm ℓ) ∧
            ℓ.trace.releaseCount ns = m.trace.releaseCount ns := by
          clear last
          induction chain with
          | refl => exact ⟨start, fun calm => calm, Lane.releaseCount_filter ..⟩
          | tail _ step ih =>
              obtain ⟨holds, calmed, count⟩ := ih
              exact ⟨aside _ _ step holds, fun calm => stays _ _ step (calmed calm),
                step.aside_count.trans count⟩
        obtain ⟨holds, calmed, count⟩ := reached
        rcases last with same | step
        · exact same ▸ holds
        · refine released _ _ (calmed (releasing m op here fun same => ?_)) step holds
          have grown := step.release_count
          have lane := Lane.releaseCount_filter (m.step op).trace ns
          have whole : ((m.step op).lane ns).trace.releaseCount ns =
            (m.step op).trace.releaseCount ns := lane
          omega
      refine ih (wf.step op) rest isolated ?_
      cases op with
      | transact env method => exact moves (lane_transact wf env method isolatedStep)
      | timeout id => exact moves (lane_timeout m id ns)
      | deliver env id answer =>
          have isolatedHere := isolatedStep.earlier (step_trace m (.deliver env id answer))
          rcases lane_deliver wf env id answer isolatedHere with same | landed
          · exact same ▸ start
          · exact delivered _ _ id (delivering m env id answer here) landed start
      | abort id answer =>
          have isolatedHere := isolatedStep.earlier (step_trace m (.abort id answer))
          rcases lane_abort wf id answer isolatedHere with same | landed
          · exact same ▸ start
          · exact failed _ _ id landed start

theorem along_true (m : Machine) (ops : List Op) : Along (fun _ _ => True) m ops := by
  induction ops generalizing m with
  | nil => trivial
  | cons op ops ih => exact ⟨trivial, ih _⟩

/-- `lane_run_induct` where everything is admitted. -/
theorem lane_run_keeps {ns : String} {motive : Lane → Prop}
    (step : ∀ kind ℓ ℓ', Lane.Step ns kind ℓ ℓ' → motive ℓ → motive ℓ') {m : Machine}
    (wf : Wf m) {ops : List Op} (isolated : Isolated (m.run ops).trace ns)
    (start : motive (m.lane ns)) : motive ((m.run ops).lane ns) :=
  @lane_run_induct ns motive (fun _ => True) (fun _ _ => True) _ (step .aside)
    (fun _ _ _ calm => calm) (fun ℓ ℓ' _ => step .release ℓ ℓ')
    (fun ℓ ℓ' id _ landed => step (.deliver id) ℓ ℓ' (.deliver landed))
    (fun ℓ ℓ' id failed => step (.deliver id) ℓ ℓ' (.deliver failed.deliver))
    (fun _ _ _ _ => trivial) (fun _ _ _ _ _ => trivial) m wf ops (along_true m ops) isolated
    start

/-- A lane starts fresh. -/
theorem lane_init (host : Host) (ownerId : AccountId) (authorizerId : Option AccountId)
    (ns : String) : (Machine.init host ownerId authorizerId).lane ns = Lane.fresh := rfl

/-- What holds of a fresh lane and is kept by lane steps holds of every isolated lane of a
reachable machine. -/
theorem Reachable.lane_induct {ns : String} {motive : Lane → Prop} (fresh : motive Lane.fresh)
    (step : ∀ kind ℓ ℓ', Lane.Step ns kind ℓ ℓ' → motive ℓ → motive ℓ') {m : Machine}
    (reachable : m.Reachable) (isolated : Isolated m.trace ns) : motive (m.lane ns) := by
  obtain ⟨host, ownerId, authorizerId, ops, rfl⟩ := reachable
  exact lane_run_keeps step (Wf.init host ownerId authorizerId) isolated
    (lane_init host ownerId authorizerId ns ▸ fresh)

end Machine

end SmartAccount
