import SmartAccount.RunNamespaces
import SmartAccount.Simulation

/-!
# Terminal runs

Once the run of an automation namespace is over, whether its row is still there or has been
pruned, nothing of it is left: no step, no queue, no saved results (`Machine.Bare`).  Late
callbacks recognise this one by one and leave the contract as it is
(`terminal_runs_are_absorbing`).
-/

namespace SmartAccount

open Foundation Function

/-! ## Steps and queues, on the lane -/

namespace Lane

/-- The lane has no run in flight. -/
def Over (ℓ : Lane) : Prop := ∀ run, ℓ.row = some run → run.status ≠ .inFlight

/-- The lane has neither steps nor a queue. -/
structure Bare (ℓ : Lane) : Prop where
  steps : ∀ stepId, ℓ.step stepId = none
  queue : ℓ.queue = none

/-- A lane whose run is over is bare. -/
def Cleaned (ℓ : Lane) : Prop := ℓ.Over → ℓ.Bare

namespace Cleaned

variable {ns : String} {ℓ : Lane}

/-- A lane that only loses steps and its queue. -/
theorem of_less {ℓ' : Lane} (cleaned : ℓ.Cleaned) (row : ℓ'.row = ℓ.row)
    (steps : ∀ stepId, ℓ.step stepId = none → ℓ'.step stepId = none)
    (queue : ℓ.queue = none → ℓ'.queue = none) : ℓ'.Cleaned := by
  intro ended
  have bare := cleaned fun run stored => ended run (row ▸ stored)
  exact ⟨fun stepId => steps stepId (bare.steps stepId), queue bare.queue⟩

theorem of_same {ℓ' : Lane} (cleaned : ℓ.Cleaned) (row : ℓ'.row = ℓ.row)
    (steps : ℓ'.step = ℓ.step) (queue : ℓ'.queue = ℓ.queue) : ℓ'.Cleaned :=
  cleaned.of_less row (fun _ absent => steps ▸ absent) fun empty => queue.trans empty

theorem note (cleaned : ℓ.Cleaned) (event : TraceEvent) : (ℓ.note event).Cleaned :=
  cleaned.of_same rfl rfl rfl

theorem dropStep (cleaned : ℓ.Cleaned) (stepId : String) : (ℓ.dropStep stepId).Cleaned := by
  refine cleaned.of_less rfl (fun stepId' absent => ?_) fun empty => empty
  rw [dropStep_step, update_apply]
  split
  · rfl
  · exact absent

theorem dropQueue (cleaned : ℓ.Cleaned) : (ℓ.setQueue []).Cleaned :=
  cleaned.of_less rfl (fun _ absent => absent) fun _ => rfl

theorem finish (cleaned : ℓ.Cleaned) (env : Env) (by_ : Option Nat) (ns : String)
    (status : AutomationRunStatus) (failedStepId : Option String) :
    (ℓ.finish env by_ ns status failedStepId).Cleaned := by
  rcases finish_cases ℓ with idle | ⟨run, stored, running⟩
  · rwa [finish_of_not env by_ ns status failedStepId idle]
  · rw [finish_of_running env by_ ns status failedStepId stored running]
    exact fun _ => ⟨fun _ => rfl, rfl⟩

theorem settle (cleaned : ℓ.Cleaned) (id : Nat) (f : Flight) : (ℓ.settle id f).Cleaned :=
  cleaned.of_same rfl rfl rfl

/-- A callback cleans up behind a run it closes. -/
theorem effect {ℓ' : Lane} (cleaned : ℓ.Cleaned) {id : Nat} {callback : Callback}
    {result : PromiseResult} {head : Head} {thens : List Then}
    (effect : Effect ns id ℓ callback result ℓ' head thens) : ℓ'.Cleaned := by
  cases effect with
  | asleep absent => exact cleaned
  | unchecked ungated => exact cleaned
  | halted cause stored unsuccessful about =>
      exact ((cleaned.dropStep _).dropQueue.finish _ _ _ _ _).note _
  | gated stored gate built => exact cleaned.note _
  | dispatched stored cleared built => exact (cleaned.note _).note _
  | posted small built => exact cleaned.note _
  | matched equal => exact cleaned
  | advanced small queued other stored dormant =>
      intro ended
      have bare := cleaned ended
      rw [bare.queue] at queued
      cases queued
  | stuck small queued about =>
      exact ((cleaned.dropStep _).dropQueue.finish _ _ _ _ _).note _
  | completed small drained =>
      exact ((cleaned.dropStep _).dropQueue.note _).finish _ _ _ _ _
  | failed failure => exact (cleaned.dropStep _).dropQueue.finish _ _ _ _ _

theorem step {ℓ' : Lane} (auto : IsAutomation ns) (cleaned : ℓ.Cleaned) {kind : Kind}
    (step : Step ns kind ℓ ℓ') : ℓ'.Cleaned := by
  cases step with
  | register manual can => exact absurd auto manual.not_automation
  | release manual released => exact absurd auto manual.not_automation
  | fire auto absent registered released running => exact fun ended => absurd running (ended _ rfl)
  | prune stored terminal =>
      intro _
      have bare := cleaned fun run here => by
        rw [stored, Option.some.injEq] at here
        exact here ▸ terminal
      exact ⟨bare.steps, bare.queue⟩
  | expire dormant => exact cleaned.of_same rfl rfl rfl
  | deliver delivered =>
      cases delivered with
      | ran due effect => exact ((cleaned.note _).effect effect).settle _ _
      | rolledBack due => exact (cleaned.note _).settle _ _

end Cleaned

end Lane

namespace Machine

/-! ## Saved results, on the machine -/

/-- The namespace has no run in flight. -/
def RunOver (m : Machine) (ns : String) : Prop :=
  ∀ run, m.contract.automationRuns.get ns = some run → run.status ≠ .inFlight

theorem RunOver.of_all {m : Machine} {ns : String}
    (terminal : (m.contract.automationRuns.get ns).all (fun run => run.status ≠ .inFlight) =
      true) : m.RunOver ns := by
  intro run stored
  rw [stored] at terminal
  exact of_decide_eq_true terminal

/-- The contract stores nothing for the namespace. -/
structure Bare (m : Machine) (ns : String) : Prop where
  steps : ∀ stepId, m.getStep ns stepId = none
  queue : m.contract.sequenceQueue.get ns = none
  context : m.contract.sequenceContexts.get ns = none

theorem finishAutomationRun_contexts (env : Env) (m : Machine) (ns : String)
    (status : AutomationRunStatus) (failedStepId : Option String) :
    (m.finishAutomationRun env ns status failedStepId).contract.sequenceContexts =
      m.contract.sequenceContexts := by
  unfold finishAutomationRun
  split
  · rfl
  · split <;> rfl

/-- Closing a run behind a clear of the saved results leaves none. -/
theorem finish_clearContext (env : Env) (m : Machine) (ns : String) (status : AutomationRunStatus)
    (failedStepId : Option String) :
    ((m.clearContext ns).finishAutomationRun env ns status
      failedStepId).contract.sequenceContexts.get ns = none := by
  rw [finishAutomationRun_contexts]
  exact IterableMap.get_remove_self ..

theorem haltSequence_context (env : Env) (m : Machine) (ns stepId : String)
    (status : AutomationRunStatus) (data : HaltData) :
    (m.haltSequence env ns stepId status data).contract.sequenceContexts.get ns = none :=
  finish_clearContext ..

/-- What a callback does to the saved results of its namespace: it clears them, or it leaves
the run alone and saves nothing unless a step is stored. -/
def ContextKept (m m' : Machine) (ns : String) : Prop :=
  m'.contract.sequenceContexts.get ns = none ∨
    m'.contract.automationRuns.get ns = m.contract.automationRuns.get ns ∧
      (m'.contract.sequenceContexts.get ns = m.contract.sequenceContexts.get ns ∨
        ∃ stepId, m.getStep ns stepId ≠ none)

theorem ContextKept.of_contract {m m' : Machine} {ns : String}
    (same : m'.contract = m.contract) : ContextKept m m' ns :=
  .inr ⟨by rw [same], .inl (by rw [same])⟩

theorem progress_context (env : Env) (m : Machine) (ns stepId : String) (resultLen : Nat)
    (call : Option CallMetadata) (registeredAtMs : Nat) {m' : Machine}
    (progressed : m' = m.progressSequenceAfterSuccessfulResolution env ns stepId resultLen call
      registeredAtMs) :
    m'.contract.sequenceContexts.get ns = none ∨
      m'.contract.automationRuns.get ns = m.contract.automationRuns.get ns ∧
        m'.contract.sequenceContexts.get ns = m.contract.sequenceContexts.get ns := by
  have taken : (m.contract.takeNextQueuedStep ns).2.automationRuns = m.contract.automationRuns ∧
      (m.contract.takeNextQueuedStep ns).2.sequenceContexts = m.contract.sequenceContexts := by
    unfold Contract.takeNextQueuedStep
    split <;> exact ⟨rfl, rfl⟩
  subst progressed
  unfold progressSequenceAfterSuccessfulResolution
  simp only
  split
  · rename_i next c eq
    rw [eq] at taken
    obtain ⟨runs, contexts⟩ := taken
    split
    · rename_i resumed woken
      obtain ⟨yielded, m₁, -, resumedYield, rfl⟩ := resumeRegisteredStep_ok.mp woken
      obtain ⟨thens, -, rfl⟩ := resumeYield_eq_some.mp resumedYield
      exact .inr ⟨by rw [← runs]; rfl, by rw [← contexts]; rfl⟩
    · exact .inl (finish_clearContext ..)
  · exact .inl (IterableMap.get_remove_self ..)

theorem onStepResolved_context (env : Env) (m : Machine) (ns stepId : String)
    (result : PromiseResult) : ContextKept m (m.onStepResolved env ns stepId result) ns := by
  unfold onStepResolved
  simp only
  split
  · rename_i bytes _
    rcases progress_context env _ ns stepId _ _ _ rfl with cleared | ⟨runs, kept⟩
    · exact .inl cleared
    · refine .inr ⟨runs.trans ?_, ?_⟩
      · unfold saveIfAsked
        split <;> rfl
      · cases stored : m.getStep ns stepId with
        | none =>
            rw [stored] at kept
            exact .inl kept
        | some yielded =>
            refine .inr ⟨stepId, ?_⟩
            rw [stored]
            exact Option.some_ne_none _
  · exact .inl (finish_clearContext ..)

/-- What a callback that goes through leaves: the contract as it was, a halted sequence, or a
resolved step. -/
inductive Leaves (env : Env) (m : Machine) (callback : Callback) (result : PromiseResult) :
    Machine → Prop
  | kept {m' : Machine} (same : m'.contract = m.contract) : Leaves env m callback result m'
  | halted (m₁ : Machine) (stepId : String) (status : AutomationRunStatus) (data : HaltData) :
      Leaves env m callback result
        (m₁.haltSequence env callback.sequenceNamespace stepId status data)
  | resolved (stepId : String)
      (about : callback = .onStepResolved callback.sequenceNamespace stepId) :
      Leaves env m callback result
        (m.onStepResolved env callback.sequenceNamespace stepId result)

theorem Leaves.of_dispatch {env : Env} {m m₁ : Machine} (callback : Callback)
    (result : PromiseResult) (same : m₁.contract = m.contract) (stepId : String)
    (yielded : RegisteredStep) :
    Leaves env m callback result
      (m₁.materializeAndDispatch env callback.sequenceNamespace stepId yielded).1 := by
  unfold materializeAndDispatch
  split
  · exact .halted _ stepId _ _
  · exact .kept same

theorem Leaves.of_runCallback {env : Env} {m m' : Machine} {callback : Callback}
    {result : PromiseResult} {out : PromiseOrValue}
    (ran : m.runCallback env callback result = .ok (m', out)) :
    Leaves env m callback result m' := by
  cases callback with
  | onStepResumed ns stepId =>
      have eq : m' = (m.onStepResumed env ns stepId result).1 :=
        congrArg Prod.fst (Except.ok.inj ran).symm
      subst eq
      unfold onStepResumed
      split
      · exact .kept rfl
      · split
        · exact .halted _ stepId _ _
        · simp only
          split
          · exact .kept rfl
          · refine .of_dispatch (.onStepResumed ns stepId) _ ?_ stepId _
            rfl
  | onPreGateChecked ns stepId =>
      have eq : m' = (m.onPreGateChecked env ns stepId result).1 :=
        congrArg Prod.fst (Except.ok.inj ran).symm
      subst eq
      unfold onPreGateChecked
      split
      · exact .kept rfl
      · split
        · exact .kept rfl
        · split
          · exact .halted _ stepId _ _
          · simp only
            split
            · refine .of_dispatch (.onPreGateChecked ns stepId) _ ?_ stepId _
              rfl
            · exact .halted _ stepId _ _
  | onAssertedRunPostcheck ns stepId id method args expected gas =>
      obtain ⟨q, posted, eq⟩ := bind_eq_ok.mp ran
      cases eq
      exact .kept rfl
  | onAssertedEvaluatePostcheck ns stepId expected =>
      obtain ⟨m₁, checked, eq⟩ := bind_eq_ok.mp ran
      cases eq
      refine .kept ?_
      obtain ⟨-, rfl⟩ := onAssertedEvaluatePostcheck_ok checked
      rfl
  | onStepResolved ns stepId =>
      have eq : m' = m.onStepResolved env ns stepId result :=
        congrArg Prod.fst (Except.ok.inj ran).symm
      subst eq
      exact .resolved stepId rfl

theorem runCallback_context {env : Env} {m m' : Machine} {callback : Callback}
    {result : PromiseResult} {out : PromiseOrValue}
    (ran : m.runCallback env callback result = .ok (m', out)) :
    ContextKept m m' callback.sequenceNamespace := by
  cases Leaves.of_runCallback ran with
  | kept same => exact .of_contract same
  | halted m₁ stepId status data => exact .inl (haltSequence_context ..)
  | resolved stepId about => exact onStepResolved_context env m _ stepId result

/-! ## Rows -/

/-- A write of another namespace leaves the row and the saved results alone. -/
theorem write_other {ns ns' : String} {m m' : Machine} (write : Write ns' m m')
    (other : ns' ≠ ns) :
    m'.contract.automationRuns.get ns = m.contract.automationRuns.get ns ∧
      m'.contract.sequenceContexts.get ns = m.contract.sequenceContexts.get ns := by
  cases write with
  | resume stored resumed =>
      obtain ⟨thens, -, rfl⟩ := resumeYield_eq_some.mp resumed
      exact ⟨rfl, rfl⟩
  | clearContext => exact ⟨rfl, IterableMap.get_remove_of_ne _ (Ne.symm other)⟩
  | saveResult spec bytes => exact ⟨rfl, IterableMap.get_insert_of_ne _ _ (Ne.symm other)⟩
  | finishRun stored running closing =>
      exact ⟨IterableMap.get_insert_of_ne _ _ (Ne.symm other), rfl⟩
  | _ => exact ⟨rfl, rfl⟩

theorem writes_other {ns ns' : String} {m m' : Machine} (writes : Writes ns' m m')
    (other : ns' ≠ ns) :
    m'.contract.automationRuns.get ns = m.contract.automationRuns.get ns ∧
      m'.contract.sequenceContexts.get ns = m.contract.sequenceContexts.get ns := by
  induction writes with
  | refl => exact ⟨rfl, rfl⟩
  | tail _ last ih =>
      obtain ⟨runs, contexts⟩ := write_other last other
      exact ⟨runs.trans ih.1, contexts.trans ih.2⟩

/-- Callbacks leave a finished row alone. -/
theorem deliver_row {m : Machine} {ns : String} (ended : m.RunOver ns) (env : Env) (id : Nat)
    (answer : PromiseResult) : (m.deliver env id answer).contract.automationRuns.get ns =
      m.contract.automationRuns.get ns := by
  refine @deliver_related (fun c c' =>
    (∀ run, c.automationRuns.get ns = some run → run.status ≠ .inFlight) →
      c'.automationRuns.get ns = c.automationRuns.get ns) (fun _ _ => rfl)
    (fun c₁ c₂ c₃ first second ended => ?_) (fun ns' m m' write ended => ?_) env m id answer ended
  · have same := first ended
    exact (second (same ▸ ended)).trans same
  · by_cases other : ns' = ns
    · subst other
      cases write with
      | resume stored resumed =>
          obtain ⟨thens, -, rfl⟩ := resumeYield_eq_some.mp resumed
          rfl
      | finishRun stored running closing => exact absurd running (ended _ stored)
      | _ => rfl
    · exact (write_other write other).1

/-- An accepted call starts a run of the namespace, prunes a finished one, or leaves the row
alone. -/
theorem call_row {env : Env} {m m' : Machine} {method : PublicCall}
    (called : m.call env method = .ok m') (ns : String) :
    (∃ execution, (Op.transact env method).fires m = some execution ∧
      execution.sequenceNamespace = ns ∧ ¬ m'.RunOver ns) ∨
    m'.contract.automationRuns.get ns = m.contract.automationRuns.get ns ∨
    m'.contract.automationRuns.get ns = none ∧ m.RunOver ns := by
  have effect := Effect.of_call called
  cases effect with
  | executeTrigger authorized stored undisturbed books contexts execution ran about nonce named =>
      rename_i triggerId trigger m₁
      have row := congrFun (congrArg Books.runs books) ns
      simp only [Books.start, update_apply] at row
      by_cases same : ns = automationNamespace triggerId (trigger.runsStarted + 1)
      · rw [if_pos same] at row
        refine .inl ⟨execution, fires_executeTrigger called ran, ?_, fun ended => ended _ row rfl⟩
        rw [named, nonce, same]
      · rw [if_neg same] at row
        exact .inr (.inl row)
  | executeSteps executor sequencing =>
      exact .inr (.inl (congrFun (congrArg Books.runs sequencing.books) ns))
  | registerStep sequencing =>
      exact .inr (.inl (congrFun (congrArg Books.runs sequencing.books) ns))
  | runSequence executor sequencing =>
      exact .inr (.inl (congrFun (congrArg Books.runs sequencing.books) ns))
  | pruneFinishedAutomationRuns =>
      refine .inr ?_
      rw [(pruneFinishedAutomationRuns_eq m).2.1]
      show (m.contract.automationRuns.removeAll _).get ns = _ ∨ _ ∧ _
      rw [IterableMap.get_removeAll]
      split
      · rename_i inside
        refine .inr ⟨rfl, fun run stored => ?_⟩
        obtain ⟨⟨ns', run'⟩, listed, rfl⟩ := List.mem_map.mp inside
        obtain ⟨here, terminal⟩ := List.mem_filter.mp listed
        rw [IterableMap.get_eq_some_iff.mpr here, Option.some.injEq] at stored
        exact stored ▸ of_decide_eq_true terminal
      · exact .inl rfl
  | revokeExpiredSessions =>
      exact .inr (.inl (by rw [(revokeExpiredSessions_eq env m).2.1]))
  | revokeExpiredProxyKeys =>
      exact .inr (.inl (by rw [(revokeExpiredProxyKeys_eq env m).2.1]))
  | _ => exact .inr (.inl rfl)

/-- A finished row stays as it is until it is pruned, unless the namespace fires again. -/
theorem step_row {m : Machine} {ns : String} (ended : m.RunOver ns) {op : Op}
    (idle : ∀ execution, op.fires m = some execution → execution.sequenceNamespace ≠ ns) :
    (m.step op).contract.automationRuns.get ns = m.contract.automationRuns.get ns ∨
      (m.step op).contract.automationRuns.get ns = none := by
  cases op with
  | timeout id =>
      refine .inl ?_
      exact congrArg (fun c : Contract => c.automationRuns.get ns) (m.timeout_contract id)
  | abort id answer =>
      refine .inl ?_
      exact congrArg (fun c : Contract => c.automationRuns.get ns) (m.abort_contract id answer)
  | deliver env id answer => exact .inl (deliver_row ended env id answer)
  | transact env method =>
      cases called : m.call env method with
      | error message =>
          rw [step_refused called]
          exact .inl rfl
      | ok m' =>
          rw [step_transact called]
          rcases call_row called ns with ⟨execution, fired, same, -⟩ | kept | ⟨gone, -⟩
          · exact absurd same (idle execution fired)
          · exact .inl kept
          · exact .inr gone

/-! ## Nothing is left of a finished run -/

/-- Where no step of a finished run is left, none of its results is. -/
def ContextCleared (m : Machine) (ns : String) : Prop :=
  m.RunOver ns → m.contract.sequenceContexts.get ns = none

/-- What holds of the contract while the namespace has no run in flight goes on to hold if the
calls that start no run of it, its callbacks and the writes of other namespaces keep it. -/
theorem RunOver.step {P : Contract → Prop} {m : Machine} {ns : String}
    (holds : m.RunOver ns → P m.contract)
    (calls : ∀ env method m', m.call env method = .ok m' → m'.RunOver ns → P m.contract →
      P m'.contract)
    (callbacks : ∀ (env : Env) (m₀ m₁ : Machine) (callback : Callback) (result : PromiseResult)
      (out : PromiseOrValue), m₀.contract = m.contract →
        m₀.runCallback env callback result = .ok (m₁, out) → callback.sequenceNamespace = ns →
          m₁.RunOver ns → P m₁.contract)
    (elsewhere : ∀ (ns' : String) (m₀ m₁ : Machine), m₀.contract = m.contract →
      Writes ns' m₀ m₁ → ns' ≠ ns → P m.contract → P m₁.contract)
    (op : Op) (ended : (m.step op).RunOver ns) : P (m.step op).contract := by
  have unchanged : ∀ m' : Machine, m'.contract = m.contract → m'.RunOver ns → P m'.contract := by
    intro m' same ended
    rw [same]
    exact holds fun run stored => ended run (by rw [same]; exact stored)
  cases op with
  | timeout id =>
      exact unchanged (m.timeout id) (m.timeout_contract id) ended
  | abort id answer =>
      exact unchanged (m.abort id answer) (m.abort_contract id answer) ended
  | transact env method =>
      cases called : m.call env method with
      | error message =>
          rw [step_refused called] at ended ⊢
          exact holds ended
      | ok m' =>
          rw [step_transact called] at ended ⊢
          refine calls env method m' called ended (holds ?_)
          rcases call_row called ns with ⟨_, _, _, running⟩ | kept | ⟨_, before⟩
          · exact absurd ended running
          · exact fun run stored => ended run (kept.trans stored)
          · exact before
  | deliver env id answer =>
      rcases m.deliver_contract env id answer with same | ⟨_, t, _, result, m₁, out, _, ran, after⟩
      · exact unchanged (m.deliver env id answer) same ended
      · change P (m.deliver env id answer).contract
        have ended₁ : m₁.RunOver ns := fun run stored =>
          ended run ((congrArg (fun c : Contract => c.automationRuns.get ns) after).trans stored)
        rw [after]
        by_cases own : t.callback.sequenceNamespace = ns
        · refine callbacks env _ m₁ t.callback result out ?_ ran own ended₁
          rfl
        · have writes := Writes.runCallback ran
          refine elsewhere _ _ m₁ ?_ writes own (holds fun run stored => ended₁ run ?_)
          · rfl
          · exact (writes_other writes own).1.trans stored

theorem ContextCleared.step {m : Machine} {ns : String} (cleared : m.ContextCleared ns)
    (steps : m.RunOver ns → ∀ stepId, m.getStep ns stepId = none) (op : Op) :
    (m.step op).ContextCleared ns := by
  refine RunOver.step (P := fun c => c.sequenceContexts.get ns = none) cleared ?_ ?_ ?_ op
  · intro env method m' called _ before
    rw [(Effect.of_call called).contexts]
    exact before
  · intro env m₀ m₁ callback result out same ran own ended
    have kept := own ▸ runCallback_context ran
    simp only [ContextKept, getStep, same] at kept
    rcases kept with empty | ⟨runs, kept⟩
    · exact empty
    · have before : m.RunOver ns := fun run stored => ended run (runs.trans stored)
      rcases kept with kept | ⟨stepId, present⟩
      · exact kept.trans (cleared before)
      · exact absurd (steps before stepId) present
  · intro ns' m₀ m₁ same writes other before
    rw [← same] at before
    exact (writes_other writes other).2.trans before

theorem Reachable.cleaned {m : Machine} (reachable : m.Reachable) {ns : String}
    (auto : IsAutomation ns) (isolated : Isolated m.trace ns) : (m.lane ns).Cleaned :=
  @Reachable.lane_induct ns Lane.Cleaned (fun _ => ⟨fun _ => rfl, rfl⟩)
    (fun _ _ _ step cleaned => Lane.Cleaned.step auto cleaned step) m reachable isolated

/-- Nothing is stored for an automation namespace without a run in flight. -/
theorem Reachable.bare {m : Machine} (reachable : m.Reachable) {ns : String}
    (auto : IsAutomation ns) (isolated : Isolated m.trace ns) (ended : m.RunOver ns) :
    m.Bare ns := by
  have lane := reachable.cleaned auto isolated ended
  refine ⟨lane.steps, lane.queue, ?_⟩
  have along : ∀ (ops : List Op) (m : Machine), m.Reachable → m.ContextCleared ns →
      Isolated (m.run ops).trace ns → (m.run ops).ContextCleared ns := by
    intro ops
    induction ops with
    | nil => exact fun _ _ cleared _ => cleared
    | cons op ops ih =>
        intro m reachable cleared isolated
        have here := isolated.earlier (run_trace m (op :: ops))
        refine ih _ (reachable.run [op]) (cleared.step (fun ended => ?_) op) isolated
        exact (reachable.cleaned auto here ended).steps
  obtain ⟨host, ownerId, authorizerId, ops, rfl⟩ := reachable
  exact along ops _ (.init host ownerId authorizerId) (fun _ => rfl) isolated ended

/-! ## Late callbacks -/

end Machine

/-- The call of an asserted step's postcheck, which its target's callback issues. -/
def Callback.asserts (callback : Callback) (fc : FunctionCall) : Prop :=
  ∃ ns stepId assertionId method args expected gas,
    callback = .onAssertedRunPostcheck ns stepId assertionId method args expected gas ∧
      fc = ⟨assertionId, method, .raw args, 0, gas⟩

namespace Machine

variable {m : Machine} {ns : String}

theorem Bare.removeStep (bare : m.Bare ns) (stepId : String) : m.removeStep ns stepId = m := by
  unfold Machine.removeStep
  rw [IterableMap.remove_of_absent (bare.steps stepId)]
  rfl

theorem Bare.removeQueue (bare : m.Bare ns) : m.removeQueue ns = m := by
  unfold Machine.removeQueue
  rw [IterableMap.remove_of_absent bare.queue]
  rfl

theorem Bare.clearContext (bare : m.Bare ns) : m.clearContext ns = m := by
  unfold Machine.clearContext Contract.clearSequenceContext
  rw [IterableMap.remove_of_absent bare.context]
  rfl

theorem RunOver.finish (ended : m.RunOver ns) (env : Env) (status : AutomationRunStatus)
    (failedStepId : Option String) : m.finishAutomationRun env ns status failedStepId = m := by
  unfold finishAutomationRun
  split
  · rfl
  · rename_i run stored
    rw [if_pos (ended run stored)]

/-- `on_step_resolved` finds nothing to remove, to save, to resume or to close. -/
theorem Bare.onStepResolved (bare : m.Bare ns) (ended : m.RunOver ns) (env : Env)
    (stepId : String) (result : PromiseResult) :
    (m.onStepResolved env ns stepId result).contract = m.contract := by
  unfold Machine.onStepResolved
  simp only [bare.steps stepId, bare.removeStep, Option.bind_none, saveIfAsked]
  split
  · unfold progressSequenceAfterSuccessfulResolution Contract.takeNextQueuedStep
    rw [bare.queue]
    simp only
    have ended' : ∀ event event',
        (((m.withContract m.contract).emit event).emit event').RunOver ns := fun _ _ => ended
    rw [(ended' _ _).finish]
    have cleared : (m.clearContext ns).contract = m.contract := by rw [bare.clearContext]
    exact cleared
  · rw [bare.removeQueue, bare.clearContext, ended.finish]
    rfl

/-- A late callback changes nothing, and calls nobody but the assertion of a postcheck. -/
theorem Bare.runCallback (bare : m.Bare ns) (ended : m.RunOver ns) {env : Env} {m' : Machine}
    {callback : Callback} {result : PromiseResult} {out : PromiseOrValue}
    (own : callback.sequenceNamespace = ns)
    (ran : m.runCallback env callback result = .ok (m', out)) :
    m'.contract = m.contract ∧ ∀ p, out = .promise p → callback.asserts p.call := by
  cases callback with
  | onStepResumed ns' stepId =>
      subst own
      have absent := bare.steps stepId
      simp only [Machine.runCallback, Machine.onStepResumed, Callback.sequenceNamespace] at ran absent
      rw [absent] at ran
      cases ran
      exact ⟨rfl, fun p eq => by cases eq⟩
  | onPreGateChecked ns' stepId =>
      subst own
      have absent := bare.steps stepId
      simp only [Machine.runCallback, Machine.onPreGateChecked, Callback.sequenceNamespace]
        at ran absent
      rw [absent] at ran
      cases ran
      exact ⟨rfl, fun p eq => by cases eq⟩
  | onAssertedRunPostcheck ns' stepId id method args expected gas =>
      obtain ⟨q, posted, eq⟩ := bind_eq_ok.mp ran
      cases eq
      refine ⟨rfl, fun p eq => ?_⟩
      cases eq
      obtain ⟨-, rfl⟩ := Machine.onAssertedRunPostcheck_ok posted
      exact ⟨_, _, _, _, _, _, _, rfl, rfl⟩
  | onAssertedEvaluatePostcheck ns' stepId expected =>
      obtain ⟨m₁, checked, eq⟩ := bind_eq_ok.mp ran
      cases eq
      refine ⟨?_, fun p eq => by cases eq⟩
      obtain ⟨-, rfl⟩ := Machine.onAssertedEvaluatePostcheck_ok checked
      rfl
  | onStepResolved ns' stepId =>
      subst own
      cases ran
      exact ⟨bare.onStepResolved ended env stepId result, fun p eq => by cases eq⟩

/-- Callbacks of the namespace change nothing and call nobody, but for the assertion of a
postcheck. -/
def Silent (m : Machine) (ns : String) : Prop :=
  ∀ env id answer head t rest, m.pool.get id = some ⟨head, t :: rest⟩ →
    t.callback.sequenceNamespace = ns →
    (m.step (.deliver env id answer)).contract = m.contract ∧
    (m.step (.deliver env id answer)).receipts = m.receipts ∧
    ∀ fc thens, (m.step (.deliver env id answer)).pool.get id = some ⟨.call fc, thens⟩ →
      t.callback.asserts fc

/-- A settled flight is over or in the given form. -/
theorem settle_get {m : Machine} {id : Nat} {f f' : Flight}
    (found : (m.settle id f).pool.get id = some f') : f' = f := by
  simp only [settle] at found
  split at found
  · rw [Pool.get_remove, if_pos rfl] at found
    cases found
  · rw [Pool.get_update, if_pos rfl] at found
    obtain ⟨_, -, same⟩ := Option.map_eq_some_iff.mp found
    exact same.symm

theorem Bare.silent (bare : m.Bare ns) (ended : m.RunOver ns) : m.Silent ns := by
  intro env id answer head t rest stored own
  refine ⟨?_, (Undisturbed.deliver env m id answer).receipts, ?_⟩
  · rcases m.deliver_contract env id answer with
      same | ⟨head', t', rest', result, m₁, out, stored', ran, after⟩
    · exact same
    · rw [stored, Option.some.injEq, Flight.mk.injEq, List.cons.injEq] at stored'
      obtain ⟨-, rfl, -⟩ := stored'
      have late : ({ m with executing := some id }.note
        (.delivered id t.callback result)).Bare ns := ⟨bare.steps, bare.queue, bare.context⟩
      exact after.trans (late.runCallback ended own ran).1
  · intro fc thens called
    have ran : m.step (.deliver env id answer) = m.deliver env id answer := rfl
    rw [ran] at called
    unfold deliver at called
    rw [stored] at called
    simp only at called
    split at called
    · rename_i result due
      unfold runThen at called
      split at called
      · cases settle_get called
      · cases settle_get called
      · rename_i m₁ p attempted
        have late : ({ m with executing := some id }.note
          (.delivered id t.callback result)).Bare ns := ⟨bare.steps, bare.queue, bare.context⟩
        have asserted := (late.runCallback ended own (attempt_ok.mp attempted).1).2 p rfl
        cases settle_get called
        exact asserted
    · rename_i undue
      rw [stored, Option.some.injEq, Flight.mk.injEq] at called
      rw [called.1] at undue
      cases undue

/-! ## Terminal runs are absorbing -/

theorem firings_named (m : Machine) (ops : List Op) :
    ∀ execution ∈ m.firings ops, IsAutomation execution.sequenceNamespace := by
  induction ops generalizing m with
  | nil => exact fun _ inside => absurd inside List.not_mem_nil
  | cons op ops ih =>
      intro execution inside
      rw [firings_cons] at inside
      rcases List.mem_append.mp inside with first | later
      · cases m.step_counting op with
        | fires execution' fired named next counted =>
            rw [fired] at first
            rw [List.mem_singleton.mp first]
            exact ⟨_, _, named⟩
        | creates idle created accepted others =>
            rw [idle] at first
            cases first
        | keeps idle kept =>
            rw [idle] at first
            cases first
      · exact ih _ execution later

/-- Along operations that do not fire the namespace, a finished row stays or is pruned. -/
theorem row_run {m : Machine} {ns : String} {ops : List Op} (ended : m.RunOver ns)
    (idle : ∀ execution ∈ m.firings ops, execution.sequenceNamespace ≠ ns) :
    (m.run ops).contract.automationRuns.get ns = m.contract.automationRuns.get ns ∨
      (m.run ops).contract.automationRuns.get ns = none := by
  induction ops generalizing m with
  | nil => exact .inl rfl
  | cons op ops ih =>
      rw [firings_cons] at idle
      have first := step_row ended fun execution fired =>
        idle execution (List.mem_append_left _ (by rw [fired]; exact List.mem_singleton_self _))
      have ended' : (m.step op).RunOver ns := by
        intro run stored
        rcases first with same | gone
        · exact ended run (same ▸ stored)
        · rw [gone] at stored
          cases stored
      have later := ih ended' fun execution inside =>
        idle execution (List.mem_append_right _ inside)
      rw [run_cons]
      rcases later with same | gone
      · rw [same]
        exact first
      · exact .inr gone

/-- What `m`, in which the run of the namespace is over, still says of it in the later
state `m'`: nothing is stored, the row is as it was or pruned, and callbacks do nothing. -/
structure Absorbed (m m' : Machine) (ns : String) : Prop where
  bare : m'.Bare ns
  row : m'.contract.automationRuns.get ns = m.contract.automationRuns.get ns ∨
    m'.contract.automationRuns.get ns = none
  silent : m'.Silent ns

end Machine

/-- Once the run of a namespace that fires once is over, it is over for good: in every later
state nothing of it is stored, its row never changes again, and its late callbacks do
nothing. -/
theorem terminal_runs_are_absorbing (host : Host) (ownerId : AccountId)
    (authorizerId : Option AccountId) (before after : List Op) {ns : String}
    (fired : ∃ execution ∈ (Machine.init host ownerId authorizerId).firings before,
      execution.sequenceNamespace = ns)
    (once : ((Machine.init host ownerId authorizerId).firings (before ++ after)).countP
      (fun execution => execution.sequenceNamespace = ns) = 1)
    (isolated : Isolated ((Machine.init host ownerId authorizerId).run (before ++ after)).trace
      ns)
    (ended : ((Machine.init host ownerId authorizerId).run before).RunOver ns) :
    Machine.Absorbed ((Machine.init host ownerId authorizerId).run before)
      ((Machine.init host ownerId authorizerId).run (before ++ after)) ns := by
  obtain ⟨execution, inside, rfl⟩ := fired
  have auto := Machine.firings_named _ _ execution inside
  have idle : ∀ later ∈ ((Machine.init host ownerId authorizerId).run before).firings after,
      later.sequenceNamespace ≠ execution.sequenceNamespace := by
    intro later there same
    rw [Machine.firings_append, List.countP_append] at once
    have first : 0 < ((Machine.init host ownerId authorizerId).firings before).countP
        (fun other => other.sequenceNamespace = execution.sequenceNamespace) :=
      List.countP_pos_iff.mpr ⟨execution, inside, decide_eq_true rfl⟩
    have second : 0 < (((Machine.init host ownerId authorizerId).run before).firings
        after).countP (fun other => other.sequenceNamespace = execution.sequenceNamespace) :=
      List.countP_pos_iff.mpr ⟨later, there, decide_eq_true same⟩
    omega
  have row := Machine.row_run ended idle
  rw [← Machine.run_append] at row
  have ended' : ((Machine.init host ownerId authorizerId).run (before ++ after)).RunOver
      execution.sequenceNamespace := by
    intro run stored
    rcases row with same | gone
    · exact ended run (same ▸ stored)
    · rw [gone] at stored
      cases stored
  have bare := ((Machine.Reachable.init host ownerId authorizerId).run
    (before ++ after)).bare auto isolated ended'
  exact ⟨bare, row, bare.silent ended'⟩

/-- A run of two steps halts at its first; the yield of its second times out later and the
row is pruned. -/
theorem terminal_runs_are_absorbing_after_halt :
    Machine.Absorbed
      (deployed.run [.transact aliceEnv
          (.saveSequenceTemplate "plan" [plainStep "a", plainStep "b"]),
        .transact aliceEnv (.createBalanceTrigger "daily" "plan" 0 5), fire,
        .deliver aliceEnv 0 okResult, .deliver aliceEnv 0 .failed])
      (deployed.run ([.transact aliceEnv
          (.saveSequenceTemplate "plan" [plainStep "a", plainStep "b"]),
        .transact aliceEnv (.createBalanceTrigger "daily" "plan" 0 5), fire,
        .deliver aliceEnv 0 okResult, .deliver aliceEnv 0 .failed] ++
        [.timeout 1, .deliver aliceEnv 1 okResult,
          .transact aliceEnv .pruneFinishedAutomationRuns])) "auto:daily:1" :=
  terminal_runs_are_absorbing aliceHost alice none _ _ (by decide) (by decide)
    (.of_alone (by decide)) (.of_all (by decide))

end SmartAccount
