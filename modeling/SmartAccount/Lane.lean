import SmartAccount.Namespaces
import SmartAccount.Runtime
import Mathlib.Logic.Function.Basic

/-!
# Lanes

A lane is one namespace on its own: its registered steps, its queue, its automation
run, the flights whose callbacks address it and its part of the trace.  `Lane.Step` is
what a lane can do, with no mention of any other namespace; the machine is related to
its lanes in `Projection`.

Everything about the order of releases, dispatches and completions is proved on lanes.
-/

namespace SmartAccount

open Foundation Function

structure Lane where
  step : String → Option RegisteredStep
  queue : Option (List String)
  row : Option AutomationRun
  flight : Nat → Option Flight
  trace : Trace

/-- The outcome of a resume. -/
def resumeSignal : PromiseResult := .successful (utf8Bytes "null")

namespace Lane

/-- A lane nothing has happened in. -/
def fresh : Lane := ⟨fun _ => none, none, none, fun _ => none, []⟩

/-! ## Writes -/

def note (ℓ : Lane) (event : TraceEvent) : Lane := { ℓ with trace := ℓ.trace ++ [event] }

def dropStep (ℓ : Lane) (stepId : String) : Lane := { ℓ with step := update ℓ.step stepId none }

def setQueue (ℓ : Lane) (waiting : List String) : Lane :=
  { ℓ with queue := if waiting = [] then none else some waiting }

def putFlight (ℓ : Lane) (id : Nat) (f : Flight) : Lane :=
  { ℓ with flight := update ℓ.flight id (some f) }

def settle (ℓ : Lane) (id : Nat) (f : Flight) : Lane :=
  { ℓ with flight := update ℓ.flight id (if f.thens = [] then none else some f) }

/-- The end of a flight. -/
def land (ℓ : Lane) (id : Nat) : Lane := { ℓ with flight := update ℓ.flight id none }

/-- A flight that goes on, and what the lane noted meanwhile. -/
def onward (ℓ : Lane) (events : Trace) (id : Nat) (f : Flight) : Lane :=
  { ℓ with trace := ℓ.trace ++ events, flight := update ℓ.flight id (some f) }

/-- A yield handed its resume signal, as the next step of the latest release. -/
def resume (ns : String) (ℓ : Lane) (stepId : String) (id : Nat) (thens : List Then) : Lane :=
  let release := ℓ.trace.releaseCount ns - 1
  (ℓ.putFlight id ⟨.done resumeSignal, thens⟩).note
    (.resumed ns release (ℓ.trace.resumeCount ns release) stepId id)

/-- `finish_automation_run`. -/
def finish (env : Env) (by_ : Option Nat) (ns : String) (ℓ : Lane)
    (status : AutomationRunStatus) (failedStepId : Option String) : Lane :=
  match ℓ.row with
  | none => ℓ
  | some run =>
      if run.status ≠ .inFlight then ℓ
      else
        { step := fun _ => none
          queue := none
          row := some (Machine.finishedRun env run status failedStepId)
          flight := ℓ.flight
          trace := ℓ.trace ++
            [.emitted by_ (.runFinished (Machine.runFinishedEvent env ns run status
              failedStepId))] }

/-- Halting at a step. -/
def halt (env : Env) (id : Nat) (ns : String) (ℓ : Lane) (stepId : String)
    (status : AutomationRunStatus) (data : HaltData) : Lane :=
  (finish env (some id) ns ((ℓ.dropStep stepId).setQueue []) status (some stepId)).note
    (.emitted (some id) (.sequenceHalted data))

/-- One more registered step. -/
def register (ns : String) (ℓ : Lane) (yielded : RegisteredStep) (gasTgas : Nat) : Lane :=
  ({ ℓ with step := update ℓ.step yielded.call.stepId (some yielded) }.putFlight
    yielded.yieldId ⟨.yielded, [⟨.onStepResumed ns yielded.call.stepId, gasTgas⟩]⟩).note
      (.registered ns yielded.yieldId yielded.call gasTgas)

/-! ## The writes, field by field -/

section Fields

variable (ℓ : Lane) (event : TraceEvent) (events : Trace) (stepId ns : String) (id : Nat)
  (waiting : List String) (f : Flight)

@[simp] theorem note_step : (ℓ.note event).step = ℓ.step := rfl
@[simp] theorem note_queue : (ℓ.note event).queue = ℓ.queue := rfl
@[simp] theorem note_row : (ℓ.note event).row = ℓ.row := rfl
@[simp] theorem note_flight : (ℓ.note event).flight = ℓ.flight := rfl
@[simp] theorem note_trace : (ℓ.note event).trace = ℓ.trace ++ [event] := rfl

@[simp] theorem dropStep_step : (ℓ.dropStep stepId).step = update ℓ.step stepId none := rfl
@[simp] theorem dropStep_queue : (ℓ.dropStep stepId).queue = ℓ.queue := rfl
@[simp] theorem dropStep_row : (ℓ.dropStep stepId).row = ℓ.row := rfl
@[simp] theorem dropStep_flight : (ℓ.dropStep stepId).flight = ℓ.flight := rfl
@[simp] theorem dropStep_trace : (ℓ.dropStep stepId).trace = ℓ.trace := rfl

@[simp] theorem setQueue_step : (ℓ.setQueue waiting).step = ℓ.step := rfl
@[simp] theorem setQueue_queue :
    (ℓ.setQueue waiting).queue = if waiting = [] then none else some waiting := rfl
@[simp] theorem setQueue_row : (ℓ.setQueue waiting).row = ℓ.row := rfl
@[simp] theorem setQueue_flight : (ℓ.setQueue waiting).flight = ℓ.flight := rfl
@[simp] theorem setQueue_trace : (ℓ.setQueue waiting).trace = ℓ.trace := rfl

@[simp] theorem putFlight_step : (ℓ.putFlight id f).step = ℓ.step := rfl
@[simp] theorem putFlight_queue : (ℓ.putFlight id f).queue = ℓ.queue := rfl
@[simp] theorem putFlight_row : (ℓ.putFlight id f).row = ℓ.row := rfl
@[simp] theorem putFlight_flight : (ℓ.putFlight id f).flight = update ℓ.flight id (some f) := rfl
@[simp] theorem putFlight_trace : (ℓ.putFlight id f).trace = ℓ.trace := rfl

@[simp] theorem land_step : (ℓ.land id).step = ℓ.step := rfl
@[simp] theorem land_queue : (ℓ.land id).queue = ℓ.queue := rfl
@[simp] theorem land_row : (ℓ.land id).row = ℓ.row := rfl
@[simp] theorem land_flight : (ℓ.land id).flight = update ℓ.flight id none := rfl
@[simp] theorem land_trace : (ℓ.land id).trace = ℓ.trace := rfl

@[simp] theorem onward_step : (ℓ.onward events id f).step = ℓ.step := rfl
@[simp] theorem onward_queue : (ℓ.onward events id f).queue = ℓ.queue := rfl
@[simp] theorem onward_row : (ℓ.onward events id f).row = ℓ.row := rfl
@[simp] theorem onward_flight :
    (ℓ.onward events id f).flight = update ℓ.flight id (some f) := rfl
@[simp] theorem onward_trace : (ℓ.onward events id f).trace = ℓ.trace ++ events := rfl

@[simp] theorem resume_step (thens : List Then) :
    (ℓ.resume ns stepId id thens).step = ℓ.step := rfl
@[simp] theorem resume_queue (thens : List Then) :
    (ℓ.resume ns stepId id thens).queue = ℓ.queue := rfl
@[simp] theorem resume_row (thens : List Then) : (ℓ.resume ns stepId id thens).row = ℓ.row := rfl
@[simp] theorem resume_flight (thens : List Then) :
    (ℓ.resume ns stepId id thens).flight =
      update ℓ.flight id (some ⟨.done resumeSignal, thens⟩) := rfl
@[simp] theorem resume_trace (thens : List Then) :
    (ℓ.resume ns stepId id thens).trace = ℓ.trace ++
      [.resumed ns (ℓ.trace.releaseCount ns - 1)
        (ℓ.trace.resumeCount ns (ℓ.trace.releaseCount ns - 1)) stepId id] := rfl

@[simp] theorem settle_nil (head : Head) : ℓ.settle id ⟨head, []⟩ = ℓ.land id := rfl

theorem note_eq : ℓ.note event = { ℓ with trace := ℓ.trace ++ [event] } := rfl

theorem note_note (event' : TraceEvent) :
    (ℓ.note event).note event' = { ℓ with trace := ℓ.trace ++ [event, event'] } := by
  simp [note]

/-- A flight with callbacks left goes on. -/
theorem settle_eq_onward {ℓ ℓ' : Lane} {events : Trace} (id : Nat) {f : Flight}
    (noted : ℓ' = { ℓ with trace := ℓ.trace ++ events }) (more : f.thens ≠ []) :
    ℓ'.settle id f = ℓ.onward events id f := by
  subst noted
  simp only [settle, onward, if_neg more]

end Fields

section Finishing

variable {ℓ : Lane} (env : Env) (by_ : Option Nat) (ns : String) (status : AutomationRunStatus)
  (failedStepId : Option String)

/-- There is no run to close. -/
theorem finish_of_not (idle : ∀ run, ℓ.row = some run → run.status ≠ .inFlight) :
    finish env by_ ns ℓ status failedStepId = ℓ := by
  unfold finish
  split
  · rfl
  · rename_i run stored
    rw [if_pos (idle run stored)]

theorem finish_of_running {run : AutomationRun} (stored : ℓ.row = some run)
    (running : run.status = .inFlight) : finish env by_ ns ℓ status failedStepId =
      { step := fun _ => none
        queue := none
        row := some (Machine.finishedRun env run status failedStepId)
        flight := ℓ.flight
        trace := ℓ.trace ++ [.emitted by_ (.runFinished (Machine.runFinishedEvent env ns run status
          failedStepId))] } := by
  unfold finish
  simp [stored, running]

/-- Closing a run either finds none in flight, or clears the lane and says so. -/
theorem finish_cases (ℓ : Lane) : (∀ run, ℓ.row = some run → run.status ≠ .inFlight) ∨
    ∃ run, ℓ.row = some run ∧ run.status = .inFlight := by
  by_cases running : ∃ run, ℓ.row = some run ∧ run.status = .inFlight
  · exact .inr running
  · exact .inl fun run stored open_ => running ⟨run, stored, open_⟩

@[simp] theorem finish_flight : (finish env by_ ns ℓ status failedStepId).flight = ℓ.flight := by
  rcases finish_cases ℓ with idle | ⟨run, stored, running⟩
  · rw [finish_of_not env by_ ns status failedStepId idle]
  · rw [finish_of_running env by_ ns status failedStepId stored running]

theorem finish_step {stepId : String} {yielded : RegisteredStep}
    (stored : (finish env by_ ns ℓ status failedStepId).step stepId = some yielded) :
    ℓ.step stepId = some yielded := by
  rcases finish_cases ℓ with idle | ⟨run, row, running⟩
  · rwa [finish_of_not env by_ ns status failedStepId idle] at stored
  · rw [finish_of_running env by_ ns status failedStepId row running] at stored
    cases stored

theorem finish_queue (empty : ℓ.queue = none) :
    (finish env by_ ns ℓ status failedStepId).queue = none := by
  rcases finish_cases ℓ with idle | ⟨run, stored, running⟩
  · rwa [finish_of_not env by_ ns status failedStepId idle]
  · rw [finish_of_running env by_ ns status failedStepId stored running]

/-- Closing a run notes at most that it finished. -/
theorem finish_trace : ∃ events : Trace,
    (finish env by_ ns ℓ status failedStepId).trace = ℓ.trace ++ events ∧
      ∀ event ∈ events, ∃ data, event = .emitted by_ (.runFinished data) := by
  rcases finish_cases ℓ with idle | ⟨run, stored, running⟩
  · rw [finish_of_not env by_ ns status failedStepId idle]
    exact ⟨[], (List.append_nil _).symm, fun _ inside => absurd inside List.not_mem_nil⟩
  · rw [finish_of_running env by_ ns status failedStepId stored running]
    exact ⟨_, rfl, fun event inside => ⟨_, List.mem_singleton.mp inside⟩⟩

end Finishing

/-! ## Registration and release -/

structure CanRegister (ns : String) (ℓ : Lane) (yielded : RegisteredStep) (gasTgas : Nat) :
    Prop where
  absent : ℓ.step yielded.call.stepId = none
  free : ℓ.flight yielded.yieldId = none
  new : ∀ call gas, .registered ns yielded.yieldId call gas ∉ ℓ.trace
  enough : resumeCallbackGas yielded.call ≤ gasTgas

/-- Register copies one after the other. -/
inductive Registers (ns : String) : List (RegisteredStep × Nat) → Lane → Lane → Prop
  | nil {ℓ : Lane} : Registers ns [] ℓ ℓ
  | cons {ℓ ℓ' : Lane} {copy : RegisteredStep × Nat} {copies : List (RegisteredStep × Nat)}
      (can : CanRegister ns ℓ copy.1 copy.2)
      (rest : Registers ns copies (ℓ.register ns copy.1 copy.2) ℓ') :
      Registers ns (copy :: copies) ℓ ℓ'

/-- An accepted release of an order. -/
inductive Release (ns : String) (order : List String) (ℓ : Lane) : Lane → Prop
  | mk {first : String} {rest : List String} {yielded : RegisteredStep} {thens : List Then}
      (shape : order = first :: rest) (idle : ℓ.queue = none)
      (known : ∀ stepId ∈ order, (ℓ.step stepId).isSome)
      (stored : ℓ.step first = some yielded)
      (dormant : ℓ.flight yielded.yieldId = some ⟨.yielded, thens⟩) :
      Release ns order ℓ
        (((ℓ.setQueue rest).note (.released ns order)).resume ns first yielded.yieldId thens)

/-! ## Deliveries -/

/-- The next callback of a flight is due, with this outcome. -/
structure Due (ℓ : Lane) (id : Nat) (head : Head) (t : Then) (rest : List Then)
    (result : PromiseResult) : Prop where
  waiting : ℓ.flight id = some ⟨head, t :: rest⟩
  outcome : ∃ answer, head.outcome answer = some result

/-- The callback clears the stored step for dispatch. -/
inductive Cleared (ns : String) (yielded : RegisteredStep) :
    String → Callback → PromiseResult → Prop
  | ungated {stepId : String} {payload : Bytes} (open_ : yielded.call.preGate = none) :
      Cleared ns yielded stepId (.onStepResumed ns stepId) (.successful payload)
  | inRange {stepId : String} {result : PromiseResult} {preGate : PreGate} {bytes : Bytes}
      (gate : yielded.call.preGate = some preGate) (small : result.checked = .ok bytes)
      (verdict : preGate.evaluate bytes = .inRange) :
      Cleared ns yielded stepId (.onPreGateChecked ns stepId) result

/-- What a callback that does not fail does to the lane, and the head and callbacks its
flight goes on with. -/
inductive Effect (ns : String) (id : Nat) (ℓ : Lane) :
    Callback → PromiseResult → Lane → Head → List Then → Prop
  | asleep {stepId : String} {result : PromiseResult} (absent : ℓ.step stepId = none) :
      Effect ns id ℓ (.onStepResumed ns stepId) result ℓ (.done resumeSignal) []
  | unchecked {stepId : String} {result : PromiseResult}
      (ungated : ∀ yielded, ℓ.step stepId = some yielded → yielded.call.preGate = none) :
      Effect ns id ℓ (.onPreGateChecked ns stepId) result ℓ (.done resumeSignal) []
  | halted {stepId : String} {callback : Callback} {result : PromiseResult}
      {yielded : RegisteredStep} {env : Env} {status : AutomationRunStatus} {data : HaltData}
      (cause : callback = .onStepResumed ns stepId ∨ callback = .onPreGateChecked ns stepId)
      (stored : ℓ.step stepId = some yielded)
      (unsuccessful : status = .resumeFailed ∨ status = .downstreamFailed)
      (about : data.sequenceNamespace = ns) :
      Effect ns id ℓ callback result (ℓ.halt env id ns stepId status data)
        (.done resumeSignal) []
  | gated {stepId : String} {payload : Bytes} {yielded : RegisteredStep} {preGate : PreGate}
      {p : Promise} (stored : ℓ.step stepId = some yielded)
      (gate : yielded.call.preGate = some preGate)
      (built : p = gatePromise preGate ns stepId yielded.call.gasTgas) :
      Effect ns id ℓ (.onStepResumed ns stepId) (.successful payload)
        (ℓ.note (.called ns id p.call)) (.call p.call) p.thens
  | dispatched {stepId : String} {callback : Callback} {result : PromiseResult}
      {yielded : RegisteredStep} {authorizerId : Option AccountId} {args : Bytes} {p : Promise}
      (stored : ℓ.step stepId = some yielded)
      (cleared : Cleared ns yielded stepId callback result)
      (built : p = resolvedPromise authorizerId ns stepId { yielded.call with args := args }) :
      Effect ns id ℓ callback result
        ((ℓ.note (.dispatched ns stepId yielded.yieldId yielded.call args)).note
          (.called ns id p.call)) (.call p.call) p.thens
  | posted {stepId : String} {assertionId : AccountId} {method : String}
      {args expected bytes : Bytes} {gasTgas : Nat} {result : PromiseResult} {p : Promise}
      (small : result.checked = .ok bytes)
      (built : p = ⟨⟨assertionId, method, .raw args, 0, gasTgas⟩,
        [⟨.onAssertedEvaluatePostcheck ns stepId expected, assertedPostcheckEvaluateGasTgas⟩]⟩) :
      Effect ns id ℓ (.onAssertedRunPostcheck ns stepId assertionId method args expected gasTgas)
        result (ℓ.note (.called ns id p.call)) (.call p.call) p.thens
  | matched {stepId : String} {expected : Bytes} {result : PromiseResult}
      (equal : result.checked = .ok expected) :
      Effect ns id ℓ (.onAssertedEvaluatePostcheck ns stepId expected) result ℓ
        (.done (.successful [])) []
  | advanced {stepId next : String} {bytes : Bytes} {result : PromiseResult}
      {waiting : List String} {yielded : RegisteredStep} {thens : List Then}
      (small : result.checked = .ok bytes) (queued : ℓ.queue = some (next :: waiting))
      (other : next ≠ stepId) (stored : ℓ.step next = some yielded)
      (dormant : ℓ.flight yielded.yieldId = some ⟨.yielded, thens⟩) :
      Effect ns id ℓ (.onStepResolved ns stepId) result
        (((ℓ.dropStep stepId).setQueue waiting).resume ns next yielded.yieldId thens)
        (.done (.successful [])) []
  | stuck {stepId next : String} {bytes : Bytes} {result : PromiseResult}
      {waiting : List String} {env : Env} {data : HaltData} (small : result.checked = .ok bytes)
      (queued : ℓ.queue = some (next :: waiting)) (about : data.sequenceNamespace = ns) :
      Effect ns id ℓ (.onStepResolved ns stepId) result
        ((((ℓ.dropStep stepId).setQueue []).finish env (some id) ns .resumeFailed
          (some next)).note (.emitted (some id) (.sequenceHalted data)))
        (.done (.successful [])) []
  | completed {stepId : String} {bytes : Bytes} {result : PromiseResult} {env : Env}
      (small : result.checked = .ok bytes) (drained : ℓ.queue = none ∨ ℓ.queue = some []) :
      Effect ns id ℓ (.onStepResolved ns stepId) result
        ((((ℓ.dropStep stepId).setQueue []).note
          (.emitted (some id) (.sequenceCompleted ns stepId bytes.length))).finish env (some id)
            ns .succeeded none)
        (.done (.successful [])) []
  | failed {stepId : String} {error : PromiseError} {result : PromiseResult} {env : Env}
      (failure : result.checked = .error error) :
      Effect ns id ℓ (.onStepResolved ns stepId) result
        (((ℓ.dropStep stepId).setQueue []).finish env (some id) ns .downstreamFailed
          (some stepId))
        (.done (.successful [])) []

/-- The delivery of an outcome to a flight's next callback.  Any callback may fail. -/
inductive Deliver (ns : String) (ℓ : Lane) (id : Nat) : Lane → Prop
  | ran {ℓ' : Lane} {head head' : Head} {t : Then} {rest thens : List Then}
      {result : PromiseResult} (due : Due ℓ id head t rest result)
      (effect : Effect ns id (ℓ.note (.delivered id t.callback result)) t.callback result ℓ'
        head' thens) :
      Deliver ns ℓ id (ℓ'.settle id ⟨head', thens ++ rest⟩)
  | rolledBack {head : Head} {t : Then} {rest : List Then} {result : PromiseResult}
      (due : Due ℓ id head t rest result) :
      Deliver ns ℓ id ((ℓ.note (.rolledBack id t.callback result)).settle id
        ⟨.done .failed, rest⟩)

/-- A delivery whose callback fails. -/
inductive RolledBack (ℓ : Lane) (id : Nat) : Lane → Prop
  | mk {head : Head} {t : Then} {rest : List Then} {result : PromiseResult}
      (due : Due ℓ id head t rest result) :
      RolledBack ℓ id ((ℓ.note (.rolledBack id t.callback result)).settle id
        ⟨.done .failed, rest⟩)

theorem RolledBack.deliver {ns : String} {ℓ ℓ' : Lane} {id : Nat} (failed : RolledBack ℓ id ℓ') :
    Deliver ns ℓ id ℓ' := by
  obtain ⟨due⟩ := failed
  exact .rolledBack due

/-! ## Steps -/

inductive Kind where
  /-- Nothing is released and nothing delivered. -/
  | aside
  | release
  | deliver (id : Nat)

/-- One step of a lane, by its kind. -/
inductive Step (ns : String) : Kind → Lane → Lane → Prop
  | register {ℓ : Lane} {yielded : RegisteredStep} {gasTgas : Nat} (manual : IsManual ns)
      (can : CanRegister ns ℓ yielded gasTgas) :
      Step ns .aside ℓ (ℓ.register ns yielded gasTgas)
  | release {ℓ ℓ' : Lane} {order : List String} (manual : IsManual ns)
      (released : Release ns order ℓ ℓ') : Step ns .release ℓ ℓ'
  | fire {ℓ ℓ₁ ℓ₂ : Lane} {copies : List (RegisteredStep × Nat)} {run : AutomationRun}
      (auto : IsAutomation ns) (absent : ℓ.row = none)
      (registered : Registers ns copies ℓ ℓ₁)
      (released : Release ns (copies.map fun copy => copy.1.call.stepId) ℓ₁ ℓ₂)
      (running : run.status = .inFlight) : Step ns .release ℓ { ℓ₂ with row := some run }
  | prune {ℓ : Lane} {run : AutomationRun} (stored : ℓ.row = some run)
      (terminal : run.status ≠ .inFlight) : Step ns .aside ℓ { ℓ with row := none }
  | expire {ℓ : Lane} {id : Nat} {thens : List Then}
      (dormant : ℓ.flight id = some ⟨.yielded, thens⟩) :
      Step ns .aside ℓ (ℓ.putFlight id ⟨.done .failed, thens⟩)
  | deliver {ℓ ℓ' : Lane} {id : Nat} (delivered : Deliver ns ℓ id ℓ') :
      Step ns (.deliver id) ℓ ℓ'

end Lane

end SmartAccount
