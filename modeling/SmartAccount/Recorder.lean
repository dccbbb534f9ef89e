import SmartAccount.CallerIsolation
import SmartAccount.Foundation.Release

/-!
# The recorder behind the simple sequencer

The example's leaf contract appends one entry for each `record` call.  The world joins it with
the simple sequencer: the calls that steps dispatch run as receipts of their own, the recorder
decides those it receives, and anybody may call it directly.  `World.line` reads each caller's
steps and queue as a line of the ordered-release protocol.
-/

namespace SmartAccount.SimpleSequencer

open Foundation Function
open Foundation.Release (Stage Line Label Move Moves)

/-! ## The contract -/

structure RecordEntry where
  stepId : String
  value : UInt32
  predecessorId : AccountId
  signerId : AccountId
  blockHeight : Nat
  timestampMs : Nat
deriving DecidableEq

/-- The recorder's contract. -/
structure Recorder where
  entries : List RecordEntry

/-- What a receipt finds on its host. -/
structure Receiving where
  predecessorId : AccountId
  signerId : AccountId
  blockHeight : Nat
  timestampMs : Nat

namespace Recorder

def new : Recorder := ⟨[]⟩

def record (r : Recorder) (at_ : Receiving) (stepId : String) (value : UInt32) :
    Except String (Recorder × UInt32) := do
  require (stepId ≠ "") "step_id cannot be empty"
  let entry : RecordEntry := {
    stepId := stepId
    value := value
    predecessorId := at_.predecessorId
    signerId := at_.signerId
    blockHeight := at_.blockHeight
    timestampMs := at_.timestampMs }
  .ok (⟨r.entries ++ [entry]⟩, value)

def getEntries (r : Recorder) : List RecordEntry := r.entries

end Recorder

/-! ## The world -/

/-- The sequencer and the recorder, the answers of the calls that ran, and, for each entry of the
recorder, the caller and the step that it was recorded for. -/
structure World where
  sequencer : Sequencer
  recorder : Recorder
  answers : Nat → Option PromiseResult
  sources : List (Option (AccountId × String))

/-- The step a callback is about. -/
def Callback.stepId : Callback → String
  | .onStepResumed _ stepId => stepId
  | .onStepResolved _ stepId => stepId

/-- A function call of the recorder, with the answer it gives: `record` as the contract runs it,
and another method as the world likes. -/
def Recorder.receive (decode : Bytes → Option (String × UInt32)) (r : Recorder) (at_ : Receiving)
    (fc : FunctionCall) (outOfGas : Bool) (answer : PromiseResult) : Recorder × PromiseResult :=
  if fc.methodName = "record" then
    if outOfGas || fc.depositYocto ≠ 0 then (r, .failed)
    else
      match fc.args with
      | .raw bytes =>
          match decode bytes with
          | some (stepId, value) =>
              match r.record at_ stepId value with
              | .ok (recorded, returned) =>
                  (recorded, .successful (utf8Bytes (toString returned.toNat)))
              | .error _ => (r, .failed)
          | none => (r, .failed)
      | _ => (r, .failed)
  else (r, answer)

namespace World

def init : World := ⟨Sequencer.new, Recorder.new, fun _ => none, []⟩

inductive Event where
  | transact (env : Env) (method : Sequencer.Method)
  | timeout (id : Nat)
  /-- The receipt of a flight's call runs. -/
  | execute (id : Nat) (signerId : AccountId) (blockHeight timestampMs : Nat) (outOfGas : Bool)
      (answer : PromiseResult)
  /-- The next callback of a flight runs. -/
  | callback (id : Nat)
  /-- Somebody else calls the recorder. -/
  | direct (at_ : Receiving) (fc : FunctionCall) (outOfGas : Bool) (answer : PromiseResult)

/-- The recorder runs a call, for a step of the sequencer or not. -/
def receive (decode : Bytes → Option (String × UInt32)) (w : World) (at_ : Receiving)
    (fc : FunctionCall) (outOfGas : Bool) (answer : PromiseResult)
    (source : Option (AccountId × String)) : World × PromiseResult :=
  let (recorder, result) := w.recorder.receive decode at_ fc outOfGas answer
  ({ w with
      recorder := recorder
      sources := w.sources ++
        List.replicate (recorder.entries.length - w.recorder.entries.length) source }, result)

section Step

variable (sequencerId recorderId : AccountId) (decode : Bytes → Option (String × UInt32))

/-- The call of a flight runs at its receiver. -/
def execute (w : World) (id : Nat) (signerId : AccountId) (blockHeight timestampMs : Nat)
    (outOfGas : Bool) (answer : PromiseResult) : World :=
  match w.sequencer.pool.get id, w.answers id with
  | some ⟨.call fc, t :: _⟩, none =>
      if fc.receiverId = recorderId then
        let (received, result) := w.receive decode ⟨sequencerId, signerId, blockHeight, timestampMs⟩
          fc outOfGas answer (some (t.callback.callerId, t.callback.stepId))
        { received with answers := update w.answers id (some result) }
      else { w with answers := update w.answers id (some answer) }
  | _, _ => w

/-- The next callback of a flight runs with the outcome it waits for, if there is one.  The
sequencer's account has what the callback attaches. -/
def callback (w : World) (id : Nat) : World :=
  match w.sequencer.pool.get id, w.answers id with
  | some ⟨.call _, _⟩, none => w
  | _, answer => { w with
      sequencer := w.sequencer.deliver (w.sequencer.attaches id (answer.getD .failed)) id
        (answer.getD .failed) }

def step (w : World) : Event → World
  | .transact env method => { w with sequencer := w.sequencer.transact env method }
  | .timeout id => { w with sequencer := w.sequencer.timeout id }
  | .execute id signerId blockHeight timestampMs outOfGas answer =>
      w.execute sequencerId recorderId decode id signerId blockHeight timestampMs outOfGas answer
  | .callback id => w.callback id
  | .direct at_ fc outOfGas answer => (w.receive decode at_ fc outOfGas answer none).1

def run (w : World) (events : List Event) : World :=
  events.foldl (step sequencerId recorderId decode) w

end Step

/-- What the recorder stores for the steps of a caller. -/
def recordedFor (w : World) (callerId : AccountId) : List (String × UInt32) :=
  (w.sources.zip w.recorder.entries).filterMap fun entry =>
    if entry.1.map Prod.fst = some callerId then some (entry.2.stepId, entry.2.value) else none

end World

/-! ## The line of a caller -/

/-- How far the step of a flight has come. -/
def Flight.stage (f : Flight) (answer : Option PromiseResult) : Stage PromiseResult :=
  match f.head with
  | .yielded => .waiting
  | .done (.successful _) => .woken
  | .done .failed => .expired
  | .call _ => .called answer

/-- `promise_result_checked` gives the callback a result. -/
def Accepted (result : PromiseResult) : Prop := ∃ bytes, result.checked = .ok bytes

namespace World

/-- A registered step, its flight, and the answer of its call. -/
def view (w : World) (key : AccountId × String) :
    Option (Step × Flight × Option PromiseResult) :=
  (w.sequencer.getStep key.1 key.2).bind fun yielded =>
    (w.sequencer.pool.get yielded.yieldId).map fun f =>
      (yielded.call, f, w.answers yielded.yieldId)

/-- The queue of a caller. -/
def queue (w : World) (callerId : AccountId) : List String :=
  (w.sequencer.contract.sequenceQueue.get (sequenceQueueKey callerId)).getD []

/-- The line of a caller. -/
def line (w : World) (callerId : AccountId) : Line String Step PromiseResult where
  step stepId := (w.view (callerId, stepId)).map fun entry => (entry.1, entry.2.1.stage entry.2.2)
  queue := w.queue callerId

theorem line_step (w : World) (callerId : AccountId) (stepId : String) :
    (w.line callerId).step stepId =
      (w.view (callerId, stepId)).map fun entry => (entry.1, entry.2.1.stage entry.2.2) := rfl

end World

/-- The flight of a registered step: it waits for a signal, has one, or waits for its call. -/
inductive Kept (c : AccountId) (call : Step) : Flight → Prop
  | asleep {head : Head} {gas : Nat} (head_ : head = .yielded ∨ ∃ result, head = .done result)
      (enough : call.gasTgas + stepResolveCallbackGasTgas < gas) :
      Kept c call ⟨head, [⟨.onStepResumed c call.stepId, gas⟩]⟩
  | called {gas : Nat} : Kept c call
      ⟨.call (dispatchPromiseForCall call).call, [⟨.onStepResolved c call.stepId, gas⟩]⟩

/-- A flight tells its caller and its step. -/
theorem Kept.key {c : AccountId} {call : Step} {f : Flight} (kept : Kept c call f) :
    ∃ t, f.thens = [t] ∧ t.callback.callerId = c ∧ t.callback.stepId = call.stepId := by
  cases kept <;> exact ⟨_, rfl, rfl, rfl⟩

/-- Flights and registered steps belong to each other, one to one. -/
structure Tied (w : World) : Prop where
  owned : ∀ id f, w.sequencer.pool.get id = some f →
    ∃ c stepId yielded, w.sequencer.getStep c stepId = some yielded ∧ yielded.yieldId = id
  kept : ∀ c stepId yielded, w.sequencer.getStep c stepId = some yielded →
    yielded.call.stepId = stepId ∧
      ∃ f, w.sequencer.pool.get yielded.yieldId = some f ∧ Kept c yielded.call f
  answered : ∀ id, w.answers id ≠ none → id < w.sequencer.pool.next ∧
    ∀ f, w.sequencer.pool.get id = some f → ∃ fc, f.head = .call fc
  aligned : w.sources.length = w.recorder.entries.length

theorem Tied.init : Tied World.init where
  owned id f stored := by
    rw [show World.init.sequencer.pool.get id = none from rfl] at stored
    cases stored
  kept c stepId yielded stored := by
    rw [show World.init.sequencer.getStep c stepId = none from rfl] at stored
    cases stored
  answered id some_ := absurd rfl some_
  aligned := rfl

namespace Tied

variable {w w' : World} {c c' : AccountId} {stepId stepId' : String}
  {yielded yielded' : RegisteredStep} {f f' : Flight}

/-- A yield belongs to one step. -/
theorem key_eq (tied : Tied w) (registered : w.sequencer.getStep c stepId = some yielded)
    (registered' : w.sequencer.getStep c' stepId' = some yielded')
    (same : yielded'.yieldId = yielded.yieldId) : c' = c ∧ stepId' = stepId := by
  obtain ⟨rfl, f, flying, kept⟩ := tied.kept _ _ _ registered
  obtain ⟨rfl, f', flying', kept'⟩ := tied.kept _ _ _ registered'
  rw [same, flying] at flying'
  cases flying'
  obtain ⟨t, thens, caller, step⟩ := kept.key
  obtain ⟨t', thens', caller', step'⟩ := kept'.key
  obtain rfl : t = t' := (List.cons.inj (thens.symm.trans thens')).1
  exact ⟨caller'.symm.trans caller, step'.symm.trans step⟩

theorem view_eq (registered : w.sequencer.getStep c stepId = some yielded)
    (flying : w.sequencer.pool.get yielded.yieldId = some f) :
    w.view (c, stepId) = some (yielded.call, f, w.answers yielded.yieldId) := by
  rw [World.view, registered, Option.bind_some, flying, Option.map_some]

/-- The flight of one step changes, or the answer it has. -/
theorem setFlight (tied : Tied w) (registered : w.sequencer.getStep c stepId = some yielded)
    (kept : Kept c yielded.call f)
    (steps : ∀ b sid, w'.sequencer.getStep b sid = w.sequencer.getStep b sid)
    (flights : ∀ id, w'.sequencer.pool.get id =
      if id = yielded.yieldId then some f else w.sequencer.pool.get id)
    (next : w'.sequencer.pool.next = w.sequencer.pool.next)
    (answers : ∀ id, id ≠ yielded.yieldId → w'.answers id = w.answers id)
    (fits : w'.answers yielded.yieldId ≠ none → ∃ fc, f.head = .call fc)
    (aligned : w'.sources.length = w'.recorder.entries.length) :
    Tied w' ∧
      w'.view = update w.view (c, stepId) (some (yielded.call, f, w'.answers yielded.yieldId)) := by
  obtain ⟨named, f₀, flying₀, -⟩ := tied.kept _ _ _ registered
  refine ⟨⟨fun id g flying => ?_, fun b sid y stored => ?_, fun id some_ => ?_, aligned⟩, ?_⟩
  · rw [flights] at flying
    by_cases same : id = yielded.yieldId
    · exact ⟨c, stepId, yielded, (steps _ _).trans registered, same.symm⟩
    · rw [if_neg same] at flying
      obtain ⟨b, sid, y, stored, rfl⟩ := tied.owned id g flying
      exact ⟨b, sid, y, (steps _ _).trans stored, rfl⟩
  · rw [steps] at stored
    obtain ⟨named', g, flying, kept'⟩ := tied.kept _ _ _ stored
    refine ⟨named', ?_⟩
    rw [flights]
    by_cases same : y.yieldId = yielded.yieldId
    · obtain ⟨rfl, rfl⟩ := tied.key_eq registered stored same
      obtain rfl := Option.some.inj (registered.symm.trans stored)
      exact ⟨f, if_pos rfl, kept⟩
    · exact ⟨g, (if_neg same).trans flying, kept'⟩
  · rw [next]
    by_cases same : id = yielded.yieldId
    · subst same
      refine ⟨Pool.lt_next_of_get flying₀, fun g flying => ?_⟩
      rw [flights, if_pos rfl] at flying
      cases flying
      exact fits some_
    · rw [answers id same] at some_
      refine ⟨(tied.answered id some_).1, fun g flying => (tied.answered id some_).2 g ?_⟩
      rwa [flights, if_neg same] at flying
  · funext ⟨b, sid⟩
    rw [update_apply]
    split
    · rename_i same
      cases same
      exact view_eq ((steps _ _).trans registered) ((flights _).trans (if_pos rfl))
    · rename_i other
      rw [World.view, World.view, steps]
      cases stored : w.sequencer.getStep b sid with
      | none => rfl
      | some y =>
          have apart : y.yieldId ≠ yielded.yieldId := fun same => other (by
            obtain ⟨rfl, rfl⟩ := tied.key_eq registered stored same
            rfl)
          rw [Option.bind_some, Option.bind_some, flights, if_neg apart, answers _ apart]

/-- A step goes, with its flight. -/
theorem drop (tied : Tied w) (registered : w.sequencer.getStep c stepId = some yielded)
    (steps : ∀ b sid, w'.sequencer.getStep b sid =
      if b = c ∧ sid = stepId then none else w.sequencer.getStep b sid)
    (flights : ∀ id, w'.sequencer.pool.get id =
      if id = yielded.yieldId then none else w.sequencer.pool.get id)
    (next : w'.sequencer.pool.next = w.sequencer.pool.next) (answers : w'.answers = w.answers)
    (aligned : w'.sources.length = w'.recorder.entries.length) :
    Tied w' ∧ w'.view = update w.view (c, stepId) none := by
  have apart : ∀ {b : AccountId} {sid : String} {y : RegisteredStep},
      w.sequencer.getStep b sid = some y → ¬ (b = c ∧ sid = stepId) →
      y.yieldId ≠ yielded.yieldId :=
    fun stored other same => other (tied.key_eq registered stored same)
  refine ⟨⟨fun id g flying => ?_, fun b sid y stored => ?_, fun id some_ => ?_, aligned⟩, ?_⟩
  · rw [flights] at flying
    split at flying
    · cases flying
    · rename_i other
      obtain ⟨b, sid, y, stored, rfl⟩ := tied.owned id g flying
      refine ⟨b, sid, y, ?_, rfl⟩
      rw [steps, if_neg, stored]
      rintro ⟨rfl, rfl⟩
      obtain rfl := Option.some.inj (registered.symm.trans stored)
      exact other rfl
  · rw [steps] at stored
    split at stored
    · cases stored
    · rename_i other
      obtain ⟨named, g, flying, kept⟩ := tied.kept _ _ _ stored
      exact ⟨named, g, (flights _).trans ((if_neg (apart stored other)).trans flying), kept⟩
  · rw [answers] at some_
    rw [next]
    refine ⟨(tied.answered id some_).1, fun g flying => (tied.answered id some_).2 g ?_⟩
    rw [flights] at flying
    split at flying
    · cases flying
    · exact flying
  · funext ⟨b, sid⟩
    rw [update_apply, World.view, World.view, steps]
    by_cases same : b = c ∧ sid = stepId
    · obtain ⟨rfl, rfl⟩ := same
      rw [if_pos ⟨rfl, rfl⟩, if_pos rfl, Option.bind_none]
    · rw [if_neg same, if_neg fun eq => same (Prod.mk.inj eq)]
      cases stored : w.sequencer.getStep b sid with
      | none => rfl
      | some y =>
          rw [Option.bind_some, Option.bind_some, flights, if_neg (apart stored same), answers]

/-- A step is registered under a free id, with a new flight. -/
theorem store (tied : Tied w) {call : Step} {now : Nat}
    (absent : w.sequencer.getStep c call.stepId = none) (kept : Kept c call f)
    (steps : ∀ b sid, w'.sequencer.getStep b sid =
      if b = c ∧ sid = call.stepId then some ⟨w.sequencer.pool.next, call, now⟩
      else w.sequencer.getStep b sid)
    (flights : ∀ id, w'.sequencer.pool.get id =
      if id = w.sequencer.pool.next then some f else w.sequencer.pool.get id)
    (next : w'.sequencer.pool.next = w.sequencer.pool.next + 1) (answers : w'.answers = w.answers)
    (aligned : w'.sources.length = w'.recorder.entries.length) :
    Tied w' ∧ w'.view = update w.view (c, call.stepId) (some (call, f, none)) := by
  have unanswered : w.answers w.sequencer.pool.next = none := by
    by_contra some_
    exact absurd (tied.answered _ some_).1 (Nat.lt_irrefl _)
  have old : ∀ {b : AccountId} {sid : String} {y : RegisteredStep},
      w.sequencer.getStep b sid = some y → y.yieldId ≠ w.sequencer.pool.next := by
    intro b sid y stored
    obtain ⟨-, g, flying, -⟩ := tied.kept _ _ _ stored
    exact Nat.ne_of_lt (Pool.lt_next_of_get flying)
  refine ⟨⟨fun id g flying => ?_, fun b sid y stored => ?_, fun id some_ => ?_, aligned⟩, ?_⟩
  · rw [flights] at flying
    split at flying
    · rename_i same
      exact ⟨c, call.stepId, _, (steps _ _).trans (if_pos ⟨rfl, rfl⟩), same.symm⟩
    · obtain ⟨b, sid, y, stored, rfl⟩ := tied.owned id g flying
      refine ⟨b, sid, y, ?_, rfl⟩
      rw [steps, if_neg, stored]
      rintro ⟨rfl, rfl⟩
      rw [absent] at stored
      cases stored
  · rw [steps] at stored
    split at stored
    · rename_i same
      obtain ⟨rfl, rfl⟩ := same
      cases stored
      exact ⟨rfl, f, (flights _).trans (if_pos rfl), kept⟩
    · obtain ⟨named, g, flying, kept'⟩ := tied.kept _ _ _ stored
      exact ⟨named, g, (flights _).trans ((if_neg (old stored)).trans flying), kept'⟩
  · rw [answers] at some_
    obtain ⟨below, called⟩ := tied.answered id some_
    rw [next]
    refine ⟨Nat.lt_succ_of_lt below, fun g flying => called g ?_⟩
    rwa [flights, if_neg (Nat.ne_of_lt below)] at flying
  · funext ⟨b, sid⟩
    rw [update_apply, World.view, World.view, steps]
    by_cases same : b = c ∧ sid = call.stepId
    · obtain ⟨rfl, rfl⟩ := same
      rw [if_pos ⟨rfl, rfl⟩, if_pos rfl, Option.bind_some, flights, if_pos rfl, answers,
        unanswered, Option.map_some]
    · rw [if_neg same, if_neg fun eq => same (Prod.mk.inj eq)]
      cases stored : w.sequencer.getStep b sid with
      | none => rfl
      | some y =>
          rw [Option.bind_some, Option.bind_some, flights, if_neg (old stored), answers]

end Tied

end SmartAccount.SimpleSequencer
