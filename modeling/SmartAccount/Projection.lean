import SmartAccount.Lane
import SmartAccount.WellFormed

/-!
# The machine as its lanes

`Machine.lane` cuts one namespace out of the machine.  A machine step moves the lane of
an isolated namespace by lane steps (`lane_transact`, `lane_timeout`, `lane_deliver`),
so whatever lane steps preserve holds of the lane in every reachable machine
(`lane_run_induct`).
-/

namespace SmartAccount

open Foundation Function

/-! ## The lane of a namespace -/

/-- The events a lane keeps: those that end a sequence or a run. -/
def Event.isVerdict : Event → Bool
  | sequenceCompleted _ _ _ => true
  | sequenceHalted _ => true
  | runFinished _ => true
  | _ => false

def TraceEvent.concerns (ns : String) : TraceEvent → Bool
  | emitted _ event => event.isVerdict && event.sequenceNamespace = some ns
  | event => event.sequenceNamespace = some ns

def Flight.addressedTo (ns : String) (f : Flight) : Bool :=
  match f.thens with
  | [] => false
  | t :: _ => t.callback.sequenceNamespace = ns

/-- One namespace's part of the machine. -/
def Machine.lane (m : Machine) (ns : String) : Lane where
  step stepId := m.getStep ns stepId
  queue := m.contract.sequenceQueue.get ns
  row := m.contract.automationRuns.get ns
  flight id := (m.pool.get id).filter (Flight.addressedTo ns)
  trace := m.trace.filter (TraceEvent.concerns ns)

/-- Every namespace registered so far is this one, or shares no key with it. -/
def Isolated (t : Trace) (ns : String) : Prop :=
  ∀ ns' id call gas, .registered ns' id call gas ∈ t → ns' = ns ∨ Separate ns ns'

theorem Isolated.earlier {t t' : Trace} {ns : String} (isolated : Isolated t' ns)
    (shorter : t <+: t') : Isolated t ns :=
  fun ns' id call gas member => isolated ns' id call gas (shorter.subset member)

/-- The event registers a step in no other namespace. -/
def TraceEvent.registersIn (ns : String) : TraceEvent → Bool
  | .registered ns' _ _ _ => ns' = ns
  | _ => true

theorem Isolated.of_alone {t : Trace} {ns : String}
    (alone : t.all (TraceEvent.registersIn ns) = true) : Isolated t ns := by
  intro ns' id call gas member
  have here := List.all_eq_true.mp alone _ member
  exact .inl (by simpa [TraceEvent.registersIn] using here)

theorem TraceEvent.concerns_of_ne {ns ns' : String} {event : TraceEvent}
    (about : event.sequenceNamespace = some ns') (other : ns' ≠ ns) :
    event.concerns ns = false := by
  cases event with
  | emitted f event =>
      have about' : event.sequenceNamespace = some ns' := about
      simp [TraceEvent.concerns, about', other]
  | _ =>
      simp only [TraceEvent.sequenceNamespace, Option.some.injEq] at about
      simp [TraceEvent.concerns, TraceEvent.sequenceNamespace, about, other]

theorem Flight.addressedTo_congr {f f' : Flight} (same : f.thens = f'.thens) (ns : String) :
    f.addressedTo ns = f'.addressedTo ns := by
  unfold Flight.addressedTo
  rw [same]

theorem Flight.addressedTo_of_all {f : Flight} {ns : String} (nonempty : f.thens ≠ [])
    (addressed : ∀ t ∈ f.thens, t.callback.sequenceNamespace = ns) (ns' : String) :
    f.addressedTo ns' = decide (ns = ns') := by
  unfold Flight.addressedTo
  split
  · rename_i empty
    exact absurd empty nonempty
  · rename_i t rest eq
    rw [addressed t (eq ▸ List.mem_cons_self ..)]

namespace Lane

/-! ## Counting on the lane's part of the trace -/

theorem releaseCount_filter (t : Trace) (ns : String) :
    Trace.releaseCount (t.filter (TraceEvent.concerns ns)) ns = Trace.releaseCount t ns := by
  unfold Trace.releaseCount
  rw [List.countP_filter]
  refine List.countP_congr fun event _ => ?_
  cases event <;> simp [TraceEvent.isReleased, TraceEvent.concerns, TraceEvent.sequenceNamespace]

theorem resumeCount_filter (t : Trace) (ns : String) (release : Nat) :
    Trace.resumeCount (t.filter (TraceEvent.concerns ns)) ns release =
      Trace.resumeCount t ns release := by
  unfold Trace.resumeCount
  rw [List.countP_filter]
  refine List.countP_congr fun event _ => ?_
  cases event <;> simp [TraceEvent.isResumed, TraceEvent.concerns, TraceEvent.sequenceNamespace]
  exact fun h _ => h

end Lane

namespace Machine

/-! ## Projecting single writes -/

theorem lane_note_of_concerns {m : Machine} {ns : String} {event : TraceEvent}
    (concerns : event.concerns ns = true) :
    (m.note event).lane ns = (m.lane ns).note event := by
  simp [lane, note, Lane.note, getStep, concerns]

theorem lane_note_of_not {m : Machine} {ns : String} {event : TraceEvent}
    (concerns : event.concerns ns = false) : (m.note event).lane ns = m.lane ns := by
  simp [lane, note, getStep, concerns]

/-- Events that end nothing leave every lane as it was. -/
theorem lane_emit_of_not {m : Machine} {ns : String} {event : Event}
    (plain : event.isVerdict = false) : (m.emit event).lane ns = m.lane ns :=
  lane_note_of_not (by simp [TraceEvent.concerns, plain])

theorem lane_emit_verdict {m : Machine} {ns : String} {event : Event}
    (verdict : event.isVerdict = true) (about : event.sequenceNamespace = some ns) :
    (m.emit event).lane ns = (m.lane ns).note (.emitted m.executing event) :=
  lane_note_of_concerns (by simp [TraceEvent.concerns, verdict, about])

theorem lane_removeStep (m : Machine) (ns stepId : String) :
    (m.removeStep ns stepId).lane ns = (m.lane ns).dropStep stepId := by
  simp only [lane, Lane.dropStep, removeStep, withContract, getStep, Lane.mk.injEq, true_and]
  refine ⟨funext fun stepId' => ?_, trivial⟩
  rw [IterableMap.get_remove]
  by_cases same : stepId' = stepId
  · rw [if_pos (congrArg _ same), same, update_self]
  · rw [if_neg fun eq => same (registeredStepKey_inj.mp eq), update_of_ne same]

theorem lane_setQueue (m : Machine) (ns : String) {waiting : List String}
    (nonempty : waiting ≠ []) : (m.setQueue ns waiting).lane ns = (m.lane ns).setQueue waiting := by
  simp [lane, Lane.setQueue, setQueue, withContract, getStep, nonempty]

theorem lane_removeQueue (m : Machine) (ns : String) :
    (m.removeQueue ns).lane ns = (m.lane ns).setQueue [] := by
  simp [lane, Lane.setQueue, removeQueue, withContract, getStep]

theorem lane_clearContext (m : Machine) (ns ns' : String) :
    (m.clearContext ns').lane ns = m.lane ns := rfl

theorem lane_saveResult (m : Machine) (ns ns' : String) (spec : SaveResult) (bytes : Bytes) :
    (m.withContract (m.contract.saveStepResult ns' spec bytes)).lane ns = m.lane ns := rfl

theorem getStep_clearNamespace (m : Machine) (ns stepId : String) :
    (m.clearNamespace ns).getStep ns stepId = none := by
  show ((m.contract.registeredSteps.removeAll (m.contract.namespaceKeys ns)).get
    (registeredStepKey ns stepId)) = none
  rw [IterableMap.get_removeAll]
  split
  · rfl
  · rename_i absent
    by_contra present
    refine absent (List.mem_filter.mpr ⟨IterableMap.mem_keys_iff.mpr ?_, ?_⟩)
    · exact present
    · exact startsWith_namespace_iff.mpr ⟨stepId, rfl⟩

theorem lane_clearNamespace (m : Machine) (ns : String) :
    (m.clearNamespace ns).lane ns = { m.lane ns with step := fun _ => none } := by
  simp only [lane, getStep_clearNamespace]
  rfl

theorem lane_recordRunFinished (env : Env) (m : Machine) (ns : String) (run : AutomationRun)
    (status : AutomationRunStatus) (failedStepId : Option String) :
    (m.recordRunFinished env ns run status failedStepId).lane ns =
      { m.lane ns with row := some (finishedRun env run status failedStepId) } := by
  simp [lane, recordRunFinished, withContract, getStep]

/-- Closing the run of the lane's namespace. -/
theorem lane_finishAutomationRun (env : Env) (m : Machine) (ns : String)
    (status : AutomationRunStatus) (failedStepId : Option String) :
    (m.finishAutomationRun env ns status failedStepId).lane ns =
      (m.lane ns).finish env m.executing ns status failedStepId := by
  have row : (m.lane ns).row = m.contract.automationRuns.get ns := rfl
  unfold finishAutomationRun Lane.finish
  rw [row]
  cases m.contract.automationRuns.get ns with
  | none => rfl
  | some run =>
      simp only
      split
      · rfl
      · rw [lane_removeQueue, lane_clearNamespace, lane_emit_verdict rfl rfl,
          lane_recordRunFinished]
        simp [Lane.setQueue, Lane.note, recordRunFinished, withContract]

theorem lane_haltSequence (env : Env) (m : Machine) (ns stepId : String) {id : Nat}
    (status : AutomationRunStatus) {data : HaltData} (executing : m.executing = some id)
    (about : data.sequenceNamespace = ns) :
    (m.haltSequence env ns stepId status data).lane ns =
      (m.lane ns).halt env id ns stepId status data := by
  unfold haltSequence Lane.halt
  have kept : (finishAutomationRun env (((m.removeStep ns stepId).removeQueue ns).clearContext ns)
      ns status (some stepId)).executing = some id := by
    unfold finishAutomationRun
    split
    · exact executing
    · split <;> exact executing
  have verdict : (Event.sequenceHalted data).sequenceNamespace = some ns := congrArg some about
  rw [lane_emit_verdict rfl verdict, kept, lane_finishAutomationRun,
    lane_clearContext, lane_removeQueue, lane_removeStep]
  have same : (((m.removeStep ns stepId).removeQueue ns).clearContext ns).executing =
    some id := executing
  rw [same]

/-! ## Projecting flights -/

/-- A flight that changes its head and keeps its callbacks. -/
theorem lane_updateHead {m : Machine} {id : Nat} {f : Flight} (head : Head) (ns : String)
    (stored : m.pool.get id = some f) :
    ({ m with pool := m.pool.update id ⟨head, f.thens⟩ } : Machine).lane ns =
      if f.addressedTo ns then (m.lane ns).putFlight id ⟨head, f.thens⟩ else m.lane ns := by
  have moved : ∀ id', (m.pool.update id ⟨head, f.thens⟩).get id' =
      if id' = id then some ⟨head, f.thens⟩ else m.pool.get id' := by
    intro id'
    rw [Pool.get_update, stored, Option.map_some]
  have same : Flight.addressedTo ns ⟨head, f.thens⟩ = f.addressedTo ns :=
    Flight.addressedTo_congr rfl ns
  simp only [lane, moved, getStep]
  split
  · rename_i own
    simp only [Lane.putFlight, Lane.mk.injEq, true_and, and_true]
    funext id'
    by_cases eq : id' = id
    · rw [eq, if_pos rfl, update_self, Option.filter_some, same, if_pos own]
    · rw [if_neg eq, update_of_ne eq]
  · rename_i foreign
    simp only [Lane.mk.injEq, true_and, and_true]
    funext id'
    by_cases eq : id' = id
    · rw [eq, if_pos rfl, stored, Option.filter_some, Option.filter_some, same]
      simp [foreign]
    · rw [if_neg eq]

/-- Settling a flight of the namespace. -/
theorem lane_settle {m : Machine} {id : Nat} {f f' : Flight} {ns : String}
    (stored : m.pool.get id = some f)
    (onward : ∀ t ∈ f'.thens, t.callback.sequenceNamespace = ns) :
    (m.settle id f').lane ns = (m.lane ns).settle id f' := by
  simp only [lane, settle, Lane.settle, getStep, Lane.mk.injEq, true_and, and_true]
  funext id'
  by_cases last : f'.thens = []
  · simp only [if_pos last, Pool.get_remove]
    by_cases eq : id' = id
    · rw [if_pos eq, eq, update_self, Option.filter_none]
    · rw [if_neg eq, update_of_ne eq]
  · have own : f'.addressedTo ns = true := by
      rw [Flight.addressedTo_of_all last onward]
      exact decide_eq_true rfl
    simp only [if_neg last, Pool.get_update]
    by_cases eq : id' = id
    · rw [if_pos eq, eq, update_self, stored, Option.map_some, Option.filter_some, if_pos own]
    · rw [if_neg eq, update_of_ne eq]

/-- Settling a flight of another namespace. -/
theorem lane_settle_other {m : Machine} {id : Nat} {f f' : Flight} {ns ns' : String}
    (stored : m.pool.get id = some f) (nonempty : f.thens ≠ [])
    (addressed : ∀ t ∈ f.thens, t.callback.sequenceNamespace = ns')
    (onward : ∀ t ∈ f'.thens, t.callback.sequenceNamespace = ns') (other : ns' ≠ ns) :
    (m.settle id f').lane ns = m.lane ns := by
  have foreign : f.addressedTo ns = false := by
    rw [Flight.addressedTo_of_all nonempty addressed]
    exact decide_eq_false other
  simp only [lane, settle, getStep, Lane.mk.injEq, true_and, and_true]
  funext id'
  by_cases last : f'.thens = []
  · simp only [if_pos last, Pool.get_remove]
    by_cases eq : id' = id
    · rw [if_pos eq, eq, stored, Option.filter_none, Option.filter_some, foreign]
      rfl
    · rw [if_neg eq]
  · have foreign' : f'.addressedTo ns = false := by
      rw [Flight.addressedTo_of_all last onward]
      exact decide_eq_false other
    simp only [if_neg last, Pool.get_update]
    by_cases eq : id' = id
    · rw [if_pos eq, eq, stored, Option.map_some, Option.filter_some, Option.filter_some,
        foreign, foreign', if_neg Bool.false_ne_true, if_neg Bool.false_ne_true]
    · rw [if_neg eq]

end Machine

/-! ## Writes of another namespace -/

/-- A step stored under an isolated namespace was registered there. -/
theorem Wf.registered_of_getStep {m : Machine} (wf : Wf m) {ns stepId : String}
    {yielded : RegisteredStep} (isolated : Isolated m.trace ns)
    (stored : m.getStep ns stepId = some yielded) :
    (∃ gas, .registered ns yielded.yieldId yielded.call gas ∈ m.trace) ∧
      yielded.call.stepId = stepId := by
  obtain ⟨ns', gas, member, same⟩ := wf.stored _ yielded stored
  rcases isolated ns' _ _ _ member with rfl | separate
  · exact ⟨⟨gas, member⟩, (registeredStepKey_inj.mp same).symm⟩
  · exact absurd same (separate _ _)

/-- A flight belongs to the namespace its yield was registered under. -/
theorem Wf.addressed_of_registered {m : Machine} (wf : Wf m) {ns : String} {id : Nat}
    {call : Step} {gas : Nat} {f : Flight} (registered : .registered ns id call gas ∈ m.trace)
    (stored : m.pool.get id = some f) :
    f.thens ≠ [] ∧ ∀ t ∈ f.thens, t.callback.sequenceNamespace = ns := by
  obtain ⟨nonempty, ns', call', gas', member, addressed⟩ := wf.flying id f stored
  obtain ⟨rfl, -, -⟩ := wf.unique _ _ _ _ _ _ _ registered member
  exact ⟨nonempty, addressed⟩

/-- A write of another namespace that shares no key leaves the lane as it was. -/
theorem Machine.lane_write_other {m m' : Machine} {ns ns' : String} (wf : Wf m)
    (separate : Separate ns ns') (write : Write ns' m m') : m'.lane ns = m.lane ns := by
  have other : ns' ≠ ns := fun same => not_separate_self ns (same ▸ separate)
  have keys : ∀ stepId stepId', registeredStepKey ns stepId ≠ registeredStepKey ns' stepId' :=
    separate
  cases write with
  | note event about plain => exact lane_note_of_not (TraceEvent.concerns_of_ne about other)
  | removeStep stepId =>
      simp only [lane, removeStep, withContract, getStep,
        IterableMap.get_remove_of_ne _ (keys _ _)]
  | setQueue waiting =>
      simp only [lane, setQueue, withContract, getStep,
        IterableMap.get_insert_of_ne _ _ (Ne.symm other)]
  | removeQueue =>
      simp only [lane, removeQueue, withContract, getStep,
        IterableMap.get_remove_of_ne _ (Ne.symm other)]
  | clearContext => rfl
  | saveResult spec bytes => rfl
  | resume stored resumed =>
      obtain ⟨thens, flying, rfl⟩ := resumeYield_eq_some.mp resumed
      obtain ⟨owner, gas, member, same⟩ := wf.stored _ _ stored
      obtain ⟨nonempty, addressed⟩ := wf.addressed_of_registered member flying
      have foreign : owner ≠ ns := fun eq => keys _ _ (eq ▸ same).symm
      have away : Flight.addressedTo ns ⟨.yielded, thens⟩ = false := by
        rw [Flight.addressedTo_of_all nonempty addressed]
        exact decide_eq_false foreign
      rw [lane_updateHead _ ns flying, away]
      rfl
  | finishRun stored running closing =>
      simp only [lane, recordRunFinished, withContract, getStep,
        IterableMap.get_insert_of_ne _ _ (Ne.symm other)]
  | clearNamespace =>
      have kept : ∀ stepId, (m.clearNamespace ns').getStep ns stepId = m.getStep ns stepId := by
        intro stepId
        show (m.contract.registeredSteps.removeAll (m.contract.namespaceKeys ns')).get _ = _
        rw [IterableMap.get_removeAll, if_neg]
        · rfl
        · intro member
          obtain ⟨stepId', eq⟩ := startsWith_namespace_iff.mp (List.mem_filter.mp member).2
          exact keys stepId stepId' eq
      simp only [lane, kept]
      rfl

theorem Machine.lane_writes_other {m m' : Machine} {ns ns' : String} (wf : Wf m)
    (separate : Separate ns ns') (writes : Writes ns' m m') : m'.lane ns = m.lane ns := by
  induction writes with
  | refl => rfl
  | tail before last ih =>
      rw [lane_write_other (wf.of_keeps (.of_writes before)) separate last, ih]

end SmartAccount
