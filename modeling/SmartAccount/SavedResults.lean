import SmartAccount.Failures
import SmartAccount.TerminalRuns

/-!
# Saved results

The bytes a release has saved, told from the trace alone: the Ok outcomes its steps
resolved with, under the names the steps asked for.  The contract keeps them by namespace
and not by release; `Lane.Files` says what one delivery does to what is kept.
-/

namespace SmartAccount

open Foundation Function Relation

/-! ## Results of a release -/

namespace Trace

/-- The yield was resumed as a step of the release. -/
def resumedFor (past : Trace) (ns : String) (release id : Nat) : Bool :=
  past.any fun
    | .resumed ns' release' _ _ id' => ns' = ns ∧ release' = release ∧ id' = id
    | _ => false

/-- The step that was copied for the yield. -/
def copyOf (past : Trace) (ns : String) (id : Nat) : Option Step :=
  past.findSome? fun
    | .registered ns' id' call _ => if ns' = ns ∧ id' = id then some call else none
    | _ => none

/-- What an event saves for the release, by what happened before it: the bytes of an Ok
resolution of one of its steps, under the name the step asked for. -/
def saves (past : Trace) (ns : String) (release : Nat) : TraceEvent → Option (String × Bytes)
  | .delivered id (.onStepResolved ns' _) result =>
      if ns' = ns ∧ past.resumedFor ns release id then
        match result.checked with
        | .ok bytes =>
            ((past.copyOf ns id).bind Step.saveResult).map fun spec => (spec.asName, bytes)
        | .error _ => none
      else none
  | _ => none

/-- The results saved along a trace given newest event first. -/
def resultsBackwards (ns : String) (release : Nat) : Trace → String → Option Bytes
  | [] => fun _ => none
  | event :: past =>
      match saves past ns release event with
      | some (name, bytes) => update (resultsBackwards ns release past) name (some bytes)
      | none => resultsBackwards ns release past

/-- The results saved by the steps of a release that resolved Ok, by name. -/
def results (t : Trace) (ns : String) (release : Nat) : String → Option Bytes :=
  resultsBackwards ns release t.reverse

variable {ns : String} {release : Nat} {t events : Trace} {event : TraceEvent}

theorem resumedFor_iff {id : Nat} : t.resumedFor ns release id = true ↔
    ∃ k stepId, .resumed ns release k stepId id ∈ t := by
  simp only [resumedFor, List.any_eq_true]
  constructor
  · rintro ⟨event, inside, same⟩
    cases event with
    | resumed ns' release' k stepId id' =>
        obtain ⟨rfl, rfl, rfl⟩ := of_decide_eq_true same
        exact ⟨k, stepId, inside⟩
    | _ => cases same
  · rintro ⟨k, stepId, inside⟩
    exact ⟨_, inside, by simp⟩

/-- A yield whose records agree has the step on record as its copy. -/
theorem copyOf_eq {id gas : Nat} {call : Step} (record : .registered ns id call gas ∈ t)
    (unique : ∀ call' gas', .registered ns id call' gas' ∈ t → call' = call) :
    t.copyOf ns id = some call := by
  unfold copyOf
  cases found : t.findSome? _ with
  | none =>
      have missing := List.findSome?_eq_none_iff.mp found _ record
      simp at missing
  | some call' =>
      obtain ⟨event, inside, same⟩ := List.exists_of_findSome?_eq_some found
      cases event with
      | registered ns' id' call'' gas' =>
          simp only [Option.ite_none_right_eq_some, Option.some.injEq] at same
          obtain ⟨⟨rfl, rfl⟩, rfl⟩ := same
          rw [unique _ _ inside]
      | _ => cases same

end Trace

/-- `on_step_resolved` ran. -/
def TraceEvent.isResolution : TraceEvent → Bool
  | delivered _ (.onStepResolved _ _) _ => true
  | _ => false

theorem TraceEvent.isResolution_of_passing {event : TraceEvent}
    (passing : event.isPassing = true) : event.isResolution = false := by
  cases event with
  | delivered id callback result => cases callback <;> first | rfl | cases passing
  | _ => rfl

namespace Trace

variable {ns : String} {release : Nat} {t events : Trace} {event : TraceEvent}

theorem saves_of_not_resolution (past : Trace) (other : event.isResolution = false) :
    past.saves ns release event = none := by
  cases event with
  | delivered id callback result => cases callback <;> first | rfl | cases other
  | _ => rfl

theorem results_snoc : (t ++ [event]).results ns release =
    match Trace.saves t.reverse ns release event with
    | some (name, bytes) => update (t.results ns release) name (some bytes)
    | none => t.results ns release := by
  rw [results, List.reverse_append, List.reverse_singleton, List.singleton_append,
    resultsBackwards]
  rfl

/-- Nothing is saved while nothing resolves. -/
theorem results_append (idle : ∀ event ∈ events, event.isResolution = false) :
    (t ++ events).results ns release = t.results ns release := by
  induction events using List.reverseRecOn with
  | nil => rw [List.append_nil]
  | append_singleton events event ih =>
      rw [← List.append_assoc, results_snoc,
        saves_of_not_resolution _ (idle event (by simp))]
      exact ih fun event' inside => idle event' (List.mem_append_left _ inside)

/-- A release none of whose steps were resumed has saved nothing. -/
theorem results_of_not_resumed
    (none_resumed : ∀ k stepId id, .resumed ns release k stepId id ∉ t) :
    t.results ns release = fun _ => none := by
  induction t using List.reverseRecOn with
  | nil => rfl
  | append_singleton t event ih =>
      have before : ∀ k stepId id, .resumed ns release k stepId id ∉ t :=
        fun k stepId id inside => none_resumed k stepId id (List.mem_append_left _ inside)
      have silent : Trace.saves t.reverse ns release event = none := by
        cases event with
        | delivered id callback result =>
            cases callback with
            | onStepResolved ns' stepId =>
                unfold saves
                refine if_neg ?_
                rintro ⟨-, resumed⟩
                obtain ⟨k, stepId', inside⟩ := resumedFor_iff.mp resumed
                exact before k stepId' id (List.mem_reverse.mp inside)
            | _ => rfl
        | _ => rfl
      rw [results_snoc, silent]
      exact ih before

/-- An Ok resolution of a step of the release saves what the step asked for. -/
theorem results_resolved {id gas k : Nat} {stepId stepId' : String} {call : Step} {bytes : Bytes}
    {result : PromiseResult} (resumed : .resumed ns release k stepId' id ∈ t)
    (record : .registered ns id call gas ∈ t)
    (unique : ∀ call' gas', .registered ns id call' gas' ∈ t → call' = call)
    (small : result.checked = .ok bytes) :
    Trace.results (t ++ [.delivered id (.onStepResolved ns stepId) result]) ns release =
      match call.saveResult with
      | some spec => update (t.results ns release) spec.asName (some bytes)
      | none => t.results ns release := by
  have belongs : Trace.resumedFor t.reverse ns release id = true :=
    resumedFor_iff.mpr ⟨k, stepId', List.mem_reverse.mpr resumed⟩
  have copied : Trace.copyOf t.reverse ns id = some call :=
    copyOf_eq (List.mem_reverse.mpr record)
      fun call' gas' inside => unique call' gas' (List.mem_reverse.mp inside)
  rw [results_snoc]
  simp only [saves, belongs, copied, small, and_self, if_true, Option.bind_some]
  cases call.saveResult <;> rfl

/-- The records of a namespace are among the events that concern it. -/
theorem resumedFor_filter (past : Trace) (id : Nat) :
    Trace.resumedFor (past.filter (TraceEvent.concerns ns)) ns release id =
      past.resumedFor ns release id := by
  refine Bool.eq_iff_iff.mpr ?_
  rw [resumedFor_iff, resumedFor_iff]
  refine exists_congr fun k => exists_congr fun stepId => ?_
  rw [List.mem_filter]
  exact and_iff_left (by simp [TraceEvent.concerns, TraceEvent.sequenceNamespace])

theorem copyOf_filter (past : Trace) (id : Nat) :
    Trace.copyOf (past.filter (TraceEvent.concerns ns)) ns id = past.copyOf ns id := by
  unfold copyOf
  induction past with
  | nil => rfl
  | cons event past ih =>
      rw [List.filter_cons, List.findSome?_cons]
      split
      · rw [List.findSome?_cons, ih]
      · rename_i foreign
        rw [ih]
        cases event with
        | registered ns' id' call gas =>
            have other : ns' ≠ ns := by
              rintro rfl
              exact foreign (by simp [TraceEvent.concerns, TraceEvent.sequenceNamespace])
            simp only [if_neg (fun both : ns' = ns ∧ id' = id => other both.1)]
        | _ => rfl

/-- The results of a release are told from the events that concern its namespace. -/
theorem results_filter (t : Trace) (ns : String) (release : Nat) :
    Trace.results (t.filter (TraceEvent.concerns ns)) ns release = t.results ns release := by
  induction t using List.reverseRecOn with
  | nil => rfl
  | append_singleton t event ih =>
      rw [List.filter_append, List.filter_singleton, results_snoc]
      cases concerned : event.concerns ns with
      | true =>
          have same : Trace.saves (t.filter (TraceEvent.concerns ns)).reverse ns release event =
              Trace.saves t.reverse ns release event := by
            rw [← List.filter_reverse]
            unfold saves
            simp only [resumedFor_filter, copyOf_filter]
          rw [cond_true, results_snoc, same, ih]
      | false =>
          have silent : Trace.saves t.reverse ns release event = none := by
            cases event with
            | delivered id callback result =>
                cases callback with
                | onStepResolved ns' stepId =>
                    unfold saves
                    refine if_neg ?_
                    rintro ⟨rfl, -⟩
                    simp [TraceEvent.concerns, TraceEvent.sequenceNamespace,
                      Callback.sequenceNamespace] at concerned
                | _ => rfl
            | _ => rfl
          rw [cond_false, List.append_nil, silent, ih]

end Trace

/-! ## What a callback does to the saved results -/

/-- What a context answers, also where there is none. -/
def SequenceContext.lookup (context : Option SequenceContext) : String → Option Bytes :=
  ((context.map SequenceContext.savedResults).getD .empty).get

/-- The callback finds nothing to do for the lane. -/
def Lane.Idles (ns : String) (ℓ : Lane) (callback : Callback) : Prop :=
  callback.isPostcheck = true ∨
    (∃ stepId, callback = .onStepResumed ns stepId ∧ ℓ.step stepId = none) ∨
    ∃ stepId, callback = .onPreGateChecked ns stepId ∧
      ∀ yielded, ℓ.step stepId = some yielded → yielded.call.preGate = none

namespace Machine

/-- The context stored for a namespace. -/
abbrev context (m : Machine) (ns : String) : Option SequenceContext :=
  m.contract.sequenceContexts.get ns

/-- What `save_step_result` adds to the answers. -/
theorem lookup_saveIfAsked (m : Machine) (ns stepId : String) (saveSpec : Option SaveResult)
    (bytes : Bytes) :
    SequenceContext.lookup ((m.saveIfAsked ns stepId saveSpec bytes).context ns) =
      match saveSpec with
      | some spec => update (SequenceContext.lookup (m.context ns)) spec.asName (some bytes)
      | none => SequenceContext.lookup (m.context ns) := by
  cases saveSpec with
  | none => rfl
  | some spec =>
      funext name
      show SequenceContext.lookup ((m.contract.sequenceContexts.insert ns
        ⟨(m.contract.savedResults ns).insert spec.asName bytes⟩).get ns) name = _
      rw [IterableMap.get_insert_self]
      show ((m.contract.savedResults ns).insert spec.asName bytes).get name = _
      rw [IterableMap.get_insert]
      exact (update_apply ..).symm

/-- Nothing is released or resumed in between. -/
def Unmarked (m m' : Machine) : Prop :=
  ∃ events : Trace, m'.trace = m.trace ++ events ∧ ∀ event ∈ events, event.isMark = false

namespace Unmarked

variable {m m₁ m' : Machine}

theorem of_trace (same : m'.trace = m.trace) : Unmarked m m' :=
  ⟨[], by rw [same, List.append_nil], fun _ inside => absurd inside List.not_mem_nil⟩

theorem emit (unmarked : Unmarked m m₁) (event : Event) : Unmarked m (m₁.emit event) := by
  obtain ⟨events, trace, plain⟩ := unmarked
  refine ⟨events ++ [.emitted m₁.executing event], ?_, ?_⟩
  · show m₁.trace ++ _ = _
    rw [trace, List.append_assoc]
  · exact List.forall_mem_append.mpr ⟨plain, fun _ last => List.mem_singleton.mp last ▸ rfl⟩

theorem finishAutomationRun (unmarked : Unmarked m m₁) (env : Env) (ns : String)
    (status : AutomationRunStatus) (failedStepId : Option String) :
    Unmarked m (m₁.finishAutomationRun env ns status failedStepId) := by
  unfold Machine.finishAutomationRun
  split
  · exact unmarked
  · split
    · exact unmarked
    · rename_i run stored running
      have recorded : Unmarked m (m₁.recordRunFinished env ns run status failedStepId) := unmarked
      exact recorded.emit _

theorem haltSequence (unmarked : Unmarked m m₁) (env : Env) (ns stepId : String)
    (status : AutomationRunStatus) (data : HaltData) :
    Unmarked m (m₁.haltSequence env ns stepId status data) := by
  have cleared : Unmarked m (((m₁.removeStep ns stepId).removeQueue ns).clearContext ns) :=
    unmarked
  exact (cleared.finishAutomationRun env ns status (some stepId)).emit _

end Unmarked

/-- What a callback does to the saved results of its namespace: nothing, for the contract
stays as it was; it clears them, resuming nothing; or it resumes the next step behind a
resolved one, with what that step asked for saved. -/
inductive Files (ns : String) (callback : Callback) (result : PromiseResult) (m m' : Machine) :
    PromiseOrValue → Prop
  | idle {bytes : Bytes} (same : m'.contract = m.contract) (idles : (m.lane ns).Idles ns callback) :
      Files ns callback result m m' (.value bytes)
  | offered {p : Promise} (same : m'.contract = m.contract) (chained : p.thens ≠ []) :
      Files ns callback result m m' (.promise p)
  | cleared {bytes : Bytes} (cause : (∃ stepId, callback = .onStepResolved ns stepId) ∨
        callback.isPostcheck = false ∧ (m.getStep ns callback.stepId).isSome)
      (empty : m'.context ns = none) (unmarked : Unmarked m m') :
      Files ns callback result m m' (.value bytes)
  | saved {stepId : String} {returned bytes : Bytes} (events : Trace)
      (resolved : callback = .onStepResolved ns stepId) (small : result.checked = .ok returned)
      (trace : m'.trace = m.trace ++ events)
      (woken : ∃ release k next id, .resumed ns release k next id ∈ events)
      (stored : SequenceContext.lookup (m'.context ns) =
        match (m.getStep ns stepId).bind fun y => y.call.saveResult with
        | some spec => update (SequenceContext.lookup (m.context ns)) spec.asName (some returned)
        | none => SequenceContext.lookup (m.context ns)) :
      Files ns callback result m m' (.value bytes)

theorem files_materializeAndDispatch {env : Env} {m m₁ : Machine} {ns stepId : String}
    {callback : Callback} {result : PromiseResult} {yielded : RegisteredStep}
    (cleared : Lane.Cleared ns yielded stepId callback result)
    (stored : m.getStep ns stepId = some yielded) (same : m₁.contract = m.contract)
    (unmarked : Unmarked m m₁) :
    Files ns callback result m (m₁.materializeAndDispatch env ns stepId yielded).1
      (m₁.materializeAndDispatch env ns stepId yielded).2 := by
  have about : callback.stepId = stepId := by
    cases cleared <;> rfl
  unfold materializeAndDispatch
  split
  · refine .cleared (.inr ⟨?_, ?_⟩) (haltSequence_context ..) (unmarked.haltSequence ..)
    · cases cleared <;> rfl
    · rw [about, stored]
      rfl
  · rename_i effective materialized
    exact .offered same (List.append_ne_nil_of_right_ne_nil _ (List.cons_ne_nil _ _))

theorem files_onStepResumed (env : Env) (m : Machine) (ns stepId : String)
    (signal : PromiseResult) :
    Files ns (.onStepResumed ns stepId) signal m (m.onStepResumed env ns stepId signal).1
      (m.onStepResumed env ns stepId signal).2 := by
  unfold onStepResumed
  split
  · rename_i absent
    exact .idle rfl (.inr (.inl ⟨stepId, rfl, absent⟩))
  · rename_i yielded stored
    split
    · refine .cleared (.inr ⟨rfl, ?_⟩) (haltSequence_context ..)
        (Unmarked.haltSequence (.of_trace rfl) ..)
      show (m.getStep ns stepId).isSome
      rw [stored]
      rfl
    · simp only
      split
      · rename_i preGate gated
        exact .offered rfl (List.cons_ne_nil _ _)
      · rename_i ungated
        exact files_materializeAndDispatch (.ungated ungated) stored rfl
          (Unmarked.emit (.of_trace rfl) _)

theorem files_onPreGateChecked (env : Env) (m : Machine) (ns stepId : String)
    (result : PromiseResult) :
    Files ns (.onPreGateChecked ns stepId) result m (m.onPreGateChecked env ns stepId result).1
      (m.onPreGateChecked env ns stepId result).2 := by
  unfold onPreGateChecked
  split
  · rename_i absent
    exact .idle rfl (.inr (.inr ⟨stepId, rfl, fun yielded stored =>
      absurd (stored.symm.trans absent) (Option.some_ne_none _)⟩))
  · rename_i yielded stored
    have cause : (m.getStep ns (Callback.onPreGateChecked ns stepId).stepId).isSome := by
      show (m.getStep ns stepId).isSome
      rw [stored]
      rfl
    split
    · rename_i ungated
      exact .idle rfl (.inr (.inr ⟨stepId, rfl, fun yielded' stored' => by
        rw [Option.some.inj (stored'.symm.trans stored), ungated]⟩))
    · rename_i preGate gated
      split
      · exact .cleared (.inr ⟨rfl, cause⟩) (haltSequence_context ..)
          (Unmarked.haltSequence (Unmarked.emit (.of_trace rfl) _) ..)
      · rename_i bytes small
        simp only
        split
        · rename_i matched
          have verdict := PreGateOutcome.matched_iff.mp matched
          exact files_materializeAndDispatch (.inRange gated small verdict) stored rfl
            (Unmarked.emit (.of_trace rfl) _)
        · exact .cleared (.inr ⟨rfl, cause⟩) (haltSequence_context ..)
            (Unmarked.haltSequence (Unmarked.emit (.of_trace rfl) _) ..)

theorem resumeRegisteredStep_notes {m m' : Machine} {ns stepId : String}
    (resumed : m.resumeRegisteredStep ns stepId = .ok m') : m'.contract = m.contract ∧
      ∃ release k yieldId, m'.trace = m.trace ++ [.resumed ns release k stepId yieldId] := by
  obtain ⟨yielded, m₁, -, woken, rfl⟩ := resumeRegisteredStep_ok.mp resumed
  obtain ⟨thens, -, rfl⟩ := resumeYield_eq_some.mp woken
  exact ⟨rfl, _, _, _, rfl⟩

/-- Behind a resolved step, the next one is resumed with the saved results as they are, or
they are cleared. -/
theorem progress_files (env : Env) (m : Machine) (ns stepId : String) (resultLen : Nat)
    (call : Option CallMetadata) (registeredAtMs : Nat) {m' : Machine}
    (progressed : m' = m.progressSequenceAfterSuccessfulResolution env ns stepId resultLen call
      registeredAtMs) :
    m'.context ns = none ∧ Unmarked m m' ∨
      m'.context ns = m.context ns ∧ ∃ events : Trace, m'.trace = m.trace ++ events ∧
        ∃ release k next id, .resumed ns release k next id ∈ events := by
  have taken : (m.contract.takeNextQueuedStep ns).2.sequenceContexts =
      m.contract.sequenceContexts := by
    unfold Contract.takeNextQueuedStep
    split <;> rfl
  subst progressed
  unfold progressSequenceAfterSuccessfulResolution
  simp only
  split
  · rename_i next c eq
    rw [eq] at taken
    split
    · rename_i resumed woken
      obtain ⟨same, release, k, yieldId, trace⟩ := resumeRegisteredStep_notes woken
      refine .inr ⟨?_, _, trace.trans (List.append_assoc ..), release, k, next, yieldId,
        by simp⟩
      show resumed.contract.sequenceContexts.get ns = _
      rw [same]
      exact congrArg (fun contexts => IterableMap.get contexts ns) taken
    · have taking : Unmarked m (m.withContract c) := .of_trace rfl
      have cleared : Unmarked m ((((m.withContract c).emit (.stepResolvedOk stepId ns resultLen
          (some next) registeredAtMs (env.now - registeredAtMs) call)).removeQueue
            ns).clearContext ns) := taking.emit _
      exact .inl ⟨finish_clearContext ..,
        (cleared.finishAutomationRun env ns .resumeFailed (some next)).emit _⟩
  · rename_i c eq
    have taking : Unmarked m (m.withContract c) := .of_trace rfl
    have completed := ((taking.emit (.stepResolvedOk stepId ns resultLen none registeredAtMs
      (env.now - registeredAtMs) call)).emit
        (.sequenceCompleted ns stepId resultLen)).finishAutomationRun env ns .succeeded none
    exact .inl ⟨IterableMap.get_remove_self .., completed⟩

theorem files_onStepResolved (env : Env) (m : Machine) (ns stepId : String)
    (result : PromiseResult) :
    Files ns (.onStepResolved ns stepId) result m (m.onStepResolved env ns stepId result)
      (.value []) := by
  unfold onStepResolved
  simp only
  split
  · rename_i bytes small
    have saving := (m.removeStep ns stepId).lookup_saveIfAsked ns stepId
      ((m.getStep ns stepId).bind fun y => y.call.saveResult) bytes
    have noted : Unmarked m ((m.removeStep ns stepId).saveIfAsked ns stepId
        ((m.getStep ns stepId).bind fun y => y.call.saveResult) bytes) := by
      unfold saveIfAsked
      split
      · rename_i spec asked
        have stored : Unmarked m ((m.removeStep ns stepId).withContract
          ((m.removeStep ns stepId).contract.saveStepResult ns spec bytes)) := .of_trace rfl
        exact stored.emit _
      · exact .of_trace rfl
    obtain ⟨before, trace, plain⟩ := noted
    rcases progress_files env _ ns stepId bytes.length
        ((m.getStep ns stepId).map fun y => y.call.metadata)
        (((m.getStep ns stepId).map RegisteredStep.createdAtMs).getD 0) rfl with
      ⟨empty, events, grown, unmarked⟩ | ⟨kept, events, grown, release, k, next, id, woken⟩
    · refine .cleared (.inl ⟨stepId, rfl⟩) empty ⟨before ++ events, ?_, ?_⟩
      · rw [grown, trace, List.append_assoc]
      · exact List.forall_mem_append.mpr ⟨plain, unmarked⟩
    · refine .saved (before ++ events) rfl small ?_ ⟨release, k, next, id,
        List.mem_append_right _ woken⟩ ?_
      · rw [grown, trace, List.append_assoc]
      · rw [kept, saving]
        rfl
  · refine .cleared (.inl ⟨stepId, rfl⟩) (finish_clearContext ..) ?_
    have dropped : Unmarked m (((m.removeStep ns stepId).removeQueue ns).clearContext ns) :=
      .of_trace rfl
    exact (dropped.finishAutomationRun env ns .downstreamFailed (some stepId)).emit _

theorem files_runCallback {env : Env} {m m' : Machine} {callback : Callback}
    {result : PromiseResult} {out : PromiseOrValue}
    (ran : m.runCallback env callback result = .ok (m', out)) :
    Files callback.sequenceNamespace callback result m m' out := by
  cases callback with
  | onStepResumed ns stepId =>
      have machine : m' = (m.onStepResumed env ns stepId result).1 :=
        congrArg Prod.fst (Except.ok.inj ran).symm
      have output : out = (m.onStepResumed env ns stepId result).2 :=
        congrArg Prod.snd (Except.ok.inj ran).symm
      rw [machine, output]
      exact files_onStepResumed env m ns stepId result
  | onPreGateChecked ns stepId =>
      have machine : m' = (m.onPreGateChecked env ns stepId result).1 :=
        congrArg Prod.fst (Except.ok.inj ran).symm
      have output : out = (m.onPreGateChecked env ns stepId result).2 :=
        congrArg Prod.snd (Except.ok.inj ran).symm
      rw [machine, output]
      exact files_onPreGateChecked env m ns stepId result
  | onAssertedRunPostcheck ns stepId id method args expected gas =>
      obtain ⟨p, posted, eq⟩ := bind_eq_ok.mp ran
      cases eq
      refine .offered rfl ?_
      obtain ⟨-, rfl⟩ := onAssertedRunPostcheck_ok posted
      exact List.cons_ne_nil _ _
  | onAssertedEvaluatePostcheck ns stepId expected =>
      obtain ⟨m₁, checked, eq⟩ := bind_eq_ok.mp ran
      cases eq
      refine .idle ?_ (.inl rfl)
      obtain ⟨-, rfl⟩ := onAssertedEvaluatePostcheck_ok checked
      rfl
  | onStepResolved ns stepId =>
      cases Except.ok.inj ran
      exact files_onStepResolved env m ns stepId result

end Machine

/-! ## What a delivery does to the saved results -/

/-- What a delivery to flight `id` of the lane does to the context of its namespace.  It stays
where a flight ends, if its last callback failed or had nothing to do. -/
inductive Lane.Filed (ns : String) (id : Nat) (fails : Prop) (ℓ ℓ' : Lane)
    (context : Option SequenceContext) : Option SequenceContext → Prop
  | kept (steps : ℓ'.step = ℓ.step)
      (landed : ∀ head t, ℓ.flight id = some ⟨head, [t]⟩ → ℓ'.flight id = none →
        fails ∨ ℓ.Idles ns t.callback) : Filed ns id fails ℓ ℓ' context context
  | cleared {head : Head} {t : Then} {result : PromiseResult} (events : Trace)
      (waiting : ℓ.flight id = some ⟨head, [t]⟩)
      (cause : (∃ stepId, t.callback = .onStepResolved ns stepId) ∨
        (ℓ.step t.callback.stepId).isSome)
      (gone : ℓ'.flight id = none)
      (trace : ℓ'.trace = ℓ.trace ++ .delivered id t.callback result :: events)
      (unmarked : ∀ event ∈ events, event.isMark = false) : Filed ns id fails ℓ ℓ' context none
  | saved {context' : Option SequenceContext} {stepId : String} {result : PromiseResult}
      {bytes : Bytes} (events : Trace) (small : result.checked = .ok bytes)
      (trace : ℓ'.trace = ℓ.trace ++ .delivered id (.onStepResolved ns stepId) result :: events)
      (woken : ∃ release k next id', .resumed ns release k next id' ∈ events)
      (stored : SequenceContext.lookup context' =
        match (ℓ.step stepId).bind fun y => y.call.saveResult with
        | some spec => update (SequenceContext.lookup context) spec.asName (some bytes)
        | none => SequenceContext.lookup context) : Filed ns id fails ℓ ℓ' context context'

namespace Machine

section Filing

variable {env : Env} {m m' : Machine} {ns : String} {id : Nat} {head : Head} {t : Then}
  {rest : List Then} {answer result : PromiseResult} {fails : Prop}

theorem step_of_contract (same : m'.contract = m.contract) (ns : String) :
    (m'.lane ns).step = (m.lane ns).step :=
  funext fun stepId =>
    congrArg (fun c : Contract => c.registeredSteps.get (registeredStepKey ns stepId)) same

theorem context_of_contract (same : m'.contract = m.contract) (ns : String) :
    m'.context ns = m.context ns :=
  congrArg (fun c : Contract => c.sequenceContexts.get ns) same

/-- The last callback of a flight is no postcheck, and only the last one is. -/
theorem plain_of_last (tidy : Tidy ns (m.lane ns))
    (flying : (m.lane ns).flight id = some ⟨head, [t]⟩) : t.callback.isPostcheck = false := by
  obtain ⟨call, gas, -, chain⟩ := tidy.flying id _ flying
  cases chain with
  | last final about => exact final

/-- A callback that failed leaves the context as it was. -/
theorem rolledBack_filed {panic : Panic} (stored : m.pool.get id = some ⟨head, t :: rest⟩)
    (addressed : ∀ t' ∈ t :: rest, t'.callback.sequenceNamespace = ns) (last : rest = [] → fails) :
    Lane.Filed ns id fails (m.lane ns)
      (((m.rollBack id t result panic).settle id ⟨.done .failed, rest⟩).lane ns) (m.context ns)
      (((m.rollBack id t result panic).settle id ⟨.done .failed, rest⟩).context ns) := by
  have flying := lane_flight_of_addressed stored (List.cons_ne_nil _ _) addressed
  have same : ((m.rollBack id t result panic).settle id ⟨.done .failed, rest⟩).contract =
      m.contract := by
    show (m.rollBack id t result panic).contract = m.contract
    rw [m.rollBack_eq]
  rw [context_of_contract same]
  refine .kept (step_of_contract same ns) fun head' t' waiting _ => .inl (last ?_)
  rw [flying, Option.some.injEq, Flight.mk.injEq, List.cons.injEq] at waiting
  exact waiting.2.2

/-- A callback that returned a value idles, clears the context or saves into it. -/
theorem value_filed {bytes : Bytes} (tidy : Tidy ns (m.lane ns))
    (flying : (m.lane ns).flight id = some ⟨head, t :: rest⟩)
    (own : t.callback.sequenceNamespace = ns)
    (ran : ({ m with executing := some id }.note (.delivered id t.callback result)).runCallback env
      t.callback result = .ok (m', .value bytes)) :
    Lane.Filed ns id fails (m.lane ns) ((m'.settle id ⟨.done (.successful bytes), rest⟩).lane ns)
      (m.context ns) ((m'.settle id ⟨.done (.successful bytes), rest⟩).context ns) := by
  have heard : TraceEvent.concerns ns (.delivered id t.callback result) = true := by
    simp [TraceEvent.concerns, TraceEvent.sequenceNamespace, own]
  -- whatever the callback noted stands behind its delivery
  have noted : ∀ {events : Trace}, m'.trace = ({ m with executing := some id }.note
      (.delivered id t.callback result)).trace ++ events →
      m'.trace.filter (TraceEvent.concerns ns) = m.trace.filter (TraceEvent.concerns ns) ++
        .delivered id t.callback result :: events.filter (TraceEvent.concerns ns) := by
    intro events trace
    rw [trace, note, List.append_assoc, List.filter_append, List.singleton_append,
      List.filter_cons_of_pos heard]
  have filed := files_runCallback ran
  rw [own] at filed
  cases filed with
  | idle same idles =>
      have kept : (m'.settle id ⟨.done (.successful bytes), rest⟩).contract = m.contract := same
      rw [context_of_contract kept]
      refine .kept (step_of_contract kept ns) fun head' t' waiting _ => .inr ?_
      rw [flying, Option.some.injEq, Flight.mk.injEq, List.cons.injEq] at waiting
      exact waiting.2.1 ▸ idles
  | cleared cause empty unmarked =>
      have last : rest = [] := by
        obtain ⟨call, gas, -, chain⟩ := tidy.flying id _ flying
        cases chain with
        | last final about => rfl
        | postcheck asserted about =>
            rename_i callback _ _
            have plain : callback.isPostcheck = false := by
              rcases cause with ⟨stepId, rfl⟩ | ⟨plain, -⟩
              · rfl
              · exact plain
            rw [plain] at asserted
            cases asserted
      subst last
      obtain ⟨events, trace, marks⟩ := unmarked
      have gone : (m'.settle id ⟨.done (.successful bytes), []⟩).context ns = none := empty
      rw [gone]
      refine .cleared (events.filter (TraceEvent.concerns ns)) flying (cause.imp_right And.right)
        (lane_flight_of_not _ ns ?_) (noted trace) fun event inside =>
          marks event (List.mem_of_mem_filter inside)
      show (if _ then _ else _ : Pool Flight).get id = none
      rw [if_pos rfl, Pool.get_remove, if_pos rfl]
  | saved events resolved small trace woken stored =>
      obtain ⟨release, k, next, id', woken⟩ := woken
      have saving := noted trace
      rw [resolved] at saving
      refine .saved (events.filter (TraceEvent.concerns ns)) small saving
        ⟨release, k, next, id', List.mem_filter.mpr ⟨woken, ?_⟩⟩ stored
      simp [TraceEvent.concerns, TraceEvent.sequenceNamespace]

/-- A callback that returned a promise leaves the context, and its flight goes on. -/
theorem promise_filed {p : Promise} (stored : m.pool.get id = some ⟨head, t :: rest⟩)
    (addressed : ∀ t' ∈ t :: rest, t'.callback.sequenceNamespace = ns)
    (ran : ({ m with executing := some id }.note (.delivered id t.callback result)).runCallback env
      t.callback result = .ok (m', .promise p)) :
    Lane.Filed ns id fails (m.lane ns)
      (((m'.note (.called t.callback.sequenceNamespace id p.call)).settle id
        ⟨.call p.call, p.thens ++ rest⟩).lane ns) (m.context ns)
      (((m'.note (.called t.callback.sequenceNamespace id p.call)).settle id
        ⟨.call p.call, p.thens ++ rest⟩).context ns) := by
  have own : t.callback.sequenceNamespace = ns := addressed t (List.mem_cons_self ..)
  have filed := files_runCallback ran
  rw [own] at filed
  cases filed with
  | offered same chained =>
      have kept : ((m'.note (.called t.callback.sequenceNamespace id p.call)).settle id
        ⟨.call p.call, p.thens ++ rest⟩).contract = m.contract := same
      rw [context_of_contract kept]
      refine .kept (step_of_contract kept ns) fun head' t' waiting gone => ?_
      obtain ⟨f, stored', -⟩ := (((Keeps.delivered m id t.callback result).trans
        (.of_writes (.runCallback ran))).trans (.called m' _ id p.call)).flying stored
      have onward : ∀ t' ∈ p.thens ++ rest, t'.callback.sequenceNamespace = ns := by
        intro t' inside
        rcases List.mem_append.mp inside with new | old
        · exact (runCallback_addressed ran t' new).trans own
        · exact addressed t' (List.mem_cons_of_mem _ old)
      rw [lane_settle stored' onward] at gone
      have left : update (m'.lane ns).flight id (if p.thens ++ rest = [] then none else
          some ⟨.call p.call, p.thens ++ rest⟩) id = none := gone
      rw [update_self, if_neg (List.append_ne_nil_of_left_ne_nil chained rest)] at left
      cases left

/-- What running the next callback of a flight of the namespace does to its saved results. -/
theorem runThen_filed (tidy : Tidy ns (m.lane ns))
    (stored : m.pool.get id = some ⟨head, t :: rest⟩)
    (addressed : ∀ t' ∈ t :: rest, t'.callback.sequenceNamespace = ns)
    (outcome : head.outcome answer = some result) :
    Lane.Filed ns id (m.Unpaid ns env id answer) (m.lane ns)
      ((m.runThen env id t rest result).lane ns) (m.context ns)
      ((m.runThen env id t rest result).context ns) := by
  have own : t.callback.sequenceNamespace = ns := addressed t (List.mem_cons_self ..)
  have flying := lane_flight_of_addressed stored (List.cons_ne_nil _ _) addressed
  unfold runThen
  split
  · rename_i panic failed
    refine rolledBack_filed stored addressed fun last => ?_
    subst last
    exact unpaid_of_attempt stored (plain_of_last tidy flying) own outcome failed
  · rename_i m' bytes attempted
    exact value_filed tidy flying own (attempt_ok.mp attempted).1
  · rename_i m' p attempted
    exact promise_filed stored addressed (attempt_ok.mp attempted).1

end Filing

/-- A delivery moves the lane of the flight it is for, and files in its context; every other
lane and context stays. -/
theorem deliver_filed {m : Machine} (wf : Wf m) (env : Env) (id : Nat) (answer : PromiseResult)
    {ns : String} (isolated : Isolated m.trace ns) (tidy : Tidy ns (m.lane ns)) :
    (m.deliver env id answer).lane ns = m.lane ns ∧
        (m.deliver env id answer).context ns = m.context ns ∨
      Lane.Deliver ns (m.lane ns) id ((m.deliver env id answer).lane ns) ∧
        Lane.Filed ns id (m.Unpaid ns env id answer) (m.lane ns)
          ((m.deliver env id answer).lane ns) (m.context ns)
          ((m.deliver env id answer).context ns) := by
  rcases m.deliver_cases env id answer with same | ⟨head, t, rest, result, stored, outcome, ran⟩
  · exact .inl ⟨by rw [same], by rw [same]⟩
  · obtain ⟨_, ns', call, gas, member, addressed⟩ := wf.flying id _ stored
    rcases isolated ns' id call gas member with rfl | separate
    · rw [ran]
      exact .inr ⟨lane_runThen wf isolated stored addressed outcome,
        runThen_filed tidy stored addressed outcome⟩
    · refine .inl ⟨ran ▸ lane_runThen_other wf separate stored addressed, ?_⟩
      have other : ns' ≠ ns := fun same => not_separate_self ns (same ▸ separate)
      rcases m.deliver_contract env id answer with
        same | ⟨head', t', rest', result', m₁, out, stored', ran', after⟩
      · exact congrArg (fun c : Contract => c.sequenceContexts.get ns) same
      · rw [stored, Option.some.injEq, Flight.mk.injEq, List.cons.injEq] at stored'
        obtain ⟨-, rfl, -⟩ := stored'
        have writes := Writes.runCallback ran'
        rw [addressed t (List.mem_cons_self ..)] at writes
        exact (congrArg (fun c : Contract => c.sequenceContexts.get ns) after).trans
          (writes_other writes other).2

/-- What the host ends leaves every context as it was. -/
theorem abort_filed {m : Machine} (wf : Wf m) (id : Nat) (answer : PromiseResult) {ns : String}
    (isolated : Isolated m.trace ns) :
    (m.abort id answer).lane ns = m.lane ns ∨
      Lane.RolledBack (m.lane ns) id ((m.abort id answer).lane ns) ∧
        Lane.Filed ns id (m.LastDue ns id answer) (m.lane ns)
          ((m.abort id answer).lane ns) (m.context ns) ((m.abort id answer).context ns) := by
  rcases m.abort_cases id answer with
    same | ⟨head, t, rest, result, panic, stored, outcome, silent, ended⟩
  · exact .inl (by rw [same])
  · have plain : ∀ event ∈ panic.logged, event.isVerdict = false := by simp [silent]
    obtain ⟨_, ns', call, gas, member, addressed⟩ := wf.flying id _ stored
    rw [ended]
    rcases isolated ns' id call gas member with rfl | separate
    · refine .inr ⟨?_, rolledBack_filed stored addressed fun last => ?_⟩
      · rw [lane_rolledBack stored addressed result plain]
        exact .mk ⟨lane_flight_of_addressed stored (List.cons_ne_nil _ _) addressed,
          answer, outcome⟩
      · subst last
        exact ⟨head, t, result, stored, outcome, addressed t (List.mem_cons_self ..)⟩
    · exact .inl (lane_rolledBack_other separate stored addressed result plain)

/-- No call of the contract's methods touches the saved results. -/
theorem transact_context (env : Env) (m : Machine) (method : PublicCall) (ns : String) :
    (m.transact env method).context ns = m.context ns := by
  cases called : m.call env method with
  | error message =>
      have same : m.transact env method = m := step_refused called
      rw [same]
  | ok m' =>
      have same : m.transact env method = m' := step_transact called
      rw [same]
      exact congrArg (fun contexts => IterableMap.get contexts ns) (Effect.of_call called).contexts

end Machine

end SmartAccount
