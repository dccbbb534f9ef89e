import Mathlib.Data.List.Basic
import SmartAccount.Projection
import SmartAccount.Underway

/-!
# The story of a run

What the trace tells of one namespace's steps: which calls were dispatched and what their
`on_step_resolved` saw (`Milestone`).  `RanThrough` is the story of a run in which every
step is dispatched once, in order, each after an Ok of the step before it; a trace whose
milestones are those of all steps in turn tells exactly that (`RanThrough.of_told`).

A delivery tells at most of the step its flight is for (`Lane.Deliver.resolves`), and changes
nothing else once the run is over (`Lane.Deliver.idle`).
-/

namespace SmartAccount

open Foundation Function

/-! ## Milestones -/

/-- What happens to the steps of a run. -/
inductive Milestone where
  | dispatched (call : Step)
  /-- `on_step_resolved` ran, on Ok or not. -/
  | resolved (stepId : String) (ok : Bool)

def TraceEvent.milestone (ns : String) : TraceEvent → Option Milestone
  | dispatched ns' _ _ call _ => if ns' = ns then some (.dispatched call) else none
  | delivered _ (.onStepResolved ns' stepId) result =>
      if ns' = ns then some (.resolved stepId result.checked.toBool) else none
  | _ => none

def Milestone.call : Milestone → Option Step
  | dispatched call => some call
  | resolved _ _ => none

namespace Trace

/-- The milestones of the namespace, oldest first. -/
def milestones (t : Trace) (ns : String) : List Milestone :=
  t.filterMap (TraceEvent.milestone ns)

/-- The calls dispatched under the namespace, oldest first. -/
def dispatches (t : Trace) (ns : String) : List Step :=
  t.filterMap fun
    | .dispatched ns' _ _ call _ => if ns' = ns then some call else none
    | _ => none

/-- An `on_step_resolved` of the step saw Ok. -/
def ResolvedOk (t : Trace) (ns stepId : String) : Prop :=
  ∃ id result bytes, .delivered id (.onStepResolved ns stepId) result ∈ t ∧
    result.checked = .ok bytes

variable {t : Trace} {ns : String}

theorem milestones_append (t t' : Trace) (ns : String) :
    milestones (t ++ t') ns = milestones t ns ++ milestones t' ns :=
  List.filterMap_append ..

/-- Milestones are about their namespace only. -/
theorem milestones_filter (t : Trace) (ns : String) :
    milestones (t.filter (TraceEvent.concerns ns)) ns = milestones t ns := by
  unfold milestones
  rw [List.filterMap_filter]
  refine List.filterMap_congr fun event _ => ?_
  cases event with
  | delivered id callback result =>
      cases callback <;>
        simp [TraceEvent.milestone, TraceEvent.concerns, TraceEvent.sequenceNamespace,
          Callback.sequenceNamespace]
  | dispatched ns' stepId id call args =>
      simp [TraceEvent.milestone, TraceEvent.concerns, TraceEvent.sequenceNamespace]
  | _ => simp [TraceEvent.milestone]

theorem dispatches_eq (t : Trace) (ns : String) :
    t.dispatches ns = (t.milestones ns).filterMap Milestone.call := by
  unfold dispatches milestones
  rw [List.filterMap_filterMap]
  refine List.filterMap_congr fun event _ => ?_
  cases event with
  | delivered id callback result =>
      cases callback <;> simp [TraceEvent.milestone]
      split <;> rfl
  | dispatched ns' stepId id call args =>
      simp only [TraceEvent.milestone]
      split <;> rfl
  | _ => rfl

theorem resolvedOk_iff {stepId : String} :
    t.ResolvedOk ns stepId ↔ .resolved stepId true ∈ t.milestones ns := by
  unfold ResolvedOk milestones
  rw [List.mem_filterMap]
  constructor
  · intro ⟨id, result, bytes, inside, small⟩
    exact ⟨_, inside, by simp [TraceEvent.milestone, small, Except.toBool]⟩
  · intro ⟨event, inside, tells⟩
    unfold TraceEvent.milestone at tells
    split at tells
    · split at tells <;> cases tells
    · rename_i id ns' stepId' result
      split at tells
      · rename_i same
        subst same
        simp only [Option.some.injEq, Milestone.resolved.injEq] at tells
        obtain ⟨rfl, ok⟩ := tells
        cases checked : result.checked with
        | ok bytes => exact ⟨id, result, bytes, inside, checked⟩
        | error failure =>
            rw [checked] at ok
            cases ok
      · cases tells
    · cases tells

/-- Events that neither dispatch nor resolve a step tell nothing. -/
theorem milestones_append_passing (t : Trace) {events : Trace}
    (passing : ∀ event ∈ events, event.isPassing = true) (ns : String) :
    milestones (t ++ events) ns = milestones t ns := by
  rw [milestones_append, List.append_right_eq_self]
  refine List.filterMap_eq_nil_iff.mpr fun event inside => ?_
  have passes := passing event inside
  unfold TraceEvent.milestone
  split
  · cases passes
  · cases passes
  · rfl

/-- The end of a run tells nothing about its steps. -/
theorem milestones_closing {by_ : Option Nat} {closing : Trace}
    (finished : ∀ event ∈ closing, ∃ data, event = .emitted by_ (.runFinished data)) :
    milestones closing ns = [] := by
  refine List.filterMap_eq_nil_iff.mpr fun event inside => ?_
  obtain ⟨data, rfl⟩ := finished event inside
  rfl

theorem milestones_resolved (id : Nat) (ns stepId : String) (result : PromiseResult) :
    milestones [.delivered id (.onStepResolved ns stepId) result] ns =
      [.resolved stepId result.checked.toBool] := by
  simp [milestones, TraceEvent.milestone]

end Trace

/-! ## The story of a whole run -/

/-- Each call was dispatched exactly once, in this order, each after an `on_step_resolved` of
the call before it saw Ok, and so did the `on_step_resolved` of every call. -/
structure RanThrough (ns : String) (calls : List Step) (t : Trace) : Prop where
  dispatched : t.dispatches ns = calls
  after : ∀ k previous call, calls[k]? = some previous → calls[k + 1]? = some call →
    ∀ (past : Trace) stepId id args (later : Trace),
      t = past ++ .dispatched ns stepId id call args :: later → past.ResolvedOk ns previous.stepId
  resolved : ∀ call ∈ calls, t.ResolvedOk ns call.stepId

/-- The milestones of calls that ran through one after the other. -/
def told (calls : List Step) : List Milestone :=
  calls.flatMap fun call => [.dispatched call, .resolved call.stepId true]

theorem told_append (calls calls' : List Step) :
    told (calls ++ calls') = told calls ++ told calls' :=
  List.flatMap_append ..

/-- One more call that ran through. -/
theorem told_take_succ {calls : List Step} {k : Nat} {call : Step}
    (here : calls[k]? = some call) : told (calls.take (k + 1)) =
      told (calls.take k) ++ [.dispatched call, .resolved call.stepId true] := by
  rw [List.take_add_one, here, told_append]
  rfl

theorem resolved_mem_told {calls : List Step} {stepId : String} {ok : Bool} :
    .resolved stepId ok ∈ told calls ↔ ok = true ∧ ∃ call ∈ calls, call.stepId = stepId := by
  simp only [told, List.mem_flatMap, List.mem_cons, reduceCtorEq, Milestone.resolved.injEq,
    List.not_mem_nil, or_false, false_or]
  constructor
  · rintro ⟨call, inside, rfl, rfl⟩
    exact ⟨rfl, call, inside, rfl⟩
  · rintro ⟨rfl, call, inside, rfl⟩
    exact ⟨call, inside, rfl, rfl⟩

theorem dispatched_mem_told {calls : List Step} {call : Step} :
    .dispatched call ∈ told calls ↔ call ∈ calls := by
  simp [told]

theorem dispatched_told (calls : List Step) : (told calls).filterMap Milestone.call = calls := by
  induction calls with
  | nil => rfl
  | cons call calls ih =>
      show call :: (told calls).filterMap Milestone.call = _
      rw [ih]

/-- Calls with distinct step ids are distinct before and after a place in the list. -/
theorem stepId_ne_of_parted {calls : List Step} (distinct : (calls.map Step.stepId).Nodup)
    {k : Nat} {call call' : Step} (before : call ∈ calls.take k) (after : call' ∈ calls.drop k) :
    call.stepId ≠ call'.stepId := by
  rw [← List.take_append_drop k calls, List.map_append, List.nodup_append] at distinct
  exact distinct.2.2 _ (List.mem_map_of_mem before) _ (List.mem_map_of_mem after)

theorem mem_drop {calls : List Step} {k : Nat} {call : Step} (here : calls[k]? = some call) :
    call ∈ calls.drop k := by
  have first : (calls.drop k)[0]? = some call := by
    rw [List.getElem?_drop]
    exact here
  exact List.mem_of_getElem? first

theorem mem_take_succ {calls : List Step} {k : Nat} {call : Step}
    (here : calls[k]? = some call) : call ∈ calls.take (k + 1) := by
  rw [List.take_add_one, here]
  exact List.mem_append_right _ (List.mem_singleton.mpr rfl)

/-- A place in the list parts it. -/
theorem parted {calls : List Step} {k : Nat} {call : Step} (here : calls[k]? = some call) :
    calls = calls.take k ++ call :: calls.drop (k + 1) := by
  obtain ⟨within, rfl⟩ := List.getElem?_eq_some_iff.mp here
  rw [← List.drop_eq_getElem_cons within, List.take_append_drop]

/-- A trace that tells of all calls in turn ran through. -/
theorem RanThrough.of_told {ns : String} {calls : List Step} {t : Trace}
    (distinct : (calls.map Step.stepId).Nodup) (all : t.milestones ns = told calls) :
    RanThrough ns calls t where
  dispatched := by
    rw [Trace.dispatches_eq, all, dispatched_told]
  after k previous call here next past stepId id args later split := by
    have before : call ∉ calls.take (k + 1) := by
      intro inside
      exact stepId_ne_of_parted distinct inside (mem_drop next) rfl
    have afterwards : call ∉ calls.drop (k + 1 + 1) := by
      intro inside
      exact stepId_ne_of_parted distinct (mem_take_succ next) inside rfl
    -- the dispatch of the call stands at one place only
    have milestones : past.milestones ns ++ .dispatched call :: later.milestones ns =
        told (calls.take (k + 1)) ++ .dispatched call ::
          (.resolved call.stepId true :: told (calls.drop (k + 1 + 1))) := by
      have whole := all
      rw [split, Trace.milestones_append, parted next, told_append] at whole
      have here' : Trace.milestones (.dispatched ns stepId id call args :: later) ns =
          .dispatched call :: later.milestones ns := by
        simp [Trace.milestones, TraceEvent.milestone]
      rw [here'] at whole
      exact whole
    have absent : .dispatched call ∉ told (calls.take (k + 1)) := fun inside =>
      before (dispatched_mem_told.mp inside)
    have absent' : .dispatched call ∉
        .resolved call.stepId true :: told (calls.drop (k + 1 + 1)) := by
      intro inside
      rcases List.mem_cons.mp inside with eq | inside
      · cases eq
      · exact afterwards (dispatched_mem_told.mp inside)
    obtain ⟨same, -⟩ := (List.append_cons_inj_of_notMem absent absent').mp milestones.symm
    refine Trace.resolvedOk_iff.mpr ?_
    rw [← same]
    exact resolved_mem_told.mpr ⟨rfl, previous, mem_take_succ here, rfl⟩
  resolved call inside := by
    refine Trace.resolvedOk_iff.mpr ?_
    rw [all]
    exact resolved_mem_told.mpr ⟨rfl, call, inside, rfl⟩

/-! ## What a delivery tells -/

/-- Events that resolve nothing. -/
def Unresolving (events : Trace) (ns : String) : Prop :=
  ∀ stepId ok, .resolved stepId ok ∉ events.milestones ns

theorem Unresolving.of_undelivered {events : Trace} (ns : String)
    (undelivered : ∀ id callback result, .delivered id callback result ∉ events) :
    Unresolving events ns := by
  intro stepId ok inside
  obtain ⟨event, here, tells⟩ := List.mem_filterMap.mp inside
  unfold TraceEvent.milestone at tells
  split at tells
  · split at tells <;> cases tells
  · exact undelivered _ _ _ here
  · cases tells

/-- A callback notes no delivery but its own. -/
theorem Lane.Effect.unresolving {ns : String} {id : Nat} {ℓ ℓ' : Lane} {callback : Callback}
    {result : PromiseResult} {head : Head} {thens : List Then}
    (effect : Lane.Effect ns id ℓ callback result ℓ' head thens) :
    ∃ events, ℓ'.trace = ℓ.trace ++ events ∧ Unresolving events ns := by
  have plain : ∀ events : Trace, ℓ'.trace = ℓ.trace ++ events →
      (∀ id callback result, .delivered id callback result ∉ events) →
      ∃ events, ℓ'.trace = ℓ.trace ++ events ∧ Unresolving events ns :=
    fun events trace undelivered => ⟨events, trace, .of_undelivered ns undelivered⟩
  -- a run that may have been closed, with events noted before and after
  have closed : ∀ {env : Env} {status : AutomationRunStatus} {failedStepId : Option String}
      (ℓ₁ : Lane) (before after : Trace), ℓ₁.trace = ℓ.trace ++ before →
      ℓ'.trace = (Lane.finish env (some id) ns ℓ₁ status failedStepId).trace ++ after →
      (∀ id callback result, .delivered id callback result ∉ before ++ after) →
      ∃ events, ℓ'.trace = ℓ.trace ++ events ∧ Unresolving events ns := by
    intro env status failedStepId ℓ₁ before after trace trace' undelivered
    obtain ⟨closing, eq, finished⟩ := @Lane.finish_trace ℓ₁ env (some id) ns status failedStepId
    refine plain (before ++ closing ++ after) (by rw [trace', eq, trace]; simp) ?_
    intro id' callback result inside
    simp only [List.mem_append] at inside
    rcases inside with (old | new) | last
    · exact undelivered _ _ _ (List.mem_append_left _ old)
    · obtain ⟨data, same⟩ := finished _ new
      cases same
    · exact undelivered _ _ _ (List.mem_append_right _ last)
  cases effect with
  | asleep absent => exact plain [] (List.append_nil _).symm (by simp)
  | unchecked ungated => exact plain [] (List.append_nil _).symm (by simp)
  | halted cause stored unsuccessful about =>
      rename_i stepId yielded env status data
      exact closed ((ℓ.dropStep stepId).setQueue []) [] [_] (List.append_nil _).symm rfl (by simp)
  | gated stored gate built => exact plain [_] rfl (by simp)
  | dispatched stored cleared built => exact plain [_, _] (List.append_assoc ..) (by simp)
  | posted small built => exact plain [_] rfl (by simp)
  | matched equal => exact plain [] (List.append_nil _).symm (by simp)
  | advanced small queued other stored dormant => exact plain [_] rfl (by simp)
  | stuck small queued about =>
      rename_i stepId next bytes waiting env data
      exact closed ((ℓ.dropStep stepId).setQueue []) [] [_] (List.append_nil _).symm rfl (by simp)
  | completed small drained =>
      rename_i stepId bytes env
      exact closed (((ℓ.dropStep stepId).setQueue []).note _) [_] [] rfl (List.append_nil _).symm
        (by simp)
  | failed failure =>
      rename_i stepId error env
      exact closed ((ℓ.dropStep stepId).setQueue []) [] [] (List.append_nil _).symm
        (List.append_nil _).symm (by simp)

/-- The next callback of the flight is the step's `on_step_resolved`. -/
def Flight.Resolves (f : Flight) (ns stepId : String) : Prop :=
  ∃ gas rest, f.thens = ⟨.onStepResolved ns stepId, gas⟩ :: rest

/-- A delivery resolves at most the step whose `on_step_resolved` is due. -/
theorem Lane.Deliver.resolves {ns : String} {id : Nat} {ℓ ℓ' : Lane}
    (delivered : Lane.Deliver ns ℓ id ℓ') {stepId : String} {ok : Bool}
    (resolved : .resolved stepId ok ∈ ℓ'.trace.milestones ns) :
    .resolved stepId ok ∈ ℓ.trace.milestones ns ∨
      ∃ f, ℓ.flight id = some f ∧ f.Resolves ns stepId := by
  cases delivered with
  | ran due effect =>
      rename_i ℓ₁ head head' t rest thens result
      obtain ⟨events, trace, unresolving⟩ := effect.unresolving
      have settled : (ℓ₁.settle id ⟨head', thens ++ rest⟩).trace =
          ℓ.trace ++ [.delivered id t.callback result] ++ events := trace
      rw [settled, Trace.milestones_append, Trace.milestones_append, List.mem_append,
        List.mem_append] at resolved
      rcases resolved with (old | new) | later
      · exact .inl old
      · refine .inr ⟨_, due.waiting, t.gasTgas, rest, ?_⟩
        obtain ⟨event, here, tells⟩ := List.mem_filterMap.mp new
        rw [List.mem_singleton.mp here] at tells
        obtain ⟨callback, gas⟩ := t
        cases callback with
        | onStepResolved ns' stepId' =>
            simp only [TraceEvent.milestone] at tells
            split at tells
            · rename_i same
              cases tells
              rw [same]
            · cases tells
        | _ => cases tells
      · exact absurd later (unresolving _ _)
  | rolledBack due =>
      rename_i head t rest result
      have settled : ((ℓ.note (.rolledBack id t.callback result)).settle id
          ⟨.done .failed, rest⟩).trace = ℓ.trace ++ [.rolledBack id t.callback result] := rfl
      rw [settled, Trace.milestones_append] at resolved
      have nothing : Trace.milestones [.rolledBack id t.callback result] ns = [] := rfl
      rw [nothing, List.append_nil] at resolved
      exact .inl resolved

/-- Where no run is in flight and nothing is queued, a callback leaves run and flights alone. -/
theorem Lane.Effect.idle {ns : String} {id : Nat} {ℓ ℓ' : Lane} {callback : Callback}
    {result : PromiseResult} {head : Head} {thens : List Then}
    (effect : Lane.Effect ns id ℓ callback result ℓ' head thens)
    (ended : ∀ run, ℓ.row = some run → run.status ≠ .inFlight) (empty : ℓ.queue = none) :
    ℓ'.row = ℓ.row ∧ ℓ'.flight = ℓ.flight := by
  have closed : ∀ {env : Env} {status : AutomationRunStatus} {failedStepId : Option String}
      (ℓ₁ : Lane), ℓ₁.row = ℓ.row →
      (Lane.finish env (some id) ns ℓ₁ status failedStepId).row = ℓ.row := by
    intro env status failedStepId ℓ₁ row
    rw [Lane.finish_of_not env (some id) ns status failedStepId (row ▸ ended), row]
  cases effect with
  | halted cause stored unsuccessful about => exact ⟨closed _ rfl, Lane.finish_flight ..⟩
  | advanced small queued other stored dormant => cases empty.symm.trans queued
  | stuck small queued about => cases empty.symm.trans queued
  | completed small drained => exact ⟨closed _ rfl, Lane.finish_flight ..⟩
  | failed failure => exact ⟨closed _ rfl, Lane.finish_flight ..⟩
  | _ => exact ⟨rfl, rfl⟩

theorem Lane.Deliver.idle {ns : String} {id : Nat} {ℓ ℓ' : Lane}
    (delivered : Lane.Deliver ns ℓ id ℓ')
    (ended : ∀ run, ℓ.row = some run → run.status ≠ .inFlight) (empty : ℓ.queue = none) :
    ℓ'.row = ℓ.row ∧ ∀ id', id' ≠ id → ℓ'.flight id' = ℓ.flight id' := by
  cases delivered with
  | ran due effect =>
      obtain ⟨row, flights⟩ := effect.idle ended empty
      refine ⟨row, fun id' other => (update_of_ne other _ _).trans ?_⟩
      rw [flights, Lane.note_flight]
  | rolledBack due => exact ⟨rfl, fun id' other => update_of_ne other _ _⟩

end SmartAccount
