import SmartAccount.Releases

/-!
# A release from its acceptance on

`Underway` says where a release stands that was accepted in a quiet lane: one copy is
released, its flight is early or late, and everything else in the lane is dormant.  A
lane step that releases nothing keeps it, and keeps every event of the trace `Lawful`
(`Underway.step`).
-/

namespace SmartAccount

open Foundation Function

/-! ## What a release promises about its events -/

/-- The release resumes the steps of its order one by one, each after the step before it
was vouched for. -/
structure InOrder (ns : String) (release : Nat) (order : List String) (event : TraceEvent)
    (past : Trace) : Prop where
  position : ∀ k stepId id, event = .resumed ns release k stepId id → order[k]? = some stepId
  after : ∀ k stepId id, event = .resumed ns release (k + 1) stepId id →
    ∃ previousId call gas, order[k]? = some call.stepId ∧
      .resumed ns release k call.stepId previousId ∈ past ∧
      .registered ns previousId call gas ∈ past ∧ Vouched ns previousId call past

/-- A released copy is dispatched only after its own gate let it pass, and completes its
sequence only after it was vouched for. -/
structure Trusted (ns : String) (release : Nat) (event : TraceEvent) (past : Trace) : Prop where
  gate : ∀ stepId id call args, event = .dispatched ns stepId id call args →
    (∃ k at', .resumed ns release k at' id ∈ past) →
      Checked ns id call past ∧ ∃ gas, .registered ns id call gas ∈ past
  completed : ∀ stepId id n, event = .emitted (some id) (.sequenceCompleted ns stepId n) →
    (∃ k at', .resumed ns release k at' id ∈ past) →
      ∃ call gas, .registered ns id call gas ∈ past ∧ Vouched ns id call past

structure Lawful (ns : String) (release : Nat) (order : List String) (event : TraceEvent)
    (past : Trace) : Prop where
  inOrder : InOrder ns release order event past
  trusted : Trusted ns release event past

/-- Events the rules say nothing about. -/
def TraceEvent.isFree : TraceEvent → Bool
  | released _ _ => false
  | resumed _ _ _ _ _ => false
  | dispatched _ _ _ _ _ => false
  | emitted _ (.sequenceCompleted _ _ _) => false
  | _ => true

namespace TraceEvent

theorem isFree_of_passing {event : TraceEvent} (passing : event.isPassing = true) :
    event.isFree = true := by
  cases event <;> first | rfl | cases passing

theorem isPlain_of_passing {event : TraceEvent} (passing : event.isPassing = true) :
    event.isPlain = true := by
  cases event <;> first | rfl | cases passing

theorem isMark_of_free {event : TraceEvent} (free : event.isFree = true) :
    event.isMark = false := by
  cases event <;> first | rfl | cases free

end TraceEvent

section Rules

variable {ns : String} {release : Nat} {order : List String} {event : TraceEvent} {past : Trace}

theorem InOrder.of_not_resumed (other : ∀ k stepId id, event ≠ .resumed ns release k stepId id) :
    InOrder ns release order event past :=
  ⟨fun k stepId id same => absurd same (other k stepId id),
    fun k stepId id same => absurd same (other (k + 1) stepId id)⟩

theorem Lawful.of_free (free : event.isFree = true) : Lawful ns release order event past := by
  refine ⟨.of_not_resumed ?_, ?_, ?_⟩
  · rintro k stepId id rfl
    cases free
  · rintro stepId id call args rfl
    cases free
  · rintro stepId id n rfl
    cases free

theorem Lawful.released (order' : List String) :
    Lawful ns release order (.released ns order') past := by
  refine ⟨.of_not_resumed ?_, ?_, ?_⟩
  · intro k stepId id same
    cases same
  · intro stepId id call args same
    cases same
  · intro stepId id n same
    cases same

/-- Of a resume only the order matters. -/
theorem Lawful.of_resumed {stepId : String} {release' k id : Nat}
    (inOrder : InOrder ns release order (.resumed ns release' k stepId id) past) :
    Lawful ns release order (.resumed ns release' k stepId id) past := by
  refine ⟨inOrder, ?_, ?_⟩
  · intro stepId' id' call args same
    cases same
  · intro stepId' id' n same
    cases same

/-- Of a dispatch only the gate matters. -/
theorem Lawful.of_dispatched {call : Step} {id : Nat} {args : Bytes}
    (gate : Checked ns id call past ∧ ∃ gas, .registered ns id call gas ∈ past) :
    Lawful ns release order (.dispatched ns call.stepId id call args) past := by
  refine ⟨.of_not_resumed ?_, ?_, ?_⟩
  · intro k stepId id same
    cases same
  · intro stepId id call args same _
    cases same
    exact gate
  · intro stepId id n same
    cases same

/-- Of a completion only the last verdict matters. -/
theorem Lawful.of_completed {stepId : String} {id n : Nat}
    (completed : ∃ call gas, .registered ns id call gas ∈ past ∧ Vouched ns id call past) :
    Lawful ns release order (.emitted (some id) (.sequenceCompleted ns stepId n)) past := by
  refine ⟨.of_not_resumed ?_, ?_, ?_⟩
  · intro k stepId id same
    cases same
  · intro stepId id call args same
    cases same
  · intro stepId id n same _
    cases same
    exact completed

end Rules

/-! ## Failures -/

/-- What a failure at a step leaves: no queue, and a run closed as failed if one was in
flight. -/
structure Lane.Falls (stepId : String) (ℓ ℓ₁ : Lane) : Prop where
  settles : Settles stepId ℓ ℓ₁
  queue : ℓ₁.queue = none
  row : (∀ run, ℓ.row = some run → run.status ≠ .inFlight) ∧ ℓ₁.row = ℓ.row ∨
    ∃ run, ℓ₁.row = some run ∧ (run.status = .resumeFailed ∨ run.status = .downstreamFailed)
  notes : ∃ events : Trace, ℓ₁.trace = ℓ.trace ++ events ∧ ∀ event ∈ events, event.isFree = true

namespace Lane.Falls

variable {ns stepId : String} {ℓ ℓ₁ : Lane}

/-- Closing the run as failed, in a lane without a queue. -/
theorem of_finish {events : Trace} (env : Env) (by_ : Option Nat) {status : AutomationRunStatus}
    (failedStepId : Option String) (settles : Settles stepId ℓ ℓ₁) (queue : ℓ₁.queue = none)
    (row : ℓ₁.row = ℓ.row) (trace : ℓ₁.trace = ℓ.trace ++ events)
    (free : ∀ event ∈ events, event.isFree = true)
    (unsuccessful : status = .resumeFailed ∨ status = .downstreamFailed) :
    Falls stepId ℓ (Lane.finish env by_ ns ℓ₁ status failedStepId) where
  settles := settles.finish env by_ status failedStepId
  queue := Lane.finish_queue env by_ ns status failedStepId queue
  row := by
    rcases Lane.finish_cases ℓ₁ with idle | ⟨run, stored, running⟩
    · rw [Lane.finish_of_not env by_ ns status failedStepId idle]
      exact .inl ⟨row ▸ idle, row⟩
    · rw [Lane.finish_of_running env by_ ns status failedStepId stored running]
      exact .inr ⟨_, rfl, unsuccessful⟩
  notes := by
    obtain ⟨closing, eq, finished⟩ := @Lane.finish_trace ℓ₁ env by_ ns status failedStepId
    refine ⟨events ++ closing, by rw [eq, trace, List.append_assoc], fun event inside => ?_⟩
    rcases List.mem_append.mp inside with old | new
    · exact free event old
    · obtain ⟨data, rfl⟩ := finished event new
      rfl

theorem note (falls : Falls stepId ℓ ℓ₁) {event : TraceEvent} (free : event.isFree = true)
    (plain : event.isPlain = true) : Falls stepId ℓ (ℓ₁.note event) where
  settles := falls.settles.note plain
  queue := falls.queue
  row := falls.row
  notes := by
    obtain ⟨events, trace, before⟩ := falls.notes
    refine ⟨events ++ [event], by rw [Lane.note_trace, trace, List.append_assoc], ?_⟩
    exact List.forall_mem_append.mpr ⟨before, by simpa using free⟩

/-- A halt is a failure. -/
theorem of_halts {id : Nat} {ℓ' : Lane} (halts : Lane.Halts ns id stepId ℓ ℓ') :
    ∃ ℓ₁, ℓ' = ℓ₁.land id ∧ Falls stepId ℓ ℓ₁ := by
  cases halts with
  | mk passing stored unsuccessful about =>
      rename_i event yielded env status data
      have noted : Settles stepId ℓ (((ℓ.note event).dropStep stepId).setQueue []) :=
        (Settles.refl.note (TraceEvent.isPlain_of_passing passing)).dropStep.dropQueue
      have falls : Falls stepId ℓ (Lane.finish env (some id) ns
          (((ℓ.note event).dropStep stepId).setQueue []) status (some stepId)) :=
        .of_finish env (some id) (some stepId) noted rfl rfl (rfl : _ = ℓ.trace ++ [event])
          (by simpa using TraceEvent.isFree_of_passing passing) unsuccessful
      exact ⟨_, rfl, falls.note rfl rfl⟩

/-- The next step could not be resumed. -/
theorem of_stuck {id : Nat} {result : PromiseResult} {next : String} (env : Env)
    (data : HaltData) : Falls stepId ℓ
      (((ℓ.resolved ns id stepId result []).finish env (some id) ns .resumeFailed (some next)).note
          (.emitted (some id) (.sequenceHalted data))) := by
  have falls : Falls stepId ℓ (Lane.finish env (some id) ns
      (ℓ.resolved ns id stepId result [])
      .resumeFailed (some next)) :=
    .of_finish env (some id) (some next) (Settles.refl.note rfl).dropStep.dropQueue rfl rfl
      (rfl : _ = ℓ.trace ++ [_]) (by simp [TraceEvent.isFree]) (.inl rfl)
  exact falls.note rfl rfl

/-- The step resolved Err. -/
theorem of_failed {id : Nat} {result : PromiseResult} (env : Env) : Falls stepId ℓ
    ((ℓ.resolved ns id stepId result []).finish env (some id) ns .downstreamFailed (some stepId)) :=
  .of_finish env (some id) (some stepId) (Settles.refl.note rfl).dropStep.dropQueue rfl rfl
    (rfl : _ = ℓ.trace ++ [_]) (by simp [TraceEvent.isFree]) (.inr rfl)

end Lane.Falls

theorem Lane.complete_settles (ℓ : Lane) (ns : String) (env : Env) (id : Nat) (stepId : String)
    (result : PromiseResult) (resultLen : Nat) :
    Settles stepId ℓ (ℓ.complete ns env id stepId result resultLen) :=
  (((Settles.refl.note rfl).dropStep.dropQueue).note rfl).finish env (some id) .succeeded none

/-- A completion closes the run in flight as succeeded. -/
theorem Lane.complete_row {ℓ : Lane} {run : AutomationRun} (stored : ℓ.row = some run)
    (inFlight : run.status = .inFlight) (ns : String) (env : Env) (id : Nat) (stepId : String)
    (result : PromiseResult) (resultLen : Nat) :
    (ℓ.complete ns env id stepId result resultLen).row =
      some (Machine.finishedRun env run .succeeded none) := by
  have stored' : ((ℓ.resolved ns id stepId result []).note
      (.emitted (some id) (.sequenceCompleted ns stepId resultLen))).row = some run := stored
  exact congrArg Lane.row
    (Lane.finish_of_running env (some id) ns .succeeded none stored' inFlight)

/-- After a completion at most the end of the run is noted. -/
theorem Lane.complete_trace (ℓ : Lane) (ns : String) (env : Env) (id : Nat) (stepId : String)
    (result : PromiseResult) (resultLen : Nat) : ∃ closing : Trace,
      (ℓ.complete ns env id stepId result resultLen).trace =
        (ℓ.trace ++ [.delivered id (.onStepResolved ns stepId) result] ++
          [.emitted (some id) (.sequenceCompleted ns stepId resultLen)]) ++ closing ∧
      ∀ event ∈ closing, ∃ data, event = .emitted (some id) (.runFinished data) :=
  Lane.finish_trace env (some id) ns .succeeded none

/-! ## Where a release stands -/

/-- The release is the latest of its lane, its `k`-th step is the last one resumed, as copy
`id` of `call`, and all other flights are dormant. -/
structure Underway (ns : String) (release : Nat) (order : List String) (k id : Nat)
    (call : Step) (ℓ : Lane) : Prop where
  latest : ℓ.trace.releaseCount ns = release + 1
  count : ℓ.trace.resumeCount ns release = k + 1
  here : order[k]? = some call.stepId
  resumed : .resumed ns release k call.stepId id ∈ ℓ.trace
  record : ∃ gas, .registered ns id call gas ∈ ℓ.trace
  queue : ∀ waiting, ℓ.queue = some waiting → waiting = order.drop (k + 1)
  others : ∀ id' f, id' ≠ id → ℓ.flight id' = some f → ∃ stepId gas, Dormant ns stepId gas f
  own : ∀ f, ℓ.flight id = some f → StoresOwn ℓ id call ∧
    ((∃ gas, Early ns id call gas ℓ.trace f) ∨ Late ns id call ℓ.trace f)

namespace Underway

variable {ns : String} {release : Nat} {order : List String} {k id : Nat} {call : Step}
  {ℓ ℓ' : Lane}

/-- What cannot disturb a release. -/
theorem keep (underway : Underway ns release order k id call ℓ)
    (trace : ∃ events : Trace, ℓ'.trace = ℓ.trace ++ events ∧
      ∀ event ∈ events, event.isMark = false)
    (queue : ∀ waiting, ℓ'.queue = some waiting → ℓ.queue = some waiting)
    (others : ∀ id' f, id' ≠ id → ℓ'.flight id' = some f → ∃ stepId gas, Dormant ns stepId gas f)
    (own : ∀ f, ℓ'.flight id = some f → StoresOwn ℓ' id call ∧
      ((∃ gas, Early ns id call gas ℓ'.trace f) ∨ Late ns id call ℓ'.trace f)) :
    Underway ns release order k id call ℓ' := by
  obtain ⟨events, eq, unmarked⟩ := trace
  obtain ⟨gas, record⟩ := underway.record
  exact {
    latest := by
      rw [eq, Trace.releaseCount_append, Trace.releaseCount_unmarked unmarked, underway.latest]
    count := by
      rw [eq, Trace.resumeCount_append, Trace.resumeCount_unmarked unmarked, underway.count]
    here := underway.here
    resumed := eq ▸ List.mem_append_left _ underway.resumed
    record := ⟨gas, eq ▸ List.mem_append_left _ record⟩
    queue := fun waiting queued => underway.queue waiting (queue waiting queued)
    others := others
    own := own }

/-- The flight of the released copy goes on as it was. -/
theorem own_later (underway : Underway ns release order k id call ℓ)
    (flight : ℓ'.flight id = ℓ.flight id) (longer : ℓ.trace <+: ℓ'.trace)
    (steps : ∀ f, ℓ.flight id = some f → ∀ yielded, ℓ'.step call.stepId = some yielded →
      ℓ.step call.stepId = some yielded) :
    ∀ f, ℓ'.flight id = some f → StoresOwn ℓ' id call ∧
      ((∃ gas, Early ns id call gas ℓ'.trace f) ∨ Late ns id call ℓ'.trace f) := by
  intro f flying
  rw [flight] at flying
  obtain ⟨own, phase⟩ := underway.own f flying
  refine ⟨fun yielded stored => own yielded (steps f flying yielded stored), ?_⟩
  rcases phase with ⟨gas, early⟩ | late
  · exact .inl ⟨gas, early.later longer.sublist⟩
  · exact .inr (late.later longer.sublist)

/-- A flight that ends, in a lane that settled. -/
theorem land (underway : Underway ns release order k id call ℓ) {stepId : String} {ℓ₁ : Lane}
    {id' : Nat} (settles : Settles stepId ℓ ℓ₁) (queue : ℓ₁.queue = none ∨ ℓ₁.queue = ℓ.queue) :
    Underway ns release order k id call (ℓ₁.land id') := by
  obtain ⟨events, eq, plain⟩ := settles.notes
  have gone : ∀ id'' f, (ℓ₁.land id').flight id'' = some f →
      id'' ≠ id' ∧ ℓ.flight id'' = some f := by
    intro id'' f flying
    rw [Lane.land_flight, update_apply] at flying
    split at flying
    · cases flying
    · exact ⟨‹_›, settles.flight ▸ flying⟩
  refine underway.keep ⟨events, eq, fun event inside =>
    TraceEvent.isMark_of_plain (plain event inside)⟩ ?_ ?_ ?_
  · intro waiting queued
    rcases queue with empty | same
    · have none_some := empty.symm.trans queued
      cases none_some
    · exact same ▸ queued
  · exact fun id'' f other flying => underway.others id'' f other (gone id'' f flying).2
  · intro f flying
    obtain ⟨other, old⟩ := gone id f flying
    have same : (ℓ₁.land id').flight id = ℓ.flight id := by
      rw [flying, old]
    refine underway.own_later same ⟨events, eq.symm⟩ ?_ f flying
    exact fun _ _ yielded stored => settles.steps _ yielded stored

/-- The flight of the released copy moves on within its phases. -/
theorem onward (underway : Underway ns release order k id call ℓ) {events : Trace} {f : Flight}
    (unmarked : ∀ event ∈ events, event.isMark = false) (own : StoresOwn ℓ id call)
    (phase : (∃ gas, Early ns id call gas (ℓ.trace ++ events) f) ∨
      Late ns id call (ℓ.trace ++ events) f) :
    Underway ns release order k id call (ℓ.onward events id f) := by
  refine underway.keep ⟨events, rfl, unmarked⟩ (fun _ queued => queued) ?_ ?_
  · intro id' f' other flying
    rw [Lane.onward_flight, update_of_ne other] at flying
    exact underway.others id' f' other flying
  · intro f' flying
    rw [Lane.onward_flight, update_self, Option.some.injEq] at flying
    exact ⟨own, flying ▸ phase⟩

theorem advance_trace (underway : Underway ns release order k id call ℓ)
    (waiting : List String) (result : PromiseResult) (next : String) (yieldId : Nat)
    (thens : List Then) :
    (((ℓ.resolved ns id call.stepId result waiting).resume ns next yieldId thens).land id).trace =
        (ℓ.trace ++ [.delivered id (.onStepResolved ns call.stepId) result]) ++
          [.resumed ns release (k + 1) next yieldId] := by
  have latest : Trace.releaseCount (ℓ.trace ++
      [.delivered id (.onStepResolved ns call.stepId) result]) ns = release + 1 := by
    rw [Trace.releaseCount_append, underway.latest]
    rfl
  have count : Trace.resumeCount (ℓ.trace ++
      [.delivered id (.onStepResolved ns call.stepId) result]) ns release = k + 1 := by
    rw [Trace.resumeCount_append, underway.count]
    rfl
  simp [latest, count]

/-- The next step of the order is resumed. -/
theorem advance (underway : Underway ns release order k id call ℓ) (tidy : Tidy ns ℓ)
    {result : PromiseResult} {next : String} {waiting : List String} {yielded : RegisteredStep}
    {thens : List Then} (queued : ℓ.queue = some (next :: waiting)) (other : next ≠ call.stepId)
    (stored : ℓ.step next = some yielded)
    (dormant : ℓ.flight yielded.yieldId = some ⟨.yielded, thens⟩)
    (flying : ∃ f, ℓ.flight id = some f ∧ f.head ≠ .yielded) :
    Underway ns release order (k + 1) yielded.yieldId yielded.call
      (((ℓ.resolved ns id call.stepId result waiting).resume ns next yielded.yieldId
        thens).land id) := by
  obtain ⟨rfl, gas, record⟩ := tidy.stored next yielded stored
  have ahead := underway.queue _ queued
  have apart : yielded.yieldId ≠ id := by
    rintro same
    obtain ⟨f, flying, awake⟩ := flying
    rw [same, flying, Option.some.injEq] at dormant
    exact awake (by rw [dormant])
  obtain ⟨stepId', gas', asleep⟩ := underway.others yielded.yieldId _ apart dormant
  -- the chain of the next copy's flight is the one it was registered with
  have shape : thens = [⟨.onStepResumed ns yielded.call.stepId, gas'⟩] := by
    obtain ⟨call', gas'', record', chain⟩ := tidy.flying _ _ dormant
    obtain ⟨rfl, -⟩ := tidy.unique _ _ _ _ _ record record'
    cases asleep
    have same := chain.about _ (List.mem_cons_self ..)
    simp only [Callback.stepId] at same
    rw [same]
  have next_here : order[k + 1]? = some yielded.call.stepId := by
    have head := congrArg (fun l => l[0]?) ahead
    simp only [List.getElem?_cons_zero, List.getElem?_drop, Nat.add_zero] at head
    exact head.symm
  have tail : waiting = order.drop (k + 1 + 1) := by
    have rest := congrArg List.tail ahead
    rwa [List.tail_cons, List.tail_drop] at rest
  have trace := underway.advance_trace waiting result yielded.call.stepId
    yielded.yieldId thens
  refine {
    latest := ?_, count := ?_, here := next_here, resumed := ?_, record := ⟨gas, ?_⟩
    queue := ?_, others := ?_, own := ?_ }
  · rw [trace, Trace.releaseCount_append, Trace.releaseCount_append, underway.latest]
    rfl
  · rw [trace, Trace.resumeCount_append, Trace.resumeCount_append, underway.count,
      Trace.resumeCount_resumed]
    rfl
  · exact trace ▸ List.mem_append_right _ (List.mem_singleton.mpr rfl)
  · exact trace ▸ List.mem_append_left _ (List.mem_append_left _ record)
  · intro waiting' queued'
    simp only [Lane.land_queue, Lane.resume_queue, Lane.setQueue_queue] at queued'
    split at queued'
    · cases queued'
    · cases queued'
      exact tail
  · intro id' f apart' flying'
    simp only [Lane.land_flight, Lane.resume_flight, Lane.setQueue_flight, Lane.dropStep_flight,
      Lane.note_flight, update_apply, if_neg apart'] at flying'
    split at flying'
    · cases flying'
    · exact underway.others id' f ‹_› flying'
  · intro f flying'
    simp only [Lane.land_flight, Lane.resume_flight, update_apply, if_neg apart,
      if_true, Option.some.injEq] at flying'
    refine ⟨fun copy kept => ?_, .inl ⟨gas', ?_⟩⟩
    · have kept' : update ℓ.step call.stepId none yielded.call.stepId = some copy := kept
      rw [update_of_ne other, stored, Option.some.injEq] at kept'
      subst kept'
      exact ⟨rfl, rfl⟩
    · rw [← flying', shape]
      exact .resumed

/-- A flight of a copy in its phases is awake. -/
theorem awake (underway : Underway ns release order k id call ℓ) {f : Flight}
    (flying : ℓ.flight id = some f) : f.head ≠ .yielded := by
  obtain ⟨-, ⟨gas, early⟩ | late⟩ := underway.own f flying
  · cases early <;> exact Head.noConfusion
  · cases late <;> exact Head.noConfusion

/-- A flight that ended in failure. -/
theorem fall (underway : Underway ns release order k id call ℓ)
    (lawful : Guarded (Lawful ns release order) ℓ.trace) {stepId : String} {ℓ₁ : Lane} {id' : Nat}
    (falls : Lane.Falls stepId ℓ ℓ₁) : Underway ns release order k id call (ℓ₁.land id') ∧
      Guarded (Lawful ns release order) (ℓ₁.land id').trace := by
  obtain ⟨events, trace, free⟩ := falls.notes
  refine ⟨underway.land falls.settles (.inl falls.queue), ?_⟩
  rw [Lane.land_trace, trace]
  exact lawful.append fun event inside _ => .of_free (free event inside)

/-- A flight that ended without a word. -/
theorem pass (underway : Underway ns release order k id call ℓ)
    (lawful : Guarded (Lawful ns release order) ℓ.trace) {event : TraceEvent}
    (passing : event.isPassing = true) (id' : Nat) :
    Underway ns release order k id call ((ℓ.note event).land id') ∧
      Guarded (Lawful ns release order) ((ℓ.note event).land id').trace := by
  have noted : Settles call.stepId ℓ (ℓ.note event) :=
    Settles.refl.note (TraceEvent.isPlain_of_passing passing)
  exact ⟨underway.land noted (.inr rfl),
    Guarded.snoc.mpr ⟨lawful, .of_free (TraceEvent.isFree_of_passing passing)⟩⟩

/-- A delivery to a dormant flight. -/
theorem deliver_other (underway : Underway ns release order k id call ℓ)
    (lawful : Guarded (Lawful ns release order) ℓ.trace) {id' : Nat} (other : id' ≠ id)
    (delivered : Lane.Deliver ns ℓ id' ℓ') :
    Underway ns release order k id call ℓ' ∧ Guarded (Lawful ns release order) ℓ'.trace := by
  obtain ⟨f, flying⟩ := delivered.flew
  obtain ⟨stepId, gas, dormant⟩ := underway.others id' f other flying
  rcases dormant.deliver flying delivered with ⟨event, passing, -, rfl⟩ | halts
  · exact underway.pass lawful passing id'
  · obtain ⟨ℓ₁, rfl, falls⟩ := Lane.Falls.of_halts halts
    exact underway.fall lawful falls

/-- A delivery to the released copy before its dispatch. -/
theorem deliver_early (underway : Underway ns release order k id call ℓ)
    (lawful : Guarded (Lawful ns release order) ℓ.trace) {gas : Nat}
    (outcome : EarlyOutcome ns id call gas ℓ ℓ') (own : StoresOwn ℓ id call) :
    Underway ns release order k id call ℓ' ∧ Guarded (Lawful ns release order) ℓ'.trace := by
  cases outcome with
  | lapsed passing absent => exact underway.pass lawful passing id
  | refused passing => exact underway.pass lawful passing id
  | halted halts =>
      obtain ⟨ℓ₁, rfl, falls⟩ := Lane.Falls.of_halts halts
      exact underway.fall lawful falls
  | gated passing stored early =>
      have free := fun event inside => TraceEvent.isFree_of_passing (passing event inside)
      exact ⟨underway.onward (fun event inside => TraceEvent.isMark_of_free (free event inside))
        own (.inl ⟨gas, early⟩), lawful.append fun event inside _ => .of_free (free event inside)⟩
  | dispatched passing stored checked late =>
      rename_i event authorizerId args yielded f
      have free := TraceEvent.isFree_of_passing passing
      refine ⟨underway.onward ?_ own (.inr late), ?_⟩
      · refine List.forall_mem_cons.mpr ⟨TraceEvent.isMark_of_free free, ?_⟩
        simp [dispatchStory, TraceEvent.isMark]
      · have split : (ℓ.onward (event :: dispatchStory authorizerId ns id call args) id f).trace =
            ((ℓ.trace ++ [event]) ++ [.dispatched ns call.stepId id call args]) ++
              [.called ns id (materialized authorizerId ns call args).call] := by
          simp [dispatchStory]
        obtain ⟨gas', record⟩ := underway.record
        rw [split]
        exact Guarded.snoc.mpr ⟨Guarded.snoc.mpr ⟨Guarded.snoc.mpr ⟨lawful, .of_free free⟩,
          .of_dispatched ⟨checked, gas', List.mem_append_left _ record⟩⟩, .of_free rfl⟩

/-- A delivery to the released copy after its dispatch. -/
theorem deliver_late (underway : Underway ns release order k id call ℓ) (tidy : Tidy ns ℓ)
    (lawful : Guarded (Lawful ns release order) ℓ.trace) {f : Flight}
    (flying : ℓ.flight id = some f) (outcome : LateOutcome ns id call ℓ ℓ')
    (own : StoresOwn ℓ id call) : ∃ k' id' call', Underway ns release order k' id' call' ℓ' ∧
      Guarded (Lawful ns release order) ℓ'.trace := by
  obtain ⟨gas, record⟩ := underway.record
  have resolved : ∀ (result : PromiseResult), Guarded (Lawful ns release order)
      (ℓ.trace ++ [.delivered id (.onStepResolved ns call.stepId) result]) :=
    fun result => Guarded.snoc.mpr ⟨lawful, .of_free rfl⟩
  cases outcome with
  | refused passing => exact ⟨k, id, call, underway.pass lawful passing id⟩
  | followed passing late =>
      have free := fun event inside => TraceEvent.isFree_of_passing (passing event inside)
      exact ⟨k, id, call, underway.onward
        (fun event inside => TraceEvent.isMark_of_free (free event inside)) own (.inr late),
        lawful.append fun event inside _ => .of_free (free event inside)⟩
  | advanced small vouched queued other stored dormant =>
      rename_i next bytes result waiting yielded thens
      have advanced : Underway ns release order (k + 1) yielded.yieldId yielded.call
          (((ℓ.resolved ns id call.stepId result waiting).resume ns next yielded.yieldId
            thens).land id) :=
        underway.advance tidy queued other stored dormant ⟨f, flying, underway.awake flying⟩
      refine ⟨k + 1, yielded.yieldId, yielded.call, advanced, ?_⟩
      rw [underway.advance_trace]
      refine Guarded.snoc.mpr ⟨resolved result, .of_resumed ⟨?_, ?_⟩⟩
      · intro k' stepId id' same
        cases same
        rw [advanced.here, (tidy.stored next yielded stored).1]
      · intro k' stepId id' same
        cases same
        exact ⟨id, call, gas, underway.here, List.mem_append_left _ underway.resumed,
          List.mem_append_left _ record, vouched⟩
  | stuck small queued about => exact ⟨k, id, call, underway.fall lawful (.of_stuck _ _)⟩
  | completed small vouched drained =>
      rename_i bytes result env
      obtain ⟨closing, trace, finished⟩ :=
        ℓ.complete_trace ns env id call.stepId result bytes.length
      refine ⟨k, id, call, underway.land (ℓ.complete_settles ns env id call.stepId result _)
        (.inl (Lane.finish_queue _ _ _ _ _ rfl)), ?_⟩
      rw [Lane.land_trace, trace]
      refine Guarded.append (Guarded.snoc.mpr ⟨resolved _,
        .of_completed ⟨call, gas, List.mem_append_left _ record, vouched⟩⟩) ?_
      intro event inside _
      obtain ⟨data, rfl⟩ := finished event inside
      exact .of_free rfl
  | failed failure => exact ⟨k, id, call, underway.fall lawful (.of_failed _)⟩

/-- One more registered copy. -/
theorem register (underway : Underway ns release order k id call ℓ) (tidy : Tidy ns ℓ)
    (manual : IsManual ns) {yielded : RegisteredStep} {gasTgas : Nat}
    (can : Lane.CanRegister ns ℓ yielded gasTgas) :
    Underway ns release order k id call (ℓ.register ns yielded gasTgas) := by
  obtain ⟨gas, record⟩ := underway.record
  have apart : id ≠ yielded.yieldId := by
    rintro rfl
    exact can.new _ _ record
  have flights : ∀ id', (ℓ.register ns yielded gasTgas).flight id' =
      if id' = yielded.yieldId then
        some ⟨.yielded, [⟨.onStepResumed ns yielded.call.stepId, gasTgas⟩]⟩
      else ℓ.flight id' := fun id' => by
    show update ℓ.flight yielded.yieldId _ id' = _
    rw [update_apply]
  have longer : ℓ.trace <+: (ℓ.register ns yielded gasTgas).trace := List.prefix_append ..
  refine underway.keep ⟨[_], rfl, by simp [TraceEvent.isMark]⟩ (fun _ queued => queued) ?_
    (underway.own_later ?_ longer ?_)
  · intro id' f other flying
    rw [flights] at flying
    split at flying
    · cases flying
      exact ⟨_, _, .waiting⟩
    · exact underway.others id' f other flying
  · rw [flights, if_neg apart]
  · intro f flying copy stored
    obtain ⟨mine, kept, -⟩ := tidy.attached manual id f call gas flying record
    have other : call.stepId ≠ yielded.call.stepId := by
      intro same
      rw [same, can.absent] at kept
      cases kept
    have stored' : update ℓ.step yielded.call.stepId (some yielded) call.stepId = some copy :=
      stored
    rwa [update_of_ne other] at stored'

/-- The timeout of a yield. -/
theorem expire (underway : Underway ns release order k id call ℓ) {id' : Nat}
    {thens : List Then} (dormant : ℓ.flight id' = some ⟨.yielded, thens⟩) :
    Underway ns release order k id call (ℓ.putFlight id' ⟨.done .failed, thens⟩) := by
  have other : id' ≠ id := by
    rintro rfl
    exact underway.awake dormant rfl
  refine underway.keep ⟨[], (List.append_nil _).symm, fun _ inside => absurd inside
    List.not_mem_nil⟩ (fun _ queued => queued) ?_ (underway.own_later ?_ (List.prefix_refl _)
      fun _ _ _ stored => stored)
  · intro id'' f apart flying
    rw [Lane.putFlight_flight, update_apply] at flying
    split at flying
    · rename_i same
      cases flying
      obtain ⟨stepId, gas, asleep⟩ := underway.others id' _ other dormant
      cases asleep
      exact ⟨stepId, gas, .expired⟩
    · exact underway.others id'' f apart flying
  · rw [Lane.putFlight_flight, update_of_ne (Ne.symm other)]

/-- A lane step that accepts no release keeps a release underway, and the events lawful. -/
theorem step (underway : Underway ns release order k id call ℓ) (tidy : Tidy ns ℓ)
    (lawful : Guarded (Lawful ns release order) ℓ.trace) {kind : Lane.Kind}
    (step : Lane.Step ns kind ℓ ℓ')
    (alone : kind ≠ .release) :
    ∃ k' id' call', Underway ns release order k' id' call' ℓ' ∧
      Guarded (Lawful ns release order) ℓ'.trace := by
  cases step with
  | register manual can =>
      exact ⟨k, id, call, underway.register tidy manual can,
        Guarded.snoc.mpr ⟨lawful, .of_free rfl⟩⟩
  | release manual released => exact absurd rfl alone
  | fire auto absent registered released running => exact absurd rfl alone
  | prune stored terminal =>
      refine ⟨k, id, call, underway.keep ⟨[], (List.append_nil _).symm, fun _ inside => absurd
        inside List.not_mem_nil⟩ (fun _ queued => queued) underway.others underway.own, lawful⟩
  | expire dormant => exact ⟨k, id, call, underway.expire dormant, lawful⟩
  | deliver delivered =>
      rename_i id'
      by_cases same : id' = id
      · subst same
        obtain ⟨f, flying⟩ := delivered.flew
        obtain ⟨own, ⟨gas, early⟩ | late⟩ := underway.own f flying
        · exact ⟨k, id', call,
            underway.deliver_early lawful (early.deliver own flying delivered) own⟩
        · exact underway.deliver_late tidy lawful flying (late.deliver flying delivered) own
      · exact ⟨k, id, call, underway.deliver_other lawful same delivered⟩

end Underway

end SmartAccount
