import SmartAccount.SavedResults
import SmartAccount.Completion

/-!
# Value threading

The saved results are kept by namespace, so they are those of one release only as long as
one release at a time has steps in flight.  `Threaded` is what holds then: the results of
the release that is running, and nothing between releases.
-/

namespace SmartAccount

open Foundation Function Relation

/-! ## Yields are resumed once -/

/-- A yield that was resumed is registered and not asleep, and was resumed for one release. -/
structure ResumedOnce (ns : String) (ℓ : Lane) : Prop where
  known : ∀ release k stepId id, .resumed ns release k stepId id ∈ ℓ.trace →
    ∃ call gas, .registered ns id call gas ∈ ℓ.trace
  awake : ∀ release k stepId id, .resumed ns release k stepId id ∈ ℓ.trace →
    ∀ f, ℓ.flight id = some f → f.head ≠ .yielded
  once : ∀ release k stepId release' k' stepId' id, .resumed ns release k stepId id ∈ ℓ.trace →
    .resumed ns release' k' stepId' id ∈ ℓ.trace → release = release'

namespace ResumedOnce

variable {ns : String} {ℓ ℓ₁ ℓ' : Lane}

theorem fresh : ResumedOnce ns Lane.fresh where
  known _ _ _ _ member := absurd member List.not_mem_nil
  awake _ _ _ _ member := absurd member List.not_mem_nil
  once _ _ _ _ _ _ _ member := absurd member List.not_mem_nil

/-- Nothing was resumed, and no yield fell asleep. -/
theorem of_append (resumedOnce : ResumedOnce ns ℓ) (events : Trace)
    (trace : ℓ'.trace = ℓ.trace ++ events)
    (marks : ∀ release k stepId id, .resumed ns release k stepId id ∉ events)
    (asleep : ∀ id f, ℓ'.flight id = some f → f.head = .yielded →
      (∃ f', ℓ.flight id = some f' ∧ f'.head = .yielded) ∨
        ∀ call gas, .registered ns id call gas ∉ ℓ.trace) : ResumedOnce ns ℓ' := by
  have old : ∀ {release k stepId id}, .resumed ns release k stepId id ∈ ℓ'.trace →
      .resumed ns release k stepId id ∈ ℓ.trace := by
    intro release k stepId id member
    rw [trace, List.mem_append] at member
    exact member.resolve_right (marks _ _ _ _)
  refine ⟨fun release k stepId id member => ?_, fun release k stepId id member f flying => ?_,
    fun release k stepId release' k' stepId' id member member' =>
      resumedOnce.once _ _ _ _ _ _ _ (old member) (old member')⟩
  · obtain ⟨call, gas, record⟩ := resumedOnce.known _ _ _ _ (old member)
    exact ⟨call, gas, trace ▸ List.mem_append_left _ record⟩
  · intro yielded
    rcases asleep id f flying yielded with ⟨f', before, yielded'⟩ | unknown
    · exact resumedOnce.awake _ _ _ _ (old member) f' before yielded'
    · obtain ⟨call, gas, record⟩ := resumedOnce.known _ _ _ _ (old member)
      exact unknown call gas record

theorem of_settles (resumedOnce : ResumedOnce ns ℓ) (stepId : String)
    (settles : Settles stepId ℓ ℓ') : ResumedOnce ns ℓ' := by
  obtain ⟨events, trace, plain⟩ := settles.notes
  refine resumedOnce.of_append events trace (fun _ _ _ _ inside => ?_) fun id f flying yielded =>
    .inl ⟨f, settles.flight ▸ flying, yielded⟩
  cases plain _ inside

/-- A sleeping yield is resumed. -/
theorem resume (resumedOnce : ResumedOnce ns ℓ) {stepId : String} {id gas : Nat} {call : Step}
    {thens : List Then} (dormant : ℓ.flight id = some ⟨.yielded, thens⟩)
    (record : .registered ns id call gas ∈ ℓ.trace) :
    ResumedOnce ns (ℓ.resume ns stepId id thens) := by
  have asleep : ∀ release k stepId, .resumed ns release k stepId id ∉ ℓ.trace :=
    fun release k stepId member => resumedOnce.awake _ _ _ _ member _ dormant rfl
  have cases_ : ∀ {release k stepId' id'},
      .resumed ns release k stepId' id' ∈ (ℓ.resume ns stepId id thens).trace →
      .resumed ns release k stepId' id' ∈ ℓ.trace ∧ id' ≠ id ∨
        id' = id ∧ release = ℓ.trace.releaseCount ns - 1 := by
    intro release k stepId' id' member
    rw [Lane.resume_trace, List.mem_append, List.mem_singleton] at member
    rcases member with old | new
    · refine .inl ⟨old, ?_⟩
      rintro rfl
      exact asleep _ _ _ old
    · cases new
      exact .inr ⟨rfl, rfl⟩
  refine ⟨fun release k stepId' id' member => ?_, fun release k stepId' id' member f flying => ?_,
    fun release k stepId₁ release' k' stepId₂ id' member member' => ?_⟩
  · rcases cases_ member with ⟨old, -⟩ | ⟨rfl, -⟩
    · obtain ⟨call', gas', known⟩ := resumedOnce.known _ _ _ _ old
      exact ⟨call', gas', List.mem_append_left _ known⟩
    · exact ⟨call, gas, List.mem_append_left _ record⟩
  · rw [Lane.resume_flight, update_apply] at flying
    rcases cases_ member with ⟨old, other⟩ | ⟨rfl, -⟩
    · rw [if_neg other] at flying
      exact resumedOnce.awake _ _ _ _ old f flying
    · rw [if_pos rfl, Option.some.injEq] at flying
      subst flying
      exact Head.noConfusion
  · rcases cases_ member with ⟨old, other⟩ | ⟨rfl, now⟩
    · rcases cases_ member' with ⟨old', -⟩ | ⟨same, -⟩
      · exact resumedOnce.once _ _ _ _ _ _ _ old old'
      · exact absurd same other
    · rcases cases_ member' with ⟨-, other⟩ | ⟨-, now'⟩
      · exact absurd rfl other
      · rw [now, now']

theorem settle (resumedOnce : ResumedOnce ns ℓ) (id : Nat) {head : Head} (thens : List Then)
    (awake : head ≠ .yielded) : ResumedOnce ns (ℓ.settle id ⟨head, thens⟩) := by
  refine resumedOnce.of_append [] (List.append_nil _).symm
    (fun _ _ _ _ => List.not_mem_nil) fun id' f flying yielded => .inl ?_
  have flying' : update ℓ.flight id (if thens = [] then none else some ⟨head, thens⟩) id' =
    some f := flying
  rw [update_apply] at flying'
  split at flying'
  · split at flying'
    · cases flying'
    · cases flying'
      exact absurd yielded awake
  · exact ⟨f, flying', yielded⟩

/-- What a callback does to the resumed yields. -/
theorem effect (resumedOnce : ResumedOnce ns ℓ)
    (recorded : ∀ id f, ℓ.flight id = some f → ∃ call gas, .registered ns id call gas ∈ ℓ.trace)
    {id : Nat} {callback : Callback} {result : PromiseResult} {head : Head} {thens : List Then}
    (effect : Lane.Effect ns id ℓ callback result ℓ' head thens) :
    ResumedOnce ns ℓ' ∧ head ≠ .yielded := by
  cases effect with
  | asleep absent => exact ⟨resumedOnce, Head.noConfusion⟩
  | unchecked ungated => exact ⟨resumedOnce, Head.noConfusion⟩
  | halted cause stored unsuccessful about =>
      rename_i stepId yielded env status data
      exact ⟨resumedOnce.of_settles stepId (Settles.refl.halt env id status data), Head.noConfusion⟩
  | gated stored gate built =>
      exact ⟨resumedOnce.of_settles "" (Settles.refl.note rfl), Head.noConfusion⟩
  | dispatched stored cleared built =>
      exact ⟨resumedOnce.of_settles "" ((Settles.refl.note rfl).note rfl),
        Head.noConfusion⟩
  | posted small built =>
      exact ⟨resumedOnce.of_settles "" (Settles.refl.note rfl), Head.noConfusion⟩
  | matched equal => exact ⟨resumedOnce, Head.noConfusion⟩
  | advanced small queued other stored dormant =>
      rename_i stepId next bytes waiting yielded thens
      obtain ⟨call, gas, record⟩ := recorded _ _ dormant
      have dropped : ResumedOnce ns ((ℓ.dropStep stepId).setQueue waiting) :=
        ⟨resumedOnce.known, resumedOnce.awake, resumedOnce.once⟩
      exact ⟨dropped.resume dormant record, Head.noConfusion⟩
  | stuck small queued about =>
      exact ⟨resumedOnce.of_settles _ ((Settles.refl.dropStep.dropQueue.finish _ _ _ _).note rfl),
        Head.noConfusion⟩
  | completed small drained =>
      exact ⟨resumedOnce.of_settles _ ((Settles.refl.dropStep.dropQueue.note rfl).finish _ _ _ _),
        Head.noConfusion⟩
  | failed failure =>
      exact ⟨resumedOnce.of_settles _ (Settles.refl.dropStep.dropQueue.finish _ _ _ _),
        Head.noConfusion⟩

theorem register (resumedOnce : ResumedOnce ns ℓ) {yielded : RegisteredStep} {gasTgas : Nat}
    (can : Lane.CanRegister ns ℓ yielded gasTgas) :
    ResumedOnce ns (ℓ.register ns yielded gasTgas) := by
  refine resumedOnce.of_append [.registered ns yielded.yieldId yielded.call gasTgas]
    rfl (fun _ _ _ _ inside => by cases List.mem_singleton.mp inside) fun id f flying asleep => ?_
  have flying' : update ℓ.flight yielded.yieldId
    (some ⟨.yielded, [⟨.onStepResumed ns yielded.call.stepId, gasTgas⟩]⟩) id = some f := flying
  rw [update_apply] at flying'
  split at flying'
  · rename_i same
    exact .inr fun call gas => same ▸ can.new call gas
  · exact .inl ⟨f, flying', asleep⟩

theorem registers (resumedOnce : ResumedOnce ns ℓ) {copies : List (RegisteredStep × Nat)}
    (registers : Lane.Registers ns copies ℓ ℓ') : ResumedOnce ns ℓ' := by
  induction registers with
  | nil => exact resumedOnce
  | cons can rest ih => exact ih (resumedOnce.register can)

theorem release (resumedOnce : ResumedOnce ns ℓ) (tidy : Tidy ns ℓ) {order : List String}
    (released : Lane.Release ns order ℓ ℓ') : ResumedOnce ns ℓ' := by
  cases released with
  | mk shape idle known stored dormant =>
      rename_i first rest yielded thens
      obtain ⟨call, gas, record, -⟩ := tidy.flying _ _ dormant
      have noted : ResumedOnce ns ((ℓ.setQueue rest).note (.released ns order)) :=
        resumedOnce.of_append [.released ns order] rfl
          (fun _ _ _ _ inside => by cases List.mem_singleton.mp inside)
          fun id f flying asleep => .inl ⟨f, flying, asleep⟩
      exact noted.resume dormant (List.mem_append_left _ record)

theorem step (resumedOnce : ResumedOnce ns ℓ) (tidy : Tidy ns ℓ) {kind : Lane.Kind}
    (step : Lane.Step ns kind ℓ ℓ') : ResumedOnce ns ℓ' := by
  cases step with
  | register manual can => exact resumedOnce.register can
  | release manual released => exact resumedOnce.release tidy released
  | fire auto absent registered released running =>
      have accepted := (resumedOnce.registers registered).release (tidy.registers registered)
        released
      exact ⟨accepted.known, accepted.awake, accepted.once⟩
  | prune stored terminal => exact ⟨resumedOnce.known, resumedOnce.awake, resumedOnce.once⟩
  | expire dormant =>
      rename_i id thens
      refine resumedOnce.of_append [] (List.append_nil _).symm
        (fun _ _ _ _ => List.not_mem_nil) fun id' f flying asleep => .inl ?_
      rw [Lane.putFlight_flight, update_apply] at flying
      split at flying
      · cases flying
        cases asleep
      · exact ⟨f, flying, asleep⟩
  | deliver delivered =>
      rename_i id
      cases delivered with
      | ran due effect =>
          rename_i ℓ₁ head head' t rest thens result
          have noted : ResumedOnce ns (ℓ.note (.delivered id t.callback result)) :=
            resumedOnce.of_settles "" (Settles.refl.note rfl)
          obtain ⟨kept, awake⟩ := noted.effect (fun id' f flying => by
            obtain ⟨call, gas, record, -⟩ := tidy.flying id' f flying
            exact ⟨call, gas, List.mem_append_left _ record⟩) effect
          exact kept.settle _ _ awake
      | rolledBack due =>
          exact (resumedOnce.of_settles "" (Settles.refl.note rfl)).settle _ _
            Head.noConfusion

end ResumedOnce

/-! ## Steps not dispatched yet -/

/-- A step was resumed whose call has not been dispatched. -/
def Flight.undispatched : Flight → Bool
  | ⟨.done (.successful _), [⟨.onStepResumed _ _, _⟩]⟩ => true
  | ⟨.call _, [⟨.onPreGateChecked _ _, _⟩]⟩ => true
  | _ => false

theorem Early.undispatched {ns : String} {id gas : Nat} {call : Step} {t : Trace} {f : Flight}
    (early : Early ns id call gas t f) : f.undispatched = true := by
  cases early with
  | resumed => rfl
  | gated gate built asked =>
      subst built
      rfl

theorem Late.undispatched {ns : String} {id : Nat} {call : Step} {t : Trace} {f : Flight}
    (late : Late ns id call t f) : f.undispatched = false := by
  cases late with
  | dispatched built story =>
      subst built
      rw [materialized_thens]
      cases call.policy <;> rfl
  | _ => rfl

/-- The callback that a dispatched step waits for never clears a step for dispatch. -/
theorem Late.not_cleared {ns ns' stepId : String} {id : Nat} {call : Step} {t : Trace}
    {head : Head} {next : Then} {rest : List Then} {yielded : RegisteredStep}
    {result : PromiseResult} (late : Late ns id call t ⟨head, next :: rest⟩) :
    ¬ Lane.Cleared ns' yielded stepId next.callback result := by
  intro cleared
  generalize flightEq : (⟨head, next :: rest⟩ : Flight) = f at late
  cases late with
  | dispatched built story =>
      subst built
      rw [Flight.mk.injEq, materialized_thens] at flightEq
      obtain ⟨-, thens⟩ := flightEq
      cases policy : call.policy <;> rw [policy] at thens <;> cases thens <;> cases cleared
  | _ =>
      cases flightEq
      cases cleared

theorem Lane.Cleared.about {ns stepId : String} {yielded : RegisteredStep} {callback : Callback}
    {result : PromiseResult} (cleared : Lane.Cleared ns yielded stepId callback result) :
    callback.sequenceNamespace = ns ∧ callback.stepId = stepId := by
  cases cleared <;> exact ⟨rfl, rfl⟩

/-! ## The invariant -/

/-- No release is accepted: steps wait in the queue, or a run is in flight. -/
def Lane.Blocked (ℓ : Lane) : Prop :=
  ℓ.queue ≠ none ∨ ∃ run, ℓ.row = some run ∧ run.status = .inFlight

/-- Where the lane stands, with the context kept for it: between releases nothing is kept,
unless none can be accepted; a running release finds its own results; one that halted
finds none, and will not look. -/
inductive Threaded (ns : String) (ℓ : Lane) (context : Option SequenceContext) : Prop
  | calm (quiet : ℓ.Quiet ns) (clean : context = none ∨ ℓ.Blocked) : Threaded ns ℓ context
  | running {release k id : Nat} {order : List String} {call : Step}
      (underway : Underway ns release order k id call ℓ) (flying : ∃ f, ℓ.flight id = some f)
      (stored : ∃ copy, ℓ.step call.stepId = some copy)
      (faithful : SequenceContext.lookup context = ℓ.trace.results ns release) :
      Threaded ns ℓ context
  | halted {release k id : Nat} {order : List String} {call : Step}
      (underway : Underway ns release order k id call ℓ) (flying : ∃ f, ℓ.flight id = some f)
      (past : ℓ.step call.stepId = none ∨
        ∀ f, ℓ.flight id = some f → f.undispatched = false)
      (empty : context = none) (drained : ℓ.queue = none) : Threaded ns ℓ context

/-- The yield of a step has timed out, and its callback is due. -/
def Lane.Expired (ns : String) (ℓ : Lane) (id : Nat) : Prop :=
  ∃ stepId gas, ℓ.flight id = some ⟨.done .failed, [⟨.onStepResumed ns stepId, gas⟩]⟩

theorem Early.single {ns : String} {id gas : Nat} {call : Step} {t : Trace} {f : Flight}
    (early : Early ns id call gas t f) : ∃ head t', f = ⟨head, [t']⟩ := by
  cases early with
  | resumed => exact ⟨_, _, rfl⟩
  | gated gate built asked =>
      subst built
      exact ⟨_, _, rfl⟩

/-- The callback that a stored step waits for before its dispatch has something to do. -/
theorem Early.not_idles {ns : String} {id gas : Nat} {call : Step} {t : Trace} {ℓ : Lane}
    {head : Head} {next : Then} {copy : RegisteredStep}
    (early : Early ns id call gas t ⟨head, [next]⟩) (own : StoresOwn ℓ id call)
    (kept : ℓ.step call.stepId = some copy) : ¬ ℓ.Idles ns next.callback := by
  intro idles
  generalize flightEq : (⟨head, [next]⟩ : Flight) = f at early
  cases early with
  | resumed =>
      cases flightEq
      rcases idles with asserted | ⟨sid, same, absent⟩ | ⟨sid, same, -⟩
      · cases asserted
      · cases same
        rw [absent] at kept
        cases kept
      · cases same
  | gated gate built asked =>
      subst built
      cases flightEq
      rcases idles with asserted | ⟨sid, same, -⟩ | ⟨sid, same, ungated⟩
      · cases asserted
      · cases same
      · cases same
        have open_ := ungated copy kept
        rw [(own copy kept).2, gate] at open_
        cases open_

/-- A callback that clears or leaves the context. -/
theorem Lane.Filed.of_plain {ns : String} {id : Nat} {fails : Prop} {ℓ ℓ' : Lane}
    {context context' : Option SequenceContext} (filed : Filed ns id fails ℓ ℓ' context context')
    (events : Trace) (trace : ℓ'.trace = ℓ.trace ++ events)
    (plain : ∀ event ∈ events, event.isPlain = true) :
    context' = context ∧ ℓ'.step = ℓ.step ∧
        (∀ head t, ℓ.flight id = some ⟨head, [t]⟩ → ℓ'.flight id = none →
          fails ∨ ℓ.Idles ns t.callback) ∨
      context' = none ∧ ℓ'.flight id = none ∧ ∃ head t result events',
        ℓ.flight id = some ⟨head, [t]⟩ ∧
        ((∃ stepId, t.callback = .onStepResolved ns stepId) ∨
          (ℓ.step t.callback.stepId).isSome) ∧
        events = .delivered id t.callback result :: events' := by
  cases filed with
  | kept steps landed => exact .inl ⟨rfl, steps, landed⟩
  | cleared events' waiting cause gone trace' unmarked =>
      rw [trace, List.append_cancel_left_eq] at trace'
      exact .inr ⟨rfl, gone, _, _, _, _, waiting, cause, trace'⟩
  | saved events' small trace' woken stored =>
      obtain ⟨release, k, next, id', woken⟩ := woken
      rw [trace, List.append_cancel_left_eq] at trace'
      have inside := plain (.resumed ns release k next id') (trace' ▸ List.mem_cons_of_mem _ woken)
      cases inside

/-- What a halt leaves of the steps and of the queue. -/
theorem Lane.Halts.spec {ns stepId : String} {id : Nat} {ℓ ℓ' : Lane}
    (halts : Lane.Halts ns id stepId ℓ ℓ') : ∃ ℓ₁ events, ℓ' = ℓ₁.land id ∧ Settles stepId ℓ ℓ₁ ∧
      ℓ₁.queue = none ∧ ℓ'.trace = ℓ.trace ++ events ∧
      (∀ event ∈ events, event.isPlain = true ∧ event.isResolution = false) ∧
      (ℓ.step stepId).isSome ∧ ℓ'.step stepId = none ∧
      ∀ run, ℓ.row = some run → run.status = .inFlight → ∀ sid, ℓ'.step sid = none := by
  cases halts with
  | mk passing stored unsuccessful about =>
      rename_i event yielded env status data
      have noted : Settles stepId ℓ (ℓ.note event) :=
        Settles.refl.note (TraceEvent.isPlain_of_passing passing)
      have dropped : (((ℓ.note event).dropStep stepId).setQueue []).step stepId = none :=
        update_self ..
      obtain ⟨closing, trace, finished⟩ := @Lane.finish_trace
        (((ℓ.note event).dropStep stepId).setQueue []) env (some id) ns status (some stepId)
      refine ⟨_, event :: (closing ++ [.emitted (some id) (.sequenceHalted data)]), rfl,
        noted.halt env id status data, Lane.finish_queue _ _ _ _ _ rfl, ?_, ?_, ?_,
        Lane.finish_step_none env (some id) ns status (some stepId) dropped,
        fun run row running sid => ?_⟩
      · show (Lane.finish env (some id) ns _ status (some stepId)).trace ++ _ = _
        rw [trace, List.append_assoc]
        show (ℓ.trace ++ [event]) ++ _ = _
        rw [List.append_assoc, List.singleton_append]
      · refine List.forall_mem_cons.mpr ⟨⟨TraceEvent.isPlain_of_passing passing,
          TraceEvent.isResolution_of_passing passing⟩, ?_⟩
        refine List.forall_mem_append.mpr ⟨fun event' inside => ?_, ?_⟩
        · obtain ⟨data', rfl⟩ := finished event' inside
          exact ⟨rfl, rfl⟩
        · simp [TraceEvent.isPlain, TraceEvent.isRegistered, TraceEvent.isMark,
            TraceEvent.isResolution]
      · rw [stored]
        rfl
      · have row' : (((ℓ.note event).dropStep stepId).setQueue []).row = some run := row
        show (Lane.finish env (some id) ns _ status (some stepId)).step sid = none
        rw [Lane.finish_of_running env (some id) ns status (some stepId) row' running]

/-- A dispatched step goes on, hands over to the next step of its queue, or ends: without a
word, or dropped. -/
theorem LateOutcome.goes {ns : String} {id : Nat} {call : Step} {ℓ ℓ' : Lane}
    (outcome : LateOutcome ns id call ℓ ℓ') :
    (∃ events f, ℓ' = ℓ.onward events id f ∧ (∀ event ∈ events, event.isPassing = true) ∧
        Late ns id call (ℓ.trace ++ events) f) ∨
      (∃ next result bytes waiting yielded thens, result.checked = .ok bytes ∧
        ℓ.queue = some (next :: waiting) ∧ next ≠ call.stepId ∧ ℓ.step next = some yielded ∧
        ℓ.flight yielded.yieldId = some ⟨.yielded, thens⟩ ∧
        ℓ' = ((ℓ.resolved ns id call.stepId result waiting).resume ns next yielded.yieldId
          thens).land id) ∨
      (∃ ℓ₁, ℓ' = ℓ₁.land id ∧ Settles call.stepId ℓ ℓ₁ ∧ ℓ'.step call.stepId = none) ∨
      ∃ event head gas, event.isPassing = true ∧ ℓ' = (ℓ.note event).land id ∧
        ℓ.flight id = some ⟨head, [⟨.onStepResolved ns call.stepId, gas⟩]⟩ := by
  have dropped : ∀ result : PromiseResult,
      (ℓ.resolved ns id call.stepId result []).step call.stepId = none :=
    fun result => update_self ..
  cases outcome with
  | refused passing waiting => exact .inr (.inr (.inr ⟨_, _, _, passing, rfl, waiting⟩))
  | followed passing late => exact .inl ⟨_, _, rfl, passing, late⟩
  | advanced small vouched queued other stored dormant =>
      exact .inr (.inl ⟨_, _, _, _, _, _, small, queued, other, stored, dormant, rfl⟩)
  | stuck small queued about =>
      exact .inr (.inr (.inl ⟨_, rfl, (Lane.Falls.of_stuck _ _).settles,
        Lane.finish_step_none _ _ _ _ _ (dropped _)⟩))
  | completed small vouched drained =>
      exact .inr (.inr (.inl ⟨_, rfl, ℓ.complete_settles ns _ id call.stepId _ _,
        Lane.finish_step_none _ _ _ _ _ (dropped _)⟩))
  | failed failure =>
      exact .inr (.inr (.inl ⟨_, rfl, (Lane.Falls.of_failed _).settles,
        Lane.finish_step_none _ _ _ _ _ (dropped _)⟩))

namespace Threaded

variable {ns : String} {ℓ ℓ' : Lane} {context context' : Option SequenceContext}
  {release k id : Nat} {order : List String} {call : Step}

/-- In a lane with one release underway, the flights other than its own are dormant. -/
theorem quiet_of_land (underway : Underway ns release order k id call ℓ) {ℓ₁ : Lane}
    (flights : ℓ₁.flight = ℓ.flight) : Lane.Quiet ns (ℓ₁.land id) := by
  intro id' f flying
  rw [Lane.land_flight, update_apply] at flying
  split at flying
  · cases flying
  · exact underway.others id' f ‹_› (flights ▸ flying)

/-- A stored step of an automation namespace is one of a run in flight. -/
theorem inFlight_of_stored (cleaned : ℓ.Cleaned) {stepId : String}
    (stored : (ℓ.step stepId).isSome) : ∃ run, ℓ.row = some run ∧ run.status = .inFlight := by
  by_contra idle
  have bare := cleaned fun run row running => idle ⟨run, row, running⟩
  rw [bare.steps] at stored
  cases stored

/-- A timed-out yield ends without a word beside the release that is running. -/
theorem pass_other (underway : Underway ns release order k id call ℓ)
    (flying : ∃ f, ℓ.flight id = some f) (stored : ∃ copy, ℓ.step call.stepId = some copy)
    (faithful : SequenceContext.lookup context = ℓ.trace.results ns release) {id' : Nat}
    (other : id' ≠ id) {stepId : String} {gas : Nat}
    (expired : ℓ.flight id' = some ⟨.done .failed, [⟨.onStepResumed ns stepId, gas⟩]⟩)
    {event : TraceEvent} (passing : event.isPassing = true)
    (silent : ℓ.step stepId = none ∨ ∃ callback result, event = .rolledBack id' callback result)
    {fails : Prop} (filed : Lane.Filed ns id' fails ℓ ((ℓ.note event).land id') context context') :
    Threaded ns ((ℓ.note event).land id') context' := by
  obtain ⟨f, own⟩ := flying
  have kept : ((ℓ.note event).land id').flight id = some f := by
    rw [Lane.land_flight, update_of_ne (Ne.symm other)]
    exact own
  have noted : Settles stepId ℓ (ℓ.note event) :=
    Settles.refl.note (TraceEvent.isPlain_of_passing passing)
  rcases filed.of_plain [event] rfl (fun _ inside =>
    List.mem_singleton.mp inside ▸ TraceEvent.isPlain_of_passing passing) with
      ⟨rfl, steps, -⟩ | ⟨-, -, head, t, result, events, waiting, cause, delivered⟩
  · refine .running (underway.land noted (.inr rfl)) ⟨f, kept⟩ stored ?_
    rw [faithful]
    refine (Trace.results_append fun event' inside => ?_).symm
    exact List.mem_singleton.mp inside ▸ TraceEvent.isResolution_of_passing passing
  · rw [expired, Option.some.injEq] at waiting
    cases waiting
    rcases silent with absent | ⟨callback, result', rfl⟩
    · rcases cause with ⟨sid, resolves⟩ | present
      · cases resolves
      · have missing : (ℓ.step stepId).isSome := present
        rw [absent] at missing
        cases missing
    · cases delivered

/-- A timed-out yield reaches a lane whose release is running. -/
theorem deliver_other (underway : Underway ns release order k id call ℓ)
    (flying : ∃ f, ℓ.flight id = some f) (stored : ∃ copy, ℓ.step call.stepId = some copy)
    (faithful : SequenceContext.lookup context = ℓ.trace.results ns release) (tidy : Tidy ns ℓ)
    (created : IsManual ns ∨ IsAutomation ns ∧ ℓ.Cleaned) {id' : Nat} (other : id' ≠ id)
    (delivered : Lane.Deliver ns ℓ id' ℓ') {fails : Prop}
    (filed : Lane.Filed ns id' fails ℓ ℓ' context context')
    (permitted : Lane.RolledBack ℓ id' ℓ' ∨ ∀ stepId gas,
      ℓ.flight id' = some ⟨.done .failed, [⟨.onStepResumed ns stepId, gas⟩]⟩ →
      (ℓ.step stepId).isSome → IsManual ns →
        (∀ id f, ℓ.flight id = some f → f.undispatched = false) ∨ context = none) :
    Threaded ns ℓ' context' := by
  obtain ⟨f', flying'⟩ := delivered.flew
  obtain ⟨stepId, gas, dormant⟩ := underway.others id' f' other flying'
  have awake := delivered.awake flying'
  cases dormant with
  | waiting => exact absurd rfl awake
  | expired =>
  rcases permitted with failed | allowed
  · obtain ⟨callback, result, rfl⟩ := Dormant.expired.rolledBack flying' failed
    exact pass_other underway flying stored faithful other flying' rfl
      (.inr ⟨callback, result, rfl⟩) filed
  rcases Dormant.expired.deliver flying' delivered with ⟨event, passing, silent, rfl⟩ | halts
  · exact pass_other underway flying stored faithful other flying' passing silent filed
  · obtain ⟨ℓ₁, events, rfl, settles, queue, trace, plain, present, dropped, all⟩ := halts.spec
    rcases filed.of_plain _ trace fun event inside => (plain event inside).1 with
      ⟨-, steps, -⟩ | ⟨rfl, -, -⟩
    · rw [← steps, dropped] at present
      cases present
    · obtain ⟨f, own⟩ := flying
      have same : (ℓ₁.land id').flight id = ℓ.flight id := by
        rw [Lane.land_flight, update_of_ne (Ne.symm other), settles.flight]
      have landed : Underway ns release order k id call (ℓ₁.land id') :=
        underway.land settles (.inl queue)
      have flying₁ : ∃ f, (ℓ₁.land id').flight id = some f := ⟨f, same.trans own⟩
      rcases created with manual | ⟨-, cleaned⟩
      · rcases allowed stepId gas flying' present manual with dispatched | rfl
        · refine .halted landed flying₁ (.inr fun f₁ here => ?_) rfl queue
          rw [same] at here
          exact dispatched id f₁ here
        · -- the copies of two flights are stored under two ids
          obtain ⟨copy, kept⟩ := stored
          obtain ⟨gas₁, record⟩ := underway.record
          obtain ⟨mine, storedMine, eqMine⟩ := tidy.attached manual id f call gas₁ own record
          obtain ⟨call', gas', record', chain⟩ := tidy.flying id' _ flying'
          obtain ⟨theirs, storedTheirs, eqTheirs⟩ :=
            tidy.attached manual id' _ call' gas' flying' record'
          have about : stepId = call'.stepId := chain.about _ (List.mem_cons_self ..)
          have apart : call.stepId ≠ stepId := by
            intro clash
            rw [← about, ← clash, storedMine, Option.some.injEq] at storedTheirs
            exact other (eqTheirs.symm.trans (storedTheirs ▸ eqMine))
          refine .running landed flying₁ ⟨copy, ?_⟩ ?_
          · exact (settles.kept (tidy.manual_row manual) _ apart).trans kept
          · rw [faithful, trace]
            exact (Trace.results_append fun event inside => (plain event inside).2).symm
      · obtain ⟨run, row, running⟩ := inFlight_of_stored cleaned present
        exact .halted landed flying₁ (.inl (all run row running _)) rfl queue

/-- The flight of the released step ends without a word.  What was saved stays, so no release
may be accepted, or nothing may have been saved. -/
theorem pass (underway : Underway ns release order k id call ℓ)
    (stored : ∃ copy, ℓ.step call.stepId = some copy)
    (created : IsManual ns ∨ IsAutomation ns ∧ ℓ.Cleaned) {event : TraceEvent} {fails : Prop}
    (filed : Lane.Filed ns id fails ℓ ((ℓ.note event).land id) context context')
    (busy : ∃ head t, ℓ.flight id = some ⟨head, [t]⟩ ∧ ¬ ℓ.Idles ns t.callback)
    (awake : ¬ ℓ.Expired ns id) (passing : event.isPassing = true)
    (failing : fails → ¬ ℓ.Expired ns id → IsAutomation ns ∨ ℓ.queue ≠ none ∨ context = none) :
    Threaded ns ((ℓ.note event).land id) context' := by
  obtain ⟨head, t, waiting, active⟩ := busy
  refine .calm (quiet_of_land underway rfl) ?_
  rcases filed.of_plain [event] rfl (fun _ inside =>
    List.mem_singleton.mp inside ▸ TraceEvent.isPlain_of_passing passing) with
      ⟨rfl, -, landed⟩ | ⟨empty, -⟩
  · have failed : fails := (landed head t waiting (update_self ..)).resolve_right active
    rcases failing failed awake with auto | queued | empty
    · rcases created with manual | ⟨-, cleaned⟩
      · exact absurd auto manual.not_automation
      · have running : ∃ run, ℓ.row = some run ∧ run.status = .inFlight :=
          inFlight_of_stored cleaned (Option.isSome_iff_exists.mpr stored)
        exact .inr (.inr running)
    · exact .inr (.inl queued)
    · exact .inl empty
  · exact .inl empty

/-- The released step is delivered to before its call is dispatched. -/
theorem deliver_early (underway : Underway ns release order k id call ℓ)
    (stored : ∃ copy, ℓ.step call.stepId = some copy)
    (faithful : SequenceContext.lookup context = ℓ.trace.results ns release)
    (created : IsManual ns ∨ IsAutomation ns ∧ ℓ.Cleaned) {f : Flight} {gas : Nat}
    (flying : ℓ.flight id = some f) (own : StoresOwn ℓ id call)
    (early : Early ns id call gas ℓ.trace f) (delivered : Lane.Deliver ns ℓ id ℓ')
    {fails : Prop} (filed : Lane.Filed ns id fails ℓ ℓ' context context')
    (failing : fails → ¬ ℓ.Expired ns id → IsAutomation ns ∨ ℓ.queue ≠ none ∨ context = none) :
    Threaded ns ℓ' context' := by
  obtain ⟨copy, kept⟩ := stored
  -- a step that goes on keeps what is saved for it
  have onward : ∀ {events : Trace} {f' : Flight}, ℓ' = ℓ.onward events id f' →
      (∀ event ∈ events, event.isPlain = true ∧ event.isResolution = false) →
      ((∃ gas, Early ns id call gas (ℓ.trace ++ events) f') ∨
        Late ns id call (ℓ.trace ++ events) f') → Threaded ns ℓ' context' := by
    rintro events f' rfl plain phase
    rcases filed.of_plain events rfl fun event inside => (plain event inside).1 with
      ⟨rfl, -, -⟩ | ⟨-, gone, -⟩
    · refine .running (underway.onward (fun event inside => ?_) own phase)
        ⟨f', update_self ..⟩ ⟨copy, kept⟩ ?_
      · exact TraceEvent.isMark_of_plain (plain event inside).1
      · rw [faithful]
        exact (Trace.results_append fun event inside => (plain event inside).2).symm
    · rw [Lane.onward_flight, update_self] at gone
      cases gone
  have passed : ∀ events : Trace, (∀ event ∈ events, event.isPassing = true) →
      ∀ event ∈ events, event.isPlain = true ∧ event.isResolution = false :=
    fun events passing event inside => ⟨TraceEvent.isPlain_of_passing (passing event inside),
      TraceEvent.isResolution_of_passing (passing event inside)⟩
  cases early.deliver own flying delivered with
  | lapsed passing absent =>
      rw [absent] at kept
      cases kept
  | refused passing =>
      refine pass underway ⟨copy, kept⟩ created filed ?_ (fun waits => ?_) passing failing
      · obtain ⟨head, t, single⟩ := early.single
        subst single
        exact ⟨head, t, flying, early.not_idles own kept⟩
      · obtain ⟨stepId, gas', asleep⟩ := waits
        rw [flying, Option.some.injEq] at asleep
        exact early.not_dormant (asleep ▸ Dormant.expired)
  | halted halts =>
      obtain ⟨ℓ₁, events, rfl, settles, queue, trace, plain, present, dropped, -⟩ := halts.spec
      refine .calm (quiet_of_land underway settles.flight) ?_
      rcases filed.of_plain _ trace fun event inside => (plain event inside).1 with
        ⟨-, steps, -⟩ | ⟨empty, -⟩
      · rw [← steps, dropped] at present
        cases present
      · exact .inl empty
  | gated passing stored early => exact onward rfl (passed _ passing) (.inl ⟨gas, early⟩)
  | dispatched passing stored checked late =>
      rename_i event authorizerId args yielded f'
      refine onward rfl (List.forall_mem_cons.mpr ⟨?_, ?_⟩) (.inr late)
      · exact passed [event] (fun _ inside => List.mem_singleton.mp inside ▸ passing)
          event (List.mem_singleton.mpr rfl)
      · simp [dispatchStory, TraceEvent.isPlain, TraceEvent.isRegistered, TraceEvent.isMark,
          TraceEvent.isResolution]

/-- The released step is delivered to after its dispatch. -/
theorem deliver_late (underway : Underway ns release order k id call ℓ)
    (stored : ∃ copy, ℓ.step call.stepId = some copy)
    (faithful : SequenceContext.lookup context = ℓ.trace.results ns release) (tidy : Tidy ns ℓ)
    {f : Flight} (flying : ℓ.flight id = some f) (own : StoresOwn ℓ id call)
    (late : Late ns id call ℓ.trace f) (created : IsManual ns ∨ IsAutomation ns ∧ ℓ.Cleaned)
    (delivered : Lane.Deliver ns ℓ id ℓ') {fails : Prop}
    (filed : Lane.Filed ns id fails ℓ ℓ' context context')
    (failing : fails → ¬ ℓ.Expired ns id → IsAutomation ns ∨ ℓ.queue ≠ none ∨ context = none) :
    Threaded ns ℓ' context' := by
  obtain ⟨copy, kept⟩ := stored
  rcases (late.deliver flying delivered).goes with ⟨events, f', rfl, passing, late'⟩ |
    ⟨next, result, bytes, waiting, yielded, thens, small, queued, other, ahead, dormant, rfl⟩ |
    ⟨ℓ₁, rfl, settles, dropped⟩ | ⟨event, head, gas, passing, rfl, waits⟩
  · rcases filed.of_plain events rfl fun event inside =>
      TraceEvent.isPlain_of_passing (passing event inside) with ⟨rfl, -, -⟩ | ⟨-, gone, -⟩
    · refine .running (underway.onward (fun event inside => ?_) own (.inr late'))
        ⟨f', update_self ..⟩ ⟨copy, kept⟩ ?_
      · exact TraceEvent.isMark_of_plain (TraceEvent.isPlain_of_passing (passing event inside))
      · rw [faithful]
        exact (Trace.results_append fun event inside =>
          TraceEvent.isResolution_of_passing (passing event inside)).symm
    · rw [Lane.onward_flight, update_self] at gone
      cases gone
  · -- the next step of the same release is resumed, behind the save
    have grown := underway.advance_trace waiting result next yielded.yieldId thens
    have advanced : Underway ns release order (k + 1) yielded.yieldId yielded.call
        (((ℓ.resolved ns id call.stepId result waiting).resume ns next yielded.yieldId
          thens).land id) :=
      underway.advance tidy queued other ahead dormant ⟨f, flying, underway.awake flying⟩
    rw [List.append_assoc, List.singleton_append] at grown
    have apart : yielded.yieldId ≠ id := by
      rintro same
      rw [same, flying, Option.some.injEq] at dormant
      exact underway.awake flying (by rw [dormant])
    cases filed with
    | kept steps landed =>
        have gone : update ℓ.step call.stepId none call.stepId = some copy :=
          (congrFun steps call.stepId).trans kept
        rw [update_self] at gone
        cases gone
    | cleared events waiting' cause gone trace unmarked =>
        rw [grown, List.append_cancel_left_eq] at trace
        have marked := unmarked (.resumed ns release (k + 1) next yielded.yieldId)
          (by simp [← (List.cons.inj trace).2])
        cases marked
    | saved events small' trace woken saving =>
        rename_i stepId' result' bytes'
        rw [grown, List.append_cancel_left_eq] at trace
        cases trace
        rw [small, Except.ok.injEq] at small'
        subst small'
        obtain ⟨copyId, copyCall⟩ := own copy kept
        obtain ⟨gas, record⟩ := underway.record
        have about := (tidy.stored next yielded ahead).1
        refine .running advanced ⟨⟨.done resumeSignal, thens⟩, ?_⟩ ⟨yielded, ?_⟩ ?_
        · rw [Lane.land_flight, update_of_ne apart, Lane.resume_flight, update_self]
        · show update ℓ.step call.stepId none yielded.call.stepId = some yielded
          rw [about, update_of_ne other, ahead]
        · have here : Trace.results (ℓ.trace ++ [.delivered id (.onStepResolved ns call.stepId)
              result]) ns release = _ :=
            Trace.results_resolved underway.resumed record
              (fun call' gas' record' => (tidy.unique id call' call gas' gas record' record).1)
              small
          have resuming : ∀ event ∈ [TraceEvent.resumed ns release (k + 1) next yielded.yieldId],
              event.isResolution = false := fun _ inside => List.mem_singleton.mp inside ▸ rfl
          rw [grown, ← List.singleton_append, ← List.append_assoc, Trace.results_append resuming,
            here, saving, kept, Option.bind_some, copyCall, faithful]
  · obtain ⟨events, trace, plain⟩ := settles.notes
    refine .calm (quiet_of_land underway settles.flight) (.inl ?_)
    rcases filed.of_plain _ trace plain with ⟨-, steps, -⟩ | ⟨empty, -⟩
    · rw [steps, kept] at dropped
      cases dropped
    · exact empty
  · refine pass underway ⟨copy, kept⟩ created filed ⟨head, _, waits, ?_⟩ (fun expired => ?_)
      passing failing
    · rintro (asserted | ⟨sid, same, -⟩ | ⟨sid, same, -⟩)
      · cases asserted
      · cases same
      · cases same
    · obtain ⟨stepId, gas', asleep⟩ := expired
      rw [waits] at asleep
      cases asleep

/-- A delivery to a lane whose release has halted. -/
theorem deliver_halted (underway : Underway ns release order k id call ℓ)
    (flying : ∃ f, ℓ.flight id = some f)
    (past : ℓ.step call.stepId = none ∨ ∀ f, ℓ.flight id = some f → f.undispatched = false)
    (empty : context = none) (drained : ℓ.queue = none) {id' : Nat}
    (delivered : Lane.Deliver ns ℓ id' ℓ') {fails : Prop}
    (filed : Lane.Filed ns id' fails ℓ ℓ' context context') : Threaded ns ℓ' context' := by
  obtain ⟨f, own⟩ := flying
  have nothing : ∀ events : Trace, ℓ'.trace = ℓ.trace ++ events →
      (∀ event ∈ events, event.isPlain = true) → context' = none := by
    intro events trace plain
    rcases filed.of_plain _ trace plain with ⟨same, -⟩ | ⟨gone, -⟩
    · exact same.trans empty
    · exact gone
  by_cases same : id' = id
  · subst same
    obtain ⟨stores, ⟨gas, early⟩ | late⟩ := underway.own f own
    · have absent : ℓ.step call.stepId = none := past.resolve_right fun dispatched => by
        have awake := dispatched f own
        rw [early.undispatched] at awake
        cases awake
      cases early.deliver stores own delivered with
      | lapsed passing absent =>
          refine .calm (quiet_of_land underway rfl) (.inl (nothing [_] rfl ?_))
          exact fun _ inside => List.mem_singleton.mp inside ▸ TraceEvent.isPlain_of_passing passing
      | halted halts =>
          obtain ⟨ℓ₁, events, rfl, settles, -, trace, plain, -⟩ := halts.spec
          exact .calm (quiet_of_land underway settles.flight)
            (.inl (nothing _ trace fun event inside => (plain event inside).1))
      | refused passing =>
          refine .calm (quiet_of_land underway rfl) (.inl (nothing [_] rfl ?_))
          exact fun _ inside => List.mem_singleton.mp inside ▸ TraceEvent.isPlain_of_passing passing
      | gated passing stored early =>
          rw [absent] at stored
          cases stored
      | dispatched passing stored checked late =>
          rw [absent] at stored
          cases stored
    · rcases (late.deliver own delivered).goes with ⟨events, f', rfl, passing, late'⟩ |
        ⟨next, result, bytes, waiting, yielded, thens, small, queued, -⟩ |
        ⟨ℓ₁, rfl, settles, -⟩ | ⟨event, head, gas, passing, rfl, -⟩
      · have plain := fun event inside => TraceEvent.isPlain_of_passing (passing event inside)
        refine .halted (underway.onward (fun event inside =>
          TraceEvent.isMark_of_plain (plain event inside)) stores (.inr late'))
          ⟨f', update_self ..⟩ (.inr fun f₁ flying₁ => ?_) (nothing _ rfl plain) drained
        rw [Lane.onward_flight, update_self, Option.some.injEq] at flying₁
        exact flying₁ ▸ late'.undispatched
      · rw [drained] at queued
        cases queued
      · obtain ⟨events, trace, plain⟩ := settles.notes
        exact .calm (quiet_of_land underway settles.flight) (.inl (nothing _ trace plain))
      · refine .calm (quiet_of_land underway rfl) (.inl (nothing [event] rfl ?_))
        exact fun _ inside => List.mem_singleton.mp inside ▸ TraceEvent.isPlain_of_passing passing
  · obtain ⟨f', flying'⟩ := delivered.flew
    obtain ⟨stepId, gas, dormant⟩ := underway.others id' f' same flying'
    -- what the other flight leaves of the halted release
    have settled : ∀ {ℓ₁ : Lane} {events : Trace}, ℓ' = ℓ₁.land id' → Settles stepId ℓ ℓ₁ →
        ℓ₁.queue = none → ℓ₁.trace = ℓ.trace ++ events →
        (∀ event ∈ events, event.isPlain = true) → Threaded ns ℓ' context' := by
      rintro ℓ₁ events rfl settles queue trace plain
      have flights : (ℓ₁.land id').flight id = ℓ.flight id := by
        rw [Lane.land_flight, update_of_ne (Ne.symm same), settles.flight]
      refine .halted (underway.land settles (.inl queue)) ⟨f, flights.trans own⟩ ?_
        (nothing _ trace plain) queue
      refine past.imp (fun absent => ?_) fun dispatched f₁ flying₁ => ?_
      · cases stored : (ℓ₁.land id').step call.stepId with
        | none => rfl
        | some copy =>
            rw [settles.steps _ _ stored] at absent
            cases absent
      · rw [flights] at flying₁
        exact dispatched f₁ flying₁
    rcases dormant.deliver flying' delivered with ⟨event, passing, -, eq⟩ | halts
    · have plain := TraceEvent.isPlain_of_passing passing
      exact settled eq (Settles.refl.note plain) drained rfl
        fun _ inside => List.mem_singleton.mp inside ▸ plain
    · obtain ⟨ℓ₁, events, eq, settles, queue, trace, plain, -⟩ := halts.spec
      rw [eq] at trace
      exact settled eq settles queue trace fun event inside => (plain event inside).1

/-- A delivery to a lane with nothing in flight but sleeping yields. -/
theorem deliver_calm (quiet : Lane.Quiet ns ℓ) (clean : context = none ∨ ℓ.Blocked)
    (delivered : Lane.Deliver ns ℓ id ℓ') {fails : Prop}
    (filed : Lane.Filed ns id fails ℓ ℓ' context context') : Threaded ns ℓ' context' := by
  refine .calm (quiet.step (.deliver delivered) Lane.Kind.noConfusion) ?_
  obtain ⟨f, flying⟩ := delivered.flew
  obtain ⟨stepId, gas, dormant⟩ := quiet id f flying
  rcases dormant.deliver flying delivered with ⟨event, passing, -, rfl⟩ | halts
  · rcases filed.of_plain [event] rfl (fun _ inside =>
      List.mem_singleton.mp inside ▸ TraceEvent.isPlain_of_passing passing) with
        ⟨rfl, -, -⟩ | ⟨empty, -⟩
    · exact clean
    · exact .inl empty
  · obtain ⟨ℓ₁, events, rfl, -, -, trace, plain, present, dropped, -⟩ := halts.spec
    rcases filed.of_plain _ trace fun event inside => (plain event inside).1 with
      ⟨-, steps, -⟩ | ⟨empty, -⟩
    · rw [← steps, dropped] at present
      cases present
    · exact .inl empty

/-- A delivery keeps the results in their release where no release is halted by a timed-out
yield while a step of it has saved results to read, and none ends with a callback that fails
and results left behind. -/
theorem deliver (threaded : Threaded ns ℓ context) (tidy : Tidy ns ℓ)
    (created : IsManual ns ∨ IsAutomation ns ∧ ℓ.Cleaned) {id' : Nat}
    (delivered : Lane.Deliver ns ℓ id' ℓ') {fails : Prop}
    (filed : Lane.Filed ns id' fails ℓ ℓ' context context')
    (permitted : Lane.RolledBack ℓ id' ℓ' ∨ ∀ stepId gas,
      ℓ.flight id' = some ⟨.done .failed, [⟨.onStepResumed ns stepId, gas⟩]⟩ →
      (ℓ.step stepId).isSome → IsManual ns →
        (∀ id f, ℓ.flight id = some f → f.undispatched = false) ∨ context = none)
    (failing : fails → ¬ ℓ.Expired ns id' → IsAutomation ns ∨ ℓ.queue ≠ none ∨ context = none) :
    Threaded ns ℓ' context' := by
  cases threaded with
  | calm quiet clean => exact deliver_calm quiet clean delivered filed
  | halted underway flying past empty drained =>
      exact deliver_halted underway flying past empty drained delivered filed
  | running underway flying stored faithful =>
      rename_i release k id order call
      by_cases same : id' = id
      · subst same
        obtain ⟨f, own⟩ := flying
        obtain ⟨stores, ⟨gas, early⟩ | late⟩ := underway.own f own
        · exact deliver_early underway stored faithful created own stores early delivered filed
            failing
        · exact deliver_late underway stored faithful tidy own stores late created delivered filed
            failing
      · exact deliver_other underway flying stored faithful tidy created same delivered filed
          permitted

/-- What neither releases nor delivers leaves the results in their release. -/
theorem aside (threaded : Threaded ns ℓ context) (tidy : Tidy ns ℓ)
    (step : Lane.Step ns .aside ℓ ℓ') : Threaded ns ℓ' context := by
  cases threaded with
  | calm quiet clean =>
      refine .calm (quiet.step step Lane.Kind.noConfusion) (clean.imp_right fun blocked => ?_)
      cases step with
      | register manual can => exact blocked
      | expire dormant => exact blocked
      | prune stored terminal =>
          refine .inl (blocked.resolve_right ?_)
          rintro ⟨run, row, inFlight⟩
          rw [stored, Option.some.injEq] at row
          exact terminal (row ▸ inFlight)
  | running underway flying stored faithful =>
      rename_i release k id order call
      obtain ⟨f, own⟩ := flying
      obtain ⟨copy, kept⟩ := stored
      cases step with
      | register manual can =>
          rename_i yielded gasTgas
          obtain ⟨gas, record⟩ := underway.record
          have apart : id ≠ yielded.yieldId := by
            rintro rfl
            exact can.new _ _ record
          have other : call.stepId ≠ yielded.call.stepId := by
            intro clash
            rw [clash, can.absent] at kept
            cases kept
          refine .running (underway.register tidy manual can) ⟨f, ?_⟩ ⟨copy, ?_⟩ ?_
          · exact (update_of_ne apart ..).trans own
          · exact (update_of_ne other ..).trans kept
          · rw [faithful]
            exact (Trace.results_append fun _ inside => List.mem_singleton.mp inside ▸ rfl).symm
      | expire dormant =>
          rename_i id' thens
          have apart : id ≠ id' := by
            rintro rfl
            exact underway.awake dormant rfl
          refine .running (underway.expire dormant) ⟨f, ?_⟩ ⟨copy, kept⟩ faithful
          exact (update_of_ne apart ..).trans own
      | prune stored terminal =>
          exact .running (underway.keep ⟨[], (List.append_nil _).symm, fun _ inside => absurd
            inside List.not_mem_nil⟩ (fun _ queued => queued) underway.others underway.own)
            ⟨f, own⟩ ⟨copy, kept⟩ faithful
  | halted underway flying past empty drained =>
      rename_i release k id order call
      obtain ⟨f, own⟩ := flying
      cases step with
      | register manual can =>
          rename_i yielded gasTgas
          obtain ⟨gas, record⟩ := underway.record
          have apart : id ≠ yielded.yieldId := by
            rintro rfl
            exact can.new _ _ record
          obtain ⟨copy, kept, -⟩ := tidy.attached manual id f call gas own record
          have flights : (ℓ.register ns yielded gasTgas).flight id = ℓ.flight id :=
            update_of_ne apart ..
          refine .halted (underway.register tidy manual can) ⟨f, flights.trans own⟩
            (.inr fun f₁ flying₁ => ?_) empty drained
          refine past.resolve_left (fun absent => ?_) f₁ (flights ▸ flying₁)
          rw [absent] at kept
          cases kept
      | expire dormant =>
          rename_i id' thens
          have apart : id ≠ id' := by
            rintro rfl
            exact underway.awake dormant rfl
          have flights : (ℓ.putFlight id' ⟨.done .failed, thens⟩).flight id = ℓ.flight id :=
            update_of_ne apart ..
          refine .halted (underway.expire dormant) ⟨f, flights.trans own⟩ ?_ empty drained
          exact past.imp_right fun dispatched f₁ flying₁ => dispatched f₁ (flights ▸ flying₁)
      | prune stored terminal =>
          exact .halted (underway.keep ⟨[], (List.append_nil _).symm, fun _ inside => absurd
            inside List.not_mem_nil⟩ (fun _ queued => queued) underway.others underway.own)
            ⟨f, own⟩ past empty drained

/-- A lane where a release can be accepted keeps nothing for the earlier ones. -/
theorem clean (threaded : Threaded ns ℓ context) (quiet : Lane.Quiet ns ℓ)
    (free : ¬ ℓ.Blocked) : context = none := by
  cases threaded with
  | calm _ clean => exact clean.resolve_right free
  | running underway flying stored faithful =>
      obtain ⟨f, own⟩ := flying
      obtain ⟨stepId, gas, dormant⟩ := quiet _ f own
      obtain ⟨-, ⟨gas', early⟩ | late⟩ := underway.own f own
      · exact absurd dormant early.not_dormant
      · exact absurd dormant late.not_dormant
  | halted underway flying past empty drained => exact empty

/-- An accepted release finds nothing saved, and runs. -/
theorem accept (threaded : Threaded ns ℓ context) (tidy : Tidy ns ℓ) (counted : Counted ns ℓ)
    (quiet : Lane.Quiet ns ℓ) (step : Lane.Step ns .release ℓ ℓ') :
    context = none ∧ Threaded ns ℓ' context := by
  have started : ∀ {ℓ₁ ℓ₂ : Lane} {order : List String} {row : Option AutomationRun},
      Tidy ns ℓ₁ → Counted ns ℓ₁ → Lane.Quiet ns ℓ₁ → Lane.Release ns order ℓ₁ ℓ₂ →
      (IsAutomation ns → ∃ run, row = some run ∧ run.status = .inFlight) → context = none →
      Threaded ns { ℓ₂ with row := row } context := by
    rintro ℓ₁ ℓ₂ order row tidy counted quiet released inFlight rfl
    obtain ⟨first, rest, copy, rfl, stored, trace, running⟩ :=
      Running.start tidy counted quiet released inFlight
    have about : copy.call.stepId = first := ((tidy.release released).stored first copy stored).1
    refine .running running.underway running.flying ⟨copy, about ▸ stored⟩ ?_
    show _ = Trace.results ℓ₂.trace ns _
    rw [trace, Trace.results_append (fun event inside => by
      rcases List.mem_cons.mp inside with rfl | last
      · rfl
      · exact List.mem_singleton.mp last ▸ rfl), Trace.results_of_not_resumed]
    · rfl
    · intro k stepId id member
      exact absurd (counted.resumed _ _ _ _ member) (Nat.lt_irrefl _)
  cases step with
  | release manual released =>
      have rowless := tidy.manual_row manual
      have free : ¬ ℓ.Blocked := by
        rintro (queued | ⟨run, row, -⟩)
        · cases released with
          | mk shape idle known stored dormant => exact queued idle
        · rw [rowless] at row
          cases row
      have empty := threaded.clean quiet free
      refine ⟨empty, ?_⟩
      have kept : Threaded ns { ℓ' with row := ℓ'.row } context := started tidy counted quiet
        released (fun auto => absurd auto manual.not_automation) empty
      exact kept
  | fire auto absent registered released running =>
      have free : ¬ ℓ.Blocked := by
        rintro (queued | ⟨run, row, -⟩)
        · cases released with
          | mk shape idle known stored dormant => exact queued (registered.eq.1 ▸ idle)
        · rw [absent] at row
          cases row
      have empty := threaded.clean quiet free
      exact ⟨empty, started (tidy.registers registered) (counted.registers registered)
        (quiet.of_flights registered.eq.2.2.2) released (fun _ => ⟨_, rfl, running⟩) empty⟩

/-- What a transaction or a timeout makes of the lane. -/
theorem moves (threaded : Threaded ns ℓ context) (tidy : Tidy ns ℓ) (counted : Counted ns ℓ)
    (moves : Lane.Moves ns ℓ ℓ')
    (calm : ℓ'.trace.releaseCount ns ≠ ℓ.trace.releaseCount ns → Lane.Quiet ns ℓ) :
    (ℓ'.trace.releaseCount ns ≠ ℓ.trace.releaseCount ns → context = none) ∧
      Threaded ns ℓ' context := by
  obtain ⟨ℓ₁, chain, last⟩ := moves
  have reached : Threaded ns ℓ₁ context ∧ Tidy ns ℓ₁ ∧ Counted ns ℓ₁ ∧
      (Lane.Quiet ns ℓ → Lane.Quiet ns ℓ₁) ∧
      ℓ₁.trace.releaseCount ns = ℓ.trace.releaseCount ns := by
    clear last
    induction chain with
    | refl => exact ⟨threaded, tidy, counted, fun quiet => quiet, rfl⟩
    | tail _ step ih =>
        obtain ⟨threaded, tidy, counted, quiet, count⟩ := ih
        exact ⟨threaded.aside tidy step, tidy.step step, counted.step tidy step,
          fun start => (quiet start).step step Lane.Kind.noConfusion,
          step.aside_count.trans count⟩
  obtain ⟨threaded₁, tidy₁, counted₁, quiet₁, count₁⟩ := reached
  rcases last with rfl | step
  · exact ⟨fun more => absurd count₁ more, threaded₁⟩
  · have more : ℓ'.trace.releaseCount ns ≠ ℓ.trace.releaseCount ns := by
      rw [step.release_count, count₁]
      exact Nat.succ_ne_self _
    obtain ⟨empty, threaded'⟩ := threaded₁.accept tidy₁ counted₁ (quiet₁ (calm more)) step
    exact ⟨fun _ => empty, threaded'⟩

end Threaded

namespace Machine

/-! ## One release at a time -/

/-- No resumed step of the namespace is yet to be dispatched. -/
def Dispatched (m : Machine) (ns : String) : Prop :=
  ∀ id f, m.pool.get id = some f → f.addressedTo ns = true → f.undispatched = false

/-- The yield of a step has timed out, and its callback is due. -/
def Expired (m : Machine) (ns : String) (id : Nat) : Prop :=
  ∃ stepId gas, m.pool.get id = some ⟨.done .failed, [⟨.onStepResumed ns stepId, gas⟩]⟩

theorem Expired.lane {m : Machine} {ns : String} {id : Nat} (expired : m.Expired ns id) :
    (m.lane ns).Expired ns id := by
  obtain ⟨stepId, gas, stored⟩ := expired
  refine ⟨stepId, gas, lane_flight_of_addressed stored (List.cons_ne_nil _ _) fun t inside => ?_⟩
  rw [List.mem_singleton.mp inside]
  rfl

/-- The releases of the namespace follow one another.  A release is accepted while no step of
an earlier one is in flight; a manual plan is halted by a timed-out yield only where no step
of it will look for saved results that are lost with it; and no manual plan ends with a
callback that fails, at its last step, while results are saved. -/
structure SingleFile (ns : String) (m : Machine) (op : Op) : Prop where
  apart : IsManual ns ∨ Isolated (m.step op).trace ns
  accepts : (m.step op).trace.releaseCount ns ≠ m.trace.releaseCount ns → m.Quiet ns
  expires : IsManual ns → ∀ env id answer stepId gas, op = .deliver env id answer →
    m.pool.get id = some ⟨.done .failed, [⟨.onStepResumed ns stepId, gas⟩]⟩ →
    (m.getStep ns stepId).isSome → m.Dispatched ns ∨ m.context ns = none
  settles : ∀ id, m.Fails ns id op → ¬ m.Expired ns id →
    IsAutomation ns ∨ m.contract.sequenceQueue.get ns ≠ none ∨ m.context ns = none

theorem Reachable.lane_resumedOnce {m : Machine} (reachable : m.Reachable) {ns : String}
    (isolated : Isolated m.trace ns) : ResumedOnce ns (m.lane ns) :=
  (@Reachable.lane_induct ns (fun ℓ => Tidy ns ℓ ∧ ResumedOnce ns ℓ) ⟨.fresh, .fresh⟩
    (fun _ _ _ step ⟨tidy, once⟩ => ⟨tidy.step step, once.step tidy step⟩)
    m reachable isolated).2

theorem lane_releaseCount (m : Machine) (ns : String) :
    (m.lane ns).trace.releaseCount ns = m.trace.releaseCount ns :=
  Lane.releaseCount_filter m.trace ns

/-- A delivery in single file. -/
theorem threaded_delivered {m : Machine} (reachable : m.Reachable) {ns : String} {op : Op}
    (single : m.SingleFile ns op) (isolated : Isolated m.trace ns)
    (threaded : Threaded ns (m.lane ns) (m.context ns)) {id : Nat} {fails : Prop}
    (delivered : Lane.Deliver ns (m.lane ns) id ((m.step op).lane ns))
    (filed : Lane.Filed ns id fails (m.lane ns) ((m.step op).lane ns) (m.context ns)
      ((m.step op).context ns))
    (permitted : Lane.RolledBack (m.lane ns) id ((m.step op).lane ns) ∨
      ∃ env answer, op = .deliver env id answer) (failing : fails → m.Fails ns id op) :
    (m.step op).trace.releaseCount ns = m.trace.releaseCount ns ∧
      Threaded ns ((m.step op).lane ns) ((m.step op).context ns) := by
  obtain ⟨tidy, -⟩ := reachable.lane_tidy isolated
  obtain ⟨f, flying⟩ := delivered.flew
  obtain ⟨call, gas, record, -⟩ := tidy.flying id f flying
  have created : IsManual ns ∨ IsAutomation ns ∧ (m.lane ns).Cleaned :=
    (reachable.wf.created ns id call gas (List.mem_of_mem_filter record)).imp_right
      fun auto => ⟨auto, reachable.cleaned auto isolated⟩
  have steady := (Lane.Step.deliver delivered).deliver_count tidy
  rw [lane_releaseCount, lane_releaseCount] at steady
  refine ⟨steady, threaded.deliver tidy created delivered filed (permitted.imp_right ?_)
    fun failed awake => single.settles id (failing failed) fun expired => awake expired.lane⟩
  rintro ⟨env, answer, rfl⟩ stepId gas' expired present manual
  obtain ⟨stored, -⟩ := Option.filter_eq_some_iff.mp expired
  refine (single.expires manual env id answer stepId gas' rfl stored present).imp_left ?_
  intro dispatched id' f' flying'
  obtain ⟨stored', own⟩ := Option.filter_eq_some_iff.mp flying'
  exact dispatched id' f' stored' own

/-- One operation in single file. -/
theorem threaded_step {m : Machine} (reachable : m.Reachable) {ns : String} {op : Op}
    (single : m.SingleFile ns op) (threaded : Threaded ns (m.lane ns) (m.context ns)) :
    ((m.step op).trace.releaseCount ns ≠ m.trace.releaseCount ns →
        (m.step op).context ns = none) ∧
      Threaded ns ((m.step op).lane ns) ((m.step op).context ns) := by
  have isolated' : Isolated (m.step op).trace ns := single.apart.elim
    (fun manual => (reachable.wf.step op).isolated_of_manual manual) fun isolated => isolated
  have isolated := isolated'.earlier (step_trace m op)
  obtain ⟨tidy, counted⟩ := reachable.lane_tidy isolated
  have moved : Lane.Moves ns (m.lane ns) ((m.step op).lane ns) →
      (m.step op).context ns = m.context ns → _ := fun moves same => by
    have kept := threaded.moves tidy counted moves fun more => (single.accepts (by
      rwa [lane_releaseCount, lane_releaseCount] at more)).lane
    rw [lane_releaseCount, lane_releaseCount, ← same] at kept
    exact kept
  cases op with
  | transact env method =>
      exact moved (lane_transact reachable.wf env method isolated') (transact_context env m method ns)
  | timeout id =>
      exact moved (lane_timeout m id ns)
        (congrArg (fun c : Contract => c.sequenceContexts.get ns) (m.timeout_contract id))
  | deliver env id answer =>
      rcases deliver_filed reachable.wf env id answer isolated tidy with
        ⟨lane, context⟩ | ⟨delivered, filed⟩
      · have lane' : (m.step (.deliver env id answer)).lane ns = m.lane ns := lane
        exact moved (.of_eq lane') context
      · obtain ⟨steady, threaded'⟩ := threaded_delivered reachable single isolated threaded
          delivered filed (.inr ⟨env, answer, rfl⟩) .deliver
        exact ⟨fun more => absurd steady more, threaded'⟩
  | abort id answer =>
      rcases abort_filed reachable.wf id answer isolated with lane | ⟨failed, filed⟩
      · have lane' : (m.step (.abort id answer)).lane ns = m.lane ns := lane
        exact moved (.of_eq lane') (context_of_contract (m.abort_contract id answer) ns)
      · obtain ⟨steady, threaded'⟩ := threaded_delivered reachable single isolated threaded
          failed.deliver filed (.inl failed) .abort
        exact ⟨fun more => absurd steady more, threaded'⟩

/-! ## No result crosses releases -/

/-- `materialize_step_call` runs for the stored step in a callback of flight `id`. -/
def Materializes (m : Machine) (ns stepId : String) (id : Nat) (op : Op) : Prop :=
  ∃ answer head t rest result yielded,
    ((∃ env, op = .deliver env id answer) ∨ op = .abort id answer) ∧
    m.pool.get id = some ⟨head, t :: rest⟩ ∧ head.outcome answer = some result ∧
    m.getStep ns stepId = some yielded ∧ Lane.Cleared ns yielded stepId t.callback result

/-- A step that materializes belongs to a release and reads what that release has saved, and
an accepted release starts with nothing saved. -/
structure KeepsResults (ns : String) (m : Machine) (op : Op) : Prop where
  belongs : ∀ stepId id, m.Materializes ns stepId id op →
    ∃ release k, .resumed ns release k stepId id ∈ m.trace
  reads : ∀ stepId id release k at', m.Materializes ns stepId id op →
    .resumed ns release k at' id ∈ m.trace →
      (m.contract.savedResults ns).get = m.trace.results ns release
  starts : (m.step op).trace.releaseCount ns ≠ m.trace.releaseCount ns →
    (m.step op).contract.sequenceContexts.get ns = none

/-- Only a released step whose call is not dispatched materializes, and it finds the results
of its own release. -/
theorem reads_of_threaded {m : Machine} (reachable : m.Reachable) {ns stepId : String} {id : Nat}
    {op : Op} (isolated : Isolated m.trace ns)
    (threaded : Threaded ns (m.lane ns) (m.context ns))
    (materializes : m.Materializes ns stepId id op) :
    ∃ release k, .resumed ns release k stepId id ∈ m.trace ∧
      (m.contract.savedResults ns).get = m.trace.results ns release := by
  obtain ⟨answer, head, t, rest, result, yielded, -, stored, outcome, kept, cleared⟩ :=
    materializes
  obtain ⟨tidy, -⟩ := reachable.lane_tidy isolated
  have about := cleared.about
  have flying : (m.lane ns).flight id = some ⟨head, t :: rest⟩ := by
    show (m.pool.get id).filter _ = _
    rw [stored, Option.filter_some]
    simp [Flight.addressedTo, about.1]
  have here : (m.lane ns).step stepId = some yielded := kept
  have released : ∀ {sid gas}, ¬ Dormant ns sid gas ⟨head, t :: rest⟩ := by
    intro sid gas dormant
    cases dormant with
    | waiting => cases outcome
    | expired =>
        cases outcome
        cases cleared
  cases threaded with
  | calm quiet clean =>
      obtain ⟨sid, gas, dormant⟩ := quiet id _ flying
      exact absurd dormant released
  | running underway active present faithful =>
      rename_i release k mine order call
      have same : id = mine := by
        by_contra other
        obtain ⟨sid, gas, dormant⟩ := underway.others id _ other flying
        exact released dormant
      subst same
      obtain ⟨gas, record⟩ := underway.record
      obtain ⟨call', gas', record', chain⟩ := tidy.flying id _ flying
      obtain ⟨rfl, -⟩ := tidy.unique id _ _ _ _ record record'
      have own : call.stepId = stepId :=
        (chain.about t (List.mem_cons_self ..)).symm.trans about.2
      refine ⟨release, k, own ▸ List.mem_of_mem_filter underway.resumed, ?_⟩
      have results := Trace.results_filter m.trace ns release
      exact faithful.trans results
  | halted underway active past empty drained =>
      rename_i release k mine order call
      have same : id = mine := by
        by_contra other
        obtain ⟨sid, gas, dormant⟩ := underway.others id _ other flying
        exact released dormant
      subst same
      obtain ⟨-, ⟨gas, early⟩ | late⟩ := underway.own _ flying
      · have own : call.stepId = stepId := by
          obtain ⟨gas', record⟩ := underway.record
          obtain ⟨call', gas'', record', chain⟩ := tidy.flying id _ flying
          obtain ⟨rfl, -⟩ := tidy.unique id _ _ _ _ record record'
          exact (chain.about t (List.mem_cons_self ..)).symm.trans about.2
        rcases past with absent | dispatched
        · rw [own, here] at absent
          cases absent
        · have awake := dispatched _ flying
          rw [early.undispatched] at awake
          cases awake
      · exact absurd cleared late.not_cleared

/-- Where the releases of a namespace follow one another, no saved result crosses from one
to another: at every operation of the run. -/
theorem saved_results_keep_to_their_release (host : Host) (ownerId : AccountId)
    (authorizerId : Option AccountId) {ns : String} {ops : List Op}
    (singleFile : Along (SingleFile ns) (init host ownerId authorizerId) ops) :
    Along (KeepsResults ns) (init host ownerId authorizerId) ops := by
  have along : ∀ (ops : List Op) (m : Machine), m.Reachable →
      Threaded ns (m.lane ns) (m.context ns) → Along (SingleFile ns) m ops →
      Along (KeepsResults ns) m ops := by
    intro ops
    induction ops with
    | nil => exact fun _ _ _ _ => trivial
    | cons op ops ih =>
        intro m reachable threaded admitted
        obtain ⟨single, rest⟩ := admitted
        obtain ⟨starts, threaded'⟩ := threaded_step reachable single threaded
        have isolated : Isolated m.trace ns := single.apart.elim
          (fun manual => reachable.wf.isolated_of_manual manual)
          fun isolated => isolated.earlier (step_trace m op)
        refine ⟨⟨fun stepId id materializes => ?_, fun stepId id release k at' materializes
          resumed => ?_, starts⟩, ih _ (reachable.run [op]) threaded' rest⟩
        · obtain ⟨release, k, resumed, -⟩ :=
            reads_of_threaded reachable isolated threaded materializes
          exact ⟨release, k, resumed⟩
        · obtain ⟨release', k', resumed', reads⟩ :=
            reads_of_threaded reachable isolated threaded materializes
          have heard : ∀ {release k stepId}, .resumed ns release k stepId id ∈ m.trace →
              .resumed ns release k stepId id ∈ (m.lane ns).trace := fun inside =>
            List.mem_filter.mpr ⟨inside, by simp [TraceEvent.concerns,
              TraceEvent.sequenceNamespace]⟩
          rw [(reachable.lane_resumedOnce isolated).once _ _ _ _ _ _ _ (heard resumed)
            (heard resumed')]
          exact reads
  refine along ops _ (.init host ownerId authorizerId) (.calm ?_ (.inl rfl)) singleFile
  exact fun id f flying => absurd flying (Option.some_ne_none f).symm

/-! ## A threaded plan and a leak -/

/-- A step that saves what the market returns as its price. -/
def savingStep (stepId : String) : Step :=
  { plainStep stepId with saveResult := some ⟨"price", .u128Json⟩ }

/-- A step that spends half of the saved price. -/
def spendingStep (stepId : String) : Step :=
  { plainStep stepId with
    argsTemplate := some ⟨utf8Bytes "[\"$\x7bprice\x7d\"]", [⟨"price", .percentU128 5000⟩]⟩ }

/-- The market returns a price of nine. -/
def priced : PromiseResult := .successful (utf8Bytes "\"9\"")

/-- An operation that releases nothing in a manual namespace where nothing has timed out, and
where results are saved only while steps wait. -/
theorem SingleFile.of_steady {ns : String} (manual : IsManual ns) {m : Machine} {op : Op}
    (steady : (m.step op).trace.releaseCount ns = m.trace.releaseCount ns)
    (awake : m.awake = true)
    (waits : (m.contract.sequenceQueue.get ns).isSome ∨ (m.context ns).isNone) :
    SingleFile ns m op where
  apart := .inl manual
  accepts more := absurd steady more
  expires _ _ _ _ _ _ _ flying _ := absurd rfl (awake_iff awake flying)
  settles _ _ _ := .inr (waits.imp Option.isSome_iff_ne_none.mp Option.isNone_iff_eq_none.mp)

/-- The second of three steps spends what the first one saved. -/
theorem saved_results_keep_to_their_release_three_steps :
    Along (KeepsResults (manualNamespace alice)) deployed
      [.transact aliceEnv (.executeSteps [savingStep "a", spendingStep "b", plainStep "c"]),
        .deliver aliceEnv 0 okResult, .deliver aliceEnv 0 priced, .deliver aliceEnv 1 okResult] := by
  have steady : ∀ {m : Machine} {op : Op},
      (m.step op).trace.releaseCount (manualNamespace alice) =
        m.trace.releaseCount (manualNamespace alice) → m.awake = true →
      (m.contract.sequenceQueue.get (manualNamespace alice)).isSome ∨
        (m.context (manualNamespace alice)).isNone →
      SingleFile (manualNamespace alice) m op := .of_steady ⟨alice, rfl⟩
  have opens : SingleFile (manualNamespace alice) deployed
      (.transact aliceEnv (.executeSteps [savingStep "a", spendingStep "b", plainStep "c"])) := by
    refine ⟨.inl ⟨alice, rfl⟩, fun _ id f flying => ?_, fun _ env id answer stepId gas same => ?_,
      fun id failing => ?_⟩
    · cases flying
    · cases same
    · cases failing
  refine saved_results_keep_to_their_release aliceHost alice none ⟨opens, ?_, ?_, ?_, trivial⟩
  · exact steady (by decide) (by decide) (by decide)
  · exact steady (by decide) (by decide) (by decide)
  · exact steady (by decide) (by decide) (by decide)

/-- Step `b` of Alice's first plan is in flight, the price saved by step `a`, when her second
plan is accepted. -/
def leaking : Machine :=
  deployed.run [.transact aliceEnv (.executeSteps [savingStep "a", plainStep "b"]),
    .deliver aliceEnv 0 okResult, .deliver aliceEnv 0 priced,
    .transact aliceEnv (.executeSteps [spendingStep "c"])]

/-- The step of the second plan reads the price that the first one saved. -/
theorem second_plan_reads_first_plans_price : ∃ (m : Machine) (ns : String) (op : Op),
    m.Reachable ∧ ¬ m.KeepsResults ns op := by
  refine ⟨leaking, manualNamespace alice, .deliver aliceEnv 2 okResult,
    deployed_reachable.run _, fun keeps => ?_⟩
  have materializes : leaking.Materializes (manualNamespace alice) "c" 2
      (.deliver aliceEnv 2 okResult) :=
    ⟨okResult, .done resumeSignal,
      ⟨.onStepResumed (manualNamespace alice) "c", resumeCallbackGas (spendingStep "c")⟩, [],
      resumeSignal, ⟨2, spendingStep "c", 0⟩, .inl ⟨aliceEnv, rfl⟩, by decide, rfl, by decide,
      .ungated rfl⟩
  have resumed : .resumed (manualNamespace alice) 1 0 "c" 2 ∈ leaking.trace := by decide
  have reads := congrFun (keeps.reads "c" 2 1 0 "c" materializes resumed) "price"
  have saved : (leaking.contract.savedResults (manualNamespace alice)).get "price" =
      some (utf8Bytes "\"9\"") := by decide
  have own : leaking.trace.results (manualNamespace alice) 1 "price" = none := by decide
  rw [saved, own] at reads
  cases reads

end Machine

end SmartAccount
