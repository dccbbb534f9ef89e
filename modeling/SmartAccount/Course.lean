import SmartAccount.Running

/-!
# The course of a release

`Course` follows one release from its acceptance to its end, in a lane where every later
release is accepted in quiet and no timeout takes the queue from under a step in flight.
The flights that can speak for the release are those of its own copies (`Own`): none of
them speaks while the release runs, and at most one does when it ends.
-/

namespace SmartAccount

open Foundation Function

/-! ## The copies of a release -/

/-- A copy of the release: one of its members, or resumed for it. -/
def Own (ns : String) (release : Nat) (member : Nat → Prop) (t : Trace) (id : Nat) : Prop :=
  member id ∨ ∃ k stepId, .resumed ns release k stepId id ∈ t

/-- A registered copy whose flight is over. -/
def Spent (ns : String) (ℓ : Lane) (id : Nat) : Prop :=
  ℓ.flight id = none ∧ ∃ call gas, .registered ns id call gas ∈ ℓ.trace

theorem Spent.step {ns : String} {kind : Lane.Kind} {ℓ ℓ' : Lane} {id : Nat} (tidy : Tidy ns ℓ)
    (spent : Spent ns ℓ id) (step : Lane.Step ns kind ℓ ℓ') (longer : ℓ.trace <+: ℓ'.trace) :
    Spent ns ℓ' id := by
  obtain ⟨gone, call, gas, record⟩ := spent
  exact ⟨step.spent tidy gone record, call, gas, longer.subset record⟩

/-- The last step of an order was resumed and vouched for before its sequence completed. -/
def Concluded (ns : String) (release : Nat) (order : List String) (event : TraceEvent)
    (past : Trace) : Prop :=
  ∀ stepId id n, event = .emitted (some id) (.sequenceCompleted ns stepId n) →
    (∃ k at', .resumed ns release k at' id ∈ past) → ∃ k call gas, k + 1 = order.length ∧
      order[k]? = some call.stepId ∧ .resumed ns release k call.stepId id ∈ past ∧
      .registered ns id call gas ∈ past ∧ Vouched ns id call past

theorem Concluded.of_not {ns : String} {release : Nat} {order : List String} {event : TraceEvent}
    {past : Trace} (other : ∀ id stepId n, event ≠ .emitted (some id) (.sequenceCompleted ns
      stepId n)) : Concluded ns release order event past :=
  fun stepId id n same => absurd same (other id stepId n)

/-! ## The course of a release -/

/-- What is known of a running release's copies: those resumed before the current one are
over, its members wait or are over, and none of them has spoken. -/
structure Attended (ns : String) (release : Nat) (order : List String) (member : Nat → Prop)
    (k id : Nat) (ℓ : Lane) : Prop where
  spent : ∀ k' stepId id', .resumed ns release k' stepId id' ∈ ℓ.trace → id' = id ∨ Spent ns ℓ id'
  members : ∀ id', member id' → id' = id ∨ Spent ns ℓ id' ∨
    ∃ stepId ∈ order.drop (k + 1), ∃ copy, ℓ.step stepId = some copy ∧ copy.yieldId = id'
  silent : ∀ id' event, Own ns release member ℓ.trace id' → .emitted (some id') event ∉ ℓ.trace

inductive Course (ns : String) (release : Nat) (order : List String) (member : Nat → Prop)
    (ℓ : Lane) : Prop
  | running {k id : Nat} {call : Step} (running : Running ns release order k id call ℓ)
      (attended : Attended ns release order member k id ℓ) : Course ns release order member ℓ
  | ended (accepted : release < ℓ.trace.releaseCount ns)
      (calm : ℓ.trace.releaseCount ns = release + 1 → Lane.Quiet ns ℓ)
      (spent : ∀ k stepId id, .resumed ns release k stepId id ∈ ℓ.trace → Spent ns ℓ id)
      (verdict : (∀ k at' id stepId n, .resumed ns release k at' id ∈ ℓ.trace →
          .emitted (some id) (.sequenceCompleted ns stepId n) ∉ ℓ.trace) ∨
        ∀ id, Own ns release member ℓ.trace id → Spent ns ℓ id ∧
          ∀ data, .emitted (some id) (.sequenceHalted data) ∉ ℓ.trace) :
      Course ns release order member ℓ

section Steps

variable {ns : String} {release : Nat} {order : List String} {member : Nat → Prop} {k id : Nat}
  {call : Step} {ℓ ℓ' : Lane} {kind : Lane.Kind} {events : Trace}

theorem Own.of_append (trace : ℓ'.trace = ℓ.trace ++ events)
    (marks : ∀ k stepId id, .resumed ns release k stepId id ∉ events) {id' : Nat}
    (own : Own ns release member ℓ'.trace id') : Own ns release member ℓ.trace id' := by
  refine own.imp_right fun ⟨k', stepId, resumed⟩ => ?_
  rw [trace, List.mem_append] at resumed
  exact ⟨k', stepId, resumed.resolve_right (marks _ _ _)⟩

/-- The release stays where it is. -/
theorem Attended.keep (attended : Attended ns release order member k id ℓ) (tidy : Tidy ns ℓ)
    (step : Lane.Step ns kind ℓ ℓ') (trace : ℓ'.trace = ℓ.trace ++ events)
    (marks : ∀ k stepId id, .resumed ns release k stepId id ∉ events)
    (steps : ∀ stepId ∈ order.drop (k + 1), ∀ copy, ℓ.step stepId = some copy →
      ℓ'.step stepId = some copy)
    (mute : ∀ id' event, .emitted (some id') event ∈ events →
      ¬ Own ns release member ℓ.trace id') : Attended ns release order member k id ℓ' where
  spent k' stepId id' resumed := by
    rw [trace, List.mem_append] at resumed
    exact (attended.spent k' stepId id' (resumed.resolve_right (marks _ _ _))).imp_right
      fun spent => spent.step tidy step ⟨events, trace.symm⟩
  members id' inside := by
    rcases attended.members id' inside with same | spent | ⟨stepId, ahead, copy, stored, same⟩
    · exact .inl same
    · exact .inr (.inl (spent.step tidy step ⟨events, trace.symm⟩))
    · exact .inr (.inr ⟨stepId, ahead, copy, steps stepId ahead copy stored, same⟩)
  silent id' event own emitted := by
    have mine := own.of_append trace marks
    rw [trace, List.mem_append] at emitted
    rcases emitted with old | new
    · exact attended.silent id' event mine old
    · exact mute id' event new mine

/-- At the last step every copy but the current one is over. -/
theorem Attended.last (attended : Attended ns release order member k id ℓ)
    (last : k + 1 = order.length) {id' : Nat} (own : Own ns release member ℓ.trace id') :
    id' = id ∨ Spent ns ℓ id' := by
  rcases own with inside | ⟨k', stepId, resumed⟩
  · rcases attended.members id' inside with same | spent | ⟨stepId, ahead, -⟩
    · exact .inl same
    · exact .inr spent
    · rw [List.drop_eq_nil_iff.mpr (Nat.le_of_eq last.symm)] at ahead
      cases ahead
  · exact attended.spent k' stepId id' resumed

/-- The flight of the current copy is over. -/
theorem Course.close (running : Running ns release order k id call ℓ)
    (attended : Attended ns release order member k id ℓ) (tidy : Tidy ns ℓ) {stepId : String}
    {ℓ₁ : Lane} (step : Lane.Step ns kind ℓ (ℓ₁.land id)) (settles : Settles stepId ℓ ℓ₁)
    (trace : ℓ₁.trace = ℓ.trace ++ events)
    (verdict : (∀ by_ stepId n, .emitted by_ (.sequenceCompleted ns stepId n) ∉ events) ∨
      k + 1 = order.length ∧ ∀ by_ data, .emitted by_ (.sequenceHalted data) ∉ events) :
    Course ns release order member (ℓ₁.land id) := by
  obtain ⟨events', trace', plain⟩ := settles.notes
  have same : events' = events := List.append_cancel_left (trace'.symm.trans trace)
  subst same
  have marks : ∀ k stepId id, .resumed ns release k stepId id ∉ events' := by
    intro k stepId id inside
    cases plain _ inside
  have count : (ℓ₁.land id).trace.releaseCount ns = ℓ.trace.releaseCount ns := by
    show ℓ₁.trace.releaseCount ns = _
    rw [trace, Trace.releaseCount_append, Trace.releaseCount_unmarked
      (fun event inside => TraceEvent.isMark_of_plain (plain event inside)), Nat.add_zero]
  have latest := running.underway.latest
  have longer : ℓ.trace <+: (ℓ₁.land id).trace := ⟨events', trace.symm⟩
  obtain ⟨gas, record⟩ := running.underway.record
  have current : Spent ns (ℓ₁.land id) id := ⟨by simp, call, gas, longer.subset record⟩
  have finished : ∀ id', id' = id ∨ Spent ns ℓ id' → Spent ns (ℓ₁.land id) id' := by
    intro id' done
    rcases done with rfl | spent
    · exact current
    · exact spent.step tidy step longer
  have trace'' : (ℓ₁.land id).trace = ℓ.trace ++ events' := trace
  refine .ended (by omega) (fun _ id' f flying => ?_) (fun k' at' id' resumed => ?_) ?_
  · have apart : id' ≠ id := by
      intro same
      rw [same, Lane.land_flight, update_self] at flying
      cases flying
    rw [Lane.land_flight, update_of_ne apart, settles.flight] at flying
    exact running.underway.others id' f apart flying
  · rw [trace'', List.mem_append] at resumed
    exact finished id' (attended.spent k' at' id' (resumed.resolve_right (marks _ _ _)))
  · refine verdict.imp (fun incomplete => ?_) fun ⟨last, unhalted⟩ => ?_
    · intro k' at' id' stepId' n resumed emitted
      have mine : Own ns release member ℓ.trace id' :=
        Own.of_append trace'' marks (.inr ⟨k', at', resumed⟩)
      rw [trace'', List.mem_append] at emitted
      exact emitted.elim (attended.silent id' _ mine) (incomplete _ _ _)
    · intro id' own
      have mine := own.of_append trace'' marks
      refine ⟨finished id' (attended.last last mine), fun data emitted => ?_⟩
      rw [trace'', List.mem_append] at emitted
      exact emitted.elim (attended.silent id' _ mine) (unhalted _ _)

/-- The next step of the order is resumed. -/
theorem Attended.advance (attended : Attended ns release order member k id ℓ)
    (running : Running ns release order k id call ℓ) (tidy : Tidy ns ℓ) (voiced : Voiced ns ℓ)
    {result : PromiseResult} {next : String} {waiting : List String} {yielded : RegisteredStep}
    {thens : List Then} (queued : ℓ.queue = some (next :: waiting))
    (stored : ℓ.step next = some yielded)
    (advanced : ℓ' = (((ℓ.resolved ns id call.stepId result waiting).resume ns next
      yielded.yieldId thens).land id))
    (step : Lane.Step ns kind ℓ ℓ') :
    Attended ns release order member (k + 1) yielded.yieldId ℓ' := by
  have trace : ℓ'.trace = ℓ.trace ++ [.delivered id (.onStepResolved ns call.stepId) result,
      .resumed ns release (k + 1) next yielded.yieldId] := by
    rw [advanced, running.underway.advance_trace, List.append_assoc]
    rfl
  have longer : ℓ.trace <+: ℓ'.trace := ⟨_, trace.symm⟩
  have ahead : order.drop (k + 1) = next :: waiting := (running.underway.queue _ queued).symm
  have rest : order.drop (k + 1 + 1) = waiting := by
    rw [← List.tail_drop, ahead, List.tail_cons]
  obtain ⟨gas, record⟩ := running.underway.record
  have landed : ℓ'.flight id = none := by
    rw [advanced]
    exact update_self ..
  have current : Spent ns ℓ' id := ⟨landed, call, gas, longer.subset record⟩
  have finished : ∀ id', id' = id ∨ Spent ns ℓ id' → Spent ns ℓ' id' := by
    intro id' done
    rcases done with rfl | spent
    · exact current
    · exact spent.step tidy step longer
  have marks : ∀ k' stepId id', .resumed ns release k' stepId id' ∈ ℓ'.trace →
      .resumed ns release k' stepId id' ∈ ℓ.trace ∨ id' = yielded.yieldId := by
    intro k' stepId id' resumed
    rw [trace, List.mem_append] at resumed
    refine resumed.imp (fun old => old) fun new => ?_
    simp only [List.mem_cons, reduceCtorEq, TraceEvent.resumed.injEq, List.not_mem_nil, or_false,
      false_or] at new
    exact new.2.2.2.2
  refine ⟨fun k' stepId id' resumed => ?_, fun id' inside => ?_, fun id' event own emitted => ?_⟩
  · rcases marks k' stepId id' resumed with old | new
    · exact .inr (finished id' (attended.spent k' stepId id' old))
    · exact .inl new
  · rcases attended.members id' inside with same | spent | ⟨stepId, later, copy, kept, same⟩
    · exact .inr (.inl (finished id' (.inl same)))
    · exact .inr (.inl (finished id' (.inr spent)))
    · rw [ahead] at later
      rcases List.mem_cons.mp later with rfl | later
      · rw [stored, Option.some.injEq] at kept
        exact .inl (kept ▸ same.symm)
      · by_cases here : stepId = call.stepId
        · obtain ⟨f, flying⟩ := running.flying
          have own := (running.underway.own f flying).1 copy (here ▸ kept)
          exact .inr (.inl (finished id' (.inl (same.symm.trans own.1))))
        · refine .inr (.inr ⟨stepId, rest ▸ later, copy, ?_, same⟩)
          rw [advanced]
          exact (update_of_ne here _ _).trans kept
  · have old : .emitted (some id') event ∈ ℓ.trace := by
      rw [trace, List.mem_append] at emitted
      exact emitted.resolve_right (by simp)
    rcases own with inside | ⟨k', stepId, resumed⟩
    · exact attended.silent id' event (.inl inside) old
    · rcases marks k' stepId id' resumed with before | rfl
      · exact attended.silent id' event (.inr ⟨k', stepId, before⟩) old
      · exact voiced.dropped _ event old next yielded stored rfl

/-! ## Deliveries -/

/-- Events after which nothing new has completed. -/
theorem Concluded.append {t : Trace} (concluded : Guarded (Concluded ns release order) t)
    (incomplete : ∀ by_ stepId n, .emitted by_ (.sequenceCompleted ns stepId n) ∉ events) :
    Guarded (Concluded ns release order) (t ++ events) :=
  concluded.append fun _ inside _ => .of_not fun id stepId n same =>
    incomplete (some id) stepId n (same ▸ inside)

theorem not_completed_of_free (free : ∀ event ∈ events, event.isFree = true)
    (by_ : Option Nat) (stepId : String) (n : Nat) :
    .emitted by_ (.sequenceCompleted ns stepId n) ∉ events := by
  intro inside
  cases free _ inside

/-- The current flight moves on within its phases. -/
theorem Course.onward (running : Running ns release order k id call ℓ)
    (attended : Attended ns release order member k id ℓ) (tidy : Tidy ns ℓ)
    (concluded : Guarded (Concluded ns release order) ℓ.trace) {f : Flight}
    (own : StoresOwn ℓ id call) (plain : ∀ event ∈ events, event.isMark = false)
    (mute : ∀ by_ event, .emitted by_ event ∉ events)
    (phase : (∃ gas, Early ns id call gas (ℓ.trace ++ events) f) ∨
      Late ns id call (ℓ.trace ++ events) f)
    (step : Lane.Step ns kind ℓ (ℓ.onward events id f)) :
    Course ns release order member (ℓ.onward events id f) ∧
      Guarded (Concluded ns release order) (ℓ.onward events id f).trace := by
  refine ⟨.running (running.keep (running.underway.onward plain own phase)
    ⟨f, update_self ..⟩ rfl rfl) (attended.keep tidy step rfl ?_ (fun _ _ _ stored => stored) ?_),
    Concluded.append concluded fun by_ stepId n => mute by_ _⟩
  · intro k stepId id inside
    cases plain _ inside
  · exact fun id' event inside => absurd inside (mute _ _)

/-- The current flight ends without completing its sequence. -/
theorem Course.fail (running : Running ns release order k id call ℓ)
    (attended : Attended ns release order member k id ℓ) (tidy : Tidy ns ℓ)
    (concluded : Guarded (Concluded ns release order) ℓ.trace) {stepId : String} {ℓ₁ : Lane}
    (step : Lane.Step ns kind ℓ (ℓ₁.land id)) (settles : Settles stepId ℓ ℓ₁)
    (trace : ℓ₁.trace = ℓ.trace ++ events)
    (incomplete : ∀ by_ stepId n, .emitted by_ (.sequenceCompleted ns stepId n) ∉ events) :
    Course ns release order member (ℓ₁.land id) ∧
      Guarded (Concluded ns release order) (ℓ₁.land id).trace := by
  refine ⟨.close running attended tidy step settles trace (.inl incomplete), ?_⟩
  rw [Lane.land_trace, trace]
  exact Concluded.append concluded incomplete

theorem Course.fall (running : Running ns release order k id call ℓ)
    (attended : Attended ns release order member k id ℓ) (tidy : Tidy ns ℓ)
    (concluded : Guarded (Concluded ns release order) ℓ.trace) {stepId : String} {ℓ₁ : Lane}
    (step : Lane.Step ns kind ℓ (ℓ₁.land id)) (falls : Lane.Falls stepId ℓ ℓ₁) :
    Course ns release order member (ℓ₁.land id) ∧
      Guarded (Concluded ns release order) (ℓ₁.land id).trace := by
  obtain ⟨events, trace, free⟩ := falls.notes
  exact Course.fail running attended tidy concluded step falls.settles trace
    (not_completed_of_free free)

/-- The current flight ends without a word. -/
theorem Course.pass (running : Running ns release order k id call ℓ)
    (attended : Attended ns release order member k id ℓ) (tidy : Tidy ns ℓ)
    (concluded : Guarded (Concluded ns release order) ℓ.trace) {event : TraceEvent}
    (passing : event.isPassing = true) (step : Lane.Step ns kind ℓ ((ℓ.note event).land id)) :
    Course ns release order member ((ℓ.note event).land id) ∧
      Guarded (Concluded ns release order) ((ℓ.note event).land id).trace := by
  have noted : Settles call.stepId ℓ (ℓ.note event) :=
    Settles.refl.note (TraceEvent.isPlain_of_passing passing)
  refine Course.fail running attended tidy concluded step noted rfl ?_
  exact not_completed_of_free (by simpa using TraceEvent.isFree_of_passing passing)

/-- A delivery to the current copy before its dispatch. -/
theorem Course.deliver_early (running : Running ns release order k id call ℓ)
    (attended : Attended ns release order member k id ℓ) (tidy : Tidy ns ℓ)
    (concluded : Guarded (Concluded ns release order) ℓ.trace) {gas : Nat}
    (own : StoresOwn ℓ id call) (step : Lane.Step ns kind ℓ ℓ')
    (outcome : EarlyOutcome ns id call gas ℓ ℓ') :
    Course ns release order member ℓ' ∧ Guarded (Concluded ns release order) ℓ'.trace := by
  have mute : ∀ {events : Trace}, (∀ event ∈ events, event.isPassing = true) →
      ∀ by_ event, .emitted by_ event ∉ events := by
    intro events passing by_ event inside
    cases passing _ inside
  cases outcome with
  | lapsed passing absent => exact Course.pass running attended tidy concluded passing step
  | refused passing => exact Course.pass running attended tidy concluded passing step
  | halted halts =>
      obtain ⟨ℓ₁, rfl, falls⟩ := Lane.Falls.of_halts halts
      exact Course.fall running attended tidy concluded step falls
  | gated passing stored early =>
      refine Course.onward running attended tidy concluded own (fun event inside => ?_) (mute passing)
        (.inl ⟨gas, early⟩) step
      exact TraceEvent.isMark_of_free (TraceEvent.isFree_of_passing (passing event inside))
  | dispatched passing stored checked late =>
      refine Course.onward running attended tidy concluded own ?_ ?_ (.inr late) step
      · refine List.forall_mem_cons.mpr
          ⟨TraceEvent.isMark_of_free (TraceEvent.isFree_of_passing passing), ?_⟩
        simp [dispatchStory, TraceEvent.isMark]
      · intro by_ event inside
        rcases List.mem_cons.mp inside with rfl | inside
        · cases passing
        · simp [dispatchStory] at inside

/-- A delivery to the current copy after its dispatch. -/
theorem Course.deliver_late (running : Running ns release order k id call ℓ)
    (attended : Attended ns release order member k id ℓ) (tidy : Tidy ns ℓ) (voiced : Voiced ns ℓ)
    (concluded : Guarded (Concluded ns release order) ℓ.trace) (own : StoresOwn ℓ id call)
    (step : Lane.Step ns kind ℓ ℓ') (outcome : LateOutcome ns id call ℓ ℓ') :
    Course ns release order member ℓ' ∧ Guarded (Concluded ns release order) ℓ'.trace := by
  cases outcome with
  | refused passing => exact Course.pass running attended tidy concluded passing step
  | followed passing late =>
      refine Course.onward running attended tidy concluded own (fun event inside => ?_) ?_
        (.inr late) step
      · exact TraceEvent.isMark_of_free (TraceEvent.isFree_of_passing (passing event inside))
      · intro by_ event inside
        cases passing _ inside
  | advanced small vouched queued other stored dormant =>
      refine ⟨.running (running.advance tidy queued other stored dormant)
        (attended.advance running tidy voiced queued stored rfl step), ?_⟩
      rw [running.underway.advance_trace, List.append_assoc]
      exact Concluded.append concluded (by simp)
  | stuck small queued about =>
      exact Course.fall running attended tidy concluded step (.of_stuck _ _)
  | completed small vouched drained =>
      rename_i bytes result env
      obtain ⟨closing, trace, finished⟩ :=
        ℓ.complete_trace ns env id call.stepId result bytes.length
      obtain ⟨gas, record⟩ := running.underway.record
      have last := running.drained drained
      refine ⟨.close running attended tidy step (ℓ.complete_settles ns env id call.stepId result _)
        (trace.trans (List.append_assoc ..) |>.trans (List.append_assoc ..)) (.inr ⟨last, ?_⟩), ?_⟩
      · intro by_ data inside
        simp only [List.cons_append, List.nil_append, List.mem_cons, reduceCtorEq,
          TraceEvent.emitted.injEq, and_false, false_or] at inside
        obtain ⟨data', same⟩ := finished _ inside
        cases same
      · rw [Lane.land_trace, trace]
        refine Concluded.append (Guarded.snoc.mpr ⟨Guarded.snoc.mpr ⟨concluded,
          .of_not fun _ _ _ same => by cases same⟩, ?_⟩) ?_
        · intro stepId id' n same _
          cases same
          exact ⟨k, call, gas, last, running.underway.here,
            List.mem_append_left _ running.underway.resumed, List.mem_append_left _ record, vouched⟩
        · intro by_ stepId n inside
          obtain ⟨data', same⟩ := finished _ inside
          cases same
  | failed failure => exact Course.fall running attended tidy concluded step (.of_failed _)

end Steps

/-! ## Lane steps -/

/-- A timed-out copy may be delivered only in quiet, or, in a manual namespace, while
nothing waits in the queue. -/
def Lane.Permits (ns : String) (ℓ : Lane) (id : Nat) : Prop :=
  ∀ stepId gas, ℓ.flight id = some ⟨.done .failed, [⟨.onStepResumed ns stepId, gas⟩]⟩ →
    (ℓ.step stepId).isSome → Lane.Quiet ns ℓ ∨ IsManual ns ∧ ℓ.queue = none

/-- What is delivered in a quiet lane resumes and completes nothing. -/
theorem Lane.Quiet.deliver {ns : String} {id : Nat} {ℓ ℓ' : Lane} (quiet : Lane.Quiet ns ℓ)
    (delivered : Lane.Deliver ns ℓ id ℓ') : ∃ events : Trace, ℓ'.trace = ℓ.trace ++ events ∧
      ∀ event ∈ events, event.isFree = true := by
  obtain ⟨f, flying⟩ := delivered.flew
  obtain ⟨stepId, gas, dormant⟩ := quiet id f flying
  rcases dormant.deliver flying delivered with ⟨event, passing, -, rfl⟩ | halts
  · exact ⟨[event], rfl, by simpa using TraceEvent.isFree_of_passing passing⟩
  · obtain ⟨ℓ₁, rfl, falls⟩ := Lane.Falls.of_halts halts
    exact falls.notes

/-- Nothing is delivered to a yield that still waits. -/
theorem Lane.Deliver.awake {ns : String} {id : Nat} {ℓ ℓ' : Lane} {f : Flight}
    (delivered : Lane.Deliver ns ℓ id ℓ') (flying : ℓ.flight id = some f) : f.head ≠ .yielded := by
  intro asleep
  have due : ∀ {head : Head} {t : Then} {rest : List Then} {result : PromiseResult},
      Lane.Due ℓ id head t rest result → False := by
    intro head t rest result ⟨waiting, answer, outcome⟩
    rw [flying, Option.some.injEq] at waiting
    rw [waiting] at asleep
    cases asleep
    cases outcome
  cases delivered with
  | ran here effect => exact due here
  | rolledBack here => exact due here

namespace Course

variable {ns : String} {release : Nat} {order : List String} {member : Nat → Prop} {k id : Nat}
  {call : Step} {ℓ ℓ' : Lane}

/-- Another flight than the current copy's ends without a word. -/
theorem pass_other (running : Running ns release order k id call ℓ)
    (attended : Attended ns release order member k id ℓ) (tidy : Tidy ns ℓ)
    (concluded : Guarded (Concluded ns release order) ℓ.trace) {id' : Nat} (other : id' ≠ id)
    {event : TraceEvent} (passing : event.isPassing = true) {kind : Lane.Kind}
    (step : Lane.Step ns kind ℓ ((ℓ.note event).land id')) :
    Course ns release order member ((ℓ.note event).land id') ∧
      Guarded (Concluded ns release order) ((ℓ.note event).land id').trace := by
  obtain ⟨f, mine⟩ := running.flying
  have plain := TraceEvent.isPlain_of_passing passing
  have noted : Settles call.stepId ℓ (ℓ.note event) := Settles.refl.note plain
  refine ⟨.running (running.keep (running.underway.land noted (.inr rfl))
    ⟨f, (update_of_ne (Ne.symm other) _ _).trans mine⟩ rfl rfl)
    (attended.keep tidy step rfl ?_ (fun _ _ _ stored => stored) ?_),
    Concluded.append concluded
      (not_completed_of_free (by simpa using TraceEvent.isFree_of_passing passing))⟩
  · intro k' stepId id'' inside
    cases List.mem_singleton.mp inside
    cases plain
  · intro id'' event' inside
    cases List.mem_singleton.mp inside
    cases passing

/-- A delivery to another flight than the current copy's. -/
theorem deliver_other (running : Running ns release order k id call ℓ)
    (attended : Attended ns release order member k id ℓ) (tidy : Tidy ns ℓ)
    (concluded : Guarded (Concluded ns release order) ℓ.trace) {id' : Nat} (other : id' ≠ id)
    (permitted : Lane.Permits ns ℓ id' ∨ Lane.RolledBack ℓ id' ℓ')
    (delivered : Lane.Deliver ns ℓ id' ℓ') :
    Course ns release order member ℓ' ∧ Guarded (Concluded ns release order) ℓ'.trace := by
  obtain ⟨f, flying⟩ := delivered.flew
  obtain ⟨stepId, gas, dormant⟩ := running.underway.others id' f other flying
  obtain ⟨f', mine⟩ := running.flying
  have step : Lane.Step ns (.deliver id') ℓ ℓ' := .deliver delivered
  rcases permitted.symm with failed | allowed
  · obtain ⟨callback, result, rfl⟩ := dormant.rolledBack flying failed
    exact pass_other running attended tidy concluded other rfl step
  rcases dormant.deliver flying delivered with ⟨event, passing, -, rfl⟩ | halts
  · exact pass_other running attended tidy concluded other passing step
  · obtain ⟨call', gas', -, chain⟩ := tidy.flying id' f flying
    obtain ⟨events, trace, last⟩ := delivered.speaks flying chain
    have stored : (ℓ.step stepId).isSome := by
      cases halts with
      | mk passing stored unsuccessful about => exact Option.isSome_iff_exists.mpr ⟨_, stored⟩
    obtain ⟨ℓ₁, rfl, settles, empty, -, events', trace', free⟩ := Lane.Falls.of_halts halts
    have same : events' = events := List.append_cancel_left (trace'.symm.trans trace)
    subst same
    have expired : ℓ.flight id' = some ⟨.done .failed, [⟨.onStepResumed ns stepId, gas⟩]⟩ := by
      cases dormant with
      | waiting => exact absurd rfl (delivered.awake flying)
      | expired => exact flying
    obtain ⟨manual, drained⟩ :=
      (allowed stepId gas expired stored).resolve_left running.not_quiet
    have final := running.drained (.inl drained)
    have row := tidy.manual_row manual
    refine ⟨.running (running.keep (running.underway.land settles (.inl empty))
      ⟨f', ?_⟩ (empty.trans drained.symm) ((settles.row row).trans row.symm))
      (attended.keep tidy step trace ?_ ?_ ?_), ?_⟩
    · rw [Lane.land_flight, update_of_ne (Ne.symm other), settles.flight, mine]
    · intro k' stepId' id'' inside
      cases free _ inside
    · intro stepId' ahead
      rw [List.drop_eq_nil_iff.mpr (Nat.le_of_eq final.symm)] at ahead
      cases ahead
    · intro id'' event inside own
      obtain ⟨same, -, -⟩ := last _ event inside
      cases same
      rcases attended.last final own with eq | ⟨gone, -⟩
      · exact other eq
      · cases gone.symm.trans flying
    · rw [trace]
      exact Concluded.append concluded (not_completed_of_free free)

/-- A lane step after the end of the release. -/
theorem after (accepted : release < ℓ.trace.releaseCount ns)
    (calm : ℓ.trace.releaseCount ns = release + 1 → Lane.Quiet ns ℓ)
    (spent : ∀ k stepId id, .resumed ns release k stepId id ∈ ℓ.trace → Spent ns ℓ id)
    (verdict : (∀ k at' id stepId n, .resumed ns release k at' id ∈ ℓ.trace →
        .emitted (some id) (.sequenceCompleted ns stepId n) ∉ ℓ.trace) ∨
      ∀ id, Own ns release member ℓ.trace id → Spent ns ℓ id ∧
        ∀ data, .emitted (some id) (.sequenceHalted data) ∉ ℓ.trace)
    (tidy : Tidy ns ℓ) (counted : Counted ns ℓ)
    (concluded : Guarded (Concluded ns release order) ℓ.trace) {kind : Lane.Kind}
    (step : Lane.Step ns kind ℓ ℓ') :
    Course ns release order member ℓ' ∧ Guarded (Concluded ns release order) ℓ'.trace := by
  obtain ⟨events, trace, speaks⟩ := step.speaks tidy counted
  have longer : ℓ.trace <+: ℓ'.trace := ⟨events, trace.symm⟩
  have grown : ℓ.trace.releaseCount ns ≤ ℓ'.trace.releaseCount ns := by
    rw [trace, Trace.releaseCount_append]
    exact Nat.le_add_right ..
  -- the release resumes nothing any more
  have marks : ∀ k stepId id, .resumed ns release k stepId id ∉ events := by
    intro k' stepId id' inside
    obtain ⟨events', trace', notes⟩ := step.notes tidy counted
    have same : events' = events := List.append_cancel_left (trace'.symm.trans trace)
    subst same
    rcases notes _ _ _ _ inside with ⟨rfl, -⟩ | ⟨latest, -, still⟩
    · exact Nat.lt_irrefl _ accepted
    · cases step with
      | deliver delivered =>
          obtain ⟨events'', trace'', free⟩ := (calm latest.symm).deliver delivered
          have same : events'' = events' := List.append_cancel_left (trace''.symm.trans trace)
          subst same
          cases free _ inside
      | register manual can =>
          have same := List.append_cancel_left trace
          rw [← same] at inside
          cases List.mem_singleton.mp inside
      | release manual released => exact absurd (released.count.symm.trans still) (Nat.succ_ne_self _)
      | fire auto absent registered released running =>
          have count := released.count.trans (congrArg (· + 1) registered.count)
          exact absurd (count.symm.trans still) (Nat.succ_ne_self _)
      | prune stored terminal =>
          rw [List.self_eq_append_right.mp trace] at inside
          cases inside
      | expire dormant =>
          rw [List.self_eq_append_right.mp trace] at inside
          cases inside
  have resumedBefore : ∀ {k' stepId id'} {past : Trace}, past <+: ℓ'.trace →
      .resumed ns release k' stepId id' ∈ past → .resumed ns release k' stepId id' ∈ ℓ.trace := by
    intro k' stepId id' past shorter inside
    have member := shorter.subset inside
    rw [trace, List.mem_append] at member
    exact member.resolve_right (marks _ _ _)
  -- a copy that is over speaks no more
  have mute : ∀ {id' event}, Spent ns ℓ id' → .emitted (some id') event ∉ events := by
    intro id' event done inside
    obtain ⟨id'', same, -, f, flying⟩ := speaks _ _ inside
    cases same
    cases done.1.symm.trans flying
  refine ⟨.ended (Nat.lt_of_lt_of_le accepted grown) (fun latest => ?_) (fun k' stepId id' resumed =>
    (spent k' stepId id' (resumedBefore (List.prefix_refl _) resumed)).step tidy step longer) ?_, ?_⟩
  · have still : ℓ.trace.releaseCount ns = release + 1 := by omega
    refine (calm still).step step fun same => ?_
    subst same
    have count := step.release_count
    omega
  · refine verdict.imp (fun incomplete => ?_) fun unhalted => ?_
    · intro k' at' id' stepId n resumed emitted
      have before := resumedBefore (List.prefix_refl _) resumed
      rw [trace, List.mem_append] at emitted
      exact emitted.elim (incomplete k' at' id' stepId n before) (mute (spent k' at' id' before))
    · intro id' own
      obtain ⟨done, silent⟩ := unhalted id' (own.of_append trace marks)
      refine ⟨done.step tidy step longer, fun data emitted => ?_⟩
      rw [trace, List.mem_append] at emitted
      exact emitted.elim (silent data) (mute done)
  · rw [trace]
    refine concluded.extend fun event inside past shorter stepId id' n same ⟨k', at', resumed⟩ => ?_
    subst same
    exact absurd inside (mute (spent k' at' id' (resumedBefore (trace ▸ shorter) resumed)))

/-- A lane step keeps the course of a release, if releases are accepted in quiet and what is
delivered is permitted or fails. -/
theorem step (course : Course ns release order member ℓ) (tidy : Tidy ns ℓ)
    (counted : Counted ns ℓ) (voiced : Voiced ns ℓ)
    (concluded : Guarded (Concluded ns release order) ℓ.trace) {kind : Lane.Kind}
    (step : Lane.Step ns kind ℓ ℓ') (calm : kind = .release → Lane.Quiet ns ℓ)
    (permitted : ∀ id, kind = .deliver id →
      Lane.Permits ns ℓ id ∨ Lane.RolledBack ℓ id ℓ') :
    Course ns release order member ℓ' ∧ Guarded (Concluded ns release order) ℓ'.trace := by
  cases course with
  | ended accepted calm' spent verdict =>
      exact after accepted calm' spent verdict tidy counted concluded step
  | running running attended =>
      rename_i k id call
      cases step with
      | register manual can =>
          refine ⟨.running (running.register tidy manual can) (attended.keep tidy
            (.register manual can) rfl (by simp) (fun stepId ahead copy stored => ?_) (by simp)),
            Concluded.append concluded (by simp)⟩
          rename_i yielded gasTgas
          have other : stepId ≠ yielded.call.stepId := by
            intro same
            rw [same, can.absent] at stored
            cases stored
          exact (update_of_ne other _ _).trans stored
      | release manual released => exact absurd (calm rfl) running.not_quiet
      | fire auto absent registered released running' => exact absurd (calm rfl) running.not_quiet
      | prune stored terminal => exact absurd (running.inFlight tidy stored) terminal
      | expire dormant =>
          exact ⟨.running (running.expire dormant) (attended.keep tidy (.expire dormant)
            (List.append_nil _).symm (by simp) (fun _ _ _ stored => stored) (by simp)), concluded⟩
      | deliver delivered =>
          rename_i id'
          by_cases same : id' = id
          · subst same
            obtain ⟨f, flying⟩ := running.flying
            obtain ⟨own, ⟨gas, early⟩ | late⟩ := running.underway.own f flying
            · exact deliver_early running attended tidy concluded own (.deliver delivered)
                (early.deliver own flying delivered)
            · exact deliver_late running attended tidy voiced concluded own (.deliver delivered)
                (late.deliver flying delivered)
          · exact deliver_other running attended tidy concluded same (permitted id' rfl) delivered

/-- A release accepted in a quiet lane begins its course.  Its members are the copies that
are then stored for its steps. -/
theorem start (tidy : Tidy ns ℓ) (counted : Counted ns ℓ) (voiced : Voiced ns ℓ')
    (quiet : Lane.Quiet ns ℓ) (released : Lane.Release ns order ℓ ℓ')
    {row : Option AutomationRun}
    (inFlight : IsAutomation ns → ∃ run, row = some run ∧ run.status = .inFlight) :
    Course ns (ℓ.trace.releaseCount ns) order
        (fun id => ∃ stepId ∈ order, ∃ copy, ℓ'.step stepId = some copy ∧ copy.yieldId = id)
        { ℓ' with row := row } ∧
      Guarded (Concluded ns (ℓ.trace.releaseCount ns) order) ℓ'.trace := by
  obtain ⟨first, rest, copy, rfl, stored, trace, running⟩ :=
    Running.start tidy counted quiet released inFlight
  have old : ∀ {k stepId id}, .resumed ns (ℓ.trace.releaseCount ns) k stepId id ∉ ℓ.trace :=
    fun inside => absurd (counted.resumed _ _ _ _ inside) (Nat.lt_irrefl _)
  have only : ∀ {k stepId id}, .resumed ns (ℓ.trace.releaseCount ns) k stepId id ∈ ℓ'.trace →
      id = copy.yieldId := by
    intro k stepId id resumed
    rw [trace] at resumed
    simp only [List.mem_append, List.mem_cons, reduceCtorEq, TraceEvent.resumed.injEq,
      List.not_mem_nil, or_false, false_or] at resumed
    exact (resumed.resolve_left old).2.2.2.2
  refine ⟨.running running ⟨fun _ _ _ resumed => .inl (only resumed), ?_, ?_⟩, ?_⟩
  · intro id ⟨stepId, inside, copy', kept, same⟩
    rcases List.mem_cons.mp inside with rfl | later
    · rw [stored, Option.some.injEq] at kept
      exact .inl (kept ▸ same.symm)
    · exact .inr (.inr ⟨stepId, later, copy', kept, same⟩)
  · intro id event own emitted
    rcases own with ⟨stepId, -, copy', kept, same⟩ | ⟨k', stepId, resumed⟩
    · exact voiced.dropped id event emitted stepId copy' kept same
    · exact voiced.dropped id event emitted first copy stored (only resumed).symm
  · rw [trace]
    refine Guarded.extend ?_ fun event inside past _ => .of_not fun id stepId n same => ?_
    · intro past event later split stepId id n _ ⟨k', at', resumed⟩
      have before : ∀ e ∈ past, e ∈ ℓ.trace := by
        intro e here
        rw [split]
        exact List.mem_append_left _ here
      exact absurd (before _ resumed) old
    · subst same
      simp at inside

/-- The same for a lane step that accepts a release. -/
theorem of_release (tidy : Tidy ns ℓ) (counted : Counted ns ℓ) (voiced : Voiced ns ℓ')
    (quiet : Lane.Quiet ns ℓ) (step : Lane.Step ns .release ℓ ℓ')
    (accepted : (ℓ'.trace.orders ns)[ℓ.trace.releaseCount ns]? = some order) :
    Course ns (ℓ.trace.releaseCount ns) order
        (fun id => ∃ stepId ∈ order, ∃ copy, ℓ'.step stepId = some copy ∧ copy.yieldId = id) ℓ' ∧
      Guarded (Concluded ns (ℓ.trace.releaseCount ns) order) ℓ'.trace := by
  have latest : ∀ {ℓ₁ ℓ₂ : Lane} {order' : List String}, Counted ns ℓ₁ →
      ℓ₁.trace.releaseCount ns = ℓ.trace.releaseCount ns → Lane.Release ns order' ℓ₁ ℓ₂ →
      ℓ₂.trace = ℓ'.trace → order' = order := by
    intro ℓ₁ ℓ₂ order' counted₁ count released same
    obtain ⟨first, yieldId, trace⟩ := released.trace counted₁
    rw [← same, trace, Trace.orders_append, ← count, ← Trace.length_orders,
      List.getElem?_append_right (Nat.le_refl _)] at accepted
    simpa [Trace.orders] using accepted
  cases step with
  | release manual released =>
      have eq := latest counted rfl released rfl
      subst eq
      exact start tidy counted voiced quiet released fun auto =>
        absurd auto manual.not_automation
  | fire auto absent registered released running =>
      rename_i ℓ₁ ℓ₂ copies run
      have counted₁ := counted.registers registered
      have voiced₂ : Voiced ns ℓ₂ := ⟨voiced.known, voiced.silent, voiced.dropped⟩
      have eq := latest counted₁ registered.count released rfl
      subst eq
      have inFlight : IsAutomation ns → ∃ run', some run = some run' ∧ run'.status = .inFlight :=
        fun _ => ⟨run, rfl, running⟩
      have begun := start (tidy.registers registered) counted₁ voiced₂
        (quiet.of_flights registered.eq.2.2.2) released inFlight
      rw [registered.count] at begun
      exact begun

end Course

end SmartAccount
