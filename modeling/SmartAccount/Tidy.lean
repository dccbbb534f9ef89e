import SmartAccount.Phases

/-!
# What holds of every lane

Registered copies have one record each in the trace, every flight carries a chain of
callbacks for the step of its copy, and in a manual namespace a copy stays stored for as
long as its flight lasts.
-/

namespace SmartAccount

open Foundation Function

/-! ## Chains of callbacks -/

/-- The two callbacks that have `on_step_resolved` chained behind them. -/
def Callback.isPostcheck : Callback → Bool
  | onAssertedRunPostcheck _ _ _ _ _ _ _ => true
  | onAssertedEvaluatePostcheck _ _ _ => true
  | _ => false

/-- The callbacks a flight of a step can have left. -/
inductive Chain (ns stepId : String) : List Then → Prop
  | last {callback : Callback} {gas : Nat} (final : callback.isPostcheck = false)
      (about : callback.stepId = stepId) : Chain ns stepId [⟨callback, gas⟩]
  | postcheck {callback : Callback} {gas resolveGas : Nat} (asserted : callback.isPostcheck = true)
      (about : callback.stepId = stepId) :
      Chain ns stepId [⟨callback, gas⟩, ⟨.onStepResolved ns stepId, resolveGas⟩]

theorem Chain.ne_nil {ns stepId : String} {thens : List Then} (chain : Chain ns stepId thens) :
    thens ≠ [] := by
  cases chain <;> exact List.cons_ne_nil _ _

theorem Chain.about {ns stepId : String} {thens : List Then} (chain : Chain ns stepId thens) :
    ∀ t ∈ thens, t.callback.stepId = stepId := by
  cases chain with
  | last final about => simpa using about
  | postcheck asserted about => simpa using ⟨about, rfl⟩

theorem Chain.of_resolvedPromise (authorizerId : Option AccountId) (ns : String) (call : Step) :
    Chain ns call.stepId (resolvedPromise authorizerId ns call.stepId call).thens := by
  have shape := materialized_thens authorizerId ns call call.args
  unfold materialized at shape
  rw [shape]
  split
  · exact .postcheck rfl rfl
  · exact .last rfl rfl

/-! ## Counting over plain events -/

namespace Trace

theorem releaseCount_append (t t' : Trace) (ns : String) :
    Trace.releaseCount (t ++ t') ns = Trace.releaseCount t ns + Trace.releaseCount t' ns :=
  List.countP_append ..

theorem orders_append (t t' : Trace) (ns : String) :
    Trace.orders (t ++ t') ns = Trace.orders t ns ++ Trace.orders t' ns :=
  List.filterMap_append ..

theorem length_orders (t : Trace) (ns : String) :
    (Trace.orders t ns).length = Trace.releaseCount t ns := by
  induction t with
  | nil => rfl
  | cons event t ih =>
      rw [← List.singleton_append, orders_append, releaseCount_append, List.length_append, ih]
      congr 1
      cases event with
      | released ns' order =>
          by_cases same : ns' = ns <;>
            simp [Trace.orders, Trace.releaseCount, TraceEvent.isReleased, same]
      | _ => rfl

theorem releaseCount_unmarked {events : Trace}
    (unmarked : ∀ event ∈ events, event.isMark = false) (ns : String) :
    Trace.releaseCount events ns = 0 := by
  refine List.countP_eq_zero.mpr fun event inside => ?_
  have free := unmarked event inside
  cases event <;> simp_all [TraceEvent.isMark, TraceEvent.isReleased]

theorem resumeCount_append (t t' : Trace) (ns : String) (release : Nat) :
    Trace.resumeCount (t ++ t') ns release =
      Trace.resumeCount t ns release + Trace.resumeCount t' ns release :=
  List.countP_append ..

theorem resumeCount_unmarked {events : Trace}
    (unmarked : ∀ event ∈ events, event.isMark = false) (ns : String) (release : Nat) :
    Trace.resumeCount events ns release = 0 := by
  refine List.countP_eq_zero.mpr fun event inside => ?_
  have free := unmarked event inside
  cases event <;> simp_all [TraceEvent.isMark, TraceEvent.isResumed]

end Trace

theorem TraceEvent.isMark_of_plain {event : TraceEvent} (plain : event.isPlain = true) :
    event.isMark = false := by
  cases event <;> first | rfl | cases plain

theorem TraceEvent.isMark_of_registered {event : TraceEvent}
    (record : event.isRegistered = true) : event.isMark = false := by
  cases event <;> first | rfl | cases record

/-! ## Writes of a callback about one step -/

/-- The lane may lose the step, its queue and its run, and nothing else. -/
structure Settles (stepId : String) (ℓ ℓ' : Lane) : Prop where
  steps : ∀ sid yielded, ℓ'.step sid = some yielded → ℓ.step sid = some yielded
  kept : ℓ.row = none → ∀ sid, sid ≠ stepId → ℓ'.step sid = ℓ.step sid
  queue : ℓ.queue = none → ℓ'.queue = none
  row : ℓ.row = none → ℓ'.row = none
  flight : ℓ'.flight = ℓ.flight
  notes : ∃ events : Trace, ℓ'.trace = ℓ.trace ++ events ∧
    ∀ event ∈ events, event.isPlain = true

namespace Settles

variable {ns stepId : String} {ℓ ℓ₁ ℓ₂ : Lane}

theorem refl : Settles stepId ℓ ℓ where
  steps _ _ stored := stored
  kept _ _ _ := rfl
  queue empty := empty
  row absent := absent
  flight := rfl
  notes := ⟨[], (List.append_nil _).symm, fun _ inside => absurd inside List.not_mem_nil⟩

theorem trans (first : Settles stepId ℓ ℓ₁) (second : Settles stepId ℓ₁ ℓ₂) :
    Settles stepId ℓ ℓ₂ where
  steps sid yielded stored := first.steps sid yielded (second.steps sid yielded stored)
  kept absent sid other :=
    (second.kept (first.row absent) sid other).trans (first.kept absent sid other)
  queue empty := second.queue (first.queue empty)
  row absent := second.row (first.row absent)
  flight := second.flight.trans first.flight
  notes := by
    obtain ⟨events, eq, plain⟩ := first.notes
    obtain ⟨events', eq', plain'⟩ := second.notes
    refine ⟨events ++ events', by rw [eq', eq, List.append_assoc], fun event inside => ?_⟩
    exact (List.mem_append.mp inside).elim (plain event) (plain' event)

theorem note (settles : Settles stepId ℓ ℓ₁) {event : TraceEvent}
    (plain : event.isPlain = true) : Settles stepId ℓ (ℓ₁.note event) :=
  settles.trans { (refl : Settles stepId ℓ₁ ℓ₁) with
    notes := ⟨[event], rfl, fun _ inside => List.mem_singleton.mp inside ▸ plain⟩ }

theorem dropStep (settles : Settles stepId ℓ ℓ₁) :
    Settles stepId ℓ (ℓ₁.dropStep stepId) :=
  settles.trans { (refl : Settles stepId ℓ₁ ℓ₁) with
    steps := fun sid yielded stored => by
      rw [Lane.dropStep_step, update_apply] at stored
      split at stored
      · cases stored
      · exact stored
    kept := fun _ sid other => update_of_ne other _ _ }

theorem dropQueue (settles : Settles stepId ℓ ℓ₁) : Settles stepId ℓ (ℓ₁.setQueue []) :=
  settles.trans { (refl : Settles stepId ℓ₁ ℓ₁) with queue := fun _ => rfl }

theorem finish (settles : Settles stepId ℓ ℓ₁) (env : Env) (by_ : Option Nat)
    (status : AutomationRunStatus) (failedStepId : Option String) :
    Settles stepId ℓ (Lane.finish env by_ ns ℓ₁ status failedStepId) := by
  have idle : ℓ₁.row = none → Lane.finish env by_ ns ℓ₁ status failedStepId = ℓ₁ :=
    fun absent => Lane.finish_of_not env by_ ns status failedStepId
      fun run stored => by rw [absent] at stored; cases stored
  refine settles.trans {
    steps := fun sid yielded => Lane.finish_step env by_ ns status failedStepId
    kept := fun absent sid _ => by rw [idle absent]
    queue := Lane.finish_queue env by_ ns status failedStepId
    row := fun absent => by rw [idle absent]; exact absent
    flight := Lane.finish_flight env by_ ns status failedStepId
    notes := ?_ }
  obtain ⟨events, eq, closing⟩ := @Lane.finish_trace ℓ₁ env by_ ns status failedStepId
  refine ⟨events, eq, fun event inside => ?_⟩
  obtain ⟨data, rfl⟩ := closing event inside
  rfl

theorem halt (settles : Settles stepId ℓ ℓ₁) (env : Env) (id : Nat)
    (status : AutomationRunStatus) (data : HaltData) :
    Settles stepId ℓ (ℓ₁.halt env id ns stepId status data) :=
  (settles.dropStep.dropQueue.finish env (some id) status (some stepId)).note rfl

end Settles

/-! ## What a delivery touches -/

/-- A delivery to a flight of one step touches that flight, the step, and the yield of the
step it may resume. -/
structure Touched (ns : String) (id : Nat) (stepId : String) (ℓ ℓ' : Lane) : Prop where
  steps : ∀ sid yielded, ℓ'.step sid = some yielded → ℓ.step sid = some yielded
  kept : ℓ.row = none → ∀ sid, sid ≠ stepId → ℓ'.step sid = ℓ.step sid
  queue : ℓ.queue = none → ℓ'.queue = none
  row : ℓ.row = none → ℓ'.row = none
  own : ℓ'.flight id = none ∨
    ∃ f, ℓ'.flight id = some f ∧ Chain ns stepId f.thens ∧ ℓ'.step = ℓ.step
  others : ∀ id', id' ≠ id → ℓ'.flight id' = ℓ.flight id' ∨ ∃ thens,
    ℓ.flight id' = some ⟨.yielded, thens⟩ ∧ ℓ'.flight id' = some ⟨.done resumeSignal, thens⟩
  notes : ∃ events : Trace, ℓ'.trace = ℓ.trace ++ events ∧ ∀ event ∈ events,
    event.isPlain = true ∨ ℓ.queue ≠ none ∧ ∃ k next yieldId,
      event = .resumed ns (ℓ.trace.releaseCount ns - 1) k next yieldId

namespace Touched

variable {ns stepId : String} {id : Nat} {ℓ ℓ₁ ℓ' : Lane}

theorem of_land (settles : Settles stepId ℓ ℓ₁) : Touched ns id stepId ℓ (ℓ₁.land id) where
  steps := settles.steps
  kept := settles.kept
  queue := settles.queue
  row := settles.row
  own := .inl (by simp)
  others id' other := .inl (by simp [other, settles.flight])
  notes := by
    obtain ⟨events, eq, plain⟩ := settles.notes
    exact ⟨events, eq, fun event inside => .inl (plain event inside)⟩

theorem of_settle (settles : Settles stepId ℓ ℓ₁) (same : ℓ₁.step = ℓ.step) {head : Head}
    {thens : List Then} (chain : Chain ns stepId thens) :
    Touched ns id stepId ℓ (ℓ₁.settle id ⟨head, thens⟩) := by
  have put : ℓ₁.settle id ⟨head, thens⟩ = ℓ₁.putFlight id ⟨head, thens⟩ := by
    simp [Lane.settle, Lane.putFlight, chain.ne_nil]
  rw [put]
  exact {
    steps := settles.steps
    kept := settles.kept
    queue := settles.queue
    row := settles.row
    own := .inr ⟨⟨head, thens⟩, by simp, chain, same⟩
    others := fun id' other => .inl (by simp [other, settles.flight])
    notes := by
      obtain ⟨events, eq, plain⟩ := settles.notes
      exact ⟨events, eq, fun event inside => .inl (plain event inside)⟩ }

theorem of_resume (settles : Settles stepId ℓ ℓ₁) {waiting : List String} {next : String}
    {yieldId : Nat} {thens : List Then} (queued : ℓ.queue ≠ none)
    (dormant : ℓ.flight yieldId = some ⟨.yielded, thens⟩) :
    Touched ns id stepId ℓ (((ℓ₁.setQueue waiting).resume ns next yieldId thens).land id) where
  steps := settles.steps
  kept := settles.kept
  queue empty := absurd empty queued
  row := settles.row
  own := .inl (by simp)
  others id' other := by
    by_cases same : id' = yieldId
    · subst same
      exact .inr ⟨thens, dormant, by simp [other]⟩
    · exact .inl (by simp [other, same, settles.flight])
  notes := by
    obtain ⟨events, eq, plain⟩ := settles.notes
    have count : ℓ₁.trace.releaseCount ns = ℓ.trace.releaseCount ns := by
      rw [eq, Trace.releaseCount_append, Trace.releaseCount_unmarked
        (fun event inside => TraceEvent.isMark_of_plain (plain event inside)), Nat.add_zero]
    refine ⟨events ++ [.resumed ns (ℓ.trace.releaseCount ns - 1)
      (ℓ₁.trace.resumeCount ns (ℓ.trace.releaseCount ns - 1)) next yieldId], ?_, ?_⟩
    · rw [Lane.land_trace, Lane.resume_trace, Lane.setQueue_trace, count, eq, List.append_assoc]
    · intro event inside
      rcases List.mem_append.mp inside with old | new
      · exact .inl (plain event old)
      · rw [List.mem_singleton.mp new]
        exact .inr ⟨queued, _, _, _, rfl⟩

/-- A delivery registers nothing. -/
theorem registered (touched : Touched ns id stepId ℓ ℓ') (id' : Nat) (call : Step) (gas : Nat) :
    .registered ns id' call gas ∈ ℓ'.trace ↔ .registered ns id' call gas ∈ ℓ.trace := by
  obtain ⟨events, eq, notes⟩ := touched.notes
  rw [eq, List.mem_append]
  refine ⟨fun member => member.resolve_right fun new => ?_, .inl⟩
  rcases notes _ new with plain | ⟨-, k, next, yieldId, same⟩
  · cases plain
  · cases same

/-- A delivery releases nothing. -/
theorem orders (touched : Touched ns id stepId ℓ ℓ') :
    ℓ'.trace.orders ns = ℓ.trace.orders ns := by
  obtain ⟨events, eq, notes⟩ := touched.notes
  rw [eq, Trace.orders_append, List.append_right_eq_self]
  refine List.filterMap_eq_nil_iff.mpr fun event inside => ?_
  rcases notes event inside with plain | ⟨-, k, next, yieldId, rfl⟩
  · cases event <;> first | rfl | cases plain
  · rfl

theorem releaseCount (touched : Touched ns id stepId ℓ ℓ') :
    ℓ'.trace.releaseCount ns = ℓ.trace.releaseCount ns := by
  rw [← Trace.length_orders, touched.orders, Trace.length_orders]

end Touched

/-- A copy is stored under its own step id. -/
def StoredUnderOwnId (ℓ : Lane) : Prop :=
  ∀ stepId yielded, ℓ.step stepId = some yielded → yielded.call.stepId = stepId

/-- The effects of a callback touch no more than that. -/
theorem Lane.Effect.touched {ns stepId : String} {id : Nat} {ℓ ℓ' : Lane} {head : Head}
    {t : Then} {rest thens : List Then} {result : PromiseResult} (proper : StoredUnderOwnId ℓ)
    (chain : Chain ns stepId (t :: rest))
    (effect : Lane.Effect ns id (ℓ.note (.delivered id t.callback result)) t.callback result ℓ'
      head thens) : Touched ns id stepId ℓ (ℓ'.settle id ⟨head, thens ++ rest⟩) := by
  have noted : Settles stepId ℓ (ℓ.note (.delivered id t.callback result)) :=
    Settles.refl.note rfl
  generalize startEq : ℓ.note (.delivered id t.callback result) = start at effect noted
  have steps : start.step = ℓ.step := by rw [← startEq]; rfl
  have flights : start.flight = ℓ.flight := by rw [← startEq]; rfl
  have queues : start.queue = ℓ.queue := by rw [← startEq]; rfl
  cases chain with
  | last final about =>
      cases effect with
      | asleep absent => exact .of_land noted
      | unchecked ungated => exact .of_land noted
      | halted cause stored unsuccessful about' =>
          rename_i at' yielded env status data
          have same : at' = stepId := by
            rcases cause with rfl | rfl <;> exact about
          subst same
          exact .of_land (noted.halt env id status data)
      | gated stored gate built =>
          subst about built
          exact .of_settle (noted.note rfl) steps (.last rfl rfl)
      | dispatched stored cleared built =>
          rename_i at' yielded authorizerId args p
          have same : at' = stepId := by
            cases cleared <;> exact about
          subst same built
          have own := proper _ _ (steps ▸ stored)
          have resolved := Chain.of_resolvedPromise authorizerId ns { yielded.call with args := args }
          rw [List.append_nil]
          exact .of_settle ((noted.note rfl).note rfl) steps (own ▸ resolved)
      | posted small built => cases final
      | matched equal => cases final
      | advanced small queued other stored dormant =>
          subst about
          refine .of_resume noted.dropStep ?_ (flights ▸ dormant)
          rw [← queues, queued]
          exact Option.some_ne_none _
      | stuck small queued about' =>
          subst about
          exact .of_land (((noted.dropStep.dropQueue).finish _ _ _ _).note rfl)
      | completed small drained =>
          subst about
          exact .of_land (((noted.dropStep.dropQueue).note rfl).finish _ _ _ _)
      | failed failure =>
          subst about
          exact .of_land ((noted.dropStep.dropQueue).finish _ _ _ _)
  | postcheck asserted about =>
      cases effect with
      | posted small built =>
          subst about built
          exact .of_settle (noted.note rfl) steps (.postcheck rfl rfl)
      | matched equal =>
          subst about
          exact .of_settle noted steps (.last rfl rfl)
      | halted cause stored unsuccessful about' => rcases cause with rfl | rfl <;> cases asserted
      | dispatched stored cleared built => cases cleared <;> cases asserted
      | _ => cases asserted

theorem Lane.Deliver.flew {ns : String} {id : Nat} {ℓ ℓ' : Lane}
    (delivered : Lane.Deliver ns ℓ id ℓ') : ∃ f, ℓ.flight id = some f := by
  cases delivered with
  | ran due effect => exact ⟨_, due.waiting⟩
  | rolledBack due => exact ⟨_, due.waiting⟩

theorem Lane.Deliver.touched {ns stepId : String} {id : Nat} {ℓ ℓ' : Lane} {f : Flight}
    (proper : StoredUnderOwnId ℓ) (flying : ℓ.flight id = some f)
    (chain : Chain ns stepId f.thens) (delivered : Lane.Deliver ns ℓ id ℓ') :
    Touched ns id stepId ℓ ℓ' := by
  cases delivered with
  | ran due effect =>
      have waiting := due.waiting
      rw [flying, Option.some.injEq] at waiting
      subst waiting
      exact effect.touched proper chain
  | rolledBack due =>
      rename_i head t rest result
      have waiting := due.waiting
      rw [flying, Option.some.injEq] at waiting
      subst waiting
      have noted : Settles stepId ℓ (ℓ.note (.rolledBack id t.callback result)) :=
        Settles.refl.note rfl
      cases chain with
      | last final about => exact .of_land noted
      | postcheck asserted about => exact .of_settle noted rfl (.last rfl rfl)

/-! ## Tidy lanes -/

structure Tidy (ns : String) (ℓ : Lane) : Prop where
  unique : ∀ id call call' gas gas', .registered ns id call gas ∈ ℓ.trace →
    .registered ns id call' gas' ∈ ℓ.trace → call = call' ∧ gas = gas'
  stored : ∀ stepId yielded, ℓ.step stepId = some yielded → yielded.call.stepId = stepId ∧
    ∃ gas, .registered ns yielded.yieldId yielded.call gas ∈ ℓ.trace
  flying : ∀ id f, ℓ.flight id = some f → ∃ call gas, .registered ns id call gas ∈ ℓ.trace ∧
    Chain ns call.stepId f.thens
  auto : ∀ run, ℓ.row = some run → IsAutomation ns
  attached : IsManual ns → ∀ id f call gas, ℓ.flight id = some f →
    .registered ns id call gas ∈ ℓ.trace →
      ∃ yielded, ℓ.step call.stepId = some yielded ∧ yielded.yieldId = id

namespace Tidy

variable {ns : String} {ℓ ℓ' : Lane}

theorem fresh : Tidy ns Lane.fresh where
  unique _ _ _ _ _ member := absurd member List.not_mem_nil
  stored _ _ stored := nomatch stored
  flying _ _ flying := nomatch flying
  auto _ row := nomatch row
  attached _ _ _ _ _ flying := nomatch flying

theorem proper (tidy : Tidy ns ℓ) : StoredUnderOwnId ℓ :=
  fun stepId yielded stored => (tidy.stored stepId yielded stored).1

theorem manual_row (tidy : Tidy ns ℓ) (manual : IsManual ns) : ℓ.row = none := by
  cases row : ℓ.row with
  | none => rfl
  | some run => exact absurd (tidy.auto run row) manual.not_automation

/-- Steps, records and callbacks stay; heads and the run may change. -/
theorem of_same (tidy : Tidy ns ℓ) (steps : ℓ'.step = ℓ.step)
    (flights : ∀ id, (ℓ'.flight id).map Flight.thens = (ℓ.flight id).map Flight.thens)
    (registered : ∀ id call gas,
      .registered ns id call gas ∈ ℓ'.trace ↔ .registered ns id call gas ∈ ℓ.trace)
    (rows : ∀ run, ℓ'.row = some run → IsAutomation ns) : Tidy ns ℓ' where
  unique id call call' gas gas' left right :=
    tidy.unique id call call' gas gas' ((registered _ _ _).mp left) ((registered _ _ _).mp right)
  stored stepId yielded stored := by
    rw [steps] at stored
    obtain ⟨same, gas, member⟩ := tidy.stored stepId yielded stored
    exact ⟨same, gas, (registered _ _ _).mpr member⟩
  flying id f flying := by
    have same := flights id
    rw [flying, Option.map_some, eq_comm, Option.map_eq_some_iff] at same
    obtain ⟨f', flying', thens⟩ := same
    obtain ⟨call, gas, member, chain⟩ := tidy.flying id f' flying'
    exact ⟨call, gas, (registered _ _ _).mpr member, thens ▸ chain⟩
  auto := rows
  attached manual id f call gas flying member := by
    have same := flights id
    rw [flying, Option.map_some, eq_comm, Option.map_eq_some_iff] at same
    obtain ⟨f', flying', -⟩ := same
    rw [steps]
    exact tidy.attached manual id f' call gas flying' ((registered _ _ _).mp member)

/-- One more registered copy. -/
theorem register (tidy : Tidy ns ℓ) {yielded : RegisteredStep} {gasTgas : Nat}
    (can : Lane.CanRegister ns ℓ yielded gasTgas) : Tidy ns (ℓ.register ns yielded gasTgas) := by
  have member : ∀ id call gas, .registered ns id call gas ∈ (ℓ.register ns yielded gasTgas).trace ↔
      .registered ns id call gas ∈ ℓ.trace ∨
        (id = yielded.yieldId ∧ call = yielded.call ∧ gas = gasTgas) := by
    simp [Lane.register]
  refine ⟨?_, ?_, ?_, tidy.auto, ?_⟩
  · intro id call call' gas gas' left right
    rcases (member _ _ _).mp left with old | ⟨rfl, rfl, rfl⟩ <;>
      rcases (member _ _ _).mp right with old' | ⟨eq, rfl, rfl⟩
    · exact tidy.unique id call call' gas gas' old old'
    · exact absurd (eq ▸ old) (can.new _ _)
    · exact absurd old' (can.new _ _)
    · exact ⟨rfl, rfl⟩
  · intro stepId copy stored
    have stored' : update ℓ.step yielded.call.stepId (some yielded) stepId = some copy := stored
    rw [update_apply] at stored'
    split at stored'
    · rename_i same
      cases stored'
      exact ⟨same.symm, gasTgas, (member _ _ _).mpr (.inr ⟨rfl, rfl, rfl⟩)⟩
    · obtain ⟨same, gas, old⟩ := tidy.stored stepId copy stored'
      exact ⟨same, gas, (member _ _ _).mpr (.inl old)⟩
  · intro id f flying
    have flying' : update ℓ.flight yielded.yieldId
      (some ⟨.yielded, [⟨.onStepResumed ns yielded.call.stepId, gasTgas⟩]⟩) id = some f := flying
    rw [update_apply] at flying'
    split at flying'
    · rename_i same
      cases flying'
      exact ⟨yielded.call, gasTgas, (member _ _ _).mpr (.inr ⟨same, rfl, rfl⟩), .last rfl rfl⟩
    · obtain ⟨call, gas, old, chain⟩ := tidy.flying id f flying'
      exact ⟨call, gas, (member _ _ _).mpr (.inl old), chain⟩
  · intro manual id f call gas flying record
    show ∃ copy, update ℓ.step yielded.call.stepId (some yielded) call.stepId = some copy ∧ _
    rcases (member _ _ _).mp record with old | ⟨rfl, rfl, rfl⟩
    · have other : id ≠ yielded.yieldId := by
        rintro rfl
        exact can.new _ _ old
      have flying' : update ℓ.flight yielded.yieldId
        (some ⟨.yielded, [⟨.onStepResumed ns yielded.call.stepId, gasTgas⟩]⟩) id = some f := flying
      rw [update_of_ne other] at flying'
      obtain ⟨copy, stored, same⟩ := tidy.attached manual id f call gas flying' old
      have apart : call.stepId ≠ yielded.call.stepId := by
        intro eq
        rw [eq, can.absent] at stored
        cases stored
      rw [update_of_ne apart]
      exact ⟨copy, stored, same⟩
    · exact ⟨yielded, update_self .., rfl⟩

theorem registers (tidy : Tidy ns ℓ) {copies : List (RegisteredStep × Nat)}
    (registers : Lane.Registers ns copies ℓ ℓ') : Tidy ns ℓ' := by
  induction registers with
  | nil => exact tidy
  | cons can rest ih => exact ih (tidy.register can)

/-- Resuming a yield changes its head only. -/
theorem resume (tidy : Tidy ns ℓ) {stepId : String} {id : Nat} {thens : List Then}
    (dormant : ℓ.flight id = some ⟨.yielded, thens⟩) : Tidy ns (ℓ.resume ns stepId id thens) := by
  refine tidy.of_same rfl (fun id' => ?_) (fun id' call gas => ?_) tidy.auto
  · rw [Lane.resume_flight, update_apply]
    split
    · rename_i same
      rw [same, dormant, Option.map_some, Option.map_some]
    · rfl
  · simp

theorem release (tidy : Tidy ns ℓ) {order : List String}
    (released : Lane.Release ns order ℓ ℓ') : Tidy ns ℓ' := by
  cases released with
  | mk shape idle known stored dormant =>
      refine Tidy.resume ?_ dormant
      exact tidy.of_same rfl (fun _ => rfl) (fun _ _ _ => by simp) tidy.auto

theorem deliver (tidy : Tidy ns ℓ) {id : Nat} (delivered : Lane.Deliver ns ℓ id ℓ') :
    Tidy ns ℓ' := by
  obtain ⟨f, flying⟩ := delivered.flew
  obtain ⟨call, gas, record, chain⟩ := tidy.flying id f flying
  have touched := delivered.touched tidy.proper flying chain
  have before : ∀ {id' f'}, id' ≠ id → ℓ'.flight id' = some f' →
      ∃ f'', ℓ.flight id' = some f'' ∧ f''.thens = f'.thens := by
    intro id' f' other flying'
    rcases touched.others id' other with same | ⟨thens, waiting, resumed⟩
    · exact ⟨f', same ▸ flying', rfl⟩
    · rw [flying', Option.some.injEq] at resumed
      exact ⟨_, waiting, by rw [resumed]⟩
  refine ⟨?_, ?_, ?_, ?_, ?_⟩
  · exact fun id' c c' g g' left right => tidy.unique id' c c' g g'
      ((touched.registered _ _ _).mp left) ((touched.registered _ _ _).mp right)
  · intro stepId yielded stored
    obtain ⟨same, g, member⟩ := tidy.stored stepId yielded (touched.steps _ _ stored)
    exact ⟨same, g, (touched.registered _ _ _).mpr member⟩
  · intro id' f' flying'
    by_cases same : id' = id
    · subst same
      rcases touched.own with gone | ⟨f'', eq, chain', -⟩
      · rw [gone] at flying'
        cases flying'
      · rw [eq, Option.some.injEq] at flying'
        exact ⟨call, gas, (touched.registered _ _ _).mpr record, flying' ▸ chain'⟩
    · obtain ⟨f'', old, thens⟩ := before same flying'
      obtain ⟨call', gas', member, chain'⟩ := tidy.flying id' f'' old
      exact ⟨call', gas', (touched.registered _ _ _).mpr member, thens ▸ chain'⟩
  · intro run row
    cases absent : ℓ.row with
    | none =>
        rw [touched.row absent] at row
        cases row
    | some run' => exact tidy.auto run' absent
  · intro manual id' f' call' gas' flying' member
    have member' := (touched.registered _ _ _).mp member
    by_cases same : id' = id
    · subst same
      obtain ⟨rfl, rfl⟩ := tidy.unique id' call call' gas gas' record member'
      rcases touched.own with gone | ⟨f'', eq, -, steps⟩
      · rw [gone] at flying'
        cases flying'
      · rw [steps]
        exact tidy.attached manual id' f call gas flying record
    · obtain ⟨f'', old, -⟩ := before same flying'
      obtain ⟨yielded, stored, eq⟩ := tidy.attached manual id' f'' call' gas' old member'
      obtain ⟨mine, storedMine, eqMine⟩ := tidy.attached manual id f call gas flying record
      -- two copies of one step would be the same copy
      have apart : call'.stepId ≠ call.stepId := by
        intro clash
        rw [clash, storedMine, Option.some.injEq] at stored
        exact same (eq.symm.trans (stored ▸ eqMine))
      rw [touched.kept (tidy.manual_row manual) _ apart]
      exact ⟨yielded, stored, eq⟩

/-- Every lane step keeps a lane tidy. -/
theorem step (tidy : Tidy ns ℓ) {kind : Lane.Kind} (step : Lane.Step ns kind ℓ ℓ') :
    Tidy ns ℓ' := by
  cases step with
  | register manual can => exact tidy.register can
  | release manual released => exact tidy.release released
  | fire auto absent registered released running =>
      exact ((tidy.registers registered).release released).of_same rfl (fun _ => rfl)
        (fun _ _ _ => .rfl) fun _ _ => auto
  | prune stored terminal =>
      exact tidy.of_same rfl (fun _ => rfl) (fun _ _ _ => .rfl) nofun
  | expire dormant =>
      refine tidy.of_same rfl (fun id' => ?_) (fun _ _ _ => .rfl) tidy.auto
      rw [Lane.putFlight_flight, update_apply]
      split
      · rename_i same
        rw [same, dormant, Option.map_some, Option.map_some]
      · rfl
  | deliver delivered => exact tidy.deliver delivered

end Tidy

end SmartAccount
