import SmartAccount.ReleaseRuns

/-!
# Releases that run undisturbed

A flight speaks at most once about its sequence, and is over then (`Voiced`).  `Running`
is a release whose current copy is in flight and whose later steps all wait in the queue;
in an automation namespace its run is in flight too.
-/

namespace SmartAccount

open Foundation Function

/-! ## Who speaks -/

/-- Only the delivered flight speaks, and it is over then, and its step dropped. -/
structure Speaks (id : Nat) (stepId : String) (ℓ ℓ' : Lane) (events : Trace) : Prop where
  trace : ℓ'.trace = ℓ.trace ++ events
  last : ∀ by_ event, .emitted by_ event ∈ events →
    by_ = some id ∧ ℓ'.flight id = none ∧ ℓ'.step stepId = none

namespace Speaks

variable {ns stepId : String} {id : Nat} {ℓ ℓ' : Lane} {events : Trace}

/-- Nothing was emitted. -/
theorem silent (trace : ℓ'.trace = ℓ.trace ++ events)
    (plain : ∀ by_ event, .emitted by_ event ∉ events) : Speaks id stepId ℓ ℓ' events :=
  ⟨trace, fun by_ event inside => absurd inside (plain by_ event)⟩

/-- The flight spoke and is over. -/
theorem landed {ℓ₁ : Lane} (trace : ℓ₁.trace = ℓ.trace ++ events)
    (mine : ∀ by_ event, .emitted by_ event ∈ events → by_ = some id)
    (dropped : ℓ₁.step stepId = none) : Speaks id stepId ℓ (ℓ₁.land id) events :=
  ⟨trace, fun by_ event inside => ⟨mine by_ event inside, by simp, dropped⟩⟩

end Speaks

/-- Closing a run does not bring a dropped step back. -/
theorem Lane.finish_step_none {ℓ : Lane} (env : Env) (by_ : Option Nat) (ns : String)
    (status : AutomationRunStatus) (failedStepId : Option String) {stepId : String}
    (dropped : ℓ.step stepId = none) :
    (Lane.finish env by_ ns ℓ status failedStepId).step stepId = none := by
  cases stored : (Lane.finish env by_ ns ℓ status failedStepId).step stepId with
  | none => rfl
  | some yielded =>
      rw [Lane.finish_step env by_ ns status failedStepId stored] at dropped
      cases dropped

/-- A callback speaks only in the flight it belongs to, and only at its end. -/
theorem Lane.Effect.speaks {ns stepId : String} {id : Nat} {ℓ ℓ' : Lane} {head : Head} {t : Then}
    {rest thens : List Then} {result : PromiseResult} (chain : Chain ns stepId (t :: rest))
    (effect : Lane.Effect ns id (ℓ.note (.delivered id t.callback result)) t.callback result ℓ'
      head thens) : ∃ events, Speaks id stepId ℓ (ℓ'.settle id ⟨head, thens ++ rest⟩) events := by
  generalize startEq : ℓ.note (.delivered id t.callback result) = start at effect
  have starts : start.trace = ℓ.trace ++ [.delivered id t.callback result] := by
    rw [← startEq]
    rfl
  have about := chain.about t (List.mem_cons_self ..)
  -- a flight that only moved on
  have onward : ∀ {ℓ₁ : Lane} (events : Trace), ℓ₁.trace = start.trace ++ events →
      (∀ by_ event, .emitted by_ event ∉ events) →
      ∃ events', Speaks id stepId ℓ (ℓ₁.settle id ⟨head, thens ++ rest⟩) events' := by
    intro ℓ₁ events trace plain
    refine ⟨.delivered id t.callback result :: events, .silent ?_ ?_⟩
    · show ℓ₁.trace = _
      rw [trace, starts, List.append_assoc]
      rfl
    · intro by_ event inside
      rcases List.mem_cons.mp inside with same | inside
      · cases same
      · exact plain by_ event inside
  -- a flight that dropped its step, closed the run and ended
  have dropped : ((start.dropStep stepId).setQueue []).step stepId = none := update_self ..
  have closed : ∀ (ℓ₁ : Lane) {ℓ₂ : Lane} {env : Env} {status : AutomationRunStatus}
      {failedStepId : Option String} (before after : Trace), ℓ₁.trace = start.trace ++ before →
      ℓ₁.step stepId = none →
      ℓ₂.trace = (Lane.finish env (some id) ns ℓ₁ status failedStepId).trace ++ after →
      ℓ₂.step = (Lane.finish env (some id) ns ℓ₁ status failedStepId).step →
      (∀ by_ event, .emitted by_ event ∈ before ++ after → by_ = some id) →
      ∃ events', Speaks id stepId ℓ (ℓ₂.land id) events' := by
    intro ℓ₁ ℓ₂ env status failedStepId before after trace gone trace' steps mine
    obtain ⟨closing, eq, finished⟩ := @Lane.finish_trace ℓ₁ env (some id) ns status failedStepId
    refine ⟨.delivered id t.callback result :: (before ++ closing ++ after), .landed ?_ ?_ ?_⟩
    · rw [trace', eq, trace, starts]
      simp
    · intro by_ event inside
      simp only [List.mem_cons, reduceCtorEq, List.mem_append, false_or] at inside
      rcases inside with (old | new) | verdict
      · exact mine by_ event (List.mem_append_left _ old)
      · obtain ⟨data, same⟩ := finished _ new
        cases same
        rfl
      · exact mine by_ event (List.mem_append_right _ verdict)
    · rw [steps]
      exact Lane.finish_step_none env (some id) ns status failedStepId gone
  cases chain with
  | last final about' =>
      cases effect with
      | asleep absent => exact onward [] (List.append_nil _).symm (by simp)
      | unchecked ungated => exact onward [] (List.append_nil _).symm (by simp)
      | halted cause stored unsuccessful about'' =>
          rename_i at' yielded env status data
          have same : at' = stepId := by
            rcases cause with rfl | rfl <;> exact about
          subst same
          exact closed ((start.dropStep at').setQueue []) [] [_] (List.append_nil _).symm dropped rfl
            rfl (by simp)
      | gated stored gate built => exact onward [_] rfl (by simp)
      | dispatched stored cleared built => exact onward [_, _] (List.append_assoc ..) (by simp)
      | posted small built => cases final
      | matched equal => cases final
      | advanced small queued other stored dormant => exact onward [_] rfl (by simp)
      | stuck small queued about'' =>
          rename_i at' next bytes waiting env data
          subst about'
          exact closed ((start.dropStep at').setQueue []) [] [_] (List.append_nil _).symm dropped rfl
            rfl (by simp)
      | completed small drained =>
          rename_i at' bytes env
          subst about'
          exact closed (((start.dropStep at').setQueue []).note _) [_] [] rfl dropped
            (List.append_nil _).symm rfl (by simp)
      | failed failure =>
          rename_i at' error env
          subst about'
          exact closed ((start.dropStep at').setQueue []) [] [] (List.append_nil _).symm dropped
            (List.append_nil _).symm rfl (by simp)
  | postcheck asserted about' =>
      cases effect with
      | posted small built => exact onward [_] rfl (by simp)
      | matched equal => exact onward [] (List.append_nil _).symm (by simp)
      | halted cause stored unsuccessful about' => rcases cause with rfl | rfl <;> cases asserted
      | dispatched stored cleared built => cases cleared <;> cases asserted
      | _ => cases asserted

theorem Lane.Deliver.speaks {ns stepId : String} {id : Nat} {ℓ ℓ' : Lane} {f : Flight}
    (flying : ℓ.flight id = some f) (chain : Chain ns stepId f.thens)
    (delivered : Lane.Deliver ns ℓ id ℓ') : ∃ events, Speaks id stepId ℓ ℓ' events := by
  cases delivered with
  | ran due effect =>
      have waiting := due.waiting
      rw [flying, Option.some.injEq] at waiting
      subst waiting
      exact effect.speaks chain
  | rolledBack due =>
      exact ⟨[_], .silent rfl (by simp)⟩

/-- A lane step speaks only by the flight it delivers to. -/
theorem Lane.Step.speaks {ns : String} {kind : Lane.Kind} {ℓ ℓ' : Lane} (tidy : Tidy ns ℓ)
    (counted : Counted ns ℓ) (step : Lane.Step ns kind ℓ ℓ') :
    ∃ events : Trace, ℓ'.trace = ℓ.trace ++ events ∧ ∀ by_ event, .emitted by_ event ∈ events →
      ∃ id, by_ = some id ∧ kind = .deliver id ∧ ∃ f, ℓ.flight id = some f := by
  cases step with
  | register manual can => exact ⟨[_], rfl, by simp⟩
  | release manual released =>
      obtain ⟨first, yieldId, trace⟩ := released.trace counted
      exact ⟨_, trace, by simp⟩
  | fire auto absent registered released running =>
      obtain ⟨-, -, ⟨records, trace, plain⟩, -⟩ := registered.eq
      obtain ⟨first, yieldId, grown⟩ := released.trace (counted.registers registered)
      rw [trace, List.append_assoc] at grown
      refine ⟨_, grown, fun by_ event inside => ?_⟩
      rcases List.mem_append.mp inside with record | mark
      · cases plain _ record
      · simp at mark
  | prune stored terminal => exact ⟨[], (List.append_nil _).symm, by simp⟩
  | expire dormant => exact ⟨[], (List.append_nil _).symm, by simp⟩
  | deliver delivered =>
      rename_i id
      obtain ⟨f, flying⟩ := delivered.flew
      obtain ⟨call, gas, -, chain⟩ := tidy.flying id f flying
      obtain ⟨events, trace, last⟩ := delivered.speaks flying chain
      exact ⟨events, trace, fun by_ event inside =>
        ⟨id, (last by_ event inside).1, rfl, f, flying⟩⟩

/-! ## What a lane step leaves alone -/

/-- A flight that is over does not come back. -/
theorem Lane.Registers.spent {ns : String} {copies : List (RegisteredStep × Nat)} {ℓ ℓ' : Lane}
    (registers : Lane.Registers ns copies ℓ ℓ') {id gas : Nat} {call : SmartAccount.Step}
    (gone : ℓ.flight id = none) (record : .registered ns id call gas ∈ ℓ.trace) :
    ℓ'.flight id = none := by
  induction registers with
  | nil => exact gone
  | cons can rest ih =>
      rename_i ℓ ℓ' copy copies
      have other : id ≠ copy.1.yieldId := by
        intro same
        subst same
        exact can.new _ _ record
      exact ih ((update_of_ne other _ _).trans gone) (List.mem_append_left _ record)

theorem Lane.Release.spent {ns : String} {order : List String} {ℓ ℓ' : Lane}
    (released : Lane.Release ns order ℓ ℓ') {id : Nat} (gone : ℓ.flight id = none) :
    ℓ'.flight id = none := by
  cases released with
  | mk shape idle known stored dormant =>
      rw [Lane.resume_flight, update_apply]
      split
      · rename_i same
        rw [← same] at dormant
        cases gone.symm.trans dormant
      · exact gone

theorem Lane.Step.spent {ns : String} {kind : Lane.Kind} {ℓ ℓ' : Lane} (tidy : Tidy ns ℓ)
    (step : Lane.Step ns kind ℓ ℓ') {id gas : Nat} {call : SmartAccount.Step} (gone : ℓ.flight id = none)
    (record : .registered ns id call gas ∈ ℓ.trace) : ℓ'.flight id = none := by
  cases step with
  | register manual can =>
      exact (Lane.Registers.cons can .nil : Lane.Registers ns [(_, _)] _ _).spent gone record
  | release manual released => exact released.spent gone
  | fire auto absent registered released running =>
      exact released.spent (registered.spent gone record)
  | prune stored terminal => exact gone
  | expire dormant =>
      rename_i id' thens
      rw [Lane.putFlight_flight, update_apply]
      split
      · rename_i same
        rw [← same] at dormant
        cases gone.symm.trans dormant
      · exact gone
  | deliver delivered =>
      rename_i id'
      obtain ⟨f, flying⟩ := delivered.flew
      obtain ⟨call', gas', -, chain⟩ := tidy.flying id' f flying
      have touched := delivered.touched tidy.proper flying chain
      have other : id ≠ id' := by
        intro same
        rw [← same] at flying
        cases gone.symm.trans flying
      rcases touched.others id other with same | ⟨thens, waiting, -⟩
      · exact same.trans gone
      · cases gone.symm.trans waiting

/-! ## Flights speak once -/

/-- A flight that spoke is over, and its copy is no longer stored. -/
structure Voiced (ns : String) (ℓ : Lane) : Prop where
  known : ∀ id event, .emitted (some id) event ∈ ℓ.trace →
    ∃ call gas, .registered ns id call gas ∈ ℓ.trace
  silent : ∀ id event, .emitted (some id) event ∈ ℓ.trace → ℓ.flight id = none
  dropped : ∀ id event, .emitted (some id) event ∈ ℓ.trace →
    ∀ stepId yielded, ℓ.step stepId = some yielded → yielded.yieldId ≠ id

namespace Voiced

variable {ns : String} {ℓ ℓ' : Lane}

theorem fresh : Voiced ns Lane.fresh where
  known _ _ member := absurd member List.not_mem_nil
  silent _ _ member := absurd member List.not_mem_nil
  dropped _ _ member := absurd member List.not_mem_nil

/-- A step that says nothing. -/
theorem of_silent (voiced : Voiced ns ℓ) {events : Trace} (trace : ℓ'.trace = ℓ.trace ++ events)
    (plain : ∀ by_ event, .emitted by_ event ∉ events)
    (spent : ∀ id call gas, ℓ.flight id = none → .registered ns id call gas ∈ ℓ.trace →
      ℓ'.flight id = none)
    (steps : ∀ stepId yielded, ℓ'.step stepId = some yielded →
      (∃ stepId', ℓ.step stepId' = some yielded) ∨
        ∀ call gas, .registered ns yielded.yieldId call gas ∉ ℓ.trace) : Voiced ns ℓ' := by
  have before : ∀ id event, .emitted (some id) event ∈ ℓ'.trace →
      .emitted (some id) event ∈ ℓ.trace := by
    intro id event inside
    rw [trace, List.mem_append] at inside
    exact inside.resolve_right (plain _ _)
  refine ⟨fun id event inside => ?_, fun id event inside => ?_, fun id event inside => ?_⟩
  · obtain ⟨call, gas, record⟩ := voiced.known id event (before _ _ inside)
    exact ⟨call, gas, trace ▸ List.mem_append_left _ record⟩
  · obtain ⟨call, gas, record⟩ := voiced.known id event (before _ _ inside)
    exact spent id call gas (voiced.silent id event (before _ _ inside)) record
  · intro stepId yielded stored same
    rcases steps stepId yielded stored with ⟨stepId', old⟩ | new
    · exact voiced.dropped id event (before _ _ inside) stepId' yielded old same
    · obtain ⟨call, gas, record⟩ := voiced.known id event (before _ _ inside)
      exact new call gas (same ▸ record)

theorem register (voiced : Voiced ns ℓ) {yielded : RegisteredStep} {gasTgas : Nat}
    (can : Lane.CanRegister ns ℓ yielded gasTgas) :
    Voiced ns (ℓ.register ns yielded gasTgas) := by
  have registers : Lane.Registers ns [(yielded, gasTgas)] ℓ (ℓ.register ns yielded gasTgas) :=
    .cons can .nil
  refine voiced.of_silent (rfl : _ = ℓ.trace ++ [_]) (by simp)
    (fun id call gas gone record => registers.spent gone record) fun stepId copy stored => ?_
  have stored' : update ℓ.step yielded.call.stepId (some yielded) stepId = some copy := stored
  rw [update_apply] at stored'
  split at stored'
  · cases stored'
    exact .inr can.new
  · exact .inl ⟨stepId, stored'⟩

theorem registers (voiced : Voiced ns ℓ) {copies : List (RegisteredStep × Nat)}
    (registers : Lane.Registers ns copies ℓ ℓ') : Voiced ns ℓ' := by
  induction registers with
  | nil => exact voiced
  | cons can rest ih => exact ih (voiced.register can)

theorem release (voiced : Voiced ns ℓ) (counted : Counted ns ℓ) {order : List String}
    (released : Lane.Release ns order ℓ ℓ') : Voiced ns ℓ' := by
  obtain ⟨first, rest, yielded, thens, -, -, -, -, -, eq⟩ := released.eq counted
  have steps : ℓ'.step = ℓ.step := by rw [eq]
  obtain ⟨first', yieldId, trace⟩ := released.trace counted
  exact voiced.of_silent trace (by simp) (fun id call gas gone _ => released.spent gone)
    fun stepId copy stored => .inl ⟨stepId, steps ▸ stored⟩

theorem deliver (voiced : Voiced ns ℓ) (tidy : Tidy ns ℓ) {id : Nat}
    (delivered : Lane.Deliver ns ℓ id ℓ') : Voiced ns ℓ' := by
  obtain ⟨f, flying⟩ := delivered.flew
  obtain ⟨call, gas, record, chain⟩ := tidy.flying id f flying
  have touched := delivered.touched tidy.proper flying chain
  obtain ⟨events, trace, last⟩ := delivered.speaks flying chain
  have step : Lane.Step ns (.deliver id) ℓ ℓ' := .deliver delivered
  have longer : ∀ {event : TraceEvent}, event ∈ ℓ.trace → event ∈ ℓ'.trace := by
    intro event inside
    rw [trace]
    exact List.mem_append_left _ inside
  have split : ∀ id' event, .emitted (some id') event ∈ ℓ'.trace →
      .emitted (some id') event ∈ ℓ.trace ∨ id' = id ∧ ℓ'.flight id = none ∧
        ℓ'.step call.stepId = none := by
    intro id' event inside
    rw [trace, List.mem_append] at inside
    exact inside.imp (fun old => old) fun new => (last _ _ new).imp_left Option.some.inj
  refine ⟨fun id' event inside => ?_, fun id' event inside => ?_, fun id' event inside => ?_⟩
  · rcases split id' event inside with old | ⟨rfl, -, -⟩
    · obtain ⟨call', gas', record'⟩ := voiced.known id' event old
      exact ⟨call', gas', longer record'⟩
    · exact ⟨call, gas, longer record⟩
  · rcases split id' event inside with old | ⟨rfl, gone, -⟩
    · obtain ⟨call', gas', record'⟩ := voiced.known id' event old
      exact step.spent tidy (voiced.silent id' event old) record'
    · exact gone
  · intro stepId yielded stored same
    have stored' := touched.steps stepId yielded stored
    rcases split id' event inside with old | ⟨rfl, -, dropped⟩
    · exact voiced.dropped id' event old stepId yielded stored' same
    · obtain ⟨own, gas', record'⟩ := tidy.stored stepId yielded stored'
      obtain ⟨eq, -⟩ := tidy.unique _ _ _ _ _ record (same ▸ record')
      rw [eq, own, stored] at dropped
      cases dropped

/-- Every lane step keeps this. -/
theorem step (voiced : Voiced ns ℓ) (tidy : Tidy ns ℓ) (counted : Counted ns ℓ)
    {kind : Lane.Kind} (step : Lane.Step ns kind ℓ ℓ') : Voiced ns ℓ' := by
  cases step with
  | register manual can => exact voiced.register can
  | release manual released => exact voiced.release counted released
  | fire auto absent registered released running =>
      have after := (voiced.registers registered).release (counted.registers registered) released
      exact ⟨after.known, after.silent, after.dropped⟩
  | prune stored terminal => exact ⟨voiced.known, voiced.silent, voiced.dropped⟩
  | expire dormant =>
      rename_i id thens
      exact voiced.of_silent (List.append_nil _).symm (by simp)
        (fun id' call gas gone record =>
          (Lane.Step.expire dormant : Lane.Step ns .aside _ _).spent tidy gone record)
        fun stepId yielded stored => .inl ⟨stepId, stored⟩
  | deliver delivered => exact voiced.deliver tidy delivered

end Voiced

/-! ## An undisturbed release -/

theorem Early.not_dormant {ns stepId : String} {id gas gas' : Nat} {call : Step} {t : Trace}
    {f : Flight} (early : Early ns id call gas t f) : ¬ Dormant ns stepId gas' f := by
  intro dormant
  cases early <;> cases dormant

theorem Late.not_dormant {ns stepId : String} {id gas : Nat} {call : Step} {t : Trace}
    {f : Flight} (late : Late ns id call t f) : ¬ Dormant ns stepId gas f := by
  intro dormant
  cases late <;> cases dormant

/-- The release is underway, its current copy in flight, and all its later steps wait. -/
structure Running (ns : String) (release : Nat) (order : List String) (k id : Nat) (call : Step)
    (ℓ : Lane) : Prop where
  underway : Underway ns release order k id call ℓ
  flying : ∃ f, ℓ.flight id = some f
  waiting : ℓ.queue = if order.drop (k + 1) = [] then none else some (order.drop (k + 1))
  row : IsAutomation ns → ∃ run, ℓ.row = some run ∧ run.status = .inFlight

namespace Running

variable {ns : String} {release : Nat} {order : List String} {k id : Nat} {call : Step}
  {ℓ ℓ' : Lane}

/-- It goes on where queue and run stay. -/
theorem keep (running : Running ns release order k id call ℓ)
    (underway : Underway ns release order k id call ℓ') (flying : ∃ f, ℓ'.flight id = some f)
    (queue : ℓ'.queue = ℓ.queue) (row : ℓ'.row = ℓ.row) :
    Running ns release order k id call ℓ' where
  underway := underway
  flying := flying
  waiting := queue ▸ running.waiting
  row := row ▸ running.row

/-- Its lane is not quiet. -/
theorem not_quiet (running : Running ns release order k id call ℓ) : ¬ Lane.Quiet ns ℓ := by
  intro quiet
  obtain ⟨f, flying⟩ := running.flying
  obtain ⟨stepId, gas, dormant⟩ := quiet id f flying
  obtain ⟨-, ⟨gas', early⟩ | late⟩ := running.underway.own f flying
  · exact early.not_dormant dormant
  · exact late.not_dormant dormant

/-- An empty queue means that the current step is the last one. -/
theorem drained (running : Running ns release order k id call ℓ)
    (empty : ℓ.queue = none ∨ ℓ.queue = some []) : k + 1 = order.length := by
  have within := (List.getElem?_eq_some_iff.mp running.underway.here).1
  have none_left : order.drop (k + 1) = [] := by
    have waiting := running.waiting
    rcases empty with empty | empty
    · rw [empty] at waiting
      split at waiting
      · assumption
      · cases waiting
    · exact (running.underway.queue [] empty).symm
  have long := List.drop_eq_nil_iff.mp none_left
  omega

/-- Its run is in flight wherever there is one. -/
theorem inFlight (running : Running ns release order k id call ℓ) (tidy : Tidy ns ℓ)
    {run : AutomationRun} (stored : ℓ.row = some run) : run.status = .inFlight := by
  obtain ⟨run', stored', open_⟩ := running.row (tidy.auto run stored)
  rw [stored, Option.some.injEq] at stored'
  exact stored' ▸ open_

/-- The next step of the order is resumed. -/
theorem advance (running : Running ns release order k id call ℓ) (tidy : Tidy ns ℓ)
    {result : PromiseResult} {next : String} {waiting : List String} {yielded : RegisteredStep}
    {thens : List Then} (queued : ℓ.queue = some (next :: waiting)) (other : next ≠ call.stepId)
    (stored : ℓ.step next = some yielded)
    (dormant : ℓ.flight yielded.yieldId = some ⟨.yielded, thens⟩) :
    Running ns release order (k + 1) yielded.yieldId yielded.call
      (((ℓ.resolved ns id call.stepId result waiting).resume ns next yielded.yieldId
        thens).land id) := by
  obtain ⟨f, flying⟩ := running.flying
  have awake := running.underway.awake flying
  have apart : yielded.yieldId ≠ id := by
    intro same
    rw [same, flying, Option.some.injEq] at dormant
    exact awake (by rw [dormant])
  have rest : waiting = order.drop (k + 1 + 1) := by
    have ahead := congrArg List.tail (running.underway.queue _ queued)
    rwa [List.tail_cons, List.tail_drop] at ahead
  refine ⟨running.underway.advance tidy queued other stored dormant ⟨f, flying, awake⟩, ?_, ?_,
    running.row⟩
  · exact ⟨⟨.done resumeSignal, thens⟩, (update_of_ne apart _ _).trans (update_self ..)⟩
  · show (if waiting = [] then none else some waiting) = _
    rw [rest]

/-- One more registered copy. -/
theorem register (running : Running ns release order k id call ℓ) (tidy : Tidy ns ℓ)
    (manual : IsManual ns) {yielded : RegisteredStep} {gasTgas : Nat}
    (can : Lane.CanRegister ns ℓ yielded gasTgas) :
    Running ns release order k id call (ℓ.register ns yielded gasTgas) := by
  obtain ⟨f, flying⟩ := running.flying
  have apart : id ≠ yielded.yieldId := by
    intro same
    rw [same, can.free] at flying
    cases flying
  exact running.keep (running.underway.register tidy manual can)
    ⟨f, (update_of_ne apart _ _).trans flying⟩ rfl rfl

/-- The timeout of a yield. -/
theorem expire (running : Running ns release order k id call ℓ) {id' : Nat} {thens : List Then}
    (dormant : ℓ.flight id' = some ⟨.yielded, thens⟩) :
    Running ns release order k id call (ℓ.putFlight id' ⟨.done .failed, thens⟩) := by
  obtain ⟨f, flying⟩ := running.flying
  have apart : id ≠ id' := by
    intro same
    rw [← same, flying, Option.some.injEq] at dormant
    exact running.underway.awake flying (by rw [dormant])
  exact running.keep (running.underway.expire dormant)
    ⟨f, (update_of_ne apart _ _).trans flying⟩ rfl rfl

end Running

/-- A release accepted in a quiet lane runs, with the stored copy of its first step. -/
theorem Running.start {ns : String} {order : List String} {ℓ ℓ' : Lane} (tidy : Tidy ns ℓ)
    (counted : Counted ns ℓ) (quiet : Lane.Quiet ns ℓ) (released : Lane.Release ns order ℓ ℓ')
    {row : Option AutomationRun}
    (inFlight : IsAutomation ns → ∃ run, row = some run ∧ run.status = .inFlight) :
    ∃ first rest copy, order = first :: rest ∧ ℓ'.step first = some copy ∧
      ℓ'.trace = ℓ.trace ++ [.released ns order,
        .resumed ns (ℓ.trace.releaseCount ns) 0 first copy.yieldId] ∧
      Running ns (ℓ.trace.releaseCount ns) order 0 copy.yieldId copy.call
        { ℓ' with row := row } := by
  obtain ⟨id, call, underway, -⟩ := Underway.start tidy counted quiet released
  obtain ⟨first, rest, copy, thens, rfl, -, -, stored, -, eq⟩ := released.eq counted
  have trace : ℓ'.trace = ℓ.trace ++ [.released ns (first :: rest),
      .resumed ns (ℓ.trace.releaseCount ns) 0 first copy.yieldId] := by
    rw [eq]
  have flying : ℓ'.flight copy.yieldId = some ⟨.done resumeSignal, thens⟩ := by
    rw [eq]
    exact update_self ..
  have resumed := underway.resumed
  rw [trace] at resumed
  simp only [List.mem_append, List.mem_cons, reduceCtorEq, TraceEvent.resumed.injEq,
    List.not_mem_nil, or_false, false_or] at resumed
  rcases resumed with old | ⟨-, -, -, same, rfl⟩
  · exact absurd (counted.resumed _ _ _ _ old) (Nat.lt_irrefl _)
  · have kept : ℓ'.step first = some copy := by
      rw [eq]
      exact stored
    obtain ⟨own, -⟩ := underway.own _ flying
    obtain ⟨-, rfl⟩ := own copy (same ▸ kept)
    refine ⟨first, rest, copy, rfl, kept, trace, underway.keep ⟨[], (List.append_nil _).symm,
      fun _ inside => absurd inside List.not_mem_nil⟩ (fun _ queued => queued) underway.others
      underway.own, ⟨_, flying⟩, ?_, inFlight⟩
    show ℓ'.queue = _
    rw [eq]
    rfl

end SmartAccount
