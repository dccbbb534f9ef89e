import SmartAccount.Underway

/-!
# Following one release through a lane

`Followed` is what holds of a lane before, during and after one particular release, and
is kept by every lane step (`Followed.step`).  Its first case asks for a quiet lane, or
for an order of one step, which has no next step to resume too early.
-/

namespace SmartAccount

open Foundation Function

/-! ## What any lane step notes -/

/-- A lane step only adds to the trace, and resumes for the release it accepts or for the
latest one while its queue is not empty. -/
theorem Lane.Step.notes {ns : String} {kind : Lane.Kind} {ℓ ℓ' : Lane} (tidy : Tidy ns ℓ)
    (counted : Counted ns ℓ) (step : Lane.Step ns kind ℓ ℓ') :
    ∃ events : Trace, ℓ'.trace = ℓ.trace ++ events ∧
      ∀ release k stepId id, .resumed ns release k stepId id ∈ events →
        (release = ℓ.trace.releaseCount ns ∧
          ℓ'.trace.releaseCount ns = ℓ.trace.releaseCount ns + 1) ∨
        (release + 1 = ℓ.trace.releaseCount ns ∧ ℓ.queue ≠ none ∧
          ℓ'.trace.releaseCount ns = ℓ.trace.releaseCount ns) := by
  have still : ∃ events : Trace, ℓ.trace = ℓ.trace ++ events ∧
      ∀ release k stepId id, .resumed ns release k stepId id ∉ events :=
    ⟨[], (List.append_nil _).symm, fun _ _ _ _ => List.not_mem_nil⟩
  cases step with
  | register manual can =>
      exact ⟨[_], rfl, fun _ _ _ _ member => by cases List.mem_singleton.mp member⟩
  | release manual released =>
      obtain ⟨first, yieldId, grown⟩ := released.trace counted
      refine ⟨_, grown, fun release k stepId id member => .inl ⟨?_, released.count⟩⟩
      simp only [List.mem_cons, reduceCtorEq, TraceEvent.resumed.injEq, List.not_mem_nil,
        false_or, or_false] at member
      exact member.2.1
  | fire auto absent registered released running =>
      obtain ⟨-, -, ⟨records, trace, plain⟩, -⟩ := registered.eq
      have count := released.count.trans (congrArg (· + 1) registered.count)
      obtain ⟨first, yieldId, grown⟩ := released.trace (counted.registers registered)
      rw [registered.count, trace, List.append_assoc] at grown
      refine ⟨_, grown, fun release k stepId id member => .inl ⟨?_, count⟩⟩
      simp only [List.mem_append, List.mem_cons, reduceCtorEq, TraceEvent.resumed.injEq,
        List.not_mem_nil, false_or, or_false] at member
      rcases member with record | ⟨-, same, -⟩
      · cases plain _ record
      · exact same
  | prune stored terminal =>
      obtain ⟨events, trace, plain⟩ := still
      exact ⟨events, trace, fun _ _ _ _ member => absurd member (plain _ _ _ _)⟩
  | expire dormant =>
      obtain ⟨events, trace, plain⟩ := still
      exact ⟨events, trace, fun _ _ _ _ member => absurd member (plain _ _ _ _)⟩
  | deliver delivered =>
      obtain ⟨f, flying⟩ := delivered.flew
      obtain ⟨call, gas, -, chain⟩ := tidy.flying _ f flying
      have touched := delivered.touched tidy.proper flying chain
      obtain ⟨events, trace, notes⟩ := touched.notes
      refine ⟨events, trace, fun release k stepId id member => .inr ?_⟩
      rcases notes _ member with plain | ⟨queued, k', next, yieldId, same⟩
      · cases plain
      · cases same
        have positive := counted.queued queued
        exact ⟨by omega, queued, touched.releaseCount⟩

theorem Lane.Step.deliver_count {ns : String} {id : Nat} {ℓ ℓ' : Lane} (tidy : Tidy ns ℓ)
    (step : Lane.Step ns (.deliver id) ℓ ℓ') :
    ℓ'.trace.releaseCount ns = ℓ.trace.releaseCount ns := by
  cases step with
  | deliver delivered =>
      obtain ⟨f, flying⟩ := delivered.flew
      obtain ⟨call, gas, -, chain⟩ := tidy.flying _ f flying
      exact (delivered.touched tidy.proper flying chain).releaseCount

/-- Only a release counts. -/
theorem Lane.Step.count {ns : String} {kind : Lane.Kind} {ℓ ℓ' : Lane} (tidy : Tidy ns ℓ)
    (step : Lane.Step ns kind ℓ ℓ') :
    kind = .release ∧ ℓ'.trace.releaseCount ns = ℓ.trace.releaseCount ns + 1 ∨
      kind ≠ .release ∧ ℓ'.trace.releaseCount ns = ℓ.trace.releaseCount ns := by
  cases kind with
  | aside => exact .inr ⟨Lane.Kind.noConfusion, step.aside_count⟩
  | release => exact .inl ⟨rfl, step.release_count⟩
  | deliver id => exact .inr ⟨Lane.Kind.noConfusion, step.deliver_count tidy⟩

/-- Only a release fills an empty queue. -/
theorem Lane.Step.queue {ns : String} {kind : Lane.Kind} {ℓ ℓ' : Lane} (tidy : Tidy ns ℓ)
    (step : Lane.Step ns kind ℓ ℓ') (empty : ℓ.queue = none) (alone : kind ≠ .release) :
    ℓ'.queue = none := by
  cases step with
  | register manual can => exact empty
  | release manual released => exact absurd rfl alone
  | fire auto absent registered released running => exact absurd rfl alone
  | prune stored terminal => exact empty
  | expire dormant => exact empty
  | deliver delivered =>
      obtain ⟨f, flying⟩ := delivered.flew
      obtain ⟨call, gas, -, chain⟩ := tidy.flying _ f flying
      exact (delivered.touched tidy.proper flying chain).queue empty

/-! ## Quiet lanes -/

namespace Lane

variable {ns : String} {ℓ ℓ' : Lane}

/-- No flight was added but dormant ones. -/
theorem Quiet.of_flights (quiet : Quiet ns ℓ)
    (flights : ∀ id f, ℓ'.flight id = some f → ℓ.flight id = some f ∨
      ∃ stepId gas, Dormant ns stepId gas f) : Quiet ns ℓ' :=
  fun id f flying => (flights id f flying).elim (quiet id f) fun dormant => dormant

theorem Quiet.land (quiet : Quiet ns ℓ) {ℓ₁ : Lane} {id : Nat} (same : ℓ₁.flight = ℓ.flight) :
    Quiet ns (ℓ₁.land id) := by
  refine quiet.of_flights fun id' f flying => .inl ?_
  rw [land_flight, update_apply] at flying
  split at flying
  · cases flying
  · exact same ▸ flying

/-- A lane step that accepts no release keeps a lane quiet. -/
theorem Quiet.step (quiet : Quiet ns ℓ) {kind : Kind} (step : Lane.Step ns kind ℓ ℓ')
    (alone : kind ≠ .release) : Quiet ns ℓ' := by
  cases step with
  | register manual can =>
      rename_i yielded gasTgas
      have registers : Lane.Registers ns [(yielded, gasTgas)] ℓ (ℓ.register ns yielded gasTgas) :=
        .cons can .nil
      exact quiet.of_flights registers.eq.2.2.2
  | release manual released => exact absurd rfl alone
  | fire auto absent registered released running => exact absurd rfl alone
  | prune stored terminal => exact quiet
  | expire dormant =>
      rename_i id thens
      refine quiet.of_flights fun id' f flying => ?_
      rw [putFlight_flight, update_apply] at flying
      split at flying
      · cases flying
        obtain ⟨stepId, gas, asleep⟩ := quiet id _ dormant
        cases asleep
        exact .inr ⟨stepId, gas, .expired⟩
      · exact .inl flying
  | deliver delivered =>
      rename_i id
      obtain ⟨f, flying⟩ := delivered.flew
      obtain ⟨stepId, gas, dormant⟩ := quiet id f flying
      rcases dormant.deliver flying delivered with ⟨event, -, -, rfl⟩ | halts
      · exact quiet.land rfl
      · obtain ⟨ℓ₁, rfl, falls⟩ := Lane.Falls.of_halts halts
        exact quiet.land falls.settles.flight

end Lane

/-! ## The start of a release -/

/-- The rules of a release say nothing about what happened before it. -/
theorem Counted.lawful {ns : String} {ℓ : Lane} (counted : Counted ns ℓ) (order : List String) :
    Guarded (Lawful ns (ℓ.trace.releaseCount ns) order) ℓ.trace := by
  intro past event later split
  have old : ∀ k stepId id,
      .resumed ns (ℓ.trace.releaseCount ns) k stepId id ∉ ℓ.trace :=
    fun k stepId id member => absurd (counted.resumed _ _ _ _ member) (Nat.lt_irrefl _)
  have before : ∀ {e : TraceEvent}, e ∈ past → e ∈ ℓ.trace := by
    intro e inside
    rw [split]
    exact List.mem_append_left _ inside
  have here : event ∈ ℓ.trace := by
    rw [split]
    simp
  refine ⟨.of_not_resumed ?_, ?_, ?_⟩
  · rintro k stepId id rfl
    exact old k stepId id here
  · rintro stepId id call args - ⟨k, at', member⟩
    exact absurd (before member) (old k at' id)
  · rintro stepId id n - ⟨k, at', member⟩
    exact absurd (before member) (old k at' id)

/-- A release accepted in a quiet lane is underway with its first step. -/
theorem Underway.start {ns : String} {order : List String} {ℓ ℓ' : Lane} (tidy : Tidy ns ℓ)
    (counted : Counted ns ℓ) (quiet : Lane.Quiet ns ℓ)
    (released : Lane.Release ns order ℓ ℓ') :
    ∃ id call, Underway ns (ℓ.trace.releaseCount ns) order 0 id call ℓ' ∧
      Guarded (Lawful ns (ℓ.trace.releaseCount ns) order) ℓ'.trace := by
  have latest := released.count
  obtain ⟨first, rest, yielded, thens, rfl, idle, known, stored, dormant, rfl⟩ :=
    released.eq counted
  obtain ⟨rfl, gas, record⟩ := tidy.stored first yielded stored
  obtain ⟨stepId, gas', asleep⟩ := quiet _ _ dormant
  have shape : thens = [⟨.onStepResumed ns yielded.call.stepId, gas'⟩] := by
    obtain ⟨call', gas'', record', chain⟩ := tidy.flying _ _ dormant
    obtain ⟨rfl, -⟩ := tidy.unique _ _ _ _ _ record record'
    cases asleep
    have same := chain.about _ (List.mem_cons_self ..)
    simp only [Callback.stepId] at same
    rw [same]
  refine ⟨yielded.yieldId, yielded.call, {
    latest := latest, count := ?_, here := rfl, resumed := by simp
    record := ⟨gas, List.mem_append_left _ record⟩, queue := ?_, others := ?_, own := ?_ }, ?_⟩
  · show Trace.resumeCount (ℓ.trace ++ _) ns _ = 1
    rw [Trace.resumeCount_append, counted.resumeCount_next]
    simp [Trace.resumeCount, TraceEvent.isResumed]
  · intro waiting queued
    simp only at queued
    split at queued
    · cases queued
    · cases queued
      rfl
  · intro id f other flying
    simp only [update_of_ne other] at flying
    exact quiet id f flying
  · intro f flying
    simp only [update_self, Option.some.injEq] at flying
    refine ⟨fun copy kept => ?_, .inl ⟨gas', ?_⟩⟩
    · have kept' : ℓ.step yielded.call.stepId = some copy := kept
      rw [stored, Option.some.injEq] at kept'
      subst kept'
      exact ⟨rfl, rfl⟩
    · rw [← flying, shape]
      exact .resumed
  · show Guarded _ (ℓ.trace ++ [_, _])
    rw [List.append_cons]
    refine Guarded.snoc.mpr ⟨Guarded.snoc.mpr ⟨counted.lawful _, .released _⟩,
      .of_resumed ⟨?_, ?_⟩⟩
    · intro k stepId' id same
      cases same
      rfl
    · intro k stepId' id same
      cases same

/-! ## One release, followed -/

/-- What holds of a lane about one release with this order.  If `lax`, an order of a single
step may be accepted in a lane that is not quiet. -/
inductive Followed (ns : String) (release : Nat) (order : List String) (lax : Prop) (ℓ : Lane) :
    Prop
  | awaited (before : ℓ.trace.releaseCount ns = release)
      (calm : Lane.Quiet ns ℓ ∨ lax ∧ order.length = 1) : Followed ns release order lax ℓ
  | underway {k id : Nat} {call : Step} (underway : Underway ns release order k id call ℓ)
      (lawful : Guarded (Lawful ns release order) ℓ.trace) : Followed ns release order lax ℓ
  | lone (allowed : lax) (latest : ℓ.trace.releaseCount ns = release + 1)
      (drained : ℓ.queue = none) (inOrder : Guarded (InOrder ns release order) ℓ.trace) :
      Followed ns release order lax ℓ
  | past (behind : release + 1 < ℓ.trace.releaseCount ns)
      (inOrder : Guarded (InOrder ns release order) ℓ.trace) : Followed ns release order lax ℓ
  | other (accepted : release < ℓ.trace.releaseCount ns)
      (another : (ℓ.trace.orders ns)[release]? ≠ some order) : Followed ns release order lax ℓ

theorem InOrder.append {ns : String} {release : Nat} {order : List String} {t events : Trace}
    (inOrder : Guarded (InOrder ns release order) t)
    (free : ∀ k stepId id, .resumed ns release k stepId id ∉ events) :
    Guarded (InOrder ns release order) (t ++ events) :=
  inOrder.append fun _ inside _ => .of_not_resumed fun k stepId id same =>
    free k stepId id (same ▸ inside)

namespace Followed

variable {ns : String} {release : Nat} {order : List String} {lax : Prop} {ℓ ℓ' : Lane}

/-- The run plays no part. -/
theorem of_row (followed : Followed ns release order lax ℓ) (row : Option AutomationRun) :
    Followed ns release order lax { ℓ with row := row } := by
  cases followed with
  | awaited before calm => exact .awaited before calm
  | underway underway lawful =>
      exact .underway (underway.keep ⟨[], (List.append_nil _).symm, fun _ inside =>
        absurd inside List.not_mem_nil⟩ (fun _ queued => queued) underway.others underway.own) lawful
  | lone allowed latest drained inOrder => exact .lone allowed latest drained inOrder
  | past behind inOrder => exact .past behind inOrder
  | other accepted another => exact .other accepted another

/-- The release is accepted. -/
theorem of_release (tidy : Tidy ns ℓ) (counted : Counted ns ℓ)
    (before : ℓ.trace.releaseCount ns = release)
    (calm : Lane.Quiet ns ℓ ∨ lax ∧ order.length = 1) {order' : List String}
    (released : Lane.Release ns order' ℓ ℓ') : Followed ns release order lax ℓ' := by
  subst before
  have count := released.count
  by_cases same : order' = order
  · subst same
    rcases calm with quiet | ⟨allowed, short⟩
    · obtain ⟨id, call, underway, lawful⟩ := Underway.start tidy counted quiet released
      exact .underway underway lawful
    · obtain ⟨first, rest, yielded, thens, rfl, -, -, -, -, rfl⟩ := released.eq counted
      have last : rest = [] := by simpa using short
      refine .lone allowed count (if_pos last) ?_
      show Guarded _ (ℓ.trace ++ [_, _])
      rw [List.append_cons]
      refine Guarded.snoc.mpr ⟨Guarded.snoc.mpr ⟨?_, .of_not_resumed ?_⟩, ?_, ?_⟩
      · exact (counted.lawful _).mono fun _ _ _ lawful => lawful.inOrder
      · intro k stepId id eq
        cases eq
      · intro k stepId id eq
        cases eq
        rfl
      · intro k stepId id eq
        cases eq
  · refine .other (count ▸ Nat.lt_succ_self _) ?_
    obtain ⟨first, yieldId, grown⟩ := released.trace counted
    rw [grown, Trace.orders_append, ← Trace.length_orders, List.getElem?_append_right (Nat.le_refl _)]
    simpa [Trace.orders] using same

theorem step (followed : Followed ns release order lax ℓ) (tidy : Tidy ns ℓ)
    (counted : Counted ns ℓ) {kind : Lane.Kind} (step : Lane.Step ns kind ℓ ℓ') :
    Followed ns release order lax ℓ' := by
  obtain ⟨events, trace, marks⟩ := step.notes tidy counted
  have count := step.count tidy
  cases followed with
  | awaited before calm =>
      rcases count with ⟨rfl, -⟩ | ⟨alone, same⟩
      · cases step with
        | release manual released => exact of_release tidy counted before calm released
        | fire auto absent registered released running =>
            refine (of_release (tidy.registers registered) (counted.registers registered)
              (registered.count.trans before) ?_ released).of_row _
            exact calm.imp (fun quiet => quiet.of_flights registered.eq.2.2.2) fun short => short
      · exact .awaited (same.trans before)
          (calm.imp (fun quiet => quiet.step step alone) fun short => short)
  | underway underway lawful =>
      rcases count with ⟨-, grown⟩ | ⟨alone, same⟩
      · have latest := underway.latest
        refine .past (by omega) ?_
        rw [trace]
        refine InOrder.append (lawful.mono fun _ _ _ lawful => lawful.inOrder) ?_
        intro k stepId id member
        rcases marks _ _ _ _ member with ⟨same, -⟩ | ⟨-, -, same⟩ <;> omega
      · obtain ⟨k', id', call', underway', lawful'⟩ := underway.step tidy lawful step alone
        exact .underway underway' lawful'
  | lone allowed latest drained inOrder =>
      rcases count with ⟨-, grown⟩ | ⟨alone, same⟩
      · refine .past (by omega) ?_
        rw [trace]
        refine InOrder.append inOrder fun k stepId id member => ?_
        rcases marks _ _ _ _ member with ⟨same, -⟩ | ⟨-, -, same⟩ <;> omega
      · refine .lone allowed (same.trans latest) (step.queue tidy drained alone) ?_
        rw [trace]
        refine InOrder.append inOrder fun k stepId id member => ?_
        rcases marks _ _ _ _ member with ⟨-, grown⟩ | ⟨-, queued, -⟩
        · omega
        · exact queued drained
  | past behind inOrder =>
      refine .past (by omega) ?_
      rw [trace]
      refine InOrder.append inOrder fun k stepId id member => ?_
      rcases marks _ _ _ _ member with ⟨same, -⟩ | ⟨same, -, -⟩ <;> omega
  | other accepted another =>
      refine .other (by omega) ?_
      rw [trace, Trace.orders_append, List.getElem?_append_left]
      · exact another
      · rw [Trace.length_orders]
        exact accepted

end Followed

end SmartAccount
