import SmartAccount.Course
import SmartAccount.OrderedRelease

/-!
# Completion

In a run whose releases are all accepted in quiet, and in which no timed-out step takes
the queue from under a step in flight, a completed sequence has resolved all its steps,
has not halted, and is the success of its run (`completion_is_sound`).  The timeout of a
queued step clears the queue for the step in flight as well, whose late Ok is then
reported as the completion (`late_ok_completes_halted_sequence`).
-/

namespace SmartAccount

open Foundation Function
open Relation (ReflTransGen)

/-! ## Success of a run -/

def Lane.Succeeded (ℓ : Lane) : Prop := ∃ run, ℓ.row = some run ∧ run.status = .succeeded

theorem Lane.Falls.not_succeeded {stepId : String} {ℓ ℓ₁ : Lane} (falls : Lane.Falls stepId ℓ ℓ₁)
    (succeeded : ℓ₁.Succeeded) : ℓ.Succeeded := by
  obtain ⟨run, stored, status⟩ := succeeded
  rcases falls.row with ⟨-, same⟩ | ⟨run', stored', failed⟩
  · exact ⟨run, same ▸ stored, status⟩
  · rw [stored, Option.some.injEq] at stored'
    rw [← stored', status] at failed
    rcases failed with eq | eq <;> cases eq

/-- Only a delivery closes a run as succeeded. -/
theorem Lane.Step.not_succeeded {ns : String} {kind : Lane.Kind} {ℓ ℓ' : Lane}
    (step : Lane.Step ns kind ℓ ℓ') (undelivered : ∀ id, kind ≠ .deliver id)
    (succeeded : ℓ'.Succeeded) : ℓ.Succeeded := by
  obtain ⟨run, stored, status⟩ := succeeded
  cases step with
  | register manual can => exact ⟨run, stored, status⟩
  | release manual released =>
      cases released with
      | mk shape idle known first dormant => exact ⟨run, stored, status⟩
  | fire auto absent registered released running =>
      cases stored
      cases running.symm.trans status
  | prune row terminal => cases stored
  | expire dormant => exact ⟨run, stored, status⟩
  | deliver delivered => exact absurd rfl (undelivered _)

/-- Nothing is emitted and no run closed as succeeded. -/
def Lane.Mute (ℓ ℓ' : Lane) : Prop :=
  (ℓ'.Succeeded → ℓ.Succeeded) ∧ ∃ events : Trace, ℓ'.trace = ℓ.trace ++ events ∧
    ∀ by_ event, .emitted by_ event ∉ events

theorem Lane.Mute.refl (ℓ : Lane) : ℓ.Mute ℓ :=
  ⟨fun done => done, [], (List.append_nil _).symm, by simp⟩

theorem Lane.Mute.trans {ℓ₁ ℓ₂ ℓ₃ : Lane} (first : ℓ₁.Mute ℓ₂) (second : ℓ₂.Mute ℓ₃) :
    ℓ₁.Mute ℓ₃ := by
  obtain ⟨before, events, trace, silent⟩ := first
  obtain ⟨before', events', trace', silent'⟩ := second
  refine ⟨fun done => before (before' done), events ++ events', ?_, fun by_ event inside => ?_⟩
  · rw [trace', trace, List.append_assoc]
  · exact (List.mem_append.mp inside).elim (silent by_ event) (silent' by_ event)

theorem Lane.Step.mute {ns : String} {kind : Lane.Kind} {ℓ ℓ' : Lane} (tidy : Tidy ns ℓ)
    (counted : Counted ns ℓ) (step : Lane.Step ns kind ℓ ℓ')
    (undelivered : ∀ id, kind ≠ .deliver id) : ℓ.Mute ℓ' := by
  obtain ⟨events, trace, speaks⟩ := step.speaks tidy counted
  refine ⟨step.not_succeeded undelivered, events, trace, fun by_ event inside => ?_⟩
  obtain ⟨id, -, delivers, -⟩ := speaks by_ event inside
  exact undelivered id delivers

theorem Lane.Moves.mute {ns : String} {ℓ ℓ' : Lane} (tidy : Tidy ns ℓ) (counted : Counted ns ℓ)
    (moves : Lane.Moves ns ℓ ℓ') : ℓ.Mute ℓ' := by
  obtain ⟨ℓ₁, chain, last⟩ := moves
  have aside : Tidy ns ℓ₁ ∧ Counted ns ℓ₁ ∧ ℓ.Mute ℓ₁ := by
    clear last
    induction chain with
    | refl => exact ⟨tidy, counted, .refl ℓ⟩
    | tail _ step ih =>
        obtain ⟨tidy, counted, before⟩ := ih
        exact ⟨tidy.step step, counted.step tidy step,
          before.trans (step.mute tidy counted fun _ => Lane.Kind.noConfusion)⟩
  obtain ⟨tidy₁, counted₁, before⟩ := aside
  rcases last with rfl | step
  · exact before
  · exact before.trans (step.mute tidy₁ counted₁ fun _ => Lane.Kind.noConfusion)

namespace Course

variable {ns : String} {release : Nat} {order : List String} {member : Nat → Prop} {id : Nat}
  {ℓ ℓ' : Lane} {events : Trace}

/-- Under the latest release, a delivery completes a sequence exactly when it closes the
automation run as succeeded. -/
theorem completes_iff (course : Course ns release order member ℓ)
    (auto : IsAutomation ns) (latest : ℓ.trace.releaseCount ns = release + 1)
    (delivered : Lane.Deliver ns ℓ id ℓ') (trace : ℓ'.trace = ℓ.trace ++ events) :
    (∃ by_ stepId n, .emitted by_ (.sequenceCompleted ns stepId n) ∈ events) ↔
      ¬ ℓ.Succeeded ∧ ℓ'.Succeeded := by
  have neutral : ∀ {events' : Trace}, ℓ'.trace = ℓ.trace ++ events' →
      (∀ by_ stepId n, .emitted by_ (.sequenceCompleted ns stepId n) ∉ events') →
      (ℓ'.Succeeded → ℓ.Succeeded) →
      ((∃ by_ stepId n, .emitted by_ (.sequenceCompleted ns stepId n) ∈ events) ↔
        ¬ ℓ.Succeeded ∧ ℓ'.Succeeded) := by
    intro events' trace' incomplete before
    have same : events' = events := List.append_cancel_left (trace'.symm.trans trace)
    subst same
    constructor
    · intro ⟨by_, stepId, n, inside⟩
      exact absurd inside (incomplete by_ stepId n)
    · intro ⟨open_, closed⟩
      exact absurd (before closed) open_
  have passed : ∀ {events' : Trace}, ℓ'.trace = ℓ.trace ++ events' →
      (∀ event ∈ events', event.isFree = true) → ℓ'.row = ℓ.row →
      ((∃ by_ stepId n, .emitted by_ (.sequenceCompleted ns stepId n) ∈ events) ↔
        ¬ ℓ.Succeeded ∧ ℓ'.Succeeded) := by
    intro events' trace' free row
    exact neutral trace' (not_completed_of_free free) fun ⟨run, stored, status⟩ =>
      ⟨run, row ▸ stored, status⟩
  have fell : ∀ {stepId : String} {ℓ₁ : Lane}, ℓ' = ℓ₁.land id → Lane.Falls stepId ℓ ℓ₁ →
      ((∃ by_ stepId n, .emitted by_ (.sequenceCompleted ns stepId n) ∈ events) ↔
        ¬ ℓ.Succeeded ∧ ℓ'.Succeeded) := by
    intro stepId ℓ₁ landed falls
    obtain ⟨events', trace', free⟩ := falls.notes
    rw [landed] at neutral ⊢
    exact neutral trace' (not_completed_of_free free) falls.not_succeeded
  have dormantly : (∃ f stepId gas, ℓ.flight id = some f ∧ Dormant ns stepId gas f) →
      ((∃ by_ stepId n, .emitted by_ (.sequenceCompleted ns stepId n) ∈ events) ↔
        ¬ ℓ.Succeeded ∧ ℓ'.Succeeded) := by
    intro ⟨f, stepId, gas, flying, dormant⟩
    rcases dormant.deliver flying delivered with ⟨event, passing, -, landed⟩ | halts
    · refine passed (landed ▸ rfl : _ = ℓ.trace ++ [event]) ?_ (landed ▸ rfl)
      simpa using TraceEvent.isFree_of_passing passing
    · obtain ⟨ℓ₁, landed, falls⟩ := Lane.Falls.of_halts halts
      exact fell landed falls
  obtain ⟨f, flying⟩ := delivered.flew
  cases course with
  | ended accepted calm spent verdict =>
      obtain ⟨stepId, gas, dormant⟩ := calm latest id f flying
      exact dormantly ⟨f, stepId, gas, flying, dormant⟩
  | running running attended =>
      rename_i k id' call
      by_cases same : id = id'
      · subst same
        obtain ⟨own, ⟨gas, early⟩ | late⟩ := running.underway.own f flying
        · cases early.deliver own flying delivered with
          | lapsed passing absent =>
              exact passed rfl (by simpa using TraceEvent.isFree_of_passing passing) rfl
          | refused passing =>
              exact passed rfl (by simpa using TraceEvent.isFree_of_passing passing) rfl
          | halted halts =>
              obtain ⟨ℓ₁, landed, falls⟩ := Lane.Falls.of_halts halts
              exact fell landed falls
          | gated passing stored early' =>
              exact passed rfl (fun event inside => TraceEvent.isFree_of_passing
                (passing event inside)) rfl
          | dispatched passing stored checked late =>
              refine neutral rfl (fun by_ stepId n inside => ?_) fun closed => closed
              rcases List.mem_cons.mp inside with rfl | inside
              · cases passing
              · simp [dispatchStory] at inside
        · cases late.deliver flying delivered with
          | refused passing =>
              exact passed rfl (by simpa using TraceEvent.isFree_of_passing passing) rfl
          | followed passing late' =>
              exact passed rfl (fun event inside => TraceEvent.isFree_of_passing
                (passing event inside)) rfl
          | advanced small vouched queued other stored dormant =>
              refine neutral ((running.underway.advance_trace ..).trans (List.append_assoc ..))
                (by simp) fun closed => closed
          | stuck small queued about => exact fell rfl (.of_stuck _ _)
          | failed failure => exact fell rfl (.of_failed _)
          | completed small vouched drained =>
              rename_i bytes result env
              obtain ⟨run, stored, inFlight⟩ := running.row auto
              obtain ⟨closing, trace', -⟩ :=
                ℓ.complete_trace ns env id call.stepId result bytes.length
              have closed := Lane.complete_row stored inFlight ns env id call.stepId result
                bytes.length
              rw [Lane.land_trace, trace', List.append_assoc, List.append_assoc] at trace
              have same := List.append_cancel_left trace
              refine ⟨fun _ => ⟨?_, _, closed, rfl⟩, fun _ => ?_⟩
              · intro ⟨run', stored', done⟩
                rw [stored, Option.some.injEq] at stored'
                rw [← stored', inFlight] at done
                cases done
              · exact ⟨some id, call.stepId, bytes.length, by simp [← same]⟩
      · obtain ⟨stepId, gas, dormant⟩ := running.underway.others id f same flying
        exact dormantly ⟨f, stepId, gas, flying, dormant⟩

end Course

/-! ## Every step before the last -/

/-- Before a step of a release is resumed, all steps before it were vouched for. -/
theorem InOrder.vouched_before {ns : String} {release : Nat} {order : List String} {t : Trace}
    (inOrder : Guarded (InOrder ns release order) t) {k id : Nat} {stepId : String} {past : Trace}
    (shorter : past <+: t) (resumed : .resumed ns release k stepId id ∈ past) :
    ∀ j < k, ∃ id' call gas, order[j]? = some call.stepId ∧
      .resumed ns release j call.stepId id' ∈ past ∧ .registered ns id' call gas ∈ past ∧
        Vouched ns id' call past := by
  induction k generalizing stepId id past with
  | zero => exact fun j below => absurd below (Nat.not_lt_zero j)
  | succ k ih =>
      intro j below
      obtain ⟨before, after, rfl⟩ := List.append_of_mem resumed
      obtain ⟨rest, split⟩ := shorter
      have rule := inOrder before (.resumed ns release (k + 1) stepId id) (after ++ rest)
        (by rw [← split]; simp)
      obtain ⟨id', call, gas, here, previous, record, vouched⟩ := rule.after k stepId id rfl
      have longer : before.Sublist (before ++ .resumed ns release (k + 1) stepId id :: after) :=
        List.sublist_append_left ..
      by_cases last : j = k
      · subst last
        exact ⟨id', call, gas, here, longer.subset previous, longer.subset record,
          vouched.later longer⟩
      · have prefixed : before <+: t := ⟨.resumed ns release (k + 1) stepId id :: (after ++ rest), by
          rw [← split]; simp⟩
        obtain ⟨id₁, call₁, gas₁, here₁, resumed₁, record₁, vouched₁⟩ :=
          ih prefixed previous j (by omega)
        exact ⟨id₁, call₁, gas₁, here₁, longer.subset resumed₁, longer.subset record₁,
          vouched₁.later longer⟩

/-- When a release completes its sequence, each of its steps has resolved Ok. -/
theorem Concluded.resolved {ns : String} {release : Nat} {order : List String} {t : Trace}
    (inOrder : Guarded (InOrder ns release order) t)
    (concluded : Guarded (Concluded ns release order) t) {past later : Trace} {id n : Nat}
    {stepId : String} (split : t = past ++ .emitted (some id) (.sequenceCompleted ns stepId n) ::
      later) (mine : ∃ k at', .resumed ns release k at' id ∈ past) {j : Nat} {sj : String}
    (here : order[j]? = some sj) : ∃ idj result bytes, .resumed ns release j sj idj ∈ past ∧
      .delivered idj (.onStepResolved ns sj) result ∈ past ∧ result.checked = .ok bytes := by
  obtain ⟨k, call, gas, last, final, resumed, record, vouched⟩ :=
    concluded past _ later split stepId id n rfl mine
  have within := (List.getElem?_eq_some_iff.mp here).1
  have resolves : ∀ {id' : Nat} {call' : Step}, order[j]? = some call'.stepId →
      .resumed ns release j call'.stepId id' ∈ past → Vouched ns id' call' past →
      ∃ idj result bytes, .resumed ns release j sj idj ∈ past ∧
        .delivered idj (.onStepResolved ns sj) result ∈ past ∧ result.checked = .ok bytes := by
    intro id' call' here' resumed' vouched'
    rw [here, Option.some.injEq] at here'
    subst here'
    obtain ⟨result, bytes, delivered, small⟩ := vouched'.resolved
    exact ⟨id', result, bytes, resumed', delivered, small⟩
  by_cases same : j = k
  · subst same
    exact resolves final resumed vouched
  · obtain ⟨id', call', -, here', resumed', -, vouched'⟩ := InOrder.vouched_before inOrder
      ⟨_, split.symm⟩ resumed j (by omega)
    exact resolves here' resumed' vouched'

/-! ## Orderly runs -/

namespace Machine

/-- A release of the namespace is accepted only in quiet, and a timed-out step that is still
registered is delivered only in quiet, or, in a manual namespace, while nothing is queued. -/
structure Orderly (ns : String) (m : Machine) (op : Op) : Prop where
  accepts : (m.step op).trace.releaseCount ns ≠ m.trace.releaseCount ns → m.Quiet ns
  expires : ∀ env id answer stepId gas, op = .deliver env id answer →
    m.pool.get id = some ⟨.done .failed, [⟨.onStepResumed ns stepId, gas⟩]⟩ →
    (m.getStep ns stepId).isSome → m.Quiet ns ∨ IsManual ns ∧ m.contract.sequenceQueue.get ns = none

theorem Orderly.permits {ns : String} {m : Machine} {env : Env} {id : Nat} {answer : PromiseResult}
    (orderly : Orderly ns m (.deliver env id answer)) : Lane.Permits ns (m.lane ns) id := by
  intro stepId gas flying stored
  obtain ⟨stored', -⟩ := Option.filter_eq_some_iff.mp flying
  exact (orderly.expires env id answer stepId gas rfl stored' stored).imp_left Quiet.lane

/-- The operation completes a sequence of the namespace. -/
def Completes (m : Machine) (ns : String) (op : Op) : Prop :=
  ∃ by_ stepId n, .emitted by_ (.sequenceCompleted ns stepId n) ∈
    (m.step op).trace.drop m.trace.length

/-- The namespace's automation run has succeeded. -/
def Succeeded (m : Machine) (ns : String) : Prop :=
  ∃ run, m.contract.automationRuns.get ns = some run ∧ run.status = .succeeded

/-- The copies stored for the steps of an order. -/
def Copies (m : Machine) (ns : String) (order : List String) (id : Nat) : Prop :=
  ∃ stepId ∈ order, ∃ copy, m.getStep ns stepId = some copy ∧ copy.yieldId = id

/-- The lane of an isolated namespace is tidy, counted, and its flights speak once. -/
theorem Reachable.lane_voiced {m : Machine} (reachable : m.Reachable) {ns : String}
    (isolated : Isolated m.trace ns) :
    Tidy ns (m.lane ns) ∧ Counted ns (m.lane ns) ∧ Voiced ns (m.lane ns) :=
  @Reachable.lane_induct ns (fun ℓ => Tidy ns ℓ ∧ Counted ns ℓ ∧ Voiced ns ℓ)
    ⟨.fresh, .fresh, .fresh⟩
    (fun _ _ _ step ⟨tidy, counted, voiced⟩ =>
      ⟨tidy.step step, counted.step tidy step, voiced.step tidy counted step⟩) m reachable isolated

/-- An operation that releases delivers nothing. -/
theorem moves_of_count {m : Machine} (reachable : m.Reachable) {ns : String} {op : Op}
    (isolated : Isolated (m.step op).trace ns)
    (more : m.trace.releaseCount ns < (m.step op).trace.releaseCount ns) :
    Lane.Moves ns (m.lane ns) ((m.step op).lane ns) := by
  have before := Lane.releaseCount_filter m.trace ns
  have after := Lane.releaseCount_filter (m.step op).trace ns
  have counts : (m.lane ns).trace.releaseCount ns < ((m.step op).lane ns).trace.releaseCount ns :=
    before ▸ after ▸ more
  refine (lane_step reachable.wf op isolated).resolve_right fun ⟨id, delivered⟩ => ?_
  have tidy := (reachable.lane_tidy (isolated.earlier (step_trace m op))).1
  have still := (Lane.Step.deliver delivered).deliver_count tidy
  rw [still] at counts
  exact Nat.lt_irrefl _ counts

/-- It moves the lane by steps aside and then the release. -/
theorem release_of_count {m : Machine} (reachable : m.Reachable) {ns : String} {op : Op}
    (isolated : Isolated (m.step op).trace ns)
    (more : m.trace.releaseCount ns < (m.step op).trace.releaseCount ns) :
    ∃ ℓ, ReflTransGen (Lane.Step ns .aside) (m.lane ns) ℓ ∧
      Lane.Step ns .release ℓ ((m.step op).lane ns) := by
  obtain ⟨ℓ, chain, last⟩ := moves_of_count reachable isolated more
  refine ⟨ℓ, chain, last.resolve_left fun same => ?_⟩
  have still : ℓ.trace.releaseCount ns = (m.lane ns).trace.releaseCount ns := by
    clear last same
    induction chain with
    | refl => rfl
    | tail _ step ih => exact step.aside_count.trans ih
  have before := Lane.releaseCount_filter m.trace ns
  have after := Lane.releaseCount_filter (m.step op).trace ns
  have counts : (m.lane ns).trace.releaseCount ns < ((m.step op).lane ns).trace.releaseCount ns :=
    before ▸ after ▸ more
  rw [same, still] at counts
  exact Nat.lt_irrefl _ counts

/-- The release that an operation accepts begins its course in the lane. -/
theorem course_of_accepted {m : Machine} (reachable : m.Reachable) {ns : String} {op : Op}
    {order : List String} (isolated : Isolated (m.step op).trace ns) (quiet : m.Quiet ns)
    (accepted : ((m.step op).trace.orders ns)[m.trace.releaseCount ns]? = some order) :
    Tidy ns ((m.step op).lane ns) ∧ Counted ns ((m.step op).lane ns) ∧
      Voiced ns ((m.step op).lane ns) ∧
      Course ns (m.trace.releaseCount ns) order ((m.step op).Copies ns order)
        ((m.step op).lane ns) ∧
      Guarded (Concluded ns (m.trace.releaseCount ns) order) ((m.step op).lane ns).trace := by
  have more : m.trace.releaseCount ns < (m.step op).trace.releaseCount ns :=
    Trace.length_orders (m.step op).trace ns ▸ (List.getElem?_eq_some_iff.mp accepted).1
  obtain ⟨ℓ, chain, step⟩ := release_of_count reachable isolated more
  have ready : Tidy ns ℓ ∧ Counted ns ℓ ∧ Voiced ns ℓ ∧ Lane.Quiet ns ℓ ∧
      ℓ.trace.releaseCount ns = m.trace.releaseCount ns := by
    clear step
    induction chain with
    | refl =>
        have isolated' := isolated.earlier (step_trace m op)
        obtain ⟨tidy, counted, voiced⟩ := reachable.lane_voiced isolated'
        exact ⟨tidy, counted, voiced, quiet.lane, Lane.releaseCount_filter m.trace ns⟩
    | tail _ step ih =>
        obtain ⟨tidy, counted, voiced, calm, count⟩ := ih
        exact ⟨tidy.step step, counted.step tidy step, voiced.step tidy counted step,
          calm.step step Lane.Kind.noConfusion, step.aside_count.trans count⟩
  obtain ⟨tidy, counted, voiced, calm, count⟩ := ready
  have tidy' := tidy.step step
  have counted' := counted.step tidy step
  have voiced' := voiced.step tidy counted step
  have orders : ((m.step op).lane ns).trace.orders ns = (m.step op).trace.orders ns :=
    Lane.orders_filter (m.step op).trace ns
  rw [← orders, ← count] at accepted
  rw [← count]
  exact ⟨tidy', counted', voiced', Course.of_release tidy counted voiced' calm step accepted⟩

/-! ## Completions of the machine and of the lane -/

theorem completes_lane (m : Machine) (ns : String) (op : Op) {events : Trace}
    (trace : ((m.step op).lane ns).trace = (m.lane ns).trace ++ events) :
    m.Completes ns op ↔
      ∃ by_ stepId n, .emitted by_ (.sequenceCompleted ns stepId n) ∈ events := by
  obtain ⟨added, grown⟩ := step_trace m op
  have same : events = added.filter (TraceEvent.concerns ns) := by
    have whole : (m.step op).trace.filter (TraceEvent.concerns ns) =
        m.trace.filter (TraceEvent.concerns ns) ++ events := trace
    rw [← grown, List.filter_append] at whole
    exact (List.append_cancel_left whole).symm
  have kept : ∀ by_ stepId n, TraceEvent.concerns ns
      (.emitted by_ (.sequenceCompleted ns stepId n)) = true := by
    intro by_ stepId n
    simp [TraceEvent.concerns, Event.isVerdict, Event.sequenceNamespace]
  unfold Completes
  rw [← grown, List.drop_left, same]
  simp only [List.mem_filter, kept, and_true]

/-- An operation that delivers nothing completes nothing and closes no run. -/
theorem completes_of_moves {m : Machine} (reachable : m.Reachable) {ns : String} {op : Op}
    (isolated : Isolated m.trace ns) (moves : Lane.Moves ns (m.lane ns) ((m.step op).lane ns)) :
    m.Completes ns op ↔ ¬ m.Succeeded ns ∧ (m.step op).Succeeded ns := by
  obtain ⟨tidy, counted⟩ := reachable.lane_tidy isolated
  obtain ⟨closes, events, trace, silent⟩ := moves.mute tidy counted
  rw [completes_lane m ns op trace]
  constructor
  · intro ⟨by_, stepId, n, inside⟩
    exact absurd inside (silent by_ _)
  · intro ⟨open_, closed⟩
    exact absurd (closes closed) open_

/-! ## Whole runs -/

theorem along_append {admits : Machine → Op → Prop} {m : Machine} {before after : List Op} :
    Along admits m (before ++ after) ↔ Along admits m before ∧ Along admits (m.run before) after := by
  induction before generalizing m with
  | nil => simp [Along]
  | cons op before ih => simp [Along, ih, and_assoc]

/-- An orderly run keeps the course of a release. -/
theorem course_run {m : Machine} (wf : Wf m) {ns : String} {release : Nat} {order : List String}
    {member : Nat → Prop} {ops : List Op} (along : Along (Orderly ns) m ops)
    (isolated : Isolated (m.run ops).trace ns)
    (start : Tidy ns (m.lane ns) ∧ Counted ns (m.lane ns) ∧ Voiced ns (m.lane ns) ∧
      Course ns release order member (m.lane ns) ∧
      Guarded (Concluded ns release order) (m.lane ns).trace) :
    Course ns release order member ((m.run ops).lane ns) ∧
      Guarded (Concluded ns release order) ((m.run ops).lane ns).trace := by
  have keeps : ∀ {kind : Lane.Kind} {ℓ ℓ' : Lane}, (kind = .release → Lane.Quiet ns ℓ) →
      (∀ id, kind = .deliver id → Lane.Permits ns ℓ id ∨ Lane.RolledBack ℓ id ℓ') →
      Lane.Step ns kind ℓ ℓ' →
      (Tidy ns ℓ ∧ Counted ns ℓ ∧ Voiced ns ℓ ∧ Course ns release order member ℓ ∧
        Guarded (Concluded ns release order) ℓ.trace) →
      Tidy ns ℓ' ∧ Counted ns ℓ' ∧ Voiced ns ℓ' ∧ Course ns release order member ℓ' ∧
        Guarded (Concluded ns release order) ℓ'.trace := by
    intro kind ℓ ℓ' calm permitted step ⟨tidy, counted, voiced, course, concluded⟩
    exact ⟨tidy.step step, counted.step tidy step, voiced.step tidy counted step,
      course.step tidy counted voiced concluded step calm permitted⟩
  obtain ⟨-, -, -, kept⟩ := @lane_run_induct ns
    (fun ℓ => Tidy ns ℓ ∧ Counted ns ℓ ∧ Voiced ns ℓ ∧ Course ns release order member ℓ ∧
      Guarded (Concluded ns release order) ℓ.trace)
    (Lane.Quiet ns) (Lane.Permits ns) (Orderly ns)
    (fun _ _ step => keeps Lane.Kind.noConfusion (fun _ => Lane.Kind.noConfusion) step)
    (fun _ _ step calm => Lane.Quiet.step calm step Lane.Kind.noConfusion)
    (fun _ _ calm step => keeps (fun _ => calm) (fun _ => Lane.Kind.noConfusion) step)
    (fun _ _ id allowed delivered => keeps Lane.Kind.noConfusion
      (fun _ same => Lane.Kind.deliver.inj same ▸ .inl allowed) (.deliver delivered))
    (fun _ _ id failed => keeps Lane.Kind.noConfusion
      (fun _ same => Lane.Kind.deliver.inj same ▸ .inr failed) (.deliver failed.deliver))
    (fun _ _ orderly more => (orderly.accepts more).lane)
    (fun _ _ _ _ orderly => orderly.permits) m wf ops along isolated start
  exact kept

/-- With the latest release on its course, an operation completes its sequence exactly when
it closes the automation run as succeeded. -/
theorem completes_iff_succeeds {m : Machine} (reachable : m.Reachable) {ns : String}
    {release : Nat} {order : List String} {member : Nat → Prop} {op : Op}
    (isolated : Isolated (m.step op).trace ns) (auto : IsAutomation ns)
    (latest : m.trace.releaseCount ns = release + 1)
    (course : Course ns release order member (m.lane ns)) :
    m.Completes ns op ↔ ¬ m.Succeeded ns ∧ (m.step op).Succeeded ns := by
  have isolated' := isolated.earlier (step_trace m op)
  rcases lane_step reachable.wf op isolated with moves | ⟨id, delivered⟩
  · exact completes_of_moves reachable isolated' moves
  · obtain ⟨tidy, counted⟩ := reachable.lane_tidy isolated'
    obtain ⟨events, trace, -⟩ := (Lane.Step.deliver delivered).speaks tidy counted
    have count : (m.lane ns).trace.releaseCount ns = release + 1 :=
      (Lane.releaseCount_filter m.trace ns).trans latest
    exact (completes_lane m ns op trace).trans
      (Course.completes_iff course auto count delivered trace)

end Machine

/-! ## No false completion -/

/-- The operation accepts the release and the others follow it.  A completion by a copy of
the release comes after an Ok resolution of each of its steps, and with no halt of any copy
of it; in an automation namespace, completing and closing the run as succeeded are one. -/
structure NoFalseCompletion (ns : String) (order : List String) (m : Machine) (op : Op)
    (ops : List Op) : Prop where
  resolved : ∀ past later id stepId n, ((m.step op).run ops).trace =
      past ++ .emitted (some id) (.sequenceCompleted ns stepId n) :: later →
    (∃ k at', .resumed ns (m.trace.releaseCount ns) k at' id ∈ past) →
    ∀ (j : Nat) (sj : String), order[j]? = some sj → ∃ idj result bytes,
      .resumed ns (m.trace.releaseCount ns) j sj idj ∈ past ∧
      .delivered idj (.onStepResolved ns sj) result ∈ past ∧ result.checked = .ok bytes
  exclusive : ∀ k at' id stepId n,
    .resumed ns (m.trace.releaseCount ns) k at' id ∈ ((m.step op).run ops).trace →
    .emitted (some id) (.sequenceCompleted ns stepId n) ∈ ((m.step op).run ops).trace →
    ∀ id', Own ns (m.trace.releaseCount ns) ((m.step op).Copies ns order)
        ((m.step op).run ops).trace id' → ∀ data, data.sequenceNamespace = ns →
      .emitted (some id') (.sequenceHalted data) ∉ ((m.step op).run ops).trace
  succeeds : IsAutomation ns → ∀ before op' after, op :: ops = before ++ op' :: after →
    ((m.run before).step op').trace.releaseCount ns = m.trace.releaseCount ns + 1 →
    ((m.run before).Completes ns op' ↔
      ¬ (m.run before).Succeeded ns ∧ ((m.run before).step op').Succeeded ns)

/-- In an orderly run no release is completed falsely. -/
theorem completion_is_sound {m : Machine} (reachable : m.Reachable) {ns : String} {op : Op}
    {ops : List Op} {order : List String}
    (apart : IsManual ns ∨ Isolated ((m.step op).run ops).trace ns)
    (orderly : Machine.Along (Machine.Orderly ns) m (op :: ops))
    (accepted : ((m.step op).trace.orders ns)[m.trace.releaseCount ns]? = some order) :
    NoFalseCompletion ns order m op ops := by
  have isolated : Isolated ((m.step op).run ops).trace ns :=
    apart.elim (fun manual => (reachable.run (op :: ops)).wf.isolated_of_manual manual) fun i => i
  obtain ⟨first, along⟩ := orderly
  have more : m.trace.releaseCount ns < (m.step op).trace.releaseCount ns :=
    Trace.length_orders (m.step op).trace ns ▸ (List.getElem?_eq_some_iff.mp accepted).1
  have quiet := first.accepts (Nat.ne_of_gt more)
  have isolated₁ := isolated.earlier (Machine.run_trace (m.step op) ops)
  have begun := Machine.course_of_accepted reachable isolated₁ quiet accepted
  have reachable₁ : (m.step op).Reachable := reachable.run [op]
  obtain ⟨course, concluded⟩ := Machine.course_run reachable₁.wf along isolated begun
  have inOrder : Guarded (InOrder ns (m.trace.releaseCount ns) order)
      (((m.step op).run ops).lane ns).trace := by
    have calm : m.Quiet ns ∨ False ∧ order.length = 1 := .inl quiet
    rcases reachable.followed isolated calm accepted with ⟨k, id, call, -, lawful⟩ | ⟨-, inOrder⟩
    · exact lawful.mono fun _ _ _ rule => rule.inOrder
    · exact inOrder
  have heard : ∀ {event : TraceEvent} {t : Trace}, event ∈ t → event.concerns ns = true →
      event ∈ t.filter (TraceEvent.concerns ns) := fun inside own =>
    List.mem_filter.mpr ⟨inside, own⟩
  have resumes : ∀ k at' id, (TraceEvent.resumed ns (m.trace.releaseCount ns) k at' id).concerns
      ns = true := by
    simp [TraceEvent.concerns, TraceEvent.sequenceNamespace]
  have completes : ∀ id stepId n, (TraceEvent.emitted (some id)
      (.sequenceCompleted ns stepId n)).concerns ns = true := by
    simp [TraceEvent.concerns, Event.isVerdict, Event.sequenceNamespace]
  refine ⟨?_, ?_, ?_⟩
  · intro past later id stepId n split mine j sj here
    obtain ⟨k, at', resumed⟩ := mine
    have split' : (((m.step op).run ops).lane ns).trace =
        past.filter (TraceEvent.concerns ns) ++ .emitted (some id) (.sequenceCompleted ns stepId n) ::
          later.filter (TraceEvent.concerns ns) := by
      show ((m.step op).run ops).trace.filter _ = _
      rw [split, List.filter_append, List.filter_cons_of_pos (completes id stepId n)]
    obtain ⟨idj, result, bytes, resumedj, delivered, small⟩ := Concluded.resolved inOrder concluded
      split' ⟨k, at', heard resumed (resumes k at' id)⟩ here
    exact ⟨idj, result, bytes, List.mem_of_mem_filter resumedj, List.mem_of_mem_filter delivered,
      small⟩
  · intro k at' id stepId n resumed completed id' own data about halted
    have resumed' := heard resumed (resumes k at' id)
    have completed' := heard completed (completes id stepId n)
    have halted' := heard halted (by
      simp [TraceEvent.concerns, Event.isVerdict, Event.sequenceNamespace, about])
    have own' : Own ns (m.trace.releaseCount ns) ((m.step op).Copies ns order)
        (((m.step op).run ops).lane ns).trace id' := by
      rcases own with member | own
      · exact .inl member
      · obtain ⟨k', stepId', inside⟩ := own
        exact .inr ⟨k', stepId', heard inside (resumes _ _ _)⟩
    cases course with
    | running running attended =>
        exact attended.silent id _ (.inr ⟨k, at', resumed'⟩) completed'
    | ended accepted' calm spent verdict =>
        rcases verdict with incomplete | unhalted
        · exact incomplete k at' id stepId n resumed' completed'
        · exact (unhalted id' own').2 data halted'
  · intro auto before op' after split latest
    cases before with
    | nil =>
        obtain ⟨rfl, rfl⟩ := List.cons.inj split
        exact Machine.completes_of_moves reachable (isolated₁.earlier (Machine.step_trace m op))
          (Machine.moves_of_count reachable isolated₁ more)
    | cons op₁ before =>
        obtain ⟨rfl, rfl⟩ := List.cons.inj split
        have whole : ((m.step op).run (before ++ op' :: after)) =
            (((m.step op).run before).step op').run after := by
          rw [Machine.run_append, Machine.run_cons]
        have isolated₂ : Isolated (((m.step op).run before).step op').trace ns :=
          (whole ▸ isolated).earlier (Machine.run_trace _ after)
        have isolated₃ := isolated₂.earlier (Machine.step_trace _ op')
        have grown := Trace.releaseCount_mono ns (Machine.run_trace (m.step op) before)
        have grown' := Trace.releaseCount_mono ns (Machine.step_trace ((m.step op).run before) op')
        have course' := (Machine.course_run reachable₁.wf (Machine.along_append.mp along).1 isolated₃
          begun).1
        rw [Machine.run_cons] at latest ⊢
        exact Machine.completes_iff_succeeds (reachable₁.run before) isolated₂ auto (by omega) course'

/-! ## An orderly run and a disorderly one -/

/-- Nothing is released and nothing has timed out. -/
theorem Machine.Orderly.of_steady {m : Machine} {ns : String} {op : Op}
    (steady : (m.step op).trace.releaseCount ns = m.trace.releaseCount ns)
    (awake : ∀ id f, m.pool.get id = some f → f.head ≠ .done .failed) :
    Machine.Orderly ns m op where
  accepts more := absurd steady more
  expires _ id _ _ _ _ flying _ := absurd rfl (awake id _ flying)

/-- No timed-out flight is outstanding. -/
def Machine.awake (m : Machine) : Bool :=
  m.pool.items.entries.all fun entry => entry.2.head ≠ .done .failed

theorem Machine.awake_iff {m : Machine} (awake : m.awake = true) {id : Nat} {f : Flight}
    (flying : m.pool.get id = some f) : f.head ≠ .done .failed := by
  have listed := IterableMap.get_eq_some_iff.mp flying
  simpa using List.all_eq_true.mp awake _ listed

/-- Two steps of an automation run, both Ok. -/
theorem completion_is_sound_two_steps :
    NoFalseCompletion (automationNamespace "daily" 1) ["a", "b"]
      (armed [plainStep "a", plainStep "b"]) fire
      [.deliver aliceEnv 0 okResult, .deliver aliceEnv 0 okResult, .deliver aliceEnv 1 okResult,
        .deliver aliceEnv 1 okResult] := by
  have steady : ∀ {m : Machine} {op : Op},
      (m.step op).trace.releaseCount (automationNamespace "daily" 1) =
        m.trace.releaseCount (automationNamespace "daily" 1) → m.awake = true →
      Machine.Orderly (automationNamespace "daily" 1) m op :=
    fun same awake => .of_steady same fun _ _ => Machine.awake_iff awake
  have opens : Machine.Orderly (automationNamespace "daily" 1)
      (armed [plainStep "a", plainStep "b"]) fire := by
    refine ⟨fun _ id f flying => ?_, fun env id answer stepId gas same => ?_⟩
    · cases flying
    · cases same
  refine completion_is_sound (armed_reachable _) (.inr (.of_alone (by decide)))
    ⟨opens, ?_, ?_, ?_, ?_, trivial⟩ (by decide)
  · exact steady (by decide) (by decide)
  · exact steady (by decide) (by decide)
  · exact steady (by decide) (by decide)
  · exact steady (by decide) (by decide)

/-- Step `a` is in flight when the yield of step `b` times out and halts the run; then `a`
resolves Ok. -/
def lateOk : List Op :=
  [.deliver aliceEnv 0 okResult, .timeout 1, .deliver aliceEnv 1 okResult,
    .deliver aliceEnv 0 okResult]

/-- All that happens up to the late Ok. -/
def haltedRun : Trace :=
  (((armed [plainStep "a", plainStep "b"]).step fire).run lateOk).trace.take 18

/-- The late Ok of step `a` completes the sequence, though step `b` never ran. -/
theorem late_ok_completes_halted_sequence : ∃ (m : Machine) (ns : String) (op : Op)
    (ops : List Op) (order : List String), m.Reachable ∧
      ((m.step op).trace.orders ns)[m.trace.releaseCount ns]? = some order ∧
      ¬ NoFalseCompletion ns order m op ops := by
  refine ⟨armed [plainStep "a", plainStep "b"], automationNamespace "daily" 1, fire, lateOk,
    ["a", "b"], armed_reachable _, by decide, fun sound => ?_⟩
  have completed : (((armed [plainStep "a", plainStep "b"]).step fire).run lateOk).trace =
      haltedRun ++ .emitted (some 0) (.sequenceCompleted (automationNamespace "daily" 1) "a" 0) ::
        [] := by
    decide
  have resumed : .resumed (automationNamespace "daily" 1)
      ((armed [plainStep "a", plainStep "b"]).trace.releaseCount (automationNamespace "daily" 1))
        0 "a" 0 ∈ haltedRun := by
    decide
  have unresolved : haltedRun.any (TraceEvent.resolves "b") = false := by decide
  obtain ⟨id, result, bytes, -, delivered, -⟩ :=
    sound.resolved _ _ _ _ _ completed ⟨0, "a", resumed⟩ 1 "b" rfl
  have other := List.any_eq_false.mp unresolved _ delivered
  simp [TraceEvent.resolves] at other

end SmartAccount
