import SmartAccount.ReleaseRuns
import SmartAccount.Simulation

/-!
# Order and trust of a release

A release accepted while its namespace is quiet resumes its steps in order, each after
the one before it resolved Ok (`release_resumes_in_order`), and passes gates and
postchecks only on their verdicts (`release_trusted`).  The guard of
`start_sequence_release_in_namespace` looks only at the queue, so a release can be
accepted behind the last step of another one, whose result then resumes its steps
(`overlapping_release_out_of_order`).
-/

namespace SmartAccount

open Foundation Function

/-! ## Isolation and quiet, for the whole machine -/

/-- A manual namespace shares no key with any other namespace in use. -/
theorem Wf.isolated_of_manual {m : Machine} (wf : Wf m) {ns : String} (manual : IsManual ns) :
    Isolated m.trace ns := by
  intro ns' id call gas member
  by_cases same : ns' = ns
  · exact .inl same
  · exact .inr (manual.separate same (wf.created ns' id call gas member))

/-- All that is outstanding under the namespace are yields nobody has released. -/
def Machine.Quiet (m : Machine) (ns : String) : Prop :=
  ∀ id f, m.pool.get id = some f → f.addressedTo ns = true →
    ∃ stepId gas, Dormant ns stepId gas f

theorem Machine.Quiet.lane {m : Machine} {ns : String} (quiet : m.Quiet ns) :
    (m.lane ns).Quiet ns := by
  intro id f flying
  obtain ⟨stored, own⟩ := Option.filter_eq_some_iff.mp flying
  exact quiet id f stored own

theorem Lane.orders_filter (t : Trace) (ns : String) :
    Trace.orders (t.filter (TraceEvent.concerns ns)) ns = Trace.orders t ns := by
  unfold Trace.orders
  rw [List.filterMap_filter]
  refine List.filterMap_congr fun event _ => ?_
  cases event with
  | released ns' order =>
      by_cases same : ns' = ns <;>
        simp [TraceEvent.concerns, TraceEvent.sequenceNamespace, same]
  | _ => simp

/-! ## Following a release through a run -/

namespace Machine

/-- The lane of an isolated namespace is tidy and counted. -/
theorem Reachable.lane_tidy {m : Machine} (reachable : m.Reachable) {ns : String}
    (isolated : Isolated m.trace ns) : Tidy ns (m.lane ns) ∧ Counted ns (m.lane ns) :=
  reachable.lane_induct (motive := fun ℓ => Tidy ns ℓ ∧ Counted ns ℓ) ⟨.fresh, .fresh⟩
    (fun _ _ _ step ⟨tidy, counted⟩ => ⟨tidy.step step, counted.step tidy step⟩) isolated

/-- Where a release stands in every state after the call that accepted it. -/
theorem Reachable.followed {m : Machine} (reachable : m.Reachable) {ns : String} {op : Op}
    {ops : List Op} {order : List String} {lax : Prop}
    (isolated : Isolated ((m.step op).run ops).trace ns)
    (calm : m.Quiet ns ∨ lax ∧ order.length = 1)
    (accepted : ((m.step op).trace.orders ns)[m.trace.releaseCount ns]? = some order) :
    (∃ k id call, Underway ns (m.trace.releaseCount ns) order k id call
        (((m.step op).run ops).lane ns) ∧
        Guarded (Lawful ns (m.trace.releaseCount ns) order)
          (((m.step op).run ops).lane ns).trace) ∨
      (lax ∨ m.trace.releaseCount ns + 1 < ((m.step op).run ops).trace.releaseCount ns) ∧
        Guarded (InOrder ns (m.trace.releaseCount ns) order)
          (((m.step op).run ops).lane ns).trace := by
  have start := reachable.lane_tidy (isolated.earlier (run_trace m (op :: ops)))
  have before : (m.lane ns).trace.releaseCount ns = m.trace.releaseCount ns :=
    Lane.releaseCount_filter m.trace ns
  have calm' := calm.imp (fun quiet => Machine.Quiet.lane quiet) fun short => short
  have isolated' : Isolated (m.run (op :: ops)).trace ns := isolated
  obtain ⟨-, -, followed⟩ := lane_run_keeps
    (motive := fun ℓ => Tidy ns ℓ ∧ Counted ns ℓ ∧
      Followed ns (m.trace.releaseCount ns) order lax ℓ)
    (fun _ _ _ step ⟨tidy, counted, followed⟩ =>
      ⟨tidy.step step, counted.step tidy step, followed.step tidy counted step⟩)
    reachable.wf isolated' ⟨start.1, start.2, .awaited before calm'⟩
  rw [run_cons] at followed
  have orders : ((((m.step op).run ops).lane ns).trace.orders ns)[m.trace.releaseCount ns]? =
      some order := by
    obtain ⟨later, grown⟩ := run_trace (m.step op) ops
    have length := (List.getElem?_eq_some_iff.mp accepted).1
    show (Trace.orders (((m.step op).run ops).trace.filter _) ns)[_]? = _
    rw [Lane.orders_filter, ← grown, Trace.orders_append, List.getElem?_append_left length]
    exact accepted
  cases followed with
  | awaited still calm =>
      have length := (List.getElem?_eq_some_iff.mp orders).1
      rw [Trace.length_orders, still] at length
      exact absurd length (Nat.lt_irrefl _)
  | underway underway lawful => exact .inl ⟨_, _, _, underway, lawful⟩
  | lone allowed latest drained inOrder => exact .inr ⟨.inl allowed, inOrder⟩
  | past behind inOrder =>
      refine .inr ⟨.inr ?_, inOrder⟩
      have count := Lane.releaseCount_filter ((m.step op).run ops).trace ns
      exact count ▸ behind
  | other known another => exact absurd orders another

end Machine

/-! ## Order -/

/-- The release resumes its steps in the given order, each only after `on_step_resolved` of
the step before it, in the same release, ran on an Ok outcome. -/
def ResumedInOrder (ns : String) (release : Nat) (order : List String) (t : Trace) : Prop :=
  ∀ past later k stepId id, t = past ++ .resumed ns release k stepId id :: later →
    order[k]? = some stepId ∧
    ∀ j, k = j + 1 → ∃ previous previousId result bytes, order[j]? = some previous ∧
      .resumed ns release j previous previousId ∈ past ∧
      .delivered previousId (.onStepResolved ns previous) result ∈ past ∧
      result.checked = .ok bytes

theorem InOrder.later {ns : String} {release : Nat} {order : List String} {event : TraceEvent}
    {t t' : Trace} (inOrder : InOrder ns release order event t) (longer : t.Sublist t') :
    InOrder ns release order event t' where
  position := inOrder.position
  after k stepId id same := by
    obtain ⟨previousId, call, gas, here, resumed, record, vouched⟩ := inOrder.after k stepId id same
    exact ⟨previousId, call, gas, here, longer.subset resumed, longer.subset record,
      vouched.later longer⟩

theorem ResumedInOrder.of_lane {ns : String} {release : Nat} {order : List String} {m : Machine}
    (inOrder : Guarded (InOrder ns release order) (m.lane ns).trace) :
    ResumedInOrder ns release order m.trace := by
  have whole : Guarded (InOrder ns release order) m.trace := by
    refine inOrder.of_filter (fun event past kept => kept.later (List.filter_sublist ..)) ?_
    intro event past foreign
    refine .of_not_resumed fun k stepId id same => ?_
    subst same
    simp [TraceEvent.concerns, TraceEvent.sequenceNamespace] at foreign
  intro past later k stepId id split
  have rule := whole past _ later split
  refine ⟨rule.position k stepId id rfl, ?_⟩
  rintro j rfl
  obtain ⟨previousId, call, gas, here, resumed, record, vouched⟩ := rule.after j stepId id rfl
  obtain ⟨result, bytes, delivered, small⟩ := vouched.resolved
  exact ⟨call.stepId, previousId, result, bytes, here, resumed, delivered, small⟩

/-- A release accepted in a quiet namespace, or with a single step, resumes its steps in
order, whatever happens afterwards. -/
theorem release_resumes_in_order {m : Machine} (reachable : m.Reachable) {ns : String} {op : Op}
    {ops : List Op} {order : List String}
    (apart : IsManual ns ∨ Isolated ((m.step op).run ops).trace ns)
    (calm : m.Quiet ns ∨ order.length = 1)
    (accepted : ((m.step op).trace.orders ns)[m.trace.releaseCount ns]? = some order) :
    ResumedInOrder ns (m.trace.releaseCount ns) order ((m.step op).run ops).trace := by
  have isolated : Isolated ((m.step op).run ops).trace ns :=
    apart.elim (fun manual => (reachable.run (op :: ops)).wf.isolated_of_manual manual) fun i => i
  have calm' : m.Quiet ns ∨ True ∧ order.length = 1 :=
    calm.imp (fun quiet => quiet) fun short => ⟨trivial, short⟩
  rcases reachable.followed isolated calm' accepted with
    ⟨k, id, call, -, lawful⟩ | ⟨-, inOrder⟩
  · exact .of_lane (lawful.mono fun _ _ _ rule => rule.inOrder)
  · exact .of_lane inOrder

/-- In a quiet namespace, two steps, the second resumed by the Ok of the first. -/
theorem release_resumes_in_order_two_steps :
    ResumedInOrder (manualNamespace alice) 0 ["a", "b"]
      ((deployed.step (.transact aliceEnv (.executeSteps [plainStep "a", plainStep "b"]))).run
        [.deliver aliceEnv 0 okResult, .deliver aliceEnv 0 okResult,
          .deliver aliceEnv 1 okResult]).trace :=
  release_resumes_in_order deployed_reachable (.inl ⟨alice, rfl⟩)
    (.inl fun id f stored => nomatch stored) (by decide)

/-! ## Trust -/

/-- A rule about the lane's events holds in the whole trace. -/
theorem Lawful.later {ns : String} {release : Nat} {order : List String} {event : TraceEvent}
    {past : Trace}
    (lawful : Lawful ns release order event (past.filter (TraceEvent.concerns ns))) :
    Lawful ns release order event past := by
  have shorter := List.filter_sublist (p := TraceEvent.concerns ns) (l := past)
  have resumed : ∀ {k at' id}, .resumed ns release k at' id ∈ past →
      .resumed ns release k at' id ∈ past.filter (TraceEvent.concerns ns) := fun member =>
    List.mem_filter.mpr ⟨member, by simp [TraceEvent.concerns, TraceEvent.sequenceNamespace]⟩
  refine ⟨lawful.inOrder.later shorter, ?_, ?_⟩
  · rintro stepId id call args same ⟨k, at', member⟩
    obtain ⟨checked, gas, record⟩ :=
      lawful.trusted.gate stepId id call args same ⟨k, at', resumed member⟩
    exact ⟨checked.later shorter, gas, shorter.subset record⟩
  · rintro stepId id n same ⟨k, at', member⟩
    obtain ⟨call, gas, record, vouched⟩ :=
      lawful.trusted.completed stepId id n same ⟨k, at', resumed member⟩
    exact ⟨call, gas, shorter.subset record, vouched.later shorter⟩

/-- Events of other namespaces are lawful. -/
theorem Lawful.of_foreign {ns : String} {release : Nat} {order : List String}
    {event : TraceEvent} {past : Trace} (foreign : event.concerns ns = false) :
    Lawful ns release order event past := by
  refine ⟨.of_not_resumed ?_, ?_, ?_⟩
  · rintro k stepId id rfl
    simp [TraceEvent.concerns, TraceEvent.sequenceNamespace] at foreign
  · rintro stepId id call args rfl
    simp [TraceEvent.concerns, TraceEvent.sequenceNamespace] at foreign
  · rintro stepId id n rfl
    simp [TraceEvent.concerns, Event.isVerdict, Event.sequenceNamespace] at foreign

/-- While a release accepted in a quiet namespace is the latest one there, its copies are
dispatched only after their own gates passed them, and its sequence advances past a copy
only after the copy was vouched for. -/
theorem release_trusted {m : Machine} (reachable : m.Reachable) {ns : String} {op : Op}
    {ops : List Op} {order : List String}
    (apart : IsManual ns ∨ Isolated ((m.step op).run ops).trace ns) (quiet : m.Quiet ns)
    (accepted : ((m.step op).trace.orders ns)[m.trace.releaseCount ns]? = some order)
    (latest : ((m.step op).run ops).trace.releaseCount ns = m.trace.releaseCount ns + 1) :
    Guarded (Lawful ns (m.trace.releaseCount ns) order) ((m.step op).run ops).trace := by
  have isolated : Isolated ((m.step op).run ops).trace ns :=
    apart.elim (fun manual => (reachable.run (op :: ops)).wf.isolated_of_manual manual) fun i => i
  have calm : m.Quiet ns ∨ False ∧ order.length = 1 := .inl quiet
  rcases reachable.followed isolated calm accepted with
    ⟨k, id, call, -, lawful⟩ | ⟨impossible | behind, -⟩
  · exact lawful.of_filter (fun _ _ kept => kept.later) fun _ _ foreign => .of_foreign foreign
  · exact impossible.elim
  · omega

/-- A gated step, then an asserted one, each let through by its own verdict. -/
def gatedStep : Step :=
  { plainStep "a" with preGate := some ⟨market, "price", [], some [5], none, .lexBytes, 5⟩ }

def assertedStep : Step :=
  { plainStep "b" with policy := .asserted market "holds" [] [1] 5 }

theorem release_trusted_two_steps :
    Guarded (Lawful (manualNamespace alice) 0 ["a", "b"])
      ((deployed.step (.transact aliceEnv (.executeSteps [gatedStep, assertedStep]))).run
        [.deliver aliceEnv 0 okResult, .deliver aliceEnv 0 (.successful [6]),
          .deliver aliceEnv 0 okResult, .deliver aliceEnv 1 okResult,
          .deliver aliceEnv 1 okResult, .deliver aliceEnv 1 (.successful [1]),
          .deliver aliceEnv 1 okResult]).trace :=
  release_trusted deployed_reachable (.inl ⟨alice, rfl⟩) (fun id f stored => nomatch stored)
    (by decide) (by decide)

/-! ## Overlapping releases -/

/-- One step is released and its call dispatched; the queue is empty. -/
def busyPlan : List Op :=
  [.transact aliceEnv (.executeSteps [plainStep "a"]), .deliver aliceEnv 0 okResult]

/-- Another plan is released behind it. -/
def overlappingPlan : Op := .transact aliceEnv (.executeSteps [plainStep "b", plainStep "c"])

/-- The first plan's result arrives while step `b` is in flight. -/
def overlapped : Machine :=
  ((deployed.run busyPlan).step overlappingPlan).run [.deliver aliceEnv 0 okResult]

/-- `on_step_resolved` of the step ran. -/
def TraceEvent.resolves (stepId : String) : TraceEvent → Bool
  | delivered _ (.onStepResolved _ stepId') _ => stepId' = stepId
  | _ => false

/-- The events before step `c` is resumed, in a release whose step `b` has not resolved. -/
theorem overlapped_trace : ∃ past later,
    overlapped.trace = past ++ .resumed (manualNamespace alice) 1 1 "c" 2 :: later ∧
      ∀ id result, .delivered id (.onStepResolved (manualNamespace alice) "b") result ∉ past := by
  have silent : (overlapped.trace.take 18).any (TraceEvent.resolves "b") = false := by
    decide
  refine ⟨overlapped.trace.take 18, overlapped.trace.drop 19, by decide, ?_⟩
  intro id result member
  have other := List.any_eq_false.mp silent _ member
  simp [TraceEvent.resolves] at other

/-- The second plan's step `c` is resumed by the result of the first plan. -/
theorem overlapping_release_out_of_order : ∃ (m : Machine) (ns : String) (op : Op)
    (ops : List Op) (order : List String), m.Reachable ∧
      ((m.step op).trace.orders ns)[m.trace.releaseCount ns]? = some order ∧
      ¬ ResumedInOrder ns (m.trace.releaseCount ns) order ((m.step op).run ops).trace := by
  refine ⟨deployed.run busyPlan, manualNamespace alice, overlappingPlan,
    [.deliver aliceEnv 0 okResult], ["b", "c"], deployed_reachable.run _, by decide, ?_⟩
  intro inOrder
  obtain ⟨past, later, split, unresolved⟩ := overlapped_trace
  have count : (deployed.run busyPlan).trace.releaseCount (manualNamespace alice) = 1 := by
    decide
  rw [count] at inOrder
  obtain ⟨-, after⟩ := inOrder past later 1 "c" 2 split
  obtain ⟨previous, previousId, result, bytes, here, -, delivered, -⟩ := after 0 rfl
  cases here
  exact unresolved _ _ delivered

/-- The second plan is the only release of its lifetime, and still advances past a step that
nothing vouched for. -/
theorem overlapping_release_untrusted : ∃ (m : Machine) (ns : String) (op : Op)
    (ops : List Op) (order : List String), m.Reachable ∧
      ((m.step op).trace.orders ns)[m.trace.releaseCount ns]? = some order ∧
      ((m.step op).run ops).trace.releaseCount ns = m.trace.releaseCount ns + 1 ∧
      ¬ Guarded (Lawful ns (m.trace.releaseCount ns) order) ((m.step op).run ops).trace := by
  refine ⟨deployed.run busyPlan, manualNamespace alice, overlappingPlan,
    [.deliver aliceEnv 0 okResult], ["b", "c"], deployed_reachable.run _, by decide,
    by decide, ?_⟩
  intro lawful
  obtain ⟨past, later, split, unresolved⟩ := overlapped_trace
  have count : (deployed.run busyPlan).trace.releaseCount (manualNamespace alice) = 1 := by
    decide
  rw [count] at lawful
  obtain ⟨previousId, call, gas, here, -, -, vouched⟩ :=
    (lawful past _ later split).inOrder.after 0 "c" 2 rfl
  obtain ⟨result, bytes, delivered, -⟩ := vouched.resolved
  have same : call.stepId = "b" := (Option.some.inj here).symm
  exact unresolved _ _ (same ▸ delivered)

end SmartAccount
