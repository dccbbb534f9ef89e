import SmartAccount.Foundation.History
import SmartAccount.Tidy

/-!
# Releases of a lane

How a lane counts its releases, and what an accepted release did to it in one piece.
-/

namespace SmartAccount

open Foundation Function

/-! ## Counting releases -/

/-- Only a release fills the queue, and every resume belongs to a release. -/
structure Counted (ns : String) (ℓ : Lane) : Prop where
  queued : ℓ.queue ≠ none → 0 < ℓ.trace.releaseCount ns
  resumed : ∀ release k stepId id, .resumed ns release k stepId id ∈ ℓ.trace →
    release < ℓ.trace.releaseCount ns

namespace Trace

theorem releaseCount_released (ns : String) (order : List String) :
    Trace.releaseCount [.released ns order] ns = 1 := by
  simp [Trace.releaseCount, TraceEvent.isReleased]

/-- Releases are never taken back. -/
theorem releaseCount_mono (ns : String) {t t' : Trace} (longer : t <+: t') :
    t.releaseCount ns ≤ t'.releaseCount ns := by
  obtain ⟨later, rfl⟩ := longer
  rw [Trace.releaseCount_append]
  exact Nat.le_add_right ..

theorem resumeCount_resumed (ns stepId : String) (release k id : Nat) :
    Trace.resumeCount [.resumed ns release k stepId id] ns release = 1 := by
  simp [Trace.resumeCount, TraceEvent.isResumed]

end Trace

namespace Counted

variable {ns : String} {ℓ ℓ' : Lane}

theorem fresh : Counted ns Lane.fresh where
  queued queued := absurd rfl queued
  resumed _ _ _ _ member := absurd member List.not_mem_nil

/-- The next release has no resumes yet. -/
theorem resumeCount_next (counted : Counted ns ℓ) :
    ℓ.trace.resumeCount ns (ℓ.trace.releaseCount ns) = 0 := by
  refine List.countP_eq_zero.mpr fun event inside => ?_
  cases event with
  | resumed ns' release k stepId id =>
      simp only [TraceEvent.isResumed, decide_eq_true_eq]
      rintro ⟨rfl, rfl⟩
      exact absurd (counted.resumed _ _ _ _ inside) (Nat.lt_irrefl _)
  | _ => simp [TraceEvent.isResumed]

/-- More events, and a queue that is not filled. -/
theorem of_append (counted : Counted ns ℓ) {events : Trace} (trace : ℓ'.trace = ℓ.trace ++ events)
    (queue : ℓ'.queue ≠ none → ℓ.queue ≠ none)
    (marks : ∀ release k stepId id, .resumed ns release k stepId id ∈ events →
      release < ℓ.trace.releaseCount ns) : Counted ns ℓ' := by
  have grown : ℓ.trace.releaseCount ns ≤ ℓ'.trace.releaseCount ns := by
    rw [trace, Trace.releaseCount_append]
    exact Nat.le_add_right ..
  refine ⟨fun queued => Nat.lt_of_lt_of_le (counted.queued (queue queued)) grown, ?_⟩
  intro release k stepId id member
  rw [trace, List.mem_append] at member
  rcases member with old | new
  · exact Nat.lt_of_lt_of_le (counted.resumed _ _ _ _ old) grown
  · exact Nat.lt_of_lt_of_le (marks _ _ _ _ new) grown

end Counted

/-! ## Registering and releasing, in one piece -/

/-- What an accepted release did to the lane. -/
theorem Lane.Release.eq {ns : String} {order : List String} {ℓ ℓ' : Lane}
    (counted : Counted ns ℓ) (released : Lane.Release ns order ℓ ℓ') :
    ∃ first rest yielded thens, order = first :: rest ∧ ℓ.queue = none ∧
      (∀ stepId ∈ order, (ℓ.step stepId).isSome) ∧ ℓ.step first = some yielded ∧
      ℓ.flight yielded.yieldId = some ⟨.yielded, thens⟩ ∧
      ℓ' = {
        step := ℓ.step
        queue := if rest = [] then none else some rest
        row := ℓ.row
        flight := update ℓ.flight yielded.yieldId (some ⟨.done resumeSignal, thens⟩)
        trace := ℓ.trace ++ [.released ns order,
          .resumed ns (ℓ.trace.releaseCount ns) 0 first yielded.yieldId] } := by
  cases released with
  | mk shape idle known stored dormant =>
      rename_i first rest yielded thens
      refine ⟨first, rest, yielded, thens, shape, idle, known, stored, dormant, ?_⟩
      have count : Trace.releaseCount (ℓ.trace ++ [.released ns order]) ns =
          ℓ.trace.releaseCount ns + 1 := by
        rw [Trace.releaseCount_append, Trace.releaseCount_released]
      have none_yet : Trace.resumeCount (ℓ.trace ++ [.released ns order]) ns
          (ℓ.trace.releaseCount ns) = 0 := by
        rw [Trace.resumeCount_append, counted.resumeCount_next]
        rfl
      simp [Lane.resume, Lane.putFlight, Lane.note, Lane.setQueue, count, none_yet]

theorem Lane.Release.trace {ns : String} {order : List String} {ℓ ℓ' : Lane}
    (counted : Counted ns ℓ) (released : Lane.Release ns order ℓ ℓ') : ∃ first yieldId,
      ℓ'.trace = ℓ.trace ++ [.released ns order,
        .resumed ns (ℓ.trace.releaseCount ns) 0 first yieldId] := by
  obtain ⟨first, rest, yielded, thens, -, -, -, -, -, rfl⟩ := released.eq counted
  exact ⟨first, yielded.yieldId, rfl⟩

/-- Registering copies leaves queue and run alone, adds records to the trace, and adds
dormant yields. -/
theorem Lane.Registers.eq {ns : String} {copies : List (RegisteredStep × Nat)} {ℓ ℓ' : Lane}
    (registers : Lane.Registers ns copies ℓ ℓ') :
    ℓ'.queue = ℓ.queue ∧ ℓ'.row = ℓ.row ∧
      (∃ events : Trace, ℓ'.trace = ℓ.trace ++ events ∧
        ∀ event ∈ events, event.isRegistered = true) ∧
      ∀ id f, ℓ'.flight id = some f → ℓ.flight id = some f ∨ ∃ stepId gas, Dormant ns stepId gas f := by
  induction registers with
  | nil =>
      exact ⟨rfl, rfl, ⟨[], (List.append_nil _).symm, fun _ inside => absurd inside
        List.not_mem_nil⟩, fun _ _ flying => .inl flying⟩
  | cons can rest ih =>
      rename_i ℓ ℓ' copy copies
      obtain ⟨queue, row, ⟨events, trace, records⟩, flights⟩ := ih
      refine ⟨queue, row, ⟨.registered ns copy.1.yieldId copy.1.call copy.2 :: events, ?_, ?_⟩, ?_⟩
      · rw [trace]
        simp [Lane.register]
      · exact List.forall_mem_cons.mpr ⟨rfl, records⟩
      · intro id f flying
        rcases flights id f flying with old | dormant
        · have old' : update ℓ.flight copy.1.yieldId (some ⟨.yielded,
              [⟨.onStepResumed ns copy.1.call.stepId, copy.2⟩]⟩) id = some f := old
          rw [update_apply] at old'
          split at old'
          · cases old'
            exact .inr ⟨_, _, .waiting⟩
          · exact .inl old'
        · exact .inr dormant

theorem Lane.Release.count {ns : String} {order : List String} {ℓ ℓ' : Lane}
    (released : Lane.Release ns order ℓ ℓ') :
    ℓ'.trace.releaseCount ns = ℓ.trace.releaseCount ns + 1 := by
  cases released with
  | mk shape idle known stored dormant =>
      rw [Lane.resume_trace, Lane.note_trace, Trace.releaseCount_append, Trace.releaseCount_append,
        Trace.releaseCount_released]
      rfl

theorem Lane.Registers.count {ns : String} {copies : List (RegisteredStep × Nat)} {ℓ ℓ' : Lane}
    (registers : Lane.Registers ns copies ℓ ℓ') :
    ℓ'.trace.releaseCount ns = ℓ.trace.releaseCount ns := by
  obtain ⟨-, -, ⟨events, trace, records⟩, -⟩ := registers.eq
  rw [trace, Trace.releaseCount_append, Trace.releaseCount_unmarked
    fun event inside => TraceEvent.isMark_of_registered (records event inside)]
  rfl

/-- A step aside releases nothing. -/
theorem Lane.Step.aside_count {ns : String} {ℓ ℓ' : Lane} (step : Lane.Step ns .aside ℓ ℓ') :
    ℓ'.trace.releaseCount ns = ℓ.trace.releaseCount ns := by
  cases step with
  | register manual can =>
      show Trace.releaseCount (ℓ.trace ++ _) ns = _
      rw [Trace.releaseCount_append]
      rfl
  | prune stored terminal => rfl
  | expire dormant => rfl

theorem Lane.Step.release_count {ns : String} {ℓ ℓ' : Lane} (step : Lane.Step ns .release ℓ ℓ') :
    ℓ'.trace.releaseCount ns = ℓ.trace.releaseCount ns + 1 := by
  cases step with
  | release manual released => exact released.count
  | fire auto absent registered released running =>
      exact released.count.trans (congrArg (· + 1) registered.count)

theorem Counted.register {ns : String} {ℓ : Lane} (counted : Counted ns ℓ)
    (yielded : RegisteredStep) (gasTgas : Nat) :
    Counted ns (ℓ.register ns yielded gasTgas) :=
  counted.of_append rfl (fun queued => queued) fun _ _ _ _ member => by
    cases List.mem_singleton.mp member

theorem Counted.registers {ns : String} {copies : List (RegisteredStep × Nat)} {ℓ ℓ' : Lane}
    (counted : Counted ns ℓ) (registers : Lane.Registers ns copies ℓ ℓ') : Counted ns ℓ' := by
  induction registers with
  | nil => exact counted
  | cons can rest ih => exact ih (counted.register _ _)

theorem Counted.release {ns : String} {order : List String} {ℓ ℓ' : Lane}
    (counted : Counted ns ℓ) (released : Lane.Release ns order ℓ ℓ') : Counted ns ℓ' := by
  obtain ⟨first, rest, yielded, thens, rfl, idle, -, -, -, rfl⟩ := released.eq counted
  have count : Trace.releaseCount (ℓ.trace ++ [.released ns (first :: rest),
      .resumed ns (ℓ.trace.releaseCount ns) 0 first yielded.yieldId]) ns =
        ℓ.trace.releaseCount ns + 1 := by
    rw [Trace.releaseCount_append]
    simp [Trace.releaseCount, TraceEvent.isReleased]
  refine ⟨fun _ => ?_, fun release k stepId id member => ?_⟩
  · simp only [count]
    omega
  · simp only [count]
    simp only [List.mem_append, List.mem_cons, TraceEvent.resumed.injEq, reduceCtorEq,
      List.not_mem_nil, or_false, false_or] at member
    rcases member with old | ⟨-, rfl, -⟩
    · exact Nat.lt_succ_of_lt (counted.resumed _ _ _ _ old)
    · exact Nat.lt_succ_self _

theorem Counted.deliver {ns : String} {id : Nat} {ℓ ℓ' : Lane} (counted : Counted ns ℓ)
    (tidy : Tidy ns ℓ) (delivered : Lane.Deliver ns ℓ id ℓ') : Counted ns ℓ' := by
  obtain ⟨f, flying⟩ := delivered.flew
  obtain ⟨call, gas, -, chain⟩ := tidy.flying id f flying
  have touched := delivered.touched tidy.proper flying chain
  obtain ⟨events, trace, notes⟩ := touched.notes
  refine counted.of_append trace (fun queued empty => queued (touched.queue empty)) ?_
  intro release k stepId id' member
  rcases notes _ member with plain | ⟨queued, k', next, yieldId, same⟩
  · cases plain
  · cases same
    have := counted.queued queued
    omega

/-- Every lane step keeps the counts. -/
theorem Counted.step {ns : String} {kind : Lane.Kind} {ℓ ℓ' : Lane} (counted : Counted ns ℓ)
    (tidy : Tidy ns ℓ) (step : Lane.Step ns kind ℓ ℓ') : Counted ns ℓ' := by
  cases step with
  | register manual can => exact counted.register _ _
  | release manual released => exact counted.release released
  | fire auto absent registered released running =>
      have after := (counted.registers registered).release released
      exact ⟨after.queued, after.resumed⟩
  | prune stored terminal => exact ⟨counted.queued, counted.resumed⟩
  | expire dormant => exact ⟨counted.queued, counted.resumed⟩
  | deliver delivered => exact counted.deliver tidy delivered

end SmartAccount
