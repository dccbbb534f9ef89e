import SmartAccount.Gas
import SmartAccount.Ledger
import SmartAccount.OrderedRelease
import SmartAccount.SavedResults

/-!
# No run without an outstanding promise

A run that is in flight goes on only when something of it is delivered: a yield, or the
outcome of a gate, a target or a postcheck.  Every callback either passes its flight on,
closes the run, or resumes the yield of the next step.  The exception is a last callback that
fails: the flight is over and the step stays registered.  Then the run lives on only by its
other steps (`unwedged_iff`).
-/

namespace SmartAccount

open Foundation Function Relation

/-! ## On the lane -/

namespace Lane

/-- The flight is outstanding, and the step it was created for is still registered. -/
def Attends (ℓ : Lane) (id : Nat) : Prop :=
  ∃ stepId yielded f, ℓ.step stepId = some yielded ∧ yielded.yieldId = id ∧ ℓ.flight id = some f

/-- The run, if one is in flight, has something outstanding. -/
def Busy (ℓ : Lane) : Prop :=
  ∀ run, ℓ.row = some run → run.status = .inFlight → ∃ id, ℓ.Attends id

/-- Only the flight of a gated step waits for `on_pre_gate_checked`. -/
def Gated (ℓ : Lane) : Prop :=
  ∀ stepId yielded f, ℓ.step stepId = some yielded → ℓ.flight yielded.yieldId = some f →
    ∀ ns' stepId' gas rest, f.thens = ⟨.onPreGateChecked ns' stepId', gas⟩ :: rest →
      yielded.call.preGate ≠ none

section Keeping

variable {ns : String} {ℓ ℓ' : Lane} {id : Nat}

theorem Attends.of_same (attends : ℓ.Attends id) (steps : ℓ'.step = ℓ.step)
    (flights : (ℓ'.flight id).isSome) : ℓ'.Attends id := by
  obtain ⟨stepId, yielded, f, stored, own, -⟩ := attends
  obtain ⟨f', flying⟩ := Option.isSome_iff_exists.mp flights
  exact ⟨stepId, yielded, f', steps ▸ stored, own, flying⟩

theorem Attends.flying (attends : ℓ.Attends id) : (ℓ.flight id).isSome := by
  obtain ⟨-, -, f, -, -, flying⟩ := attends
  rw [flying]
  rfl

theorem Busy.of_over (ended : ℓ.Over) : ℓ.Busy :=
  fun run stored running => absurd running (ended run stored)

/-- The run and the registered steps stay, and every flight of theirs goes on. -/
theorem Busy.of_same (busy : ℓ.Busy) (row : ℓ'.row = ℓ.row) (steps : ℓ'.step = ℓ.step)
    (flights : ∀ id, ℓ.Attends id → (ℓ'.flight id).isSome) : ℓ'.Busy := by
  intro run stored running
  obtain ⟨id, attends⟩ := busy run (row ▸ stored) running
  exact ⟨id, attends.of_same steps (flights id attends)⟩

/-- Closing the run leaves none in flight. -/
theorem finish_over (ℓ : Lane) (env : Env) (by_ : Option Nat) (ns : String)
    {status : AutomationRunStatus} (closing : status ≠ .inFlight) (failedStepId : Option String) :
    (ℓ.finish env by_ ns status failedStepId).Over := by
  rcases finish_cases ℓ with idle | ⟨run, stored, running⟩
  · rwa [finish_of_not env by_ ns status failedStepId idle]
  · rw [finish_of_running env by_ ns status failedStepId stored running]
    intro run' stored'
    rw [Option.some.injEq] at stored'
    rw [← stored']
    exact closing

theorem Busy.note (busy : ℓ.Busy) (event : TraceEvent) : (ℓ.note event).Busy :=
  busy.of_same rfl rfl fun _ attends => attends.flying

/-- A flight that goes on. -/
theorem Busy.onward (busy : ℓ.Busy) (id : Nat) {f : Flight} (more : f.thens ≠ []) :
    (ℓ.settle id f).Busy := by
  refine busy.of_same rfl rfl fun id' attends => ?_
  show (update ℓ.flight id (if f.thens = [] then none else some f) id').isSome
  rw [if_neg more, update_apply]
  split
  · rfl
  · exact attends.flying

/-- A flight ends that was for no registered step. -/
theorem Busy.astray (busy : ℓ.Busy) (id : Nat) (stray : ¬ ℓ.Attends id) (f : Flight) :
    (ℓ.settle id f).Busy := by
  refine busy.of_same rfl rfl fun id' attends => ?_
  have other : id' ≠ id := fun same => stray (same ▸ attends)
  show (update ℓ.flight id _ id').isSome
  rw [update_of_ne other]
  exact attends.flying

/-- The next step is resumed. -/
theorem Busy.of_resume {next : String} {yielded : RegisteredStep} {thens : List Then}
    (stored : ℓ.step next = some yielded) (other : yielded.yieldId ≠ id) (f : Flight) :
    ((ℓ.resume ns next yielded.yieldId thens).settle id f).Busy := by
  intro run _ _
  refine ⟨yielded.yieldId, next, yielded, ⟨.done resumeSignal, thens⟩, stored, rfl, ?_⟩
  show update (update ℓ.flight yielded.yieldId _) id _ yielded.yieldId = _
  rw [update_of_ne other, update_self]

theorem Gated.of_less (gated : ℓ.Gated)
    (steps : ∀ stepId yielded, ℓ'.step stepId = some yielded → ℓ.step stepId = some yielded)
    (flights : ∀ id f', ℓ'.flight id = some f' → ∃ f, ℓ.flight id = some f ∧ f.thens = f'.thens) :
    ℓ'.Gated := by
  intro stepId yielded f' stored flying ns' stepId' gas rest waiting
  obtain ⟨f, flying', same⟩ := flights _ f' flying
  exact gated stepId yielded f (steps _ _ stored) flying' ns' stepId' gas rest (same ▸ waiting)

end Keeping

end Lane

/-! ## Deliveries -/

section Deliveries

variable {ns : String} {ℓ ℓ' : Lane} {id : Nat}

/-- What the flight of a registered step waits for is about that step. -/
theorem Tidy.about (tidy : Tidy ns ℓ) {head : Head} {t : Then} {rest : List Then}
    (flying : ℓ.flight id = some ⟨head, t :: rest⟩) {stepId : String} {yielded : RegisteredStep}
    (stored : ℓ.step stepId = some yielded) (own : yielded.yieldId = id) :
    t.callback.stepId = stepId := by
  obtain ⟨call, gas, record, chain⟩ := tidy.flying id _ flying
  obtain ⟨named, gas', record'⟩ := tidy.stored stepId yielded stored
  obtain ⟨same, -⟩ := tidy.unique id _ _ _ _ record (own ▸ record')
  exact (chain.about t List.mem_cons_self).trans (same ▸ named)

/-- Only the last callback of a flight is no postcheck. -/
theorem Tidy.last (tidy : Tidy ns ℓ) {head : Head} {t : Then} {rest : List Then}
    (flying : ℓ.flight id = some ⟨head, t :: rest⟩) :
    rest = [] ∧ t.callback.isPostcheck = false ∨
      t.callback.isPostcheck = true ∧ ∃ stepId gas, rest = [⟨.onStepResolved ns stepId, gas⟩] := by
  obtain ⟨call, gas, -, chain⟩ := tidy.flying id _ flying
  cases chain with
  | last final about => exact .inl ⟨rfl, final⟩
  | postcheck asserted about => exact .inr ⟨asserted, _, _, rfl⟩

/-- Behind the call of a step comes a postcheck or `on_step_resolved`. -/
theorem resolvedPromise_behind (authorizerId : Option AccountId) (ns stepId : String)
    (call : Step) : ∃ t rest, (resolvedPromise authorizerId ns stepId call).thens = t :: rest ∧
      ∀ ns' stepId', t.callback ≠ .onPreGateChecked ns' stepId' := by
  unfold resolvedPromise dispatchPromiseForCall buildCallPromise
  cases call.policy <;> cases authorizerId <;>
    exact ⟨_, _, rfl, fun ns' stepId' same => by cases same⟩

/-- A callback that does not fail passes its flight on, closes the run or resumes the next
step; otherwise its flight was for no registered step. -/
theorem Lane.Busy.effect (busy : ℓ.Busy) (tidy : Tidy ns ℓ) (gated : ℓ.Gated) {head head' : Head}
    {callback : Callback} {gas : Nat} {rest thens : List Then} {result : PromiseResult}
    {event : TraceEvent} (due : Lane.Due ℓ id head ⟨callback, gas⟩ rest result)
    (effect : Lane.Effect ns id (ℓ.note event) callback result ℓ' head' thens) :
    (ℓ'.settle id ⟨head', thens ++ rest⟩).Busy := by
  have noted := busy.note event
  obtain ⟨flying, answer, outcome⟩ := due
  cases effect with
  | asleep absent =>
      refine noted.astray id (fun attends => ?_) _
      obtain ⟨stepId, yielded, -, stored, own, -⟩ := attends
      obtain rfl := tidy.about flying stored own
      exact Option.some_ne_none _ (stored.symm.trans absent)
  | unchecked ungated =>
      refine noted.astray id (fun attends => ?_) _
      obtain ⟨stepId, yielded, -, stored, own, -⟩ := attends
      obtain rfl := tidy.about flying stored own
      exact gated _ yielded _ stored (own ▸ flying) _ _ _ _ rfl (ungated yielded stored)
  | halted cause stored unsuccessful about =>
      refine .of_over (finish_over _ _ _ _ ?_ _)
      rcases unsuccessful with rfl | rfl <;> decide
  | gated stored gate built =>
      subst built
      exact (noted.note _).onward id (List.cons_ne_nil _ _)
  | dispatched stored cleared built =>
      subst built
      refine ((noted.note _).note _).onward id (List.append_ne_nil_of_left_ne_nil ?_ _)
      obtain ⟨t, more, behind, -⟩ := resolvedPromise_behind _ ns _ _
      rw [behind]
      exact List.cons_ne_nil _ _
  | posted small built =>
      subst built
      exact (noted.note _).onward id (List.cons_ne_nil _ _)
  | matched equal =>
      refine noted.onward id ?_
      rcases tidy.last flying with ⟨-, plain⟩ | ⟨-, stepId, gas', more⟩
      · cases plain
      · rw [more]
        exact List.cons_ne_nil _ _
  | advanced small queued other stored dormant =>
      refine .of_resume ?_ (fun same => ?_) _
      · exact (update_of_ne other ..).trans stored
      · have waiting : ℓ.flight id = some ⟨.yielded, _⟩ := same ▸ dormant
        rw [flying, Option.some.injEq, Flight.mk.injEq] at waiting
        rw [waiting.1] at outcome
        cases outcome
  | stuck small queued about =>
      exact .of_over (finish_over _ _ _ _ (by decide) _)
  | completed small drained =>
      exact .of_over (finish_over _ _ _ _ (by decide) _)
  | failed failure =>
      exact .of_over (finish_over _ _ _ _ (by decide) _)

/-- A callback whose flight goes on to `on_pre_gate_checked` is about a gated step. -/
theorem Lane.Effect.asks_gate {callback : Callback} {result : PromiseResult} {head : Head}
    {thens : List Then} (effect : Lane.Effect ns id ℓ callback result ℓ' head thens)
    {ns' stepId : String} {gas : Nat} {more : List Then}
    (asks : thens = ⟨.onPreGateChecked ns' stepId, gas⟩ :: more) :
    ∃ yielded, ℓ.step callback.stepId = some yielded ∧ yielded.call.preGate ≠ none := by
  cases effect with
  | gated stored gate built =>
      refine ⟨_, stored, ?_⟩
      rw [gate]
      exact Option.some_ne_none _
  | dispatched stored cleared built =>
      obtain ⟨t, rest, behind, other⟩ := resolvedPromise_behind _ ns _ _
      rw [built, behind, List.cons.injEq] at asks
      exact absurd (congrArg Then.callback asks.1) (other _ _)
  | posted small built =>
      rw [built] at asks
      cases asks
  | _ => cases asks

theorem Lane.Gated.deliver (gated : ℓ.Gated) (tidy : Tidy ns ℓ)
    (delivered : Lane.Deliver ns ℓ id ℓ') : ℓ'.Gated := by
  obtain ⟨f₀, flew⟩ := delivered.flew
  obtain ⟨call, gas₀, record, chain⟩ := tidy.flying id f₀ flew
  have touched := delivered.touched tidy.proper flew chain
  intro stepId yielded f stored flying ns' stepId' gas more waiting
  have before := touched.steps _ _ stored
  by_cases own : yielded.yieldId = id
  · subst own
    -- the flight went on with what its callback asked for, or with what was left behind it
    have left : ∀ {head : Head} {t : Then} {rest : List Then},
        ℓ.flight yielded.yieldId = some ⟨head, t :: rest⟩ →
          rest ≠ ⟨.onPreGateChecked ns' stepId', gas⟩ :: more := by
      intro head t rest here eq
      rcases tidy.last here with ⟨none_, -⟩ | ⟨-, resolvedId, resolveGas, resolve⟩
      · rw [none_] at eq
        cases eq
      · rw [resolve] at eq
        cases eq
    cases delivered with
    | ran due effect =>
        rename_i ℓ₁ head head' t rest thens result
        have landed : update ℓ₁.flight yielded.yieldId (if thens ++ rest = [] then none
          else some ⟨head', thens ++ rest⟩) yielded.yieldId = some f := flying
        rw [update_self] at landed
        split at landed
        · cases landed
        · cases landed
          cases thens with
          | nil => exact absurd waiting (left due.waiting)
          | cons t' thens =>
              rw [List.cons_append, List.cons.injEq] at waiting
              obtain ⟨yielded', stored', asked⟩ := effect.asks_gate (by rw [waiting.1])
              have here : ℓ.step t.callback.stepId = some yielded' := stored'
              rw [tidy.about due.waiting before rfl, before, Option.some.injEq] at here
              exact here ▸ asked
    | rolledBack due =>
        rename_i head t rest result
        have landed : update ℓ.flight yielded.yieldId (if rest = [] then none
          else some ⟨.done .failed, rest⟩) yielded.yieldId = some f := flying
        rw [update_self] at landed
        split at landed
        · cases landed
        · cases landed
          exact absurd waiting (left due.waiting)
  · rcases touched.others _ own with same | ⟨thens, dormant, resumed⟩
    · exact gated _ _ _ before (same ▸ flying) _ _ _ _ waiting
    · rw [flying, Option.some.injEq] at resumed
      subst resumed
      exact gated _ _ _ before dormant _ _ _ _ waiting

/-- A last callback that fails leaves the run what it has outstanding elsewhere. -/
theorem Lane.busy_of_land (ℓ : Lane) (id : Nat) (event : TraceEvent) :
    (((ℓ.note event).settle id ⟨.done .failed, []⟩).Busy ↔
      ∀ run, ℓ.row = some run → run.status = .inFlight → ∃ id', id' ≠ id ∧ ℓ.Attends id') := by
  constructor
  · intro busy run stored running
    obtain ⟨id', stepId, yielded, f, kept, own, flying⟩ := busy run stored running
    have left : update ℓ.flight id none id' = some f := flying
    by_cases same : id' = id
    · rw [same, update_self] at left
      cases left
    · rw [update_of_ne same] at left
      exact ⟨id', same, stepId, yielded, f, kept, own, left⟩
  · intro others run stored running
    obtain ⟨id', other, stepId, yielded, f, kept, own, flying⟩ := others run stored running
    refine ⟨id', stepId, yielded, f, kept, own, ?_⟩
    show update ℓ.flight id none id' = some f
    rw [update_of_ne other, flying]

end Deliveries

/-! ## Other lane steps -/

section Steps

variable {ns : String} {ℓ ℓ' : Lane}

theorem Lane.Gated.register (gated : ℓ.Gated) (yielded : RegisteredStep) (gasTgas : Nat) :
    (ℓ.register ns yielded gasTgas).Gated := by
  intro stepId yielded' f stored flying ns' stepId' gas rest waiting
  have flying' : update ℓ.flight yielded.yieldId
    (some ⟨.yielded, [⟨.onStepResumed ns yielded.call.stepId, gasTgas⟩]⟩) yielded'.yieldId =
      some f := flying
  have stored' : update ℓ.step yielded.call.stepId (some yielded) stepId = some yielded' := stored
  by_cases new : yielded'.yieldId = yielded.yieldId
  · rw [new, update_self, Option.some.injEq] at flying'
    subst flying'
    cases waiting
  · rw [update_of_ne new] at flying'
    rw [update_apply] at stored'
    split at stored'
    · cases stored'
      exact absurd rfl new
    · exact gated stepId yielded' f stored' flying' ns' stepId' gas rest waiting

theorem Lane.Gated.resume (gated : ℓ.Gated) {stepId : String} {id : Nat} {thens : List Then}
    (dormant : ℓ.flight id = some ⟨.yielded, thens⟩) : (ℓ.resume ns stepId id thens).Gated := by
  refine gated.of_less (fun _ _ stored => stored) fun id' f' flying => ?_
  rw [Lane.resume_flight, update_apply] at flying
  split at flying
  · rename_i same
    cases flying
    exact ⟨⟨.yielded, thens⟩, same ▸ dormant, rfl⟩
  · exact ⟨f', flying, rfl⟩

theorem Lane.Gated.registers (gated : ℓ.Gated) {copies : List (RegisteredStep × Nat)}
    (registers : Lane.Registers ns copies ℓ ℓ') : ℓ'.Gated := by
  induction registers with
  | nil => exact gated
  | cons can rest ih => exact ih (gated.register _ _)

theorem Lane.Gated.release (gated : ℓ.Gated) {order : List String}
    (released : Lane.Release ns order ℓ ℓ') : ℓ'.Gated := by
  cases released with
  | mk shape idle known stored dormant =>
      refine Lane.Gated.resume ?_ dormant
      exact gated.of_less (fun _ _ stored => stored) fun _ f flying => ⟨f, flying, rfl⟩

theorem Lane.Gated.step (gated : ℓ.Gated) (tidy : Tidy ns ℓ) {kind : Lane.Kind}
    (step : Lane.Step ns kind ℓ ℓ') : ℓ'.Gated := by
  cases step with
  | register manual can => exact gated.register _ _
  | release manual released => exact gated.release released
  | fire auto absent registered released running =>
      exact ((gated.registers registered).release released).of_less
        (fun _ _ stored => stored) fun _ f flying => ⟨f, flying, rfl⟩
  | prune stored terminal => exact gated
  | expire dormant =>
      refine gated.of_less (fun _ _ stored => stored) fun id' f' flying => ?_
      rw [Lane.putFlight_flight, update_apply] at flying
      split at flying
      · rename_i same
        cases flying
        exact ⟨⟨.yielded, _⟩, same ▸ dormant, rfl⟩
      · exact ⟨f', flying, rfl⟩
  | deliver delivered => exact gated.deliver tidy delivered

/-- A run starts with its first step resumed. -/
theorem Lane.Busy.move (busy : ℓ.Busy) (tidy : Tidy ns ℓ) {kind : Lane.Kind}
    (undelivered : ∀ id, kind ≠ .deliver id) (step : Lane.Step ns kind ℓ ℓ') : ℓ'.Busy := by
  cases step with
  | register manual can =>
      refine .of_over fun run stored => ?_
      have absent : ℓ.row = some run := stored
      rw [tidy.manual_row manual] at absent
      cases absent
  | release manual released =>
      cases released with
      | mk shape idle known stored dormant =>
          refine .of_over fun run row => ?_
          have absent : ℓ.row = some run := row
          rw [tidy.manual_row manual] at absent
          cases absent
  | fire auto absent registered released running =>
      cases released with
      | mk shape idle known stored dormant =>
          intro _ _ _
          exact ⟨_, _, _, _, stored, rfl, update_self ..⟩
  | prune stored terminal => exact .of_over fun run absent => by cases absent
  | expire dormant =>
      refine busy.of_same rfl rfl fun id' attends => ?_
      rw [Lane.putFlight_flight, update_apply]
      split
      · rfl
      · exact attends.flying
  | deliver delivered => exact absurd rfl (undelivered _)

theorem Lane.Busy.moves (busy : ℓ.Busy) (tidy : Tidy ns ℓ) (moves : Lane.Moves ns ℓ ℓ') :
    ℓ'.Busy := by
  obtain ⟨ℓ₁, chain, last⟩ := moves
  have reached : Tidy ns ℓ₁ ∧ ℓ₁.Busy := by
    clear last
    induction chain with
    | refl => exact ⟨tidy, busy⟩
    | tail _ step ih =>
        obtain ⟨tidy, busy⟩ := ih
        exact ⟨tidy.step step, busy.move tidy (fun id same => by cases same) step⟩
  rcases last with same | step
  · exact same ▸ reached.2
  · exact reached.2.move reached.1 (fun id same => by cases same) step

end Steps

/-! ## In the machine -/

namespace Machine

/-- A run is in flight under the namespace. -/
def InFlight (m : Machine) (ns : String) : Prop :=
  ∃ run, m.contract.automationRuns.get ns = some run ∧ run.status = .inFlight

/-- A registered step has its own yield, gate, target or postcheck outstanding, and what this
returns goes to a callback of the sequencer about that step. -/
def Pending (m : Machine) (ns : String) : Prop :=
  ∃ stepId yielded head t rest, m.getStep ns stepId = some yielded ∧
    m.pool.get yielded.yieldId = some ⟨head, t :: rest⟩ ∧
    t.callback.sequenceNamespace = ns ∧ t.callback.stepId = stepId

/-- Neither the run of the namespace nor a trigger whose run it is is in flight with nothing
pending. -/
structure Unwedged (m : Machine) (ns : String) : Prop where
  runs : m.InFlight ns → m.Pending ns
  triggers : ∀ triggerId trigger, m.contract.balanceTriggers.get triggerId = some trigger →
    trigger.inFlight = true → trigger.lastRunNamespace = some ns → m.Pending ns

/-- The last callback of a flight fails while a run is in flight, and no other registered step
of the run has anything outstanding. -/
def Strands (m : Machine) (ns : String) (op : Op) : Prop :=
  m.InFlight ns ∧ ∃ id, m.Fails ns id op ∧
    ∀ stepId yielded, m.getStep ns stepId = some yielded → yielded.yieldId ≠ id →
      m.pool.get yielded.yieldId = none

section Reached

variable {m : Machine} {ns : String}

/-- The flight of a registered step is its lane's. -/
theorem flight_of_getStep (wf : Wf m) (isolated : Isolated m.trace ns) {stepId : String}
    {yielded : RegisteredStep} (stored : m.getStep ns stepId = some yielded) :
    (m.lane ns).flight yielded.yieldId = m.pool.get yielded.yieldId := by
  obtain ⟨⟨gas, record⟩, -⟩ := wf.registered_of_getStep isolated stored
  cases flying : m.pool.get yielded.yieldId with
  | none => exact lane_flight_of_not m ns flying
  | some f =>
      obtain ⟨nonempty, addressed⟩ := wf.addressed_of_registered record flying
      exact lane_flight_of_addressed flying nonempty addressed

theorem attends_iff_pending (reachable : m.Reachable) (isolated : Isolated m.trace ns) :
    (∃ id, (m.lane ns).Attends id) ↔ m.Pending ns := by
  have wf := reachable.wf
  obtain ⟨tidy, -⟩ := reachable.lane_tidy isolated
  constructor
  · rintro ⟨id, stepId, yielded, f, stored, rfl, flying⟩
    have flying' := (flight_of_getStep wf isolated stored).symm.trans flying
    obtain ⟨⟨gas, record⟩, -⟩ := wf.registered_of_getStep isolated stored
    obtain ⟨nonempty, addressed⟩ := wf.addressed_of_registered record flying'
    obtain ⟨head, thens⟩ := f
    cases thens with
    | nil => exact absurd rfl nonempty
    | cons t rest =>
        exact ⟨stepId, yielded, head, t, rest, stored, flying',
          addressed t List.mem_cons_self, tidy.about flying stored rfl⟩
  · rintro ⟨stepId, yielded, head, t, rest, stored, flying, -, -⟩
    exact ⟨_, stepId, yielded, _, stored, rfl,
      (flight_of_getStep wf isolated stored).trans flying⟩

/-- The lane is busy exactly where the namespace is not wedged. -/
theorem busy_iff_unwedged (reachable : m.Reachable) (isolated : Isolated m.trace ns) :
    (m.lane ns).Busy ↔ m.Unwedged ns := by
  have pending := attends_iff_pending reachable isolated
  constructor
  · intro busy
    have runs : m.InFlight ns → m.Pending ns :=
      fun ⟨run, stored, running⟩ => pending.mp (busy run stored running)
    refine ⟨runs, fun triggerId trigger stored flying last => ?_⟩
    obtain ⟨ns', run, named, row, opened⟩ :=
      reachable.ledger.open_ triggerId trigger stored flying
    obtain rfl := Option.some.inj (last.symm.trans named)
    exact runs ⟨run, row, opened.status⟩
  · intro unwedged run stored running
    exact pending.mpr (unwedged.runs ⟨run, stored, running⟩)

/-- Where a last callback has failed, the run lives on exactly by its other steps. -/
theorem busy_of_failed (wf : Wf m) (isolated : Isolated m.trace ns) {id : Nat} {m' : Machine}
    {event : TraceEvent}
    (failed : m'.lane ns = ((m.lane ns).note event).settle id ⟨.done .failed, []⟩) :
    (m'.lane ns).Busy ↔ ¬ (m.InFlight ns ∧ ∀ stepId yielded, m.getStep ns stepId = some yielded →
      yielded.yieldId ≠ id → m.pool.get yielded.yieldId = none) := by
  rw [failed, Lane.busy_of_land]
  constructor
  · rintro others ⟨⟨run, row, running⟩, alone⟩
    obtain ⟨id', other, stepId, yielded, f, kept, rfl, flying⟩ := others run row running
    rw [flight_of_getStep wf isolated kept, alone stepId yielded kept other] at flying
    cases flying
  · intro spared run row running
    by_contra none_
    refine spared ⟨⟨run, row, running⟩, fun stepId yielded kept other => ?_⟩
    by_contra flying
    obtain ⟨f, flying⟩ := Option.ne_none_iff_exists'.mp flying
    exact none_ ⟨_, other, stepId, yielded, f, kept, rfl,
      (flight_of_getStep wf isolated kept).trans flying⟩

/-- A lane that a failed callback leaves is busy exactly if the failure strands nothing. -/
theorem busy_of_fails (wf : Wf m) (isolated : Isolated m.trace ns) {op : Op} {id : Nat}
    {event : TraceEvent} (fails : ∀ id', m.Fails ns id' op ↔ id' = id)
    (failed : (m.step op).lane ns = ((m.lane ns).note event).settle id ⟨.done .failed, []⟩) :
    ((m.step op).lane ns).Busy ↔ ¬ m.Strands ns op := by
  rw [busy_of_failed wf isolated failed]
  refine not_congr ⟨fun ⟨running, alone⟩ => ⟨running, id, (fails id).mpr rfl, alone⟩, ?_⟩
  rintro ⟨running, id', failing, alone⟩
  obtain rfl := (fails id').mp failing
  exact ⟨running, alone⟩

theorem not_strands_of_spared {op : Op} (spared : ∀ id, ¬ m.Fails ns id op) :
    ¬ m.Strands ns op :=
  fun ⟨_, id, failing, _⟩ => spared id failing

/-- A delivery that fails no last callback leaves a busy lane busy. -/
theorem deliver_busy (reachable : m.Reachable) (busy : (m.lane ns).Busy) {env : Env} {id : Nat}
    {answer : PromiseResult} (isolated : Isolated m.trace ns)
    (spared : ¬ m.Unpaid ns env id answer) : ((m.deliver env id answer).lane ns).Busy := by
  have wf := reachable.wf
  obtain ⟨tidy, gated⟩ : Tidy ns (m.lane ns) ∧ (m.lane ns).Gated :=
    reachable.lane_induct (motive := fun ℓ => Tidy ns ℓ ∧ ℓ.Gated)
      ⟨.fresh, fun _ _ _ stored => by cases stored⟩
      (fun _ _ _ step ⟨tidy, gated⟩ => ⟨tidy.step step, gated.step tidy step⟩) isolated
  rcases m.deliver_cases env id answer with same | ⟨head, t, rest, result, stored, outcome, ran⟩
  · rwa [same]
  rw [ran]
  obtain ⟨-, ns', call, gas, record, addressed⟩ := wf.flying id _ stored
  rcases isolated ns' id call gas record with rfl | separate
  · have flying := lane_flight_of_addressed stored (List.cons_ne_nil _ _) addressed
    rcases lane_runThen_cases wf isolated stored addressed with
      ⟨panic, failed, landed⟩ | ⟨done, ℓ', head', thens, -, effect, landed⟩
    · rw [landed]
      rcases tidy.last flying with ⟨rfl, plain⟩ | ⟨-, stepId, gas', more⟩
      · have own := addressed t List.mem_cons_self
        exact absurd (unpaid_of_attempt stored plain own outcome failed) spared
      · rw [more]
        exact (busy.note _).onward id (List.cons_ne_nil _ _)
    · rw [landed]
      exact busy.effect tidy gated ⟨flying, answer, outcome⟩ effect
  · rw [lane_runThen_other wf separate stored addressed]
    exact busy

/-- So does what the host ends, where that is no last callback. -/
theorem abort_busy (wf : Wf m) (busy : (m.lane ns).Busy) {id : Nat} {answer : PromiseResult}
    (isolated : Isolated m.trace ns) (spared : ¬ m.LastDue ns id answer) :
    ((m.abort id answer).lane ns).Busy := by
  rcases m.abort_cases id answer with
    same | ⟨head, t, rest, result, panic, stored, outcome, silent, ended⟩
  · rwa [same]
  have plain : ∀ event ∈ panic.logged, event.isVerdict = false := by simp [silent]
  rw [ended]
  obtain ⟨-, ns', call, gas, record, addressed⟩ := wf.flying id _ stored
  rcases isolated ns' id call gas record with rfl | separate
  · rw [lane_rolledBack stored addressed result plain]
    refine (busy.note _).onward id fun last => spared ?_
    have single : rest = [] := last
    subst single
    exact ⟨head, t, result, stored, outcome, addressed t List.mem_cons_self⟩
  · rw [lane_rolledBack_other separate stored addressed result plain]
    exact busy

/-- A step strands a busy namespace exactly if it says so beforehand. -/
theorem step_busy_iff (reachable : m.Reachable) (busy : (m.lane ns).Busy) {op : Op}
    (isolated : Isolated (m.step op).trace ns) :
    ((m.step op).lane ns).Busy ↔ ¬ m.Strands ns op := by
  have before := isolated.earlier (step_trace m op)
  have wf := reachable.wf
  obtain ⟨tidy, -⟩ := reachable.lane_tidy before
  have settled : ((m.step op).lane ns).Busy → (∀ id, ¬ m.Fails ns id op) → _ :=
    fun after spared => (iff_of_true after (not_strands_of_spared spared) :
      ((m.step op).lane ns).Busy ↔ ¬ m.Strands ns op)
  cases op with
  | transact env method =>
      exact settled (busy.moves tidy (lane_transact wf env method isolated)) fun _ => not_false
  | timeout id => exact settled (busy.moves tidy (lane_timeout m id ns)) fun _ => not_false
  | deliver env id answer =>
      by_cases unpaid : m.Unpaid ns env id answer
      · have failing := Fails.deliver unpaid
        obtain ⟨head, t, result, p, stored, outcome, builds, short⟩ := unpaid
        have addressed : ∀ t' ∈ [t], t'.callback.sequenceNamespace = ns := by
          simpa using builds.own
        obtain ⟨panic, failed⟩ := attempt_of_unpaid builds short id
        have ran : m.step (.deliver env id answer) = m.runThen env id t [] result := by
          show m.deliver env id answer = _
          simp only [deliver, stored, outcome]
        rcases lane_runThen_cases wf before stored addressed with
          ⟨panic', -, landed⟩ | ⟨done, ℓ', head', thens, passed, -, -⟩
        · refine busy_of_fails wf before (fun id' => ⟨fun same => same.1.symm, ?_⟩) (ran ▸ landed)
          rintro rfl
          exact failing
        · rw [failed] at passed
          cases passed
      · refine settled (deliver_busy reachable busy before unpaid) ?_
        rintro id' ⟨rfl, failing⟩
        exact unpaid failing
  | abort id answer =>
      by_cases due : m.LastDue ns id answer
      · have failing := Fails.abort due
        obtain ⟨head, t, result, stored, outcome, own⟩ := due
        have ended : m.step (.abort id answer) = (m.rollBack id t result
            { message := "The host ended the callback." }).settle id ⟨.done .failed, []⟩ := by
          show m.abort id answer = _
          simp only [abort, stored, outcome]
        have addressed : ∀ t' ∈ [t], t'.callback.sequenceNamespace = ns := by simpa using own
        refine busy_of_fails wf before (fun id' => ⟨fun same => same.1.symm, ?_⟩)
          (ended ▸ lane_rolledBack stored addressed result (by simp))
        rintro rfl
        exact failing
      · refine settled (abort_busy wf busy before due) ?_
        rintro id' ⟨rfl, failing⟩
        exact due failing

end Reached


end Machine

/-! ## Runs -/

open Machine

/-- From an unwedged state on. -/
theorem unwedged_from {ns : String} {m : Machine} (reachable : m.Reachable) {ops : List Op}
    (isolated : Isolated (m.run ops).trace ns) (unwedged : m.Unwedged ns) :
    (∀ n, (m.run (ops.take n)).Unwedged ns) ↔ Along (fun m op => ¬ m.Strands ns op) m ops := by
  induction ops generalizing m with
  | nil =>
      refine ⟨fun _ => trivial, fun _ n => ?_⟩
      rw [List.take_nil]
      exact unwedged
  | cons op ops ih =>
      have isolatedNext : Isolated (m.step op).trace ns :=
        isolated.earlier (run_trace (m.step op) ops)
      have isolatedHere := isolatedNext.earlier (step_trace m op)
      have next : (m.step op).Reachable := reachable.run [op]
      have busy := (busy_iff_unwedged reachable isolatedHere).mpr unwedged
      have one : (m.step op).Unwedged ns ↔ ¬ m.Strands ns op :=
        (busy_iff_unwedged next isolatedNext).symm.trans (step_busy_iff reachable busy isolatedNext)
      constructor
      · intro always
        have after : (m.step op).Unwedged ns := always 1
        exact ⟨one.mp after, (ih next isolated after).mp fun n => always (n + 1)⟩
      · rintro ⟨here, rest⟩ n
        cases n with
        | zero => exact unwedged
        | succ n => exact (ih next isolated (one.mpr here)).mpr rest n

/-- In no state of a run does the run of an isolated namespace hang, in flight with nothing
outstanding for any of its registered steps, exactly where no last callback of it fails while
nothing else of it is outstanding. -/
theorem unwedged_iff (host : Host) (ownerId : AccountId) (authorizerId : Option AccountId)
    (ops : List Op) {ns : String}
    (isolated : Isolated ((Machine.init host ownerId authorizerId).run ops).trace ns) :
    (∀ n, ((Machine.init host ownerId authorizerId).run (ops.take n)).Unwedged ns) ↔
      Along (fun m op => ¬ m.Strands ns op) (Machine.init host ownerId authorizerId) ops := by
  refine unwedged_from (.init host ownerId authorizerId) isolated ⟨?_, ?_⟩
  · rintro ⟨run, stored, -⟩
    cases stored
  · intro triggerId trigger stored
    cases stored

/-- Alice saves a template of these steps, makes a trigger for it and fires it. -/
def fired (calls : List Step) : List Op :=
  [.transact aliceEnv (.saveSequenceTemplate "plan" calls),
    .transact aliceEnv (.createBalanceTrigger "daily" "plan" 0 5), fire]

/-- A plain step is dispatched within what its yield was given. -/
theorem unwedged_iff_plain :
    (deployed.run (fired [plainStep "a"] ++ [Op.deliver aliceEnv 0 okResult])).Unwedged
      "auto:daily:1" := by
  have always : ∀ n, (deployed.run
      ((fired [plainStep "a"] ++ [Op.deliver aliceEnv 0 okResult]).take n)).Unwedged
        "auto:daily:1" := by
    refine (unwedged_iff aliceHost alice none _ (.of_alone (by decide))).mpr
      ⟨not_strands_of_spared fun _ => not_false, not_strands_of_spared fun _ => not_false,
        not_strands_of_spared fun _ => not_false, not_strands_of_spared ?_, trivial⟩
    rintro id ⟨rfl, head, t, result, p, flying, outcome, builds, short⟩
    have resumed : (deployed.run (fired [plainStep "a"])).pool.get 0 =
        some ⟨.done resumeSignal, [⟨.onStepResumed "auto:daily:1" "a", 50⟩]⟩ := by decide
    have waiting := resumed.symm.trans flying
    rw [Option.some.injEq, Flight.mk.injEq, List.cons.injEq] at waiting
    obtain ⟨-, rfl, -⟩ := waiting
    have kept : (deployed.run (fired [plainStep "a"])).getStep "auto:daily:1" "a" =
        some ⟨0, plainStep "a", 0⟩ := by decide
    generalize callbackEq : Callback.onStepResumed "auto:daily:1" "a" = callback at builds
    cases builds with
    | gate stored gate =>
        cases callbackEq
        have same := Option.some.inj (kept.symm.trans stored)
        rw [← same] at gate
        cases gate
    | dispatch stored cleared materialized =>
        cases cleared with
        | ungated ungated =>
            cases callbackEq
            have same := Option.some.inj (kept.symm.trans stored)
            rw [staticGas_materialized materialized, depositYocto_materialized materialized,
              ← same] at short
            revert short
            decide
        | inRange gate small verdict => cases callbackEq
  exact always 4

/-- A direct call behind a gate gets fifty TGas for a promise of sixty.  Its run stays in
flight, and nothing at all is outstanding. -/
theorem gated_run_hangs :
    ∃ m : Machine, m.Reachable ∧ m.InFlight "auto:daily:1" ∧ m.pool.items.entries = [] := by
  refine ⟨deployed.run (fired [gatedTrade] ++ [Op.deliver aliceEnv 0 okResult]),
    deployed_reachable.run _, ⟨_, rfl, ?_⟩, ?_⟩ <;> decide

end SmartAccount
