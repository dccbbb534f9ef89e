import SmartAccount.Completion
import SmartAccount.RunStory

/-!
# Where a run stands

A lane whose run was fired once either advances through the calls of its template
(`Advancing`), or cannot succeed any more (`Forgone`), or is complete (`Complete`).  A lane
step keeps this (`Undecided.step`, `Complete.step`), and the run succeeds by the delivery that
completes it and by no other.
-/

namespace SmartAccount

open Foundation Function
open Relation (ReflTransGen)

/-! ## The copies of a fired template -/

/-- The registered copies are those of the template's calls, one for each. -/
structure Copied (ns : String) (calls : List Step) (t : Trace) : Prop where
  distinct : (calls.map Step.stepId).Nodup
  records : ∀ id call gas, .registered ns id call gas ∈ t → call ∈ calls
  known : ∀ call ∈ calls, ∃ id gas, .registered ns id call gas ∈ t
  single : ∀ id id' call gas gas', .registered ns id call gas ∈ t →
    .registered ns id' call gas' ∈ t → id = id'

namespace Copied

variable {ns : String} {calls : List Step} {t t' : Trace}

theorem of_records (copied : Copied ns calls t) (same : ∀ id call gas,
    .registered ns id call gas ∈ t' ↔ .registered ns id call gas ∈ t) : Copied ns calls t' where
  distinct := copied.distinct
  records id call gas record := copied.records id call gas ((same _ _ _).mp record)
  known call inside := by
    obtain ⟨id, gas, record⟩ := copied.known call inside
    exact ⟨id, gas, (same _ _ _).mpr record⟩
  single id id' call gas gas' record record' :=
    copied.single id id' call gas gas' ((same _ _ _).mp record) ((same _ _ _).mp record')

/-- A step id names one call of the template. -/
theorem call_eq (copied : Copied ns calls t) {call call' : Step} (inside : call ∈ calls)
    (inside' : call' ∈ calls) (same : call.stepId = call'.stepId) : call = call' :=
  List.inj_on_of_nodup_map copied.distinct inside inside' same

/-- A step id names one copy. -/
theorem id_eq (copied : Copied ns calls t) {id id' gas gas' : Nat} {call call' : Step}
    (record : .registered ns id call gas ∈ t) (record' : .registered ns id' call' gas' ∈ t)
    (same : call.stepId = call'.stepId) : id = id' := by
  have eq := copied.call_eq (copied.records _ _ _ record) (copied.records _ _ _ record') same
  exact copied.single id id' call gas gas' record (eq ▸ record')

end Copied

/-- A step of an automation lane between two fires: its row is pruned, a yield expires, or a
callback is delivered. -/
inductive Lane.Passes (ns : String) : Lane.Kind → Lane → Lane → Prop
  | prune {ℓ : Lane} {run : AutomationRun} (stored : ℓ.row = some run)
      (terminal : run.status ≠ .inFlight) : Lane.Passes ns .aside ℓ { ℓ with row := none }
  | expire {ℓ : Lane} {id : Nat} {thens : List Then}
      (dormant : ℓ.flight id = some ⟨.yielded, thens⟩) :
      Lane.Passes ns .aside ℓ (ℓ.putFlight id ⟨.done .failed, thens⟩)
  | deliver {ℓ ℓ' : Lane} {id : Nat} (delivered : Lane.Deliver ns ℓ id ℓ') :
      Lane.Passes ns (.deliver id) ℓ ℓ'

theorem Lane.Step.passes {ns : String} {kind : Lane.Kind} {ℓ ℓ' : Lane} (auto : IsAutomation ns)
    (step : Lane.Step ns kind ℓ ℓ') (alone : kind ≠ .release) : Lane.Passes ns kind ℓ ℓ' := by
  cases step with
  | register manual can => exact absurd auto manual.not_automation
  | release manual released => exact absurd rfl alone
  | fire auto absent registered released running => exact absurd rfl alone
  | prune stored terminal => exact .prune stored terminal
  | expire dormant => exact .expire dormant
  | deliver delivered => exact .deliver delivered

/-- In an automation namespace only a release registers. -/
theorem Lane.Step.records {ns : String} {kind : Lane.Kind} {ℓ ℓ' : Lane}
    (auto : IsAutomation ns) (tidy : Tidy ns ℓ) (step : Lane.Step ns kind ℓ ℓ')
    (alone : kind ≠ .release) (id : Nat) (call : SmartAccount.Step) (gas : Nat) :
    .registered ns id call gas ∈ ℓ'.trace ↔ .registered ns id call gas ∈ ℓ.trace := by
  cases step.passes auto alone with
  | prune stored terminal => exact Iff.rfl
  | expire dormant => exact Iff.rfl
  | deliver delivered =>
      obtain ⟨f, flying⟩ := delivered.flew
      obtain ⟨call', gas', -, chain⟩ := tidy.flying _ f flying
      exact (delivered.touched tidy.proper flying chain).registered id call gas

/-! ## Where a run stands -/

/-- The calls before the `k`-th have run through, and the `k`-th is in flight, dispatched or
not.  All other copies in flight are later ones. -/
structure Advancing (ns : String) (calls : List Step) (k id : Nat) (call : Step) (ℓ : Lane) :
    Prop where
  running : Running ns 0 (calls.map Step.stepId) k id call ℓ
  here : calls[k]? = some call
  ahead : ∀ id' f call' gas, id' ≠ id → ℓ.flight id' = some f →
    .registered ns id' call' gas ∈ ℓ.trace → call' ∈ calls.drop (k + 1)
  tells : ∀ f, ℓ.flight id = some f →
    (∃ gas, Early ns id call gas ℓ.trace f) ∧
        ℓ.trace.milestones ns = told (calls.take k) ∨
      Late ns id call ℓ.trace f ∧
        ℓ.trace.milestones ns = told (calls.take k) ++ [.dispatched call]

/-- The run cannot succeed any more: a call of it has not resolved Ok and its copy is not in
flight past its yield, and either nothing else is, or the run is over. -/
structure Forgone (ns : String) (id : Nat) (call : Step) (ℓ : Lane) : Prop where
  record : ∃ gas, .registered ns id call gas ∈ ℓ.trace
  unresolved : .resolved call.stepId true ∉ ℓ.trace.milestones ns
  asleep : ∀ f, ℓ.flight id = some f → ∃ stepId gas, Dormant ns stepId gas f
  still : Lane.Quiet ns ℓ ∨
    (∀ run, ℓ.row = some run → run.status ≠ .inFlight) ∧ ℓ.queue = none
  unsuccessful : ¬ ℓ.Succeeded

/-- All calls have run through and nothing is in flight. -/
structure Complete (ns : String) (calls : List Step) (ℓ : Lane) : Prop where
  tells : ℓ.trace.milestones ns = told calls
  landed : ∀ id, ℓ.flight id = none

/-- The run has not succeeded. -/
inductive Undecided (ns : String) (calls : List Step) (ℓ : Lane) : Prop
  | advancing {k id : Nat} {call : Step} (advancing : Advancing ns calls k id call ℓ) :
      Undecided ns calls ℓ
  | forgone {id : Nat} {call : Step} (forgone : Forgone ns id call ℓ) : Undecided ns calls ℓ

theorem Dormant.not_resolves {ns stepId stepId' : String} {gas : Nat} {f : Flight}
    (dormant : Dormant ns stepId gas f) : ¬ f.Resolves ns stepId' := by
  intro ⟨gas', rest, thens⟩
  cases dormant <;> cases thens

theorem Early.not_resolves {ns stepId : String} {id gas : Nat} {call : Step} {t : Trace}
    {f : Flight} (early : Early ns id call gas t f) : ¬ f.Resolves ns stepId := by
  intro ⟨gas', rest, thens⟩
  cases early with
  | resumed => cases thens
  | gated gate built asked =>
      subst built
      cases thens

theorem Late.not_resumed {ns : String} {id : Nat} {call : Step} {t : Trace} {thens : List Then} :
    ¬ Late ns id call t ⟨.done resumeSignal, thens⟩ := by
  have loud : resumeSignal ≠ .successful [] := by decide
  intro late
  generalize signal : resumeSignal = result at late loud
  cases late with
  | matched policy small equal story => exact loud rfl
  | rejected => cases signal

namespace Forgone

variable {ns : String} {calls : List Step} {id : Nat} {call : Step} {ℓ ℓ' : Lane}

/-- Only the copy itself could resolve its step. -/
theorem unresolved_deliver (forgone : Forgone ns id call ℓ) (tidy : Tidy ns ℓ)
    (copied : Copied ns calls ℓ.trace) {id' : Nat} (delivered : Lane.Deliver ns ℓ id' ℓ') :
    .resolved call.stepId true ∉ ℓ'.trace.milestones ns := by
  intro resolved
  rcases delivered.resolves resolved with old | ⟨f, flying, due⟩
  · exact forgone.unresolved old
  · obtain ⟨gas, record⟩ := forgone.record
    obtain ⟨call', gas', record', chain⟩ := tidy.flying id' f flying
    obtain ⟨gas'', rest, thens⟩ := due
    have same := chain.about ⟨.onStepResolved ns call.stepId, gas''⟩
      (thens ▸ List.mem_cons_self ..)
    obtain rfl := copied.id_eq record record' same
    obtain ⟨stepId, gas, dormant⟩ := forgone.asleep f flying
    exact dormant.not_resolves ⟨gas'', rest, thens⟩

/-- A run that cannot succeed any more never will. -/
theorem deliver (forgone : Forgone ns id call ℓ) (tidy : Tidy ns ℓ)
    (copied : Copied ns calls ℓ.trace) {id' : Nat} (delivered : Lane.Deliver ns ℓ id' ℓ')
    (record : ∃ gas, .registered ns id call gas ∈ ℓ'.trace) : Forgone ns id call ℓ' := by
  have step : Lane.Step ns (.deliver id') ℓ ℓ' := .deliver delivered
  have unresolved := forgone.unresolved_deliver tidy copied delivered
  obtain ⟨f, flying⟩ := delivered.flew
  rcases forgone.still with quiet | ⟨ended, empty⟩
  · have quiet' := quiet.step step Lane.Kind.noConfusion
    refine ⟨record, unresolved, quiet' id, .inl quiet', fun succeeded => ?_⟩
    obtain ⟨stepId, gas, dormant⟩ := quiet id' f flying
    rcases dormant.deliver flying delivered with ⟨event, -, -, rfl⟩ | halts
    · exact forgone.unsuccessful succeeded
    · obtain ⟨ℓ₁, rfl, falls⟩ := Lane.Falls.of_halts halts
      exact forgone.unsuccessful (falls.not_succeeded succeeded)
  · obtain ⟨row, others⟩ := delivered.idle ended empty
    refine ⟨record, unresolved, fun f' flying' => ?_,
      .inr ⟨row ▸ ended, step.queue tidy empty Lane.Kind.noConfusion⟩, fun succeeded => ?_⟩
    · by_cases same : id = id'
      · subst same
        obtain ⟨stepId, gas, dormant⟩ := forgone.asleep f flying
        have landed : ℓ'.flight id = none := by
          rcases dormant.deliver flying delivered with ⟨event, -, -, rfl⟩ | halts
          · exact update_self ..
          · obtain ⟨ℓ₁, rfl, -⟩ := Lane.Falls.of_halts halts
            exact update_self ..
        rw [landed] at flying'
        cases flying'
      · exact forgone.asleep f' (others id same ▸ flying')
    · obtain ⟨run, stored, status⟩ := succeeded
      exact forgone.unsuccessful ⟨run, row ▸ stored, status⟩

theorem step (forgone : Forgone ns id call ℓ) (auto : IsAutomation ns) (tidy : Tidy ns ℓ)
    (copied : Copied ns calls ℓ.trace) {kind : Lane.Kind} (step : Lane.Step ns kind ℓ ℓ')
    (alone : kind ≠ .release) : Forgone ns id call ℓ' := by
  obtain ⟨gas, record⟩ := forgone.record
  have record' := (step.records auto tidy alone _ _ _).mpr record
  cases step.passes auto alone with
  | prune stored terminal =>
      exact ⟨⟨gas, record⟩, forgone.unresolved, forgone.asleep, forgone.still.imp_right
        fun ⟨_, empty⟩ => ⟨nofun, empty⟩, nofun⟩
  | expire dormant =>
      rename_i id' thens
      have expired : Lane.Step ns .aside ℓ (ℓ.putFlight id' ⟨.done .failed, thens⟩) :=
        .expire dormant
      refine ⟨⟨gas, record⟩, forgone.unresolved, fun f flying => ?_,
        forgone.still.imp_left fun quiet => quiet.step expired Lane.Kind.noConfusion,
        forgone.unsuccessful⟩
      rw [Lane.putFlight_flight, update_apply] at flying
      split at flying
      · rename_i same
        cases flying
        obtain ⟨stepId, gas', asleep⟩ := forgone.asleep _ (same ▸ dormant)
        cases asleep
        exact ⟨stepId, gas', .expired⟩
      · exact forgone.asleep f flying
  | deliver delivered => exact forgone.deliver tidy copied delivered ⟨gas, record'⟩

end Forgone

namespace Advancing

variable {ns : String} {calls : List Step} {k id : Nat} {call : Step} {ℓ ℓ' : Lane}

theorem unsuccessful (advancing : Advancing ns calls k id call ℓ) (auto : IsAutomation ns) :
    ¬ ℓ.Succeeded := by
  intro ⟨run, stored, status⟩
  obtain ⟨run', stored', running⟩ := advancing.running.row auto
  rw [stored, Option.some.injEq] at stored'
  rw [stored', running] at status
  cases status

/-- No call from the current one on has resolved Ok. -/
theorem unresolved (advancing : Advancing ns calls k id call ℓ)
    (distinct : (calls.map Step.stepId).Nodup) {call' : Step} (later : call' ∈ calls.drop k) :
    .resolved call'.stepId true ∉ ℓ.trace.milestones ns := by
  have before : .resolved call'.stepId true ∉ told (calls.take k) := by
    intro inside
    obtain ⟨-, earlier, member, same⟩ := resolved_mem_told.mp inside
    exact stepId_ne_of_parted distinct member later same
  obtain ⟨f, flying⟩ := advancing.running.flying
  rcases advancing.tells f flying with ⟨-, tells⟩ | ⟨-, tells⟩
  · rwa [tells]
  · rw [tells, List.mem_append]
    rintro (inside | inside)
    · exact before inside
    · cases List.mem_singleton.mp inside

/-- The run fell while its current call was in flight, and nothing else is. -/
theorem forgo (advancing : Advancing ns calls k id call ℓ) {ℓ₁ : Lane}
    (flights : ℓ₁.flight = ℓ.flight) {id' gas : Nat} {call' : Step}
    (record : .registered ns id' call' gas ∈ (ℓ₁.land id).trace)
    (unresolved : .resolved call'.stepId true ∉ (ℓ₁.land id).trace.milestones ns)
    (unsuccessful : ¬ (ℓ₁.land id).Succeeded) : Forgone ns id' call' (ℓ₁.land id) := by
  have quiet : Lane.Quiet ns (ℓ₁.land id) := by
    intro id'' f flying
    rw [Lane.land_flight, update_apply] at flying
    split at flying
    · cases flying
    · rename_i other
      exact advancing.running.underway.others id'' f other (flights ▸ flying)
  exact ⟨⟨gas, record⟩, unresolved, quiet id', .inl quiet, unsuccessful⟩

/-- The flight of the current call ends without a word. -/
theorem pass (advancing : Advancing ns calls k id call ℓ) (auto : IsAutomation ns)
    (distinct : (calls.map Step.stepId).Nodup) {event : TraceEvent}
    (passing : event.isPassing = true) : Undecided ns calls ((ℓ.note event).land id) := by
  obtain ⟨gas, record⟩ := advancing.running.underway.record
  have unresolved := advancing.unresolved distinct (mem_drop advancing.here)
  have flights : (ℓ.note event).flight = ℓ.flight := rfl
  have silent : ((ℓ.note event).land id).trace.milestones ns = ℓ.trace.milestones ns := by
    rw [Lane.land_trace, Lane.note_trace,
      Trace.milestones_append_passing _ (by simpa using passing)]
  exact .forgone (advancing.forgo flights (List.mem_append_left _ record)
    (silent ▸ unresolved) (advancing.unsuccessful auto))

/-- The current call goes on. -/
theorem onward (advancing : Advancing ns calls k id call ℓ) {events : Trace} {f : Flight}
    (plain : ∀ event ∈ events, event.isPlain = true) (own : StoresOwn ℓ id call)
    (tells : (∃ gas, Early ns id call gas (ℓ.trace ++ events) f) ∧
        Trace.milestones (ℓ.trace ++ events) ns = told (calls.take k) ∨
      Late ns id call (ℓ.trace ++ events) f ∧
        Trace.milestones (ℓ.trace ++ events) ns = told (calls.take k) ++ [.dispatched call]) :
    Advancing ns calls k id call (ℓ.onward events id f) := by
  have unmarked : ∀ event ∈ events, event.isMark = false := fun event inside =>
    TraceEvent.isMark_of_plain (plain event inside)
  refine ⟨advancing.running.keep (advancing.running.underway.onward unmarked own
    (tells.imp And.left And.left)) ⟨f, update_self ..⟩ rfl rfl, advancing.here, ?_, ?_⟩
  · intro id' f' call' gas other flying record
    rw [Lane.onward_flight, update_of_ne other] at flying
    rw [Lane.onward_trace, List.mem_append] at record
    refine advancing.ahead id' f' call' gas other flying (record.resolve_right fun new => ?_)
    cases plain _ new
  · intro f' flying
    rw [Lane.onward_flight, update_self, Option.some.injEq] at flying
    exact flying ▸ tells

/-- A delivery to the current copy before its dispatch. -/
theorem deliver_early (advancing : Advancing ns calls k id call ℓ) (auto : IsAutomation ns)
    (tidy : Tidy ns ℓ) {f : Flight} (flying : ℓ.flight id = some f) {gas : Nat}
    (early : Early ns id call gas ℓ.trace f) (distinct : (calls.map Step.stepId).Nodup)
    (tells : ℓ.trace.milestones ns = told (calls.take k))
    (delivered : Lane.Deliver ns ℓ id ℓ') : Undecided ns calls ℓ' := by
  obtain ⟨own, -⟩ := advancing.running.underway.own f flying
  obtain ⟨gas', record⟩ := advancing.running.underway.record
  have step : Lane.Step ns (.deliver id) ℓ ℓ' := .deliver delivered
  have record' := (step.records auto tidy Lane.Kind.noConfusion _ _ _).mpr record
  have unresolved : .resolved call.stepId true ∉ ℓ'.trace.milestones ns := by
    intro resolved
    rcases delivered.resolves resolved with old | ⟨f', flying', due⟩
    · exact advancing.unresolved distinct (mem_drop advancing.here) old
    · rw [flying, Option.some.injEq] at flying'
      exact early.not_resolves (flying' ▸ due)
  cases early.deliver own flying delivered with
  | lapsed passing absent => exact advancing.pass auto distinct passing
  | refused passing => exact advancing.pass auto distinct passing
  | halted halts =>
      obtain ⟨ℓ₁, rfl, falls⟩ := Lane.Falls.of_halts halts
      exact .forgone (advancing.forgo falls.settles.flight record' unresolved fun succeeded =>
        advancing.unsuccessful auto (falls.not_succeeded succeeded))
  | gated passing stored early' =>
      refine .advancing (advancing.onward (fun event inside =>
        TraceEvent.isPlain_of_passing (passing event inside)) own (.inl ⟨⟨gas, early'⟩, ?_⟩))
      rw [Trace.milestones_append_passing _ passing, tells]
  | dispatched passing stored checked late =>
      rename_i event authorizerId args yielded f'
      refine .advancing (advancing.onward (List.forall_mem_cons.mpr
        ⟨TraceEvent.isPlain_of_passing passing, ?_⟩) own (.inr ⟨late, ?_⟩))
      · simp [dispatchStory, TraceEvent.isPlain, TraceEvent.isMark, TraceEvent.isRegistered]
      · have story : Trace.milestones (dispatchStory authorizerId ns id call args) ns =
            [.dispatched call] := by
          simp [dispatchStory, Trace.milestones, TraceEvent.milestone]
        rw [← List.singleton_append, ← List.append_assoc, Trace.milestones_append,
          Trace.milestones_append_passing _ (by simpa using passing), tells, story]

/-- The next call of the template is resumed. -/
theorem advance (advancing : Advancing ns calls k id call ℓ) (tidy : Tidy ns ℓ)
    (copied : Copied ns calls ℓ.trace) {result : PromiseResult} {bytes : Bytes} {next : String}
    {waiting : List String} {yielded : RegisteredStep} {thens : List Then}
    (tells : ℓ.trace.milestones ns = told (calls.take k) ++ [.dispatched call])
    (small : result.checked = .ok bytes) (queued : ℓ.queue = some (next :: waiting))
    (other : next ≠ call.stepId) (stored : ℓ.step next = some yielded)
    (dormant : ℓ.flight yielded.yieldId = some ⟨.yielded, thens⟩) :
    Advancing ns calls (k + 1) yielded.yieldId yielded.call
      (((ℓ.resolved ns id call.stepId result waiting).resume ns next yielded.yieldId
        thens).land id) := by
  obtain ⟨-, gas, record⟩ := tidy.stored next yielded stored
  have running : Running ns 0 (calls.map Step.stepId) (k + 1) yielded.yieldId yielded.call
      (((ℓ.resolved ns id call.stepId result waiting).resume ns next yielded.yieldId
        thens).land id) :=
    advancing.running.advance tidy queued other stored dormant
  have trace := advancing.running.underway.advance_trace waiting result next yielded.yieldId thens
  generalize lane : ((ℓ.resolved ns id call.stepId result waiting).resume ns next yielded.yieldId
    thens).land id = ℓ₁ at running trace ⊢
  have here : calls[k + 1]? = some yielded.call := by
    have position := running.underway.here
    rw [List.getElem?_map, Option.map_eq_some_iff] at position
    obtain ⟨call', at', same⟩ := position
    rw [at', copied.call_eq (List.mem_of_getElem? at') (copied.records _ _ _ record) same]
  have flights : ∀ id', id' ≠ yielded.yieldId → ∀ f, ℓ₁.flight id' = some f →
      id' ≠ id ∧ ℓ.flight id' = some f := by
    intro id' apart f flying
    rw [← lane, Lane.land_flight, update_apply] at flying
    split at flying
    · cases flying
    · rename_i away
      rw [Lane.resume_flight, update_of_ne apart] at flying
      exact ⟨away, flying⟩
  refine ⟨running, here, fun id' f call' gas' apart flying record' => ?_, fun f flying => ?_⟩
  · obtain ⟨away, old⟩ := flights id' apart f flying
    have before : .registered ns id' call' gas' ∈ ℓ.trace := by
      rw [trace] at record'
      simpa using record'
    have later := advancing.ahead id' f call' gas' away old before
    obtain ⟨within, at'⟩ := List.getElem?_eq_some_iff.mp here
    rw [List.drop_eq_getElem_cons within, at'] at later
    rcases List.mem_cons.mp later with rfl | later
    · exact absurd (copied.single _ _ _ _ _ before record) apart
    · exact later
  · obtain ⟨-, phase⟩ := running.underway.own f flying
    have told_all : ℓ₁.trace.milestones ns = told (calls.take (k + 1)) := by
      have resolved := Trace.milestones_resolved id ns call.stepId result
      rw [small] at resolved
      have nothing : Trace.milestones [.resumed ns 0 (k + 1) next yielded.yieldId] ns = [] := rfl
      rw [trace, Trace.milestones_append, Trace.milestones_append, tells, resolved, nothing,
        told_take_succ advancing.here]
      simp [Except.toBool]
    rcases phase with early | late
    · exact .inl ⟨early, told_all⟩
    · have apart : yielded.yieldId ≠ id := by
        intro same
        exact advancing.running.underway.awake (same ▸ dormant) rfl
      rw [← lane, Lane.land_flight, update_of_ne apart, Lane.resume_flight, update_self,
        Option.some.injEq] at flying
      exact absurd (flying ▸ late) Late.not_resumed

/-- A delivery to the current copy after its dispatch. -/
theorem deliver_late (advancing : Advancing ns calls k id call ℓ) (auto : IsAutomation ns)
    (tidy : Tidy ns ℓ) (copied : Copied ns calls ℓ.trace) {f : Flight}
    (flying : ℓ.flight id = some f) (late : Late ns id call ℓ.trace f)
    (tells : ℓ.trace.milestones ns = told (calls.take k) ++ [.dispatched call])
    (delivered : Lane.Deliver ns ℓ id ℓ') :
    Undecided ns calls ℓ' ∨ Complete ns calls ℓ' ∧ ℓ'.Succeeded := by
  obtain ⟨own, -⟩ := advancing.running.underway.own f flying
  obtain ⟨gas, record⟩ := advancing.running.underway.record
  have step : Lane.Step ns (.deliver id) ℓ ℓ' := .deliver delivered
  have records := step.records auto tidy Lane.Kind.noConfusion
  cases late.deliver flying delivered with
  | refused passing => exact .inl (advancing.pass auto copied.distinct passing)
  | followed passing late' =>
      refine .inl (.advancing (advancing.onward (fun event inside =>
        TraceEvent.isPlain_of_passing (passing event inside)) own (.inr ⟨late', ?_⟩)))
      rw [Trace.milestones_append_passing _ passing, tells]
  | advanced small vouched queued other stored dormant =>
      exact .inl (.advancing
        (advancing.advance tidy copied tells small queued other stored dormant))
  | stuck small queued about =>
      rename_i next bytes result waiting env data
      have falls := @Lane.Falls.of_stuck ns call.stepId ℓ id result next env data
      -- the next call was not resumed, so it is not resolved either
      have position : (calls.map Step.stepId)[k + 1]? = some next := by
        have ahead := congrArg (fun l => l[0]?) (advancing.running.underway.queue _ queued)
        rw [List.getElem?_cons_zero, List.getElem?_drop] at ahead
        exact ahead.symm
      rw [List.getElem?_map, Option.map_eq_some_iff] at position
      obtain ⟨call', at', rfl⟩ := position
      obtain ⟨id', gas', record'⟩ := copied.known call' (List.mem_of_getElem? at')
      have later : call' ∈ calls.drop (k + 1) := mem_drop at'
      refine .inl (.forgone (advancing.forgo falls.settles.flight ((records _ _ _).mpr record')
        (fun resolved => ?_) fun succeeded =>
          advancing.unsuccessful auto (falls.not_succeeded succeeded)))
      rcases delivered.resolves resolved with old | ⟨f', flying', gas'', rest, thens⟩
      · exact advancing.unresolved copied.distinct (List.drop_subset_drop_left _ (Nat.le_succ k)
          later) old
      · obtain ⟨own', gas₁, record₁, chain⟩ := tidy.flying id f' flying'
        obtain ⟨rfl, -⟩ := tidy.unique _ _ _ _ _ record record₁
        have same := chain.about ⟨.onStepResolved ns call'.stepId, gas''⟩
          (thens ▸ List.mem_cons_self ..)
        exact stepId_ne_of_parted copied.distinct (mem_take_succ advancing.here) later same.symm
  | completed small vouched drained =>
      rename_i bytes result env
      have final := advancing.running.drained drained
      rw [List.length_map] at final
      obtain ⟨run, stored, inFlight⟩ := advancing.running.row auto
      have row := Lane.complete_row stored inFlight ns env id call.stepId result bytes.length
      obtain ⟨closing, trace, finished⟩ :=
        ℓ.complete_trace ns env id call.stepId result bytes.length
      refine .inr ⟨⟨?_, fun id' => ?_⟩, ⟨_, row, rfl⟩⟩
      · have whole : told calls = told (calls.take k) ++
            [.dispatched call, .resolved call.stepId true] := by
          rw [← told_take_succ advancing.here, final, List.take_length]
        have resolved := Trace.milestones_resolved id ns call.stepId result
        rw [small] at resolved
        have emitted : Trace.milestones
            [.emitted (some id) (.sequenceCompleted ns call.stepId bytes.length)] ns = [] := rfl
        rw [Lane.land_trace, trace, Trace.milestones_append, Trace.milestones_append,
          Trace.milestones_append, tells, resolved, emitted, Trace.milestones_closing finished,
          whole]
        simp [Except.toBool]
      · rw [Lane.land_flight, update_apply]
        split
        · rfl
        · rename_i other
          rw [(ℓ.complete_settles ns env id call.stepId result bytes.length).flight]
          cases waits : ℓ.flight id' with
          | none => rfl
          | some f' =>
              obtain ⟨call', gas', record', -⟩ := tidy.flying id' f' waits
              have later := advancing.ahead id' f' call' gas' other waits record'
              rw [List.drop_eq_nil_iff.mpr (Nat.le_of_eq final.symm)] at later
              cases later
  | failed failure =>
      rename_i error result env
      have falls := @Lane.Falls.of_failed ns call.stepId ℓ id result env
      refine .inl (.forgone (advancing.forgo falls.settles.flight ((records _ _ _).mpr record)
        ?_ fun succeeded => advancing.unsuccessful auto (falls.not_succeeded succeeded)))
      obtain ⟨closing, trace, finished⟩ := @Lane.finish_trace
        (ℓ.resolved ns id call.stepId result []) env (some id) ns .downstreamFailed
        (some call.stepId)
      have trace' : ((ℓ.resolved ns id call.stepId result []).finish env (some id) ns
          .downstreamFailed (some call.stepId)).trace =
            ℓ.trace ++ [.delivered id (.onStepResolved ns call.stepId) result] ++ closing := trace
      have resolved := Trace.milestones_resolved id ns call.stepId result
      rw [failure] at resolved
      rw [Lane.land_trace, trace', Trace.milestones_append, Trace.milestones_append, resolved,
        Trace.milestones_closing finished, List.append_nil, List.mem_append]
      rintro (old | new)
      · exact advancing.unresolved copied.distinct (mem_drop advancing.here) old
      · cases List.mem_singleton.mp new

/-- A delivery to the yield of another call: it does nothing, or halts the run. -/
theorem deliver_other (advancing : Advancing ns calls k id call ℓ) (auto : IsAutomation ns)
    (tidy : Tidy ns ℓ) (copied : Copied ns calls ℓ.trace) {id' : Nat} (other : id' ≠ id)
    (delivered : Lane.Deliver ns ℓ id' ℓ') : Undecided ns calls ℓ' := by
  have step : Lane.Step ns (.deliver id') ℓ ℓ' := .deliver delivered
  obtain ⟨f, flying⟩ := delivered.flew
  obtain ⟨mine, current⟩ := advancing.running.flying
  obtain ⟨call', gas', record, chain⟩ := tidy.flying id' f flying
  obtain ⟨stepId, gas, dormant⟩ := advancing.running.underway.others id' f other flying
  rcases dormant.deliver flying delivered with ⟨event, passing, absent, rfl⟩ | halts
  · have plain := TraceEvent.isPlain_of_passing passing
    have noted : Settles stepId ℓ (ℓ.note event) := Settles.refl.note plain
    have longer : ℓ.trace.Sublist (ℓ.trace ++ [event]) := List.sublist_append_left ..
    have same : ((ℓ.note event).land id').flight id = ℓ.flight id :=
      update_of_ne (Ne.symm other) _ _
    have nothing : Trace.milestones (ℓ.trace ++ [event]) ns = ℓ.trace.milestones ns :=
      Trace.milestones_append_passing _ (by simpa using passing) ns
    refine .advancing ⟨advancing.running.keep (advancing.running.underway.land noted (.inr rfl))
      ⟨mine, same.trans current⟩ rfl rfl, advancing.here, ?_, fun f' flying' => ?_⟩
    · intro id'' f'' call'' gas'' apart flying'' record''
      rw [Lane.land_flight, update_apply] at flying''
      split at flying''
      · cases flying''
      · exact advancing.ahead id'' f'' call'' gas'' apart flying''
          ((step.records auto tidy Lane.Kind.noConfusion _ _ _).mp record'')
    · rw [same] at flying'
      refine (advancing.tells f' flying').imp ?_ ?_
      · intro ⟨⟨gas'', early⟩, tells⟩
        exact ⟨⟨gas'', early.later longer⟩, nothing.trans tells⟩
      · intro ⟨late, tells⟩
        exact ⟨late.later longer, nothing.trans tells⟩
  · obtain ⟨ℓ₁, rfl, falls⟩ := Lane.Falls.of_halts halts
    have later := advancing.ahead id' f call' gas' other flying record
    have forgone : Forgone ns id' call' (ℓ₁.land id') := by
      refine ⟨⟨gas', (step.records auto tidy Lane.Kind.noConfusion _ _ _).mpr record⟩,
        fun resolved => ?_, fun f' landed => ?_, .inr ?_, fun succeeded =>
          advancing.unsuccessful auto (falls.not_succeeded succeeded)⟩
      · rcases delivered.resolves resolved with old | ⟨f', flying', due⟩
        · exact advancing.unresolved copied.distinct
            (List.drop_subset_drop_left _ (Nat.le_succ k) later) old
        · rw [flying, Option.some.injEq] at flying'
          exact dormant.not_resolves (flying' ▸ due)
      · rw [Lane.land_flight, update_self] at landed
        cases landed
      · refine ⟨fun run stored => ?_, falls.queue⟩
        obtain ⟨run', stored', running⟩ := advancing.running.row auto
        rcases falls.row with ⟨ended, -⟩ | ⟨run'', row, failed⟩
        · exact absurd running (ended run' stored')
        · have stored'' : ℓ₁.row = some run := stored
          rw [row, Option.some.injEq] at stored''
          rw [← stored'']
          rcases failed with eq | eq <;> rw [eq] <;> exact AutomationRunStatus.noConfusion
    exact .forgone forgone

/-- The timeout of a yield. -/
theorem expire (advancing : Advancing ns calls k id call ℓ) {id' : Nat} {thens : List Then}
    (dormant : ℓ.flight id' = some ⟨.yielded, thens⟩) :
    Advancing ns calls k id call (ℓ.putFlight id' ⟨.done .failed, thens⟩) := by
  have apart : id ≠ id' := by
    intro same
    exact advancing.running.underway.awake (same ▸ dormant) rfl
  refine ⟨advancing.running.expire dormant, advancing.here, ?_, fun f flying => ?_⟩
  · intro id'' f call' gas other flying record
    rw [Lane.putFlight_flight, update_apply] at flying
    split at flying
    · rename_i same
      exact advancing.ahead id'' _ call' gas other (same ▸ dormant) record
    · exact advancing.ahead id'' f call' gas other flying record
  · rw [Lane.putFlight_flight, update_of_ne apart] at flying
    exact advancing.tells f flying

end Advancing

/-! ## What a lane step makes of a run -/

section Steps

variable {ns : String} {calls : List Step} {ℓ ℓ' : Lane} {kind : Lane.Kind}

theorem Undecided.unsuccessful (unfinished : Undecided ns calls ℓ) (auto : IsAutomation ns) :
    ¬ ℓ.Succeeded := by
  cases unfinished with
  | advancing advancing => exact advancing.unsuccessful auto
  | forgone forgone => exact forgone.unsuccessful

/-- A run succeeds by the delivery with which all its calls have run through. -/
theorem Undecided.step (unfinished : Undecided ns calls ℓ) (auto : IsAutomation ns)
    (tidy : Tidy ns ℓ) (copied : Copied ns calls ℓ.trace) (step : Lane.Step ns kind ℓ ℓ')
    (alone : kind ≠ .release) :
    Undecided ns calls ℓ' ∨ (∃ id, kind = .deliver id) ∧ Complete ns calls ℓ' ∧ ℓ'.Succeeded := by
  cases unfinished with
  | forgone forgone => exact .inl (.forgone (forgone.step auto tidy copied step alone))
  | advancing advancing =>
      rename_i k id call
      cases step.passes auto alone with
      | prune stored terminal =>
          exact absurd (advancing.running.inFlight tidy stored) terminal
      | expire dormant => exact .inl (.advancing (advancing.expire dormant))
      | deliver delivered =>
          rename_i id'
          by_cases same : id' = id
          · subst same
            obtain ⟨f, flying⟩ := delivered.flew
            rcases advancing.tells f flying with ⟨⟨gas, early⟩, tells⟩ | ⟨late, tells⟩
            · exact .inl (advancing.deliver_early auto tidy flying early copied.distinct tells
                delivered)
            · exact (advancing.deliver_late auto tidy copied flying late tells delivered).imp_right
                fun done => ⟨⟨id', rfl⟩, done⟩
          · exact .inl (advancing.deliver_other auto tidy copied same delivered)

/-- Nothing happens in a complete run but that its row is pruned. -/
theorem Complete.step (complete : Complete ns calls ℓ) (auto : IsAutomation ns)
    (step : Lane.Step ns kind ℓ ℓ') (alone : kind ≠ .release) : Complete ns calls ℓ' := by
  cases step.passes auto alone with
  | prune stored terminal => exact ⟨complete.tells, complete.landed⟩
  | expire dormant => cases (complete.landed _).symm.trans dormant
  | deliver delivered =>
      obtain ⟨f, flying⟩ := delivered.flew
      cases (complete.landed _).symm.trans flying

/-- Steps aside leave a run where it stands. -/
theorem asides_stand (auto : IsAutomation ns) (tidy : Tidy ns ℓ) (copied : Copied ns calls ℓ.trace)
    (chain : ReflTransGen (Lane.Step ns .aside) ℓ ℓ') :
    Tidy ns ℓ' ∧ Copied ns calls ℓ'.trace ∧ (Undecided ns calls ℓ → Undecided ns calls ℓ') ∧
      (Complete ns calls ℓ → Complete ns calls ℓ') := by
  induction chain with
  | refl => exact ⟨tidy, copied, fun stands => stands, fun stands => stands⟩
  | tail _ step ih =>
      obtain ⟨tidy, copied, opens, completes⟩ := ih
      refine ⟨tidy.step step, copied.of_records
        (step.records auto tidy Lane.Kind.noConfusion), fun stands => ?_, fun stands =>
          (completes stands).step auto step Lane.Kind.noConfusion⟩
      rcases (opens stands).step auto tidy copied step Lane.Kind.noConfusion with
        stands | ⟨⟨id, delivers⟩, -⟩
      · exact stands
      · cases delivers

/-- A run in flight keeps its row through steps aside. -/
theorem asides_row {run : AutomationRun} (running : run.status = .inFlight)
    (stored : ℓ.row = some run) (chain : ReflTransGen (Lane.Step ns .aside) ℓ ℓ') :
    ℓ'.row = some run := by
  induction chain with
  | refl => exact stored
  | tail _ step ih =>
      cases step with
      | register manual can => exact ih
      | prune held terminal =>
          rw [ih, Option.some.injEq] at held
          exact absurd running (held ▸ terminal)
      | expire dormant => exact ih

theorem asides_fresh (auto : IsAutomation ns)
    (chain : ReflTransGen (Lane.Step ns .aside) Lane.fresh ℓ) : ℓ = Lane.fresh := by
  induction chain with
  | refl => rfl
  | tail _ step ih =>
      subst ih
      cases step.passes auto Lane.Kind.noConfusion with
      | prune stored terminal => cases stored
      | expire dormant => cases dormant

/-- Some call of a run that has not succeeded has not resolved Ok. -/
theorem Undecided.unresolved (unfinished : Undecided ns calls ℓ)
    (copied : Copied ns calls ℓ.trace) :
    ∃ call ∈ calls, .resolved call.stepId true ∉ ℓ.trace.milestones ns := by
  cases unfinished with
  | advancing advancing =>
      exact ⟨_, List.mem_of_getElem? advancing.here,
        advancing.unresolved copied.distinct (mem_drop advancing.here)⟩
  | forgone forgone =>
      obtain ⟨gas, record⟩ := forgone.record
      exact ⟨_, copied.records _ _ _ record, forgone.unresolved⟩

end Steps

end SmartAccount
