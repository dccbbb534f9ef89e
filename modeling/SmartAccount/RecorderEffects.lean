import SmartAccount.Recorder
import SmartAccount.StagedRegistration

/-!
# Moves of the callers' lines

An `Effect` of an event moves the lines of the callers, and the recorder stores for each caller
what the calls record that ran.  Registrations, releases and timeouts move the line of one caller
by moves of the ordered-release protocol, and record nothing.
-/

namespace SmartAccount.SimpleSequencer

open Foundation Function
open Foundation.Release (Stage Line Label Move Moves)

/-! ## What an event does -/

section Effects

variable (recorderId : AccountId) (decode : Bytes → Option (String × UInt32))

/-- What the recorder stores when this call succeeds there. -/
def recordOf (call : Step) : Option (String × UInt32) :=
  if call.targetId = recorderId ∧ call.methodName = "record" then decode call.args else none

/-- What a call that ran left at the recorder. -/
def entryOf (ran : Step × PromiseResult) : Option (String × UInt32) :=
  match ran.2 with
  | .successful _ => recordOf recorderId decode ran.1
  | .failed => none

/-- The lines move, and the recorder stores for each caller what its calls recorded that ran. -/
structure Effect (w w' : World) (labels : AccountId → List (Label String Step PromiseResult)) :
    Prop where
  tied : Tied w'
  moves : ∀ b, Moves Accepted (w.line b) (labels b) (w'.line b)
  recorded : ∀ b, w'.recordedFor b = w.recordedFor b ++
    (Release.runs (labels b)).filterMap (entryOf recorderId decode)

/-- These moves of the line of one caller, and none of the others. -/
def only (c : AccountId) (labels : List (Label String Step PromiseResult)) (b : AccountId) :
    List (Label String Step PromiseResult) :=
  if b = c then labels else []

end Effects

variable {recorderId : AccountId} {decode : Bytes → Option (String × UInt32)}
  {w w' w'' : World} {c : AccountId}

theorem only_append (c : AccountId) (labels labels' : List (Label String Step PromiseResult)) :
    (fun b => only c labels b ++ only c labels' b) = only c (labels ++ labels') := by
  funext b
  unfold only
  split <;> rfl

theorem mem_only {c b : AccountId} {label : Label String Step PromiseResult}
    {labels : List (Label String Step PromiseResult)} :
    label ∈ only c labels b ↔ b = c ∧ label ∈ labels := by
  unfold only
  split
  · rename_i same
    exact ⟨fun inside => ⟨same, inside⟩, And.right⟩
  · rename_i other
    exact ⟨fun inside => absurd inside List.not_mem_nil, fun inside => absurd inside.1 other⟩

/-- Nothing moves. -/
theorem Effect.still (tied : Tied w') (view : w'.view = w.view)
    (queues : ∀ b, w'.queue b = w.queue b) (recorded : ∀ b, w'.recordedFor b = w.recordedFor b) :
    Effect recorderId decode w w' fun _ => [] where
  tied := tied
  moves b := by
    have same : w'.line b = w.line b :=
      Line.mk.injEq .. |>.mpr ⟨funext fun sid => by rw [view], queues b⟩
    rw [same]
    exact .nil _
  recorded b := (recorded b).trans (List.append_nil _).symm

theorem Effect.refl (tied : Tied w) : Effect recorderId decode w w fun _ => [] :=
  .still tied rfl (fun _ => rfl) fun _ => rfl

theorem Effect.trans {labels labels' : AccountId → List (Label String Step PromiseResult)}
    (first : Effect recorderId decode w w' labels)
    (second : Effect recorderId decode w' w'' labels') :
    Effect recorderId decode w w'' fun b => labels b ++ labels' b where
  tied := second.tied
  moves b := (first.moves b).append (second.moves b)
  recorded b := by
    rw [second.recorded, first.recorded, List.append_assoc, Release.runs, Release.runs,
      Release.runs, List.filterMap_append, List.filterMap_append]

/-- A change of one step moves the line of its caller. -/
theorem World.line_of_view {stepId : String} {entry : Option (Step × Flight × Option PromiseResult)}
    (view : w'.view = update w.view (c, stepId) entry)
    (queues : ∀ b, b ≠ c → w'.queue b = w.queue b) :
    w'.line c = ((w.line c).set stepId
      (entry.map fun entry => (entry.1, entry.2.1.stage entry.2.2))).setQueue (w'.queue c) ∧
    ∀ b, b ≠ c → w'.line b = w.line b := by
  constructor
  · refine Line.mk.injEq .. |>.mpr ⟨funext fun sid => ?_, rfl⟩
    rw [view, update_apply]
    by_cases same : sid = stepId
    · rw [same, if_pos rfl]
      exact (Line.set_self _ _ _).symm
    · rw [if_neg fun eq => same (Prod.mk.inj eq).2]
      exact ((w.line c).set_of_ne same _).symm
  · intro b other
    refine Line.mk.injEq .. |>.mpr ⟨funext fun sid => ?_, queues b other⟩
    rw [view, update_of_ne fun eq => other (Prod.mk.inj eq).1]

/-- A move of one step. -/
theorem Effect.of_move {stepId : String} {entry : Option (Step × Flight × Option PromiseResult)}
    {label : Label String Step PromiseResult} (tied : Tied w')
    (view : w'.view = update w.view (c, stepId) entry)
    (queues : ∀ b, b ≠ c → w'.queue b = w.queue b)
    (move : Move Accepted (w.line c) label (((w.line c).set stepId
      (entry.map fun entry => (entry.1, entry.2.1.stage entry.2.2))).setQueue (w'.queue c)))
    (recorded : ∀ b, w'.recordedFor b = w.recordedFor b ++
      (Release.runs (only c [label] b)).filterMap (entryOf recorderId decode)) :
    Effect recorderId decode w w' (only c [label]) where
  tied := tied
  moves b := by
    obtain ⟨moved, others⟩ := World.line_of_view view queues
    by_cases same : b = c
    · rw [same, only, if_pos rfl, moved]
      exact .single move
    · rw [only, if_neg same, others b same]
      exact .nil _
  recorded := recorded

/-- Nothing runs and nothing is recorded. -/
theorem recorded_of_quiet {label : Label String Step PromiseResult}
    (silent : Release.runs [label] = []) (c b : AccountId) :
    w.recordedFor b = w.recordedFor b ++
      (Release.runs (only c [label] b)).filterMap (entryOf recorderId decode) := by
  unfold only
  split
  · rw [silent, List.filterMap_nil, List.append_nil]
  · exact (List.append_nil _).symm

namespace Tied

theorem line_eq {stepId : String} {yielded : RegisteredStep} {f : Flight}
    (registered : w.sequencer.getStep c stepId = some yielded)
    (flying : w.sequencer.pool.get yielded.yieldId = some f) :
    (w.line c).step stepId =
      some (yielded.call, f.stage (w.answers yielded.yieldId)) := by
  rw [World.line_step, view_eq registered flying, Option.map_some]

/-- A flight that waits for no call has no answer. -/
theorem unanswered (tied : Tied w) {id : Nat} {f : Flight}
    (flying : w.sequencer.pool.get id = some f) (uncalled : ∀ fc, f.head ≠ .call fc) :
    w.answers id = none := by
  by_contra some_
  obtain ⟨fc, called⟩ := (tied.answered id some_).2 f flying
  exact uncalled fc called

/-! ### Public calls -/

theorem storeStep (tied : Tied w) {now spareGas : Nat} {call : Step}
    (absent : w.sequencer.getStep c call.stepId = none) :
    Effect recorderId decode w
      { w with sequencer := w.sequencer.storeStep now spareGas c call } (only c [.quiet]) := by
  have kept : Kept c call ⟨.yielded, [⟨.onStepResumed c call.stepId,
      call.gasTgas + stepResolveCallbackGasTgas + stepResumeOverheadTgas + spareGas⟩]⟩ :=
    .asleep (.inl rfl) (by simp only [stepResumeOverheadTgas]; omega)
  obtain ⟨tied', view⟩ := @tied.store w
    { w with sequencer := w.sequencer.storeStep now spareGas c call } c _ call now absent kept
    (fun b sid => Sequencer.getStep_storeStep now spareGas w.sequencer c b call sid)
    (fun id => Pool.get_create _ _ _) rfl rfl tied.aligned
  refine .of_move tied' view (fun _ _ => rfl) (.register call ?_) (recorded_of_quiet rfl c)
  rw [World.line_step, World.view]
  dsimp only
  rw [absent]
  rfl

theorem registerInputs (tied : Tied w) {now spareGas : Nat} {inputs : List Step} {s' : Sequencer}
    (registered : w.sequencer.registerInputs now spareGas c inputs = .ok s') :
    Effect recorderId decode w { w with sequencer := s' }
      (only c (List.replicate inputs.length .quiet)) := by
  induction inputs generalizing w with
  | nil =>
      cases registered
      have none_ : only c (List.replicate 0 .quiet) = fun _ => [] := funext fun b => ite_self _
      exact none_ ▸ .refl tied
  | cons input rest ih =>
      obtain ⟨call, -, registered⟩ := bind_eq_ok.mp registered
      obtain ⟨stored, first, later⟩ := bind_eq_ok.mp registered
      obtain ⟨absent, rfl⟩ := Sequencer.registerStepForCaller_eq_ok.mp first
      have begun : Effect recorderId decode w
          { w with sequencer := w.sequencer.storeStep now spareGas c call } (only c [.quiet]) :=
        tied.storeStep absent
      have whole := begun.trans (ih begun.tied later)
      rwa [only_append] at whole

/-- The flight of a step that was resumed. -/
def woken (thens : List Then) : Flight := ⟨.done (.successful (utf8Bytes "null")), thens⟩

/-- Resuming a waiting step wakes it. -/
theorem wake (tied : Tied w) {stepId : String} {yielded : RegisteredStep} {thens : List Then}
    (registered : w.sequencer.getStep c stepId = some yielded)
    (flying : w.sequencer.pool.get yielded.yieldId = some ⟨.yielded, thens⟩)
    (steps : ∀ b sid, w'.sequencer.getStep b sid = w.sequencer.getStep b sid)
    (flights : ∀ id, w'.sequencer.pool.get id =
      if id = yielded.yieldId then some (woken thens) else w.sequencer.pool.get id)
    (next : w'.sequencer.pool.next = w.sequencer.pool.next) (answers : w'.answers = w.answers)
    (aligned : w'.sources.length = w'.recorder.entries.length) :
    (w.line c).step stepId = some (yielded.call, .waiting) ∧ Tied w' ∧
      w'.view = update w.view (c, stepId) (some (yielded.call, woken thens, none)) := by
  obtain ⟨-, f, flying', kept⟩ := tied.kept _ _ _ registered
  obtain rfl := Option.some.inj (flying'.symm.trans flying)
  have unanswered := tied.unanswered flying nofun
  have kept' : Kept c yielded.call (woken thens) := by
    cases kept with
    | asleep head_ enough => exact .asleep (.inr ⟨_, rfl⟩) enough
  obtain ⟨tied', view⟩ := tied.setFlight registered kept' steps flights next
    (fun id _ => by rw [answers])
    (fun some_ => absurd (answers ▸ unanswered) some_) aligned
  refine ⟨(line_eq registered flying).trans rfl, tied', view.trans ?_⟩
  rw [answers, unanswered]

theorem checkOrder_ok {s : Sequencer} {order : List String}
    (checked : s.checkOrder c order = .ok ()) :
    ∀ stepId ∈ order, ∃ yielded, s.getStep c stepId = some yielded := by
  induction order with
  | nil => exact fun _ inside => absurd inside List.not_mem_nil
  | cons first rest ih =>
      obtain ⟨_, here, later⟩ := bind_eq_ok.mp checked
      rw [require_eq_ok] at here
      intro stepId inside
      rcases List.mem_cons.mp inside with rfl | behind
      · exact Option.isSome_iff_exists.mp here
      · exact ih later stepId behind

/-- A release starts on its order. -/
theorem startRelease (tied : Tied w) {order : List String} {s' : Sequencer} {n : Nat}
    (started : w.sequencer.startSequenceReleaseForCaller c order = .ok (s', n)) :
    Effect recorderId decode w { w with sequencer := s' } (only c [.start order]) := by
  obtain ⟨first, rest, rfl, woken⟩ := Sequencer.startRelease_cases started
  simp only [Sequencer.startSequenceReleaseForCaller, bind_eq_ok, require_eq_ok] at started
  obtain ⟨-, -, -, drained, _, checked, -⟩ := started
  have known := checkOrder_ok checked
  have queued : ∀ b, ((if rest ≠ [] then w.sequencer.setQueue c rest else
      w.sequencer).contract.sequenceQueue.get (sequenceQueueKey b)).getD [] =
        if b = c then rest else w.queue b := by
    intro b
    by_cases last : rest = []
    · rw [if_neg (not_not.mpr last), last]
      split
      · rename_i same
        rw [same, Option.isNone_iff_eq_none.mp drained]
        rfl
      · rfl
    · rw [if_pos last, Sequencer.queue_setQueue]
      split <;> rfl
  have steps : (if rest ≠ [] then w.sequencer.setQueue c rest else
      w.sequencer).contract.registeredSteps = w.sequencer.contract.registeredSteps := by
    split <;> rfl
  have pool : (if rest ≠ [] then w.sequencer.setQueue c rest else w.sequencer).pool =
      w.sequencer.pool := by
    split <;> rfl
  generalize (if rest ≠ [] then w.sequencer.setQueue c rest else w.sequencer) = q at *
  have same : ∀ b sid, q.getStep b sid = w.sequencer.getStep b sid := fun b sid => by
    rw [Sequencer.getStep, steps, Sequencer.getStep]
  obtain ⟨yielded, thens, registered, flying, rfl⟩ := Sequencer.resumeRegisteredStep_cases woken
  rw [same] at registered
  rw [pool] at flying
  obtain ⟨waits, tied', view⟩ := @wake w
    { w with sequencer := { q with
        pool := q.pool.update yielded.yieldId
          ⟨.done (.successful (utf8Bytes "null")), thens⟩ }.note (.resumed yielded.yieldId) }
    c tied _ yielded thens registered flying same
    (fun id => by
      show (q.pool.update _ _).get id = _
      rw [pool, Pool.get_update, flying]
      rfl)
    (show (q.pool.update _ _).next = _ by rw [Pool.next_update, pool]) rfl tied.aligned
  refine .of_move tied' view (fun b other => (queued b).trans (if_neg other)) ?_
    (recorded_of_quiet rfl c)
  have line : World.queue { w with sequencer := { q with
      pool := q.pool.update yielded.yieldId
        ⟨.done (.successful (utf8Bytes "null")), thens⟩ }.note (.resumed yielded.yieldId) } c =
      rest := (queued c).trans (if_pos rfl)
  rw [line]
  refine .start ?_ (fun stepId inside => ?_) waits
  · show (w.sequencer.contract.sequenceQueue.get _).getD [] = []
    rw [Option.isNone_iff_eq_none.mp drained]
    rfl
  · obtain ⟨yielded, registered⟩ := known stepId (List.mem_cons_of_mem _ inside)
    obtain ⟨-, f', flying, -⟩ := tied.kept _ _ _ registered
    rw [line_eq registered flying]
    rfl

/-- A move at which nothing runs and no release starts. -/
def Quiet (labels : AccountId → List (Label String Step PromiseResult)) : Prop :=
  ∀ b, ∀ label ∈ labels b, label = .quiet

theorem quiet_only (c : AccountId) : Quiet (only c [.quiet]) :=
  fun _ _ inside => List.mem_singleton.mp (mem_only.mp inside).2

theorem quiet_nil : Quiet fun _ => [] := fun _ _ inside => absurd inside List.not_mem_nil

/-- A yield that times out leaves its step expired. -/
theorem timeout (tied : Tied w) (id : Nat) : ∃ labels, Quiet labels ∧
    Effect recorderId decode w { w with sequencer := w.sequencer.timeout id } labels := by
  unfold Sequencer.timeout
  split
  · rename_i thens flying
    obtain ⟨c, stepId, yielded, registered, rfl⟩ := tied.owned _ _ flying
    obtain ⟨-, f, flying', kept⟩ := tied.kept _ _ _ registered
    obtain rfl := Option.some.inj (flying'.symm.trans flying)
    have unanswered := tied.unanswered flying nofun
    have expired : Kept c yielded.call ⟨.done .failed, thens⟩ := by
      cases kept with
      | asleep head_ enough => exact .asleep (.inr ⟨_, rfl⟩) enough
    obtain ⟨tied', view⟩ := @tied.setFlight w
      { w with sequencer := { w.sequencer with
          pool := w.sequencer.pool.update yielded.yieldId ⟨.done .failed, thens⟩ } }
      c stepId yielded _ registered expired (fun _ _ => rfl)
      (fun id => by
        show (w.sequencer.pool.update _ _).get id = _
        rw [Pool.get_update, flying]
        rfl)
      rfl (fun _ _ => rfl) (fun some_ => absurd unanswered some_) tied.aligned
    refine ⟨_, quiet_only c, .of_move tied' view (fun _ _ => rfl) ?_ (recorded_of_quiet rfl c)⟩
    exact .expire ((line_eq registered flying).trans rfl)
  · exact ⟨_, quiet_nil, .refl tied⟩

end Tied

end SmartAccount.SimpleSequencer
