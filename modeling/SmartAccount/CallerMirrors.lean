import SmartAccount.CallerViews
import SmartAccount.SequencerAgreement
import SmartAccount.Foundation.Ranks

/-!
# The simple sequencer without some of its callers

`Mirrors keep all s t` relates a state to what it is for the kept callers alone, where `all` has
the caller of each flight at its number.  Flights are numbered in the order of their creation, so
the flights that remain move up to their ranks.  Writes of the deleted callers keep the relation
on the one side alone (`Mirrors.frame`), and a call or a callback of a kept caller does on both
sides the same; a callback that attaches a deposit does so if the balance covers it on both sides
or on neither (`Mirrors.deliver`).
-/

namespace SmartAccount.SimpleSequencer

open Foundation Relation

/-! ## The relation of the two runs -/

/-- The registered step, on a renumbered flight. -/
def RegisteredStep.rename (f : Nat → Nat) (yielded : RegisteredStep) : RegisteredStep :=
  { yielded with yieldId := f yielded.yieldId }

def TraceEvent.rename (f : Nat → Nat) : TraceEvent → TraceEvent
  | .called flight fc => .called (f flight) fc
  | .resumed yieldId => .resumed (f yieldId)

/-- The event of a kept caller, about the renumbered flight. -/
def TraceEvent.kept (keep : AccountId → Bool) (all : List AccountId) (event : TraceEvent) :
    Option TraceEvent :=
  if (all[event.flight]?).any keep then some (event.rename (rank keep all)) else none

/-- `t` is what `s` is for the kept callers alone. -/
structure Mirrors (keep : AccountId → Bool) (all : List AccountId) (s t : Sequencer) : Prop where
  owned : Owned all s
  next : t.pool.next = rank keep all s.pool.next
  flights : ∀ id c, all[id]? = some c → keep c = true →
    t.pool.get (rank keep all id) = s.pool.get id
  steps : ∀ c, keep c = true → ∀ stepId,
    t.getStep c stepId = (s.getStep c stepId).map (.rename (rank keep all))
  queue : ∀ c, keep c = true → t.contract.sequenceQueue.get (sequenceQueueKey c) =
    s.contract.sequenceQueue.get (sequenceQueueKey c)
  trace : t.trace = s.trace.filterMap (TraceEvent.kept keep all)

variable {keep : AccountId → Bool} {all : List AccountId} {c : AccountId} {s s' t t' : Sequencer}

theorem Mirrors.new (keep : AccountId → Bool) (all : List AccountId) :
    Mirrors keep all Sequencer.new Sequencer.new :=
  ⟨.new all, rank_zero.symm, fun _ _ _ _ => rfl, fun _ _ _ => rfl, fun _ _ => rfl, rfl⟩

/-! ### Keys after a write -/

namespace Sequencer

theorem getStep_removeStep (s : Sequencer) (c b : AccountId) (stepId stepId' : String) :
    (s.removeStep c stepId).getStep b stepId' =
      if b = c ∧ stepId' = stepId then none else s.getStep b stepId' := by
  rw [getStep, removeStep, IterableMap.get_remove]
  exact if_congr registeredStepKey_eq_iff rfl rfl

theorem getStep_storeStep (now spareGas : Nat) (s : Sequencer) (c b : AccountId) (call : Step)
    (stepId : String) :
    (s.storeStep now spareGas c call).getStep b stepId =
      if b = c ∧ stepId = call.stepId then some ⟨s.pool.next, call, now⟩
      else s.getStep b stepId := by
  rw [getStep, storeStep, IterableMap.get_insert]
  exact if_congr registeredStepKey_eq_iff rfl rfl

theorem queue_setQueue (s : Sequencer) (c b : AccountId) (waiting : List String) :
    (s.setQueue c waiting).contract.sequenceQueue.get (sequenceQueueKey b) =
      if b = c then some waiting else s.contract.sequenceQueue.get (sequenceQueueKey b) := by
  rw [setQueue, IterableMap.get_insert]
  exact if_congr sequenceQueueKey_inj rfl rfl

theorem queue_clearQueue (s : Sequencer) (c b : AccountId) :
    (s.clearQueue c).contract.sequenceQueue.get (sequenceQueueKey b) =
      if b = c then none else s.contract.sequenceQueue.get (sequenceQueueKey b) := by
  rw [clearQueue, IterableMap.get_remove]
  exact if_congr sequenceQueueKey_inj rfl rfl

end Sequencer

/-! ### Writes of a deleted caller -/

theorem TraceEvent.kept_of_owner {event : TraceEvent} (own : all[event.flight]? = some c) :
    event.kept keep all = if keep c then some (event.rename (rank keep all)) else none := by
  rw [kept, own, Option.any_some]

namespace Mirrors

theorem frame_write (mirrors : Mirrors keep all s t) (gone : keep c = false)
    (write : Write all c s s') : Mirrors keep all s' t := by
  have apart : ∀ b, keep b = true → b ≠ c := by
    rintro b kept rfl
    rw [gone] at kept
    cases kept
  have elsewhere : ∀ {id other : Nat} {b : AccountId}, all[id]? = some c →
      all[other]? = some b → keep b = true → other ≠ id := by
    rintro id other b own own' kept rfl
    exact apart b kept (Option.some.inj (own'.symm.trans own))
  have owned := mirrors.owned.write write
  cases write with
  | removeStep stepId =>
      refine ⟨owned, mirrors.next, mirrors.flights, fun b kept stepId' => ?_, mirrors.queue,
        mirrors.trace⟩
      rw [Sequencer.getStep_removeStep, if_neg fun same => apart b kept same.1]
      exact mirrors.steps b kept stepId'
  | setQueue waiting =>
      refine ⟨owned, mirrors.next, mirrors.flights, mirrors.steps, fun b kept => ?_,
        mirrors.trace⟩
      rw [Sequencer.queue_setQueue, if_neg (apart b kept)]
      exact mirrors.queue b kept
  | clearQueue =>
      refine ⟨owned, mirrors.next, mirrors.flights, mirrors.steps, fun b kept => ?_,
        mirrors.trace⟩
      rw [Sequencer.queue_clearQueue, if_neg (apart b kept)]
      exact mirrors.queue b kept
  | @note event own =>
      refine ⟨owned, mirrors.next, mirrors.flights, mirrors.steps, mirrors.queue, ?_⟩
      rw [Sequencer.note, List.filterMap_append, mirrors.trace, List.filterMap_cons,
        TraceEvent.kept_of_owner own, gone]
      exact (List.append_nil _).symm
  | @update id f own theirs =>
      refine ⟨owned, mirrors.next, fun other b own' kept => ?_, mirrors.steps, mirrors.queue,
        mirrors.trace⟩
      dsimp only
      rw [Pool.get_update_of_ne _ _ (elsewhere own own' kept)]
      exact mirrors.flights other b own' kept
  | @remove id own =>
      refine ⟨owned, mirrors.next, fun other b own' kept => ?_, mirrors.steps, mirrors.queue,
        mirrors.trace⟩
      dsimp only
      rw [Pool.get_remove, if_neg (elsewhere own own' kept)]
      exact mirrors.flights other b own' kept
  | @storeStep now spareGas call own =>
      refine ⟨owned, ?_, fun other b own' kept => ?_, fun b kept stepId => ?_, mirrors.queue,
        mirrors.trace⟩
      · rw [Sequencer.storeStep_next, rank_succ own, gone]
        exact mirrors.next
      · rw [Sequencer.storeStep, Pool.get_create, if_neg (elsewhere own own' kept)]
        exact mirrors.flights other b own' kept
      · rw [Sequencer.getStep_storeStep, if_neg fun same => apart b kept same.1]
        exact mirrors.steps b kept stepId

/-- What a deleted caller writes is not seen by the others. -/
theorem frame (mirrors : Mirrors keep all s t) (gone : keep c = false)
    (writes : Writes all c s s') : Mirrors keep all s' t := by
  induction writes with
  | refl => exact mirrors
  | tail _ last ih => exact ih.frame_write gone last

/-! ### Writes of a kept caller -/

/-- Flights of kept callers keep their ranks apart. -/
theorem rank_eq_iff {id other : Nat} {b : AccountId} (own : all[id]? = some c)
    (kept : keep c = true) (own' : all[other]? = some b) (kept' : keep b = true) :
    rank keep all other = rank keep all id ↔ other = id :=
  ⟨rank_inj own' kept' own kept, congrArg (rank keep all)⟩

theorem removeStep (mirrors : Mirrors keep all s t) (c : AccountId) (stepId : String) :
    Mirrors keep all (s.removeStep c stepId) (t.removeStep c stepId) := by
  refine ⟨mirrors.owned.write (.removeStep stepId), mirrors.next, mirrors.flights,
    fun b kept stepId' => ?_, mirrors.queue, mirrors.trace⟩
  rw [Sequencer.getStep_removeStep, Sequencer.getStep_removeStep]
  split
  · rfl
  · exact mirrors.steps b kept stepId'

theorem setQueue (mirrors : Mirrors keep all s t) (c : AccountId) (waiting : List String) :
    Mirrors keep all (s.setQueue c waiting) (t.setQueue c waiting) := by
  refine ⟨mirrors.owned.write (.setQueue waiting), mirrors.next, mirrors.flights, mirrors.steps,
    fun b kept => ?_, mirrors.trace⟩
  rw [Sequencer.queue_setQueue, Sequencer.queue_setQueue, mirrors.queue b kept]

theorem clearQueue (mirrors : Mirrors keep all s t) (c : AccountId) :
    Mirrors keep all (s.clearQueue c) (t.clearQueue c) := by
  refine ⟨mirrors.owned.write .clearQueue, mirrors.next, mirrors.flights, mirrors.steps,
    fun b kept => ?_, mirrors.trace⟩
  rw [Sequencer.queue_clearQueue, Sequencer.queue_clearQueue, mirrors.queue b kept]

theorem note (mirrors : Mirrors keep all s t) (kept : keep c = true) (event : TraceEvent)
    (own : all[event.flight]? = some c) :
    Mirrors keep all (s.note event) (t.note (event.rename (rank keep all))) := by
  refine ⟨mirrors.owned.write (.note own), mirrors.next, mirrors.flights, mirrors.steps,
    mirrors.queue, ?_⟩
  rw [Sequencer.note, Sequencer.note, List.filterMap_append, mirrors.trace, List.filterMap_cons,
    TraceEvent.kept_of_owner own, kept]
  rfl

theorem update (mirrors : Mirrors keep all s t) (kept : keep c = true) {id : Nat} {f : Flight}
    (own : all[id]? = some c) (theirs : ∀ t ∈ f.thens, t.callback.callerId = c) :
    Mirrors keep all { s with pool := s.pool.update id f }
      { t with pool := t.pool.update (rank keep all id) f } := by
  refine ⟨mirrors.owned.write (.update own theirs), mirrors.next, fun other b own' kept' => ?_,
    mirrors.steps, mirrors.queue, mirrors.trace⟩
  dsimp only
  rw [Pool.get_update, Pool.get_update, mirrors.flights id c own kept,
    mirrors.flights other b own' kept']
  exact if_congr (rank_eq_iff own kept own' kept') rfl rfl

theorem remove (mirrors : Mirrors keep all s t) (kept : keep c = true) {id : Nat}
    (own : all[id]? = some c) :
    Mirrors keep all { s with pool := s.pool.remove id }
      { t with pool := t.pool.remove (rank keep all id) } := by
  refine ⟨mirrors.owned.write (.remove own), mirrors.next, fun other b own' kept' => ?_,
    mirrors.steps, mirrors.queue, mirrors.trace⟩
  dsimp only
  rw [Pool.get_remove, Pool.get_remove, mirrors.flights other b own' kept']
  exact if_congr (rank_eq_iff own kept own' kept') rfl rfl

theorem storeStep (mirrors : Mirrors keep all s t) (kept : keep c = true)
    (own : all[s.pool.next]? = some c) (now spareGas : Nat) (call : Step) :
    Mirrors keep all (s.storeStep now spareGas c call) (t.storeStep now spareGas c call) := by
  refine ⟨mirrors.owned.write (.storeStep own), ?_, fun other b own' kept' => ?_,
    fun b kept' stepId => ?_, mirrors.queue, ?_⟩
  · rw [Sequencer.storeStep_next, Sequencer.storeStep_next, mirrors.next, rank_succ own, kept]
    rfl
  · rw [Sequencer.storeStep, Sequencer.storeStep, Pool.get_create, Pool.get_create, mirrors.next,
      mirrors.flights other b own' kept']
    exact if_congr (rank_eq_iff own kept own' kept') rfl rfl
  · rw [Sequencer.getStep_storeStep, Sequencer.getStep_storeStep, mirrors.next,
      mirrors.steps b kept' stepId]
    split <;> rfl
  · exact mirrors.trace

/-! ### Releases -/

/-- Both resume the caller's step, or neither does. -/
theorem resumeRegisteredStep (mirrors : Mirrors keep all s t) (kept : keep c = true)
    (stepId : String) :
    Agree (Mirrors keep all) (s.resumeRegisteredStep c stepId)
      (t.resumeRegisteredStep c stepId) := by
  unfold Sequencer.resumeRegisteredStep
  rw [mirrors.steps c kept]
  cases registered : s.getStep c stepId with
  | none => exact .error _ _
  | some yielded =>
      have own := mirrors.owned.step registered
      dsimp only [Option.map_some, RegisteredStep.rename]
      unfold Sequencer.resumeYield
      rw [mirrors.flights _ c own kept]
      cases stored : s.pool.get yielded.yieldId with
      | none => exact .error _ _
      | some f =>
          have theirs := mirrors.owned.thens stored own
          obtain ⟨head, thens⟩ := f
          cases head with
          | yielded =>
              refine .ok (note ?_ kept (.resumed yielded.yieldId) own)
              exact mirrors.update kept own theirs
          | call fc => exact .error _ _
          | done result => exact .error _ _

theorem checkOrder (mirrors : Mirrors keep all s t) (kept : keep c = true)
    (order : List String) :
    Agree (fun _ _ => True) (s.checkOrder c order) (t.checkOrder c order) := by
  induction order with
  | nil => exact .ok trivial
  | cons stepId rest ih =>
      refine (Agree.require ?_ _ _).bind fun _ _ _ => ih
      rw [mirrors.steps c kept, Option.isSome_map]

/-- Both accept a release, or neither does. -/
theorem startRelease (mirrors : Mirrors keep all s t) (kept : keep c = true)
    (order : List String) :
    Agree (fun x y => Mirrors keep all x.1 y.1) (s.startSequenceReleaseForCaller c order)
      (t.startSequenceReleaseForCaller c order) := by
  unfold Sequencer.startSequenceReleaseForCaller
  refine (Agree.require rfl _ _).bind fun _ _ _ => ?_
  refine (Agree.require (by rw [mirrors.queue c kept]) _ _).bind fun _ _ _ => ?_
  refine (mirrors.checkOrder kept order).bind fun _ _ _ => ?_
  cases order with
  | nil => exact .error _ _
  | cons first rest =>
      have queued : Mirrors keep all (if rest ≠ [] then s.setQueue c rest else s)
          (if rest ≠ [] then t.setQueue c rest else t) := by
        by_cases last : rest = []
        · rw [if_neg (not_not.mpr last), if_neg (not_not.mpr last)]
          exact mirrors
        · rw [if_pos last, if_pos last]
          exact mirrors.setQueue c rest
      exact (queued.resumeRegisteredStep kept first).bind fun _ _ after => .ok after

theorem takeNextQueuedStep (mirrors : Mirrors keep all s t) (kept : keep c = true) :
    (t.takeNextQueuedStep c).1 = (s.takeNextQueuedStep c).1 ∧
      Mirrors keep all (s.takeNextQueuedStep c).2 (t.takeNextQueuedStep c).2 := by
  unfold Sequencer.takeNextQueuedStep
  rw [mirrors.queue c kept]
  cases s.contract.sequenceQueue.get (sequenceQueueKey c) with
  | none => exact ⟨rfl, mirrors⟩
  | some waiting =>
      rcases waiting with _ | ⟨next, _ | ⟨second, later⟩⟩
      · exact ⟨rfl, mirrors.clearQueue c⟩
      · exact ⟨rfl, mirrors.clearQueue c⟩
      · exact ⟨rfl, mirrors.setQueue c (second :: later)⟩

/-- The caller's sequence progresses on both sides, or halts on both. -/
theorem progress (mirrors : Mirrors keep all s t) (kept : keep c = true) :
    Mirrors keep all (s.progressAfterSuccessfulResolution c)
      (t.progressAfterSuccessfulResolution c) := by
  obtain ⟨same, taken⟩ := mirrors.takeNextQueuedStep kept
  unfold Sequencer.progressAfterSuccessfulResolution
  generalize s.takeNextQueuedStep c = x at same taken ⊢
  generalize t.takeNextQueuedStep c = y at same taken ⊢
  obtain ⟨next, s'⟩ := x
  obtain ⟨next', t'⟩ := y
  dsimp only at same taken
  subst same
  cases next' with
  | none => exact taken
  | some next =>
      have resumed := taken.resumeRegisteredStep kept next
      dsimp only
      generalize s'.resumeRegisteredStep c next = x at resumed ⊢
      generalize t'.resumeRegisteredStep c next = y at resumed ⊢
      cases resumed with
      | ok related => exact related
      | error message message' => exact taken.clearQueue c

/-! ### Callbacks -/

/-- A callback of a kept caller does and returns the same on both sides. -/
theorem runCallback (mirrors : Mirrors keep all s t) {callback : Callback}
    (kept : keep callback.callerId = true) (result : PromiseResult) :
    Mirrors keep all (s.runCallback callback result).1 (t.runCallback callback result).1 ∧
      (t.runCallback callback result).2 = (s.runCallback callback result).2 := by
  cases callback with
  | onStepResumed callerId stepId =>
      change keep callerId = true at kept
      dsimp only [Sequencer.runCallback]
      unfold Sequencer.onStepResumed
      rw [mirrors.steps callerId kept]
      cases s.getStep callerId stepId with
      | none => exact ⟨mirrors, rfl⟩
      | some yielded =>
          cases result with
          | failed => exact ⟨(mirrors.removeStep callerId stepId).clearQueue callerId, rfl⟩
          | successful bytes => exact ⟨mirrors, rfl⟩
  | onStepResolved callerId stepId =>
      change keep callerId = true at kept
      have removed := mirrors.removeStep callerId stepId
      dsimp only [Sequencer.runCallback]
      unfold Sequencer.onStepResolved
      dsimp only
      cases result.checked with
      | ok bytes => exact ⟨removed.progress kept, rfl⟩
      | error message => exact ⟨removed.clearQueue callerId, rfl⟩

theorem settle (mirrors : Mirrors keep all s t) (kept : keep c = true) {id : Nat} {f : Flight}
    (own : all[id]? = some c) (theirs : ∀ t ∈ f.thens, t.callback.callerId = c) :
    Mirrors keep all (s.settle id f) (t.settle (rank keep all id) f) := by
  unfold Sequencer.settle
  by_cases last : f.thens = []
  · rw [if_pos last, if_pos last]
    exact mirrors.remove kept own
  · rw [if_neg last, if_neg last]
    exact mirrors.update kept own theirs

theorem runThen (mirrors : Mirrors keep all s t) (kept : keep c = true) {id : Nat}
    (own : all[id]? = some c) {first : Then} {rest : List Then}
    (runs : first.callback.callerId = c) (theirs : ∀ t ∈ rest, t.callback.callerId = c)
    (result : PromiseResult) {balance balance' : Nat}
    (covers : ∀ p, (s.runCallback first.callback result).2 = .promise p →
      (p.call.depositYocto ≤ balance ↔ p.call.depositYocto ≤ balance')) :
    Mirrors keep all (s.runThen balance id first rest result)
      (t.runThen balance' (rank keep all id) first rest result) := by
  obtain ⟨ran, same⟩ := @runCallback _ _ _ _ mirrors first.callback (runs ▸ kept) result
  have returned := @Owned.runCallback_thens s first.callback result
  unfold Sequencer.runThen
  generalize s.runCallback first.callback result = x at ran same returned covers ⊢
  generalize t.runCallback first.callback result = y at ran same ⊢
  obtain ⟨s', out⟩ := x
  obtain ⟨t', out'⟩ := y
  dsimp only at ran same
  subst same
  cases out' with
  | value bytes => exact ran.settle kept own theirs
  | promise p =>
      have same := and_congr_left' (c := p.staticGas < first.gasTgas) (covers p rfl)
      dsimp only
      by_cases paid : p.call.depositYocto ≤ balance ∧ p.staticGas < first.gasTgas
      · rw [if_pos paid, if_pos (same.mp paid)]
        refine (ran.note kept (.called id p.call) own).settle kept own fun t member => ?_
        rcases List.mem_append.mp member with new | old
        · exact (returned rfl t new).trans runs
        · exact theirs t old
      · rw [if_neg paid, if_neg fun paid' => paid (same.mpr paid')]
        exact mirrors.settle kept own theirs

/-- A kept caller's callback attaches the same on both sides. -/
theorem attaches (mirrors : Mirrors keep all s t) (kept : keep c = true) {id : Nat}
    (own : all[id]? = some c) (answer : PromiseResult) :
    t.attaches (rank keep all id) answer = s.attaches id answer := by
  unfold Sequencer.attaches
  rw [mirrors.flights id c own kept]
  cases stored : s.pool.get id with
  | none => rfl
  | some f =>
      have theirs := mirrors.owned.thens stored own
      obtain ⟨head, thens⟩ := f
      cases thens with
      | nil => rfl
      | cons first rest =>
          dsimp only
          cases head.outcome answer with
          | none => rfl
          | some result =>
              have runs := theirs first List.mem_cons_self
              dsimp only
              rw [(@runCallback _ _ _ _ mirrors first.callback (runs ▸ kept) result).2]

/-- A callback of a kept caller does the same on both sides, if the balance covers what it
attaches on both or on neither. -/
theorem deliver (mirrors : Mirrors keep all s t) (kept : keep c = true) {id : Nat}
    (own : all[id]? = some c) (answer : PromiseResult) {balance balance' : Nat}
    (covers : s.attaches id answer ≤ balance ↔ t.attaches (rank keep all id) answer ≤ balance') :
    Mirrors keep all (s.deliver balance id answer)
      (t.deliver balance' (rank keep all id) answer) := by
  rw [mirrors.attaches kept own, Sequencer.attaches] at covers
  unfold Sequencer.deliver
  rw [mirrors.flights id c own kept]
  cases stored : s.pool.get id with
  | none => exact mirrors
  | some f =>
      have theirs := mirrors.owned.thens stored own
      rw [stored] at covers
      obtain ⟨head, thens⟩ := f
      cases thens with
      | nil => exact mirrors
      | cons first rest =>
          dsimp only at covers ⊢
          cases heard : head.outcome answer with
          | none => exact mirrors
          | some result =>
              rw [heard] at covers
              refine mirrors.runThen kept own (theirs first List.mem_cons_self)
                (fun t member => theirs t (List.mem_cons_of_mem _ member)) result fun p made => ?_
              dsimp only at covers
              rw [made] at covers
              exact covers

theorem abort (mirrors : Mirrors keep all s t) (kept : keep c = true) {id : Nat}
    (own : all[id]? = some c) (answer : PromiseResult) :
    Mirrors keep all (s.abort id answer) (t.abort (rank keep all id) answer) := by
  unfold Sequencer.abort
  rw [mirrors.flights id c own kept]
  cases stored : s.pool.get id with
  | none => exact mirrors
  | some f =>
      have theirs := mirrors.owned.thens stored own
      obtain ⟨head, thens⟩ := f
      cases thens with
      | nil => exact mirrors
      | cons first rest =>
          dsimp only
          cases head.outcome answer with
          | none => exact mirrors
          | some result =>
              exact mirrors.settle kept own fun t member =>
                theirs t (List.mem_cons_of_mem _ member)

theorem timeout (mirrors : Mirrors keep all s t) (kept : keep c = true) {id : Nat}
    (own : all[id]? = some c) :
    Mirrors keep all (s.timeout id) (t.timeout (rank keep all id)) := by
  unfold Sequencer.timeout
  rw [mirrors.flights id c own kept]
  cases stored : s.pool.get id with
  | none => exact mirrors
  | some f =>
      have theirs := mirrors.owned.thens stored own
      obtain ⟨head, thens⟩ := f
      cases head with
      | yielded => exact mirrors.update kept own theirs
      | call fc => exact mirrors
      | done result => exact mirrors

/-! ### Methods -/

end Mirrors

/-- How many steps an accepted call registers. -/
def Sequencer.Method.registrations : Method → Nat
  | .executeSteps steps => steps.length
  | .registerStep _ => 1
  | .runSequence _ _ => 0

theorem Sequencer.call_next {env : Env} {method : Sequencer.Method}
    (accepted : s.call env method = .ok s') :
    s'.pool.next = s.pool.next + method.registrations := by
  simp only [call, bind_eq_ok, require_eq_ok] at accepted
  obtain ⟨-, -, ran⟩ := accepted
  cases method with
  | executeSteps steps =>
      obtain ⟨⟨_, n⟩, executed, rfl⟩ := map_eq_ok.mp ran
      simp only [executeSteps, bind_eq_ok] at executed
      obtain ⟨-, -, -, -, stored, registered, started⟩ := executed
      exact (startRelease_next started).trans (registerInputs_next registered)
  | registerStep input =>
      obtain ⟨call, -, registered⟩ := bind_eq_ok.mp ran
      obtain ⟨-, rfl⟩ := registerStepForCaller_eq_ok.mp registered
      rfl
  | runSequence callerId order =>
      obtain ⟨⟨_, n⟩, sequenced, rfl⟩ := map_eq_ok.mp ran
      simp only [runSequence, bind_eq_ok] at sequenced
      obtain ⟨-, -, started⟩ := sequenced
      exact startRelease_next started

namespace Mirrors

theorem registerStepForCaller (mirrors : Mirrors keep all s t) (kept : keep c = true)
    (now spareGas : Nat) (call : Step) (own : all[s.pool.next]? = some c) :
    Agree (fun s' t' => Mirrors keep all s' t' ∧ s'.pool.next = s.pool.next + 1)
      (s.registerStepForCaller now spareGas c call)
      (t.registerStepForCaller now spareGas c call) := by
  unfold Sequencer.registerStepForCaller
  refine (Agree.require ?_ _ _).bind fun _ _ _ => ?_
  · rw [mirrors.steps c kept, Option.isNone_map]
  · exact .ok ⟨mirrors.storeStep kept own now spareGas call, rfl⟩

theorem registerInputs (mirrors : Mirrors keep all s t) (kept : keep c = true)
    (now spareGas : Nat) (inputs : List Step)
    (own : ∀ id, s.pool.next ≤ id → id < s.pool.next + inputs.length → all[id]? = some c) :
    Agree (Mirrors keep all) (s.registerInputs now spareGas c inputs)
      (t.registerInputs now spareGas c inputs) := by
  induction inputs generalizing s t with
  | nil => exact .ok mirrors
  | cons input rest ih =>
      rw [List.length_cons] at own
      unfold Sequencer.registerInputs
      cases stepFromRaw input with
      | error message => exact .error _ _
      | ok call =>
          have fresh := own s.pool.next (Nat.le_refl _) (by omega)
          refine (mirrors.registerStepForCaller kept now spareGas call fresh).bind
            fun s' t' registered => ih registered.1 fun id low high => ?_
          rw [registered.2] at low high
          exact own id (by omega) (by omega)

/-- Both accept the call of a kept caller, or neither does. -/
theorem call (mirrors : Mirrors keep all s t) {env : Env} (kept : keep env.predecessor = true)
    (method : Sequencer.Method)
    (own : ∀ id, s.pool.next ≤ id → id < s.pool.next + method.registrations →
      all[id]? = some env.predecessor) :
    Agree (Mirrors keep all) (s.call env method) (t.call env method) := by
  unfold Sequencer.call
  refine (Agree.require rfl _ _).bind fun _ _ _ => ?_
  cases method with
  | executeSteps steps =>
      refine Agree.map (R := fun x y => Mirrors keep all x.1 y.1) ?_ fun _ _ after => after
      unfold Sequencer.executeSteps
      refine (Agree.self _).bind fun _ _ _ => ?_
      refine (Agree.self _).bind fun _ _ _ => ?_
      exact (mirrors.registerInputs kept env.now env.spareGas steps own).bind
        fun _ _ registered => registered.startRelease kept (steps.map Step.stepId)
  | registerStep input =>
      dsimp only
      unfold Sequencer.registerStep
      cases stepFromRaw input with
      | error message => exact .error _ _
      | ok call =>
          have fresh := own s.pool.next (Nat.le_refl _) (Nat.lt_succ_self _)
          exact (mirrors.registerStepForCaller kept env.now env.spareGas call fresh).mono
            fun _ _ registered => registered.1
  | runSequence callerId order =>
      refine Agree.map (R := fun x y => Mirrors keep all x.1 y.1) ?_ fun _ _ after => after
      unfold Sequencer.runSequence
      by_cases same : env.predecessor = callerId
      · refine (Agree.require rfl _ _).bind fun _ _ _ => ?_
        exact mirrors.startRelease (same ▸ kept) order
      · rw [decide_eq_false same]
        exact .error _ _

end Mirrors

end SmartAccount.SimpleSequencer
