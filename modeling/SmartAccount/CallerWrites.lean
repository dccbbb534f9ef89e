import SmartAccount.SimpleSequencer
import SmartAccount.Namespaces
import SmartAccount.Validation
import Mathlib.Logic.Relation

/-!
# What a caller of the simple sequencer writes

Every method and every callback of the simple sequencer runs for one caller.  `Write all c` are
the single writes such a run is made of: the caller's steps, the caller's queue, and flights
and events of the caller, where `all` tells the caller of every flight.  In each state of a run
the flights and steps are where their callers look for them (`Owned`), so a call is a sequence of
writes of its predecessor (`Owned.transact_writes`) and a callback of the caller its flight
belongs to (`Owned.deliver_writes`).
-/

namespace SmartAccount.SimpleSequencer

open Foundation Relation

/-! ## Keys -/

theorem registeredStepKey_eq_iff {a b : AccountId} {stepId stepId' : String} :
    registeredStepKey a stepId = registeredStepKey b stepId' ↔ a = b ∧ stepId = stepId' := by
  constructor
  · intro same
    have lists := congrArg String.toList same
    simp only [registeredStepKey, String.toList_append] at lists
    have split := append_cons_inj_of_notMem_left a.hash_notMem b.hash_notMem
      (d := '#') (by simpa using lists)
    exact ⟨AccountId.ext_val (String.toList_inj.mp split.1), String.toList_inj.mp split.2⟩
  · rintro ⟨rfl, rfl⟩
    rfl

theorem sequenceQueueKey_inj {a b : AccountId} :
    sequenceQueueKey a = sequenceQueueKey b ↔ a = b :=
  ⟨AccountId.ext_val, congrArg sequenceQueueKey⟩

/-! ## Callers -/

/-- The caller a callback runs for. -/
def Callback.callerId : Callback → AccountId
  | .onStepResumed callerId _ => callerId
  | .onStepResolved callerId _ => callerId

/-- The flight an event is about. -/
def TraceEvent.flight : TraceEvent → Nat
  | .called flight _ => flight
  | .resumed yieldId => yieldId

/-- The state that `register_step_for_caller` leaves. -/
def Sequencer.storeStep (now spareGas : Nat) (s : Sequencer) (callerId : AccountId)
    (call : Step) : Sequencer :=
  { s with
    contract := { s.contract with
      registeredSteps := s.contract.registeredSteps.insert
        (registeredStepKey callerId call.stepId) ⟨s.pool.next, call, now⟩ }
    pool := s.pool.create ⟨.yielded, [⟨.onStepResumed callerId call.stepId,
      call.gasTgas + stepResolveCallbackGasTgas + stepResumeOverheadTgas + spareGas⟩]⟩ }

@[simp] theorem Sequencer.storeStep_next (now spareGas : Nat) (s : Sequencer)
    (callerId : AccountId) (call : Step) :
    (s.storeStep now spareGas callerId call).pool.next = s.pool.next + 1 := rfl

theorem Sequencer.registerStepForCaller_eq_ok {now spareGas : Nat} {s s' : Sequencer}
    {callerId : AccountId} {call : Step} :
    s.registerStepForCaller now spareGas callerId call = .ok s' ↔
      s.getStep callerId call.stepId = none ∧ s' = s.storeStep now spareGas callerId call := by
  simp only [registerStepForCaller, bind_eq_ok, require_eq_ok, Option.isNone_iff_eq_none]
  constructor
  · rintro ⟨-, absent, same⟩
    exact ⟨absent, (Except.ok.inj same).symm⟩
  · rintro ⟨absent, rfl⟩
    exact ⟨(), absent, rfl⟩

/-- The single writes of a run for `c`; `all` has the caller of each flight at its id. -/
inductive Write (all : List AccountId) (c : AccountId) (s : Sequencer) : Sequencer → Prop
  | removeStep (stepId : String) : Write all c s (s.removeStep c stepId)
  | setQueue (waiting : List String) : Write all c s (s.setQueue c waiting)
  | clearQueue : Write all c s (s.clearQueue c)
  | note {event : TraceEvent} (own : all[event.flight]? = some c) : Write all c s (s.note event)
  | update {id : Nat} {f : Flight} (own : all[id]? = some c)
      (theirs : ∀ t ∈ f.thens, t.callback.callerId = c) :
      Write all c s { s with pool := s.pool.update id f }
  | remove {id : Nat} (own : all[id]? = some c) :
      Write all c s { s with pool := s.pool.remove id }
  | storeStep {now spareGas : Nat} {call : Step} (own : all[s.pool.next]? = some c) :
      Write all c s (s.storeStep now spareGas c call)

/-- Any number of writes of a run for `c`. -/
def Writes (all : List AccountId) (c : AccountId) : Sequencer → Sequencer → Prop :=
  ReflTransGen (Write all c)

/-- No flight is created for a caller that has none to come. -/
theorem Writes.next_eq {all : List AccountId} {c : AccountId} {s s' : Sequencer}
    (writes : Writes all c s s') (complete : all.length = s.pool.next) :
    s'.pool.next = s.pool.next := by
  induction writes with
  | refl => rfl
  | @tail s₁ s₂ _ last ih =>
      cases last with
      | storeStep own =>
          rw [ih, ← complete, List.getElem?_eq_none (Nat.le_refl _)] at own
          cases own
      | _ => exact ih

/-- Flights run callbacks of their own callers only, and a step is stored under the key of the
caller that its yield belongs to. -/
structure Owned (all : List AccountId) (s : Sequencer) : Prop where
  flights : ∀ id f, s.pool.get id = some f →
    ∃ c, all[id]? = some c ∧ ∀ t ∈ f.thens, t.callback.callerId = c
  steps : ∀ key yielded, s.contract.registeredSteps.get key = some yielded →
    ∃ c, all[yielded.yieldId]? = some c ∧ key = registeredStepKey c yielded.call.stepId

theorem Owned.new (all : List AccountId) : Owned all Sequencer.new where
  flights id f stored := by
    rw [show Sequencer.new.pool.get id = none from rfl] at stored
    cases stored
  steps key yielded stored := by
    rw [show Sequencer.new.contract.registeredSteps.get key = none from rfl] at stored
    cases stored

namespace Owned

variable {all : List AccountId} {c : AccountId} {s s' : Sequencer}

/-- The yield of a caller's step is the caller's. -/
theorem step (owned : Owned all s) {stepId : String} {yielded : RegisteredStep}
    (registered : s.getStep c stepId = some yielded) : all[yielded.yieldId]? = some c := by
  obtain ⟨b, own, key⟩ := owned.steps _ _ registered
  rw [(registeredStepKey_eq_iff.mp key).1]
  exact own

/-- The callbacks behind a flight are those of its caller. -/
theorem thens (owned : Owned all s) {id : Nat} {f : Flight} (stored : s.pool.get id = some f)
    (own : all[id]? = some c) : ∀ t ∈ f.thens, t.callback.callerId = c := by
  obtain ⟨b, own', theirs⟩ := owned.flights id f stored
  obtain rfl : b = c := Option.some.inj (own'.symm.trans own)
  exact theirs

theorem write (owned : Owned all s) (write : Write all c s s') : Owned all s' := by
  cases write with
  | removeStep stepId =>
      refine ⟨owned.flights, fun key yielded stored => ?_⟩
      exact owned.steps key yielded (IterableMap.get_remove_eq_some stored).2
  | setQueue waiting => exact ⟨owned.flights, owned.steps⟩
  | clearQueue => exact ⟨owned.flights, owned.steps⟩
  | note own => exact ⟨owned.flights, owned.steps⟩
  | @update id f own theirs =>
      refine ⟨fun other g stored => ?_, owned.steps⟩
      dsimp only at stored
      rw [Pool.get_update] at stored
      split at stored
      · rename_i same
        obtain ⟨_, _, rfl⟩ := Option.map_eq_some_iff.mp stored
        exact ⟨c, same ▸ own, theirs⟩
      · exact owned.flights other g stored
  | @remove id own =>
      refine ⟨fun other g stored => ?_, owned.steps⟩
      dsimp only at stored
      rw [Pool.get_remove] at stored
      split at stored
      · cases stored
      · exact owned.flights other g stored
  | @storeStep now spareGas call own =>
      refine ⟨fun other g stored => ?_, fun key yielded stored => ?_⟩
      · dsimp only [Sequencer.storeStep] at stored
        rw [Pool.get_create] at stored
        split at stored
        · rename_i same
          cases stored
          refine ⟨c, same ▸ own, fun t member => ?_⟩
          rw [List.mem_singleton.mp member]
          rfl
        · exact owned.flights other g stored
      · dsimp only [Sequencer.storeStep] at stored
        rw [IterableMap.get_insert] at stored
        split at stored
        · rename_i same
          cases stored
          exact ⟨c, own, same⟩
        · exact owned.steps key yielded stored

theorem writes (owned : Owned all s) (writes : Writes all c s s') : Owned all s' := by
  induction writes with
  | refl => exact owned
  | tail _ last ih => exact ih.write last

end Owned

/-! ## Releases -/

namespace Sequencer

variable {s s' : Sequencer} {c : AccountId}

/-- A registered step is resumed by resuming its yield, which had not been resumed; the flight
keeps its callbacks. -/
theorem resumeRegisteredStep_cases {stepId : String}
    (resumed : s.resumeRegisteredStep c stepId = .ok s') :
    ∃ yielded thens, s.getStep c stepId = some yielded ∧
      s.pool.get yielded.yieldId = some ⟨.yielded, thens⟩ ∧
      s' = { s with
        pool := s.pool.update yielded.yieldId
          ⟨.done (.successful (utf8Bytes "null")), thens⟩ }.note (.resumed yielded.yieldId) := by
  unfold resumeRegisteredStep resumeYield at resumed
  split at resumed
  · cases resumed
  · rename_i yielded registered
    split at resumed
    · cases resumed
    · rename_i woken resumes
      split at resumes
      · rename_i thens stored
        cases resumes
        exact ⟨yielded, thens, registered, stored, (Except.ok.inj resumed).symm⟩
      · cases resumes

/-- A release queues what is behind the first step and resumes the first step. -/
theorem startRelease_cases {order : List String} {n : Nat}
    (started : s.startSequenceReleaseForCaller c order = .ok (s', n)) :
    ∃ first rest, order = first :: rest ∧
      (if rest ≠ [] then s.setQueue c rest else s).resumeRegisteredStep c first = .ok s' := by
  simp only [startSequenceReleaseForCaller, bind_eq_ok, require_eq_ok] at started
  obtain ⟨-, -, -, -, -, -, released⟩ := started
  cases order with
  | nil => cases released
  | cons first rest =>
      obtain ⟨resumed, woken, same⟩ := bind_eq_ok.mp released
      cases same
      exact ⟨first, rest, rfl, woken⟩

/-- A release creates no flight. -/
theorem startRelease_next {order : List String} {n : Nat}
    (started : s.startSequenceReleaseForCaller c order = .ok (s', n)) :
    s'.pool.next = s.pool.next := by
  obtain ⟨first, rest, -, woken⟩ := startRelease_cases started
  obtain ⟨yielded, thens, -, -, rfl⟩ := resumeRegisteredStep_cases woken
  show (if rest ≠ [] then s.setQueue c rest else s).pool.next = s.pool.next
  split <;> rfl

/-- The registrations create one flight each. -/
theorem registerInputs_next {now spareGas : Nat} {inputs : List Step}
    (registered : s.registerInputs now spareGas c inputs = .ok s') :
    s'.pool.next = s.pool.next + inputs.length := by
  induction inputs generalizing s with
  | nil =>
      cases registered
      rfl
  | cons input rest ih =>
      obtain ⟨call, -, registered⟩ := bind_eq_ok.mp registered
      obtain ⟨stored, first, later⟩ := bind_eq_ok.mp registered
      obtain ⟨-, rfl⟩ := registerStepForCaller_eq_ok.mp first
      rw [ih later, storeStep_next, List.length_cons]
      omega

end Sequencer

namespace Owned

variable {all : List AccountId} {c : AccountId} {s s' : Sequencer}

theorem resumeRegisteredStep_writes (owned : Owned all s) {stepId : String}
    (resumed : s.resumeRegisteredStep c stepId = .ok s') : Writes all c s s' := by
  obtain ⟨yielded, thens, registered, stored, rfl⟩ := Sequencer.resumeRegisteredStep_cases resumed
  have own := owned.step registered
  have theirs := owned.thens stored own
  exact (ReflTransGen.single (.update own theirs)).tail (.note own)

theorem startRelease_writes (owned : Owned all s) {order : List String} {n : Nat}
    (started : s.startSequenceReleaseForCaller c order = .ok (s', n)) : Writes all c s s' := by
  obtain ⟨first, rest, -, woken⟩ := Sequencer.startRelease_cases started
  by_cases last : rest = []
  · rw [if_neg (not_not.mpr last)] at woken
    exact owned.resumeRegisteredStep_writes woken
  · rw [if_pos last] at woken
    have queued : Write all c s (s.setQueue c rest) := .setQueue rest
    exact .head queued ((owned.write queued).resumeRegisteredStep_writes woken)

theorem takeNextQueuedStep_writes (all : List AccountId) (c : AccountId) (s : Sequencer) :
    Writes all c s (s.takeNextQueuedStep c).2 := by
  unfold Sequencer.takeNextQueuedStep
  split
  · exact .refl
  · exact .single .clearQueue
  · exact .single .clearQueue
  · exact .single (.setQueue _)

theorem progress_writes (owned : Owned all s) :
    Writes all c s (s.progressAfterSuccessfulResolution c) := by
  have took := takeNextQueuedStep_writes all c s
  unfold Sequencer.progressAfterSuccessfulResolution
  generalize s.takeNextQueuedStep c = x at took ⊢
  obtain ⟨next, taken⟩ := x
  cases next with
  | none => exact took
  | some next =>
      dsimp only
      split
      · rename_i resumed released
        exact took.trans ((owned.writes took).resumeRegisteredStep_writes released)
      · exact took.tail .clearQueue

/-! ## Callbacks -/

theorem runCallback_writes (owned : Owned all s) (callback : Callback) (result : PromiseResult) :
    Writes all callback.callerId s (s.runCallback callback result).1 := by
  cases callback with
  | onStepResumed callerId stepId =>
      show Writes all callerId s (s.onStepResumed callerId stepId result).1
      unfold Sequencer.onStepResumed
      split
      · exact .refl
      · cases result with
        | failed =>
            exact (ReflTransGen.single (.removeStep stepId)).tail .clearQueue
        | successful bytes => exact .refl
  | onStepResolved callerId stepId =>
      show Writes all callerId s (s.onStepResolved callerId stepId result)
      have removed : Write all callerId s (s.removeStep callerId stepId) := .removeStep stepId
      unfold Sequencer.onStepResolved
      dsimp only
      split
      · exact .head removed (owned.write removed).progress_writes
      · exact (ReflTransGen.single removed).tail .clearQueue

/-- A callback hands its flight over to callbacks of the same caller. -/
theorem runCallback_thens {callback : Callback} {result : PromiseResult} {p : Promise}
    (returned : (s.runCallback callback result).2 = .promise p) :
    ∀ t ∈ p.thens, t.callback.callerId = callback.callerId := by
  cases callback with
  | onStepResolved callerId stepId => cases returned
  | onStepResumed callerId stepId =>
      change (s.onStepResumed callerId stepId result).2 = .promise p at returned
      unfold Sequencer.onStepResumed at returned
      split at returned
      · cases returned
      · cases result with
        | failed => cases returned
        | successful bytes =>
            cases returned
            intro t member
            rw [List.mem_singleton.mp member]
            rfl

theorem settle_writes {id : Nat} {f : Flight} (own : all[id]? = some c)
    (theirs : ∀ t ∈ f.thens, t.callback.callerId = c) : Writes all c s (s.settle id f) := by
  unfold Sequencer.settle
  split
  · exact .single (.remove own)
  · exact .single (.update own theirs)

theorem deliver_writes (owned : Owned all s) (balance : Nat) {id : Nat} (answer : PromiseResult)
    (own : all[id]? = some c) : Writes all c s (s.deliver balance id answer) := by
  unfold Sequencer.deliver
  split
  · rename_i head t rest stored
    have theirs := owned.thens stored own
    have first : t.callback.callerId = c := theirs t List.mem_cons_self
    have others : ∀ t ∈ rest, t.callback.callerId = c := fun t member =>
      theirs t (List.mem_cons_of_mem _ member)
    split
    · rename_i result heard
      have ran := owned.runCallback_writes t.callback result
      have returned := @runCallback_thens s t.callback result
      unfold Sequencer.runThen
      generalize s.runCallback t.callback result = x at ran returned ⊢
      obtain ⟨after, out⟩ := x
      rw [first] at ran returned
      cases out with
      | value bytes => exact ran.trans (settle_writes own others)
      | promise p =>
          dsimp only
          split
          · have noted : Write all c after (after.note (.called id p.call)) := .note own
            refine (ran.tail noted).trans (settle_writes own fun t member => ?_)
            rcases List.mem_append.mp member with new | old
            · exact returned rfl t new
            · exact others t old
          · exact settle_writes own others
    · exact .refl
  · exact .refl

theorem abort_writes (owned : Owned all s) {id : Nat} (answer : PromiseResult)
    (own : all[id]? = some c) : Writes all c s (s.abort id answer) := by
  unfold Sequencer.abort
  split
  · rename_i head t rest stored
    have theirs := owned.thens stored own
    split
    · exact settle_writes own fun t member => theirs t (List.mem_cons_of_mem _ member)
    · exact .refl
  · exact .refl

theorem timeout_writes (owned : Owned all s) {id : Nat} (own : all[id]? = some c) :
    Writes all c s (s.timeout id) := by
  unfold Sequencer.timeout
  split
  · rename_i thens stored
    have theirs := owned.thens stored own
    exact .single (.update own theirs)
  · exact .refl

/-! ## Methods -/

theorem registerInputs_writes {now spareGas : Nat} {inputs : List Step}
    (registered : s.registerInputs now spareGas c inputs = .ok s')
    (own : ∀ id, s.pool.next ≤ id → id < s'.pool.next → all[id]? = some c) :
    Writes all c s s' := by
  induction inputs generalizing s with
  | nil =>
      cases registered
      exact .refl
  | cons input rest ih =>
      obtain ⟨call, -, registered⟩ := bind_eq_ok.mp registered
      obtain ⟨stored, first, later⟩ := bind_eq_ok.mp registered
      obtain ⟨-, rfl⟩ := Sequencer.registerStepForCaller_eq_ok.mp first
      have next := Sequencer.registerInputs_next later
      rw [Sequencer.storeStep_next] at next
      refine .head (.storeStep (own _ (Nat.le_refl _) (by omega))) (ih later fun id low high => ?_)
      rw [Sequencer.storeStep_next] at low
      exact own id (by omega) high

/-- A call writes for its predecessor only. -/
theorem call_writes (owned : Owned all s) {env : Env} {method : Sequencer.Method}
    (accepted : s.call env method = .ok s')
    (own : ∀ id, s.pool.next ≤ id → id < s'.pool.next → all[id]? = some env.predecessor) :
    Writes all env.predecessor s s' := by
  simp only [Sequencer.call, bind_eq_ok, require_eq_ok] at accepted
  obtain ⟨-, -, ran⟩ := accepted
  cases method with
  | executeSteps steps =>
      obtain ⟨⟨_, n⟩, executed, rfl⟩ := map_eq_ok.mp ran
      simp only [Sequencer.executeSteps, bind_eq_ok] at executed
      obtain ⟨-, -, -, -, stored, registered, started⟩ := executed
      have next := Sequencer.startRelease_next started
      have writes := registerInputs_writes registered fun id low high => own id low (next ▸ high)
      exact writes.trans ((owned.writes writes).startRelease_writes started)
  | registerStep input =>
      obtain ⟨call, -, registered⟩ := bind_eq_ok.mp ran
      obtain ⟨-, rfl⟩ := Sequencer.registerStepForCaller_eq_ok.mp registered
      exact .single (.storeStep (own _ (Nat.le_refl _) (Nat.lt_succ_self _)))
  | runSequence callerId order =>
      obtain ⟨⟨_, n⟩, sequenced, rfl⟩ := map_eq_ok.mp ran
      simp only [Sequencer.runSequence, bind_eq_ok, require_eq_ok, decide_eq_true_eq] at sequenced
      obtain ⟨-, rfl, started⟩ := sequenced
      exact owned.startRelease_writes started

theorem transact_writes (owned : Owned all s) {env : Env} (method : Sequencer.Method)
    (own : ∀ id, s.pool.next ≤ id → id < (s.transact env method).pool.next →
      all[id]? = some env.predecessor) :
    Writes all env.predecessor s (s.transact env method) := by
  unfold Sequencer.transact at own ⊢
  split
  · rename_i s' accepted
    rw [accepted] at own
    exact owned.call_writes accepted own
  · exact .refl

end Owned

end SmartAccount.SimpleSequencer
