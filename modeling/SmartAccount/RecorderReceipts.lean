import SmartAccount.RecorderEffects

/-!
# The recorder's receipts and the sequencer's callbacks

A call that reaches the recorder is stored for the caller whose step made it, or for none.  The
callback of a woken step makes its call, and the callback behind a call that has its answer ends
the step and wakes the next one of the queue.
-/

namespace SmartAccount.SimpleSequencer

open Foundation Function
open Foundation.Release (Stage Line Label Move Moves)

variable {recorderId : AccountId} {decode : Bytes → Option (String × UInt32)}
  {w w' w'' : World} {c : AccountId}

/-! ## Receipts -/

/-- The recorder stores one entry and answers with its value, or stores nothing; then a `record`
call has failed. -/
theorem Recorder.receive_cases {r r' : Recorder} {at_ : Receiving} {fc : FunctionCall}
    {outOfGas : Bool} {answer result : PromiseResult}
    (received : r.receive decode at_ fc outOfGas answer = (r', result)) :
    (r' = r ∧ (fc.methodName = "record" → result = .failed)) ∨
    ∃ bytes stepId value, fc.methodName = "record" ∧ fc.args = .raw bytes ∧
      decode bytes = some (stepId, value) ∧ stepId ≠ "" ∧
      r'.entries = r.entries ++
        [⟨stepId, value, at_.predecessorId, at_.signerId, at_.blockHeight, at_.timestampMs⟩] ∧
      result = .successful (utf8Bytes (toString value.toNat)) := by
  unfold Recorder.receive at received
  split at received
  · rename_i method
    split at received
    · cases received
      exact .inl ⟨rfl, fun _ => rfl⟩
    · split at received
      · rename_i bytes args
        split at received
        · rename_i stepId value decoded
          by_cases empty : stepId = ""
          · subst empty
            cases received
            exact .inl ⟨rfl, fun _ => rfl⟩
          · have ran : r.record at_ stepId value = .ok (⟨r.entries ++ [⟨stepId, value,
                at_.predecessorId, at_.signerId, at_.blockHeight, at_.timestampMs⟩]⟩, value) := by
              simp [Recorder.record, require, empty, bind, Except.bind]
            rw [ran] at received
            cases received
            exact .inr ⟨bytes, stepId, value, method, args, decoded, empty, rfl, rfl⟩
        · cases received
          exact .inl ⟨rfl, fun _ => rfl⟩
      · cases received
        exact .inl ⟨rfl, fun _ => rfl⟩
  · rename_i method
    cases received
    exact .inl ⟨rfl, fun same => absurd same method⟩

/-- What a call leaves at the recorder is stored for its source. -/
theorem World.receive_recorded {at_ : Receiving} {fc : FunctionCall} {outOfGas : Bool}
    {answer result : PromiseResult} {source : Option (AccountId × String)}
    (aligned : w.sources.length = w.recorder.entries.length)
    (received : w.receive decode at_ fc outOfGas answer source = (w', result)) :
    w'.sequencer = w.sequencer ∧ w'.answers = w.answers ∧
      w'.sources.length = w'.recorder.entries.length ∧
      ((∀ b, w'.recordedFor b = w.recordedFor b) ∧ (fc.methodName = "record" → result = .failed) ∨
      ∃ bytes entry, fc.methodName = "record" ∧ fc.args = .raw bytes ∧ decode bytes = some entry ∧
        (∃ returned, result = .successful returned) ∧
        ∀ b, w'.recordedFor b = w.recordedFor b ++
          if source.map Prod.fst = some b then [entry] else []) := by
  unfold World.receive at received
  cases ran : w.recorder.receive decode at_ fc outOfGas answer with
  | mk recorder result' =>
      rw [ran] at received
      cases received
      refine ⟨rfl, rfl, ?_⟩
      rcases Recorder.receive_cases ran with ⟨rfl, failed⟩ | ⟨bytes, stepId, value, method, args,
        decoded, -, entries, answered⟩
      · have none_ : w.sources ++ List.replicate (w.recorder.entries.length -
            w.recorder.entries.length) source = w.sources := by
          rw [Nat.sub_self, List.replicate_zero, List.append_nil]
        refine ⟨(congrArg List.length none_).trans aligned, .inl ⟨fun b => ?_, failed⟩⟩
        rw [World.recordedFor, World.recordedFor, none_]
      · have one : recorder.entries.length - w.recorder.entries.length = 1 := by
          rw [entries, List.length_append, List.length_singleton]
          omega
        refine ⟨?_, .inr ⟨bytes, (stepId, value), method, args, decoded, ⟨_, answered⟩,
          fun b => ?_⟩⟩
        · rw [one, entries, List.length_append, List.length_append, aligned]
          rfl
        · rw [World.recordedFor, World.recordedFor, one, entries, List.replicate_one,
            List.zip_append aligned, List.filterMap_append]
          congr 1
          by_cases own : source.map Prod.fst = some b
          · simp [own]
          · simp [own]

namespace Tied

/-- A call of the recorder by somebody else is recorded for no caller. -/
theorem direct (tied : Tied w) (at_ : Receiving) (fc : FunctionCall) (outOfGas : Bool)
    (answer : PromiseResult) :
    Effect recorderId decode w (w.receive decode at_ fc outOfGas answer none).1 fun _ => [] := by
  cases received : w.receive decode at_ fc outOfGas answer none with
  | mk w' result =>
      obtain ⟨sequencer, answers, aligned, stored⟩ := World.receive_recorded tied.aligned received
      have view : w'.view = w.view := by
        funext key
        rw [World.view, World.view, sequencer, answers]
      refine .still ⟨?_, ?_, ?_, aligned⟩ view (fun b => ?_) fun b => ?_
      · rw [sequencer]
        exact tied.owned
      · rw [sequencer]
        exact tied.kept
      · rw [sequencer, answers]
        exact tied.answered
      · rw [World.queue, World.queue, sequencer]
      · rcases stored with ⟨same, -⟩ | ⟨_, _, -, -, -, -, same⟩
        · exact same b
        · rw [same]
          exact List.append_nil _

/-- The call of a step runs and has this answer. -/
theorem answer (tied : Tied w) {stepId : String} {yielded : RegisteredStep} {fc : FunctionCall}
    {thens : List Then} (registered : w.sequencer.getStep c stepId = some yielded)
    (flying : w.sequencer.pool.get yielded.yieldId = some ⟨.call fc, thens⟩)
    (unanswered : w.answers yielded.yieldId = none) {result : PromiseResult}
    (sequencer : w'.sequencer = w.sequencer)
    (answers : w'.answers = update w.answers yielded.yieldId (some result))
    (aligned : w'.sources.length = w'.recorder.entries.length)
    (recorded : ∀ b, w'.recordedFor b = w.recordedFor b ++
      if b = c then (entryOf recorderId decode (yielded.call, result)).toList else []) :
    Effect recorderId decode w w' (only c [.ran yielded.call result]) := by
  obtain ⟨-, f, flying', kept⟩ := tied.kept _ _ _ registered
  obtain rfl := Option.some.inj (flying'.symm.trans flying)
  obtain ⟨tied', view⟩ := tied.setFlight registered kept (fun b sid => by rw [sequencer])
    (fun id => by
      rw [sequencer]
      split
      · rename_i same
        exact same ▸ flying
      · rfl)
    (by rw [sequencer]) (fun id other => by rw [answers, update_of_ne other])
    (fun _ => ⟨fc, rfl⟩) aligned
  rw [answers, update_self] at view
  have queue : ∀ b, w'.queue b = w.queue b := fun b => by rw [World.queue, World.queue, sequencer]
  have stored := line_eq registered flying
  rw [unanswered] at stored
  refine .of_move tied' view (fun b _ => queue b) ?_ fun b => ?_
  · rw [queue]
    exact .run stored result
  · rw [recorded]
    unfold only
    split
    · cases left : entryOf recorderId decode (yielded.call, result) <;>
        simp [Release.runs, left]
    · rfl

/-- A call runs at its receiver. -/
theorem execute (tied : Tied w) (sequencerId : AccountId) (id : Nat) (signerId : AccountId)
    (blockHeight timestampMs : Nat) (outOfGas : Bool) (result : PromiseResult) :
    ∃ labels, (∀ b, Release.Unstarted (labels b)) ∧ Effect recorderId decode w
      (w.execute sequencerId recorderId decode id signerId blockHeight timestampMs outOfGas result)
        labels := by
  have unstarted : ∀ (c : AccountId) (call : Step) (result : PromiseResult) (b : AccountId),
      Release.Unstarted (only c [Label.ran call result] b) := by
    intro c call result b order inside
    cases List.mem_singleton.mp (mem_only.mp inside).2
  unfold World.execute
  split
  · rename_i fc t rest flying unanswered
    obtain ⟨c, stepId, yielded, registered, rfl⟩ := tied.owned _ _ flying
    obtain ⟨named, f, flying', kept⟩ := tied.kept _ _ _ registered
    obtain rfl := Option.some.inj (flying'.symm.trans flying)
    cases kept with
    | asleep head_ => rcases head_ with eq | ⟨_, eq⟩ <;> cases eq
    | called =>
        by_cases here : (dispatchPromiseForCall yielded.call).call.receiverId = recorderId
        · rw [if_pos here]
          split
          rename_i received result' ran
          obtain ⟨sequencer, answers, aligned, stored⟩ := World.receive_recorded tied.aligned ran
          refine ⟨_, unstarted c yielded.call result', tied.answer registered flying unanswered
            sequencer rfl aligned fun b => ?_⟩
          show received.recordedFor b = _
          rcases stored with ⟨same, failed⟩ | ⟨bytes, entry, method, args, decoded, ⟨_, rfl⟩, same⟩
          · have nothing : entryOf recorderId decode (yielded.call, result') = none := by
              unfold entryOf recordOf
              split
              · rename_i returned successful
                refine if_neg fun ⟨_, method⟩ => ?_
                rw [failed method] at successful
                cases successful
              · rfl
            rw [same, nothing]
            split <;> exact (List.append_nil _).symm
          · have left : ∀ returned, entryOf recorderId decode (yielded.call, .successful returned) =
                some entry := by
              intro returned
              cases args
              exact (if_pos ⟨here, method⟩).trans decoded
            rw [same, left]
            congr 1
            exact if_congr
              ⟨fun own => (Option.some.inj own).symm, fun own => congrArg some own.symm⟩ rfl rfl
        · rw [if_neg here]
          refine ⟨_, unstarted c yielded.call result, tied.answer registered flying unanswered rfl
            rfl tied.aligned fun b => ?_⟩
          have nothing : entryOf recorderId decode (yielded.call, result) = none := by
            unfold entryOf recordOf
            split
            · exact if_neg fun same => here same.1
            · rfl
          rw [nothing]
          show w.recordedFor b = _
          split <;> exact (List.append_nil _).symm
  · exact ⟨_, fun _ _ inside => absurd inside List.not_mem_nil, .refl tied⟩

/-! ## Callbacks -/

/-- The signal of a woken step dispatches its call. -/
theorem dispatch (tied : Tied w) {stepId : String} {yielded : RegisteredStep} {bytes : Bytes}
    {gas : Nat} (registered : w.sequencer.getStep c stepId = some yielded)
    (flying : w.sequencer.pool.get yielded.yieldId =
      some ⟨.done (.successful bytes), [⟨.onStepResumed c stepId, gas⟩]⟩)
    (enough : yielded.call.gasTgas + stepResolveCallbackGasTgas < gas) (answer : PromiseResult)
    {balance : Nat} (covers : w.sequencer.attaches yielded.yieldId answer ≤ balance) :
    Effect recorderId decode w
      { w with sequencer := w.sequencer.deliver balance yielded.yieldId answer }
      (only c [.quiet]) := by
  have named := (tied.kept _ _ _ registered).1
  have unanswered := tied.unanswered flying nofun
  have paid : (dispatchPromiseForCall yielded.call).call.depositYocto ≤ balance := by
    rw [Sequencer.attaches, flying] at covers
    simp only [Head.outcome, Sequencer.runCallback, Sequencer.onStepResumed, registered] at covers
    exact covers
  have delivered : w.sequencer.deliver balance yielded.yieldId answer =
      { w.sequencer.note (.called yielded.yieldId (dispatchPromiseForCall yielded.call).call) with
        pool := w.sequencer.pool.update yielded.yieldId
          ⟨.call (dispatchPromiseForCall yielded.call).call,
            [⟨.onStepResolved c stepId, stepResolveCallbackGasTgas⟩]⟩ } := by
    rw [Sequencer.deliver, flying]
    simp only [Head.outcome, Sequencer.runThen, Sequencer.runCallback, Sequencer.onStepResumed,
      registered]
    rw [if_pos]
    · rfl
    · refine ⟨paid, ?_⟩
      simp only [Promise.staticGas, dispatchPromiseForCall, List.nil_append, List.map_cons,
        List.map_nil, List.sum_cons, List.sum_nil]
      omega
  have kept : Kept c yielded.call ⟨.call (dispatchPromiseForCall yielded.call).call,
      [⟨.onStepResolved c stepId, stepResolveCallbackGasTgas⟩]⟩ := named ▸ .called
  obtain ⟨tied', view⟩ := @tied.setFlight w
    { w with sequencer := w.sequencer.deliver balance yielded.yieldId answer } c stepId yielded _
    registered kept (fun b sid => by rw [delivered]; rfl)
    (fun id => by
      rw [delivered]
      show (w.sequencer.pool.update _ _).get id = _
      rw [Pool.get_update, flying]
      rfl)
    (by rw [delivered]; rfl) (fun _ _ => rfl) (fun some_ => absurd unanswered some_) tied.aligned
  have stored := line_eq registered flying
  refine .of_move tied' view (fun b _ => ?_) ?_ (recorded_of_quiet rfl c)
  · rw [World.queue, World.queue, delivered]
    rfl
  · have queue : World.queue
        { w with sequencer := w.sequencer.deliver balance yielded.yieldId answer } c =
        w.queue c := by
      rw [World.queue, World.queue, delivered]
      rfl
    dsimp only at view ⊢
    rw [queue, unanswered]
    exact .call stored

/-- A step whose signal failed goes, and the queue of its caller with it. -/
theorem expire (tied : Tied w) {stepId : String} {yielded : RegisteredStep} {gas : Nat}
    (registered : w.sequencer.getStep c stepId = some yielded)
    (flying : w.sequencer.pool.get yielded.yieldId =
      some ⟨.done .failed, [⟨.onStepResumed c stepId, gas⟩]⟩) (answer : PromiseResult)
    (balance : Nat) :
    Effect recorderId decode w
      { w with sequencer := w.sequencer.deliver balance yielded.yieldId answer }
      (only c [.quiet]) := by
  have delivered : w.sequencer.deliver balance yielded.yieldId answer =
      { (w.sequencer.removeStep c stepId).clearQueue c with
        pool := w.sequencer.pool.remove yielded.yieldId } := by
    rw [Sequencer.deliver, flying]
    simp only [Head.outcome, Sequencer.runThen, Sequencer.runCallback, Sequencer.onStepResumed,
      registered]
    rfl
  obtain ⟨tied', view⟩ := @tied.drop w
    { w with sequencer := w.sequencer.deliver balance yielded.yieldId answer } c stepId yielded
    registered (fun b sid => by
      rw [delivered]
      exact Sequencer.getStep_removeStep w.sequencer c b stepId sid)
    (fun id => by
      rw [delivered]
      exact Pool.get_remove _ _ _)
    (by rw [delivered]; rfl) rfl tied.aligned
  have queue : ∀ b,
      World.queue { w with sequencer := w.sequencer.deliver balance yielded.yieldId answer } b =
        if b = c then [] else w.queue b := by
    intro b
    rw [World.queue, delivered]
    show (((w.sequencer.removeStep c stepId).clearQueue c).contract.sequenceQueue.get _).getD [] = _
    rw [Sequencer.queue_clearQueue]
    split <;> rfl
  have stored := line_eq registered flying
  refine .of_move tied' view (fun b other => (queue b).trans (if_neg other)) ?_
    (recorded_of_quiet rfl c)
  rw [queue, if_pos rfl]
  exact .drop stored

/-- The queue of one caller is this one now, and nothing else has changed that the lines show. -/
structure Requeued (s q : Sequencer) (c : AccountId) (waiting : List String) : Prop where
  steps : q.contract.registeredSteps = s.contract.registeredSteps
  pool : q.pool = s.pool
  queues : ∀ b, (q.contract.sequenceQueue.get (sequenceQueueKey b)).getD [] =
    if b = c then waiting else (s.contract.sequenceQueue.get (sequenceQueueKey b)).getD []

theorem Requeued.clear {s q : Sequencer} {waiting : List String}
    (requeued : Requeued s q c waiting) :
    Requeued s (q.clearQueue c) c [] where
  steps := requeued.steps
  pool := requeued.pool
  queues b := by
    rw [Sequencer.queue_clearQueue]
    split
    · rfl
    · rename_i other
      exact (requeued.queues b).trans (if_neg other)

theorem Requeued.set (s : Sequencer) (c : AccountId) (waiting : List String) :
    Requeued s (s.setQueue c waiting) c waiting where
  steps := rfl
  pool := rfl
  queues b := by
    rw [Sequencer.queue_setQueue]
    split <;> rfl

theorem Requeued.refl {s : Sequencer} {c : AccountId} {waiting : List String}
    (queued : (s.contract.sequenceQueue.get (sequenceQueueKey c)).getD [] = waiting) :
    Requeued s s c waiting where
  steps := rfl
  pool := rfl
  queues b := by
    split
    · rename_i same
      rw [same, queued]
    · rfl

/-- After a resolution the queue is gone, or its head was resumed. -/
inductive Progressed (s : Sequencer) (c : AccountId) : Sequencer → Prop
  | ended {s' : Sequencer} (requeued : Requeued s s' c []) : Progressed s c s'
  | resumed {s' q : Sequencer} {next : String} {rest : List String}
      (queued : s.contract.sequenceQueue.get (sequenceQueueKey c) = some (next :: rest))
      (requeued : Requeued s q c rest) (resumed : q.resumeRegisteredStep c next = .ok s') :
      Progressed s c s'

theorem progressed (s : Sequencer) (c : AccountId) :
    Progressed s c (s.progressAfterSuccessfulResolution c) := by
  have taken : ∀ {next : String} {rest : List String} {q : Sequencer},
      s.contract.sequenceQueue.get (sequenceQueueKey c) = some (next :: rest) →
      s.takeNextQueuedStep c = (some next, q) → Requeued s q c rest →
      Progressed s c (s.progressAfterSuccessfulResolution c) := by
    intro next rest q queued took requeued
    unfold Sequencer.progressAfterSuccessfulResolution
    rw [took]
    dsimp only
    split
    · rename_i s' resumed
      exact .resumed queued requeued resumed
    · exact .ended requeued.clear
  have drained : ∀ {q : Sequencer}, s.takeNextQueuedStep c = (none, q) → Requeued s q c [] →
      Progressed s c (s.progressAfterSuccessfulResolution c) := by
    intro q took requeued
    unfold Sequencer.progressAfterSuccessfulResolution
    rw [took]
    exact .ended requeued
  unfold Sequencer.takeNextQueuedStep at taken drained
  cases queued : s.contract.sequenceQueue.get (sequenceQueueKey c) with
  | none =>
      rw [queued] at drained
      exact drained rfl (.refl (by rw [queued]; rfl))
  | some waiting =>
      rw [queued] at taken drained
      cases waiting with
      | nil => exact drained rfl (Requeued.refl rfl).clear
      | cons next rest =>
          cases rest with
          | nil => exact taken rfl rfl (Requeued.refl rfl).clear
          | cons second rest => exact taken rfl rfl (.set s c _)

/-- The answered step goes and the next one wakes. -/
theorem onward (tied : Tied w) {stepId next : String} {yielded : RegisteredStep}
    {result : PromiseResult} {rest : List String} {q s' : Sequencer}
    (registered : w.sequencer.getStep c stepId = some yielded)
    (stored : (w.line c).step stepId = some (yielded.call, .called (some result)))
    (accepted : Accepted result)
    (queued : (w.sequencer.removeStep c stepId).contract.sequenceQueue.get (sequenceQueueKey c) =
      some (next :: rest))
    (requeued : Requeued (w.sequencer.removeStep c stepId) q c rest)
    (resumed : q.resumeRegisteredStep c next = .ok s') :
    Effect recorderId decode w
      { w with sequencer := { s' with pool := s'.pool.remove yielded.yieldId } }
      (only c [.quiet]) := by
  have removedStep := Sequencer.getStep_removeStep w.sequencer c
  obtain ⟨yielded', thens', registered', flying', rfl⟩ :=
    Sequencer.resumeRegisteredStep_cases resumed
  have steps : ∀ b sid, q.getStep b sid =
      if b = c ∧ sid = stepId then none else w.sequencer.getStep b sid := fun b sid => by
    rw [← removedStep, Sequencer.getStep, requeued.steps]
    rfl
  have other : next ≠ stepId := by
    rintro rfl
    rw [steps, if_pos ⟨rfl, rfl⟩] at registered'
    cases registered'
  have registered'' := registered'
  rw [steps, if_neg fun same => other same.2] at registered''
  have pool : q.pool = w.sequencer.pool := requeued.pool
  rw [pool] at flying'
  have apart : yielded'.yieldId ≠ yielded.yieldId := fun same =>
    other (tied.key_eq registered registered'' same).2
  -- the world without the answered step
  let w₁ : World := { w with sequencer := { q with
    pool := w.sequencer.pool.remove yielded.yieldId } }
  obtain ⟨tied₁, view₁⟩ := @tied.drop w w₁ c stepId yielded registered steps
    (fun id => Pool.get_remove _ _ _) rfl rfl tied.aligned
  have line₁ := World.line_of_view view₁ fun b apart' => (requeued.queues b).trans (if_neg apart')
  -- the world with the next step awake as well
  let w₂ : World := { w with sequencer := { q with
    pool := (q.pool.update yielded'.yieldId (woken thens')).remove yielded.yieldId
    trace := q.trace ++ [.resumed yielded'.yieldId] } }
  show Effect recorderId decode w w₂ (only c [.quiet])
  obtain ⟨waits, tied', view'⟩ := @wake w₁ w₂ c tied₁ next yielded' thens' registered'
    ((Pool.get_remove w.sequencer.pool _ _).trans ((if_neg apart).trans flying')) (fun _ _ => rfl)
    (fun id => by
      show ((q.pool.update _ _).remove _).get id =
        if id = yielded'.yieldId then _ else (w.sequencer.pool.remove _).get id
      rw [Pool.get_remove, Pool.get_remove, pool, Pool.get_update, flying']
      by_cases same : id = yielded'.yieldId
      · rw [if_pos same, if_pos same, if_neg (same ▸ apart)]
        rfl
      · rw [if_neg same, if_neg same])
    (show q.pool.next = w.sequencer.pool.next from congrArg Pool.next pool) rfl tied.aligned
  have line' := World.line_of_view view' fun _ _ => rfl
  refine ⟨tied', fun b => ?_, recorded_of_quiet rfl c⟩
  by_cases same : b = c
  · subst same
    have waits' : (w.line b).step next = some (yielded'.call, .waiting) := by
      rw [line₁.1] at waits
      exact ((w.line b).set_of_ne other _).symm.trans waits
    rw [only, if_pos rfl, line'.1, line₁.1]
    have queue : w₁.queue b = rest := (requeued.queues b).trans (if_pos rfl)
    have queue' : (w.line b).queue = next :: rest := by
      show (w.sequencer.contract.sequenceQueue.get _).getD [] = _
      have here : w.sequencer.contract.sequenceQueue.get (sequenceQueueKey b) =
        some (next :: rest) := queued
      rw [here]
      rfl
    exact .single (queue ▸ .next stored accepted queue' other waits')
  · rw [only, if_neg same, line'.2 b same, line₁.2 b same]
    exact .nil _

/-- The callback of a call that has its answer ends its step, and may wake the next one. -/
theorem resolve (tied : Tied w) {stepId : String} {yielded : RegisteredStep} {fc : FunctionCall}
    {gas : Nat} {result : PromiseResult}
    (registered : w.sequencer.getStep c stepId = some yielded)
    (flying : w.sequencer.pool.get yielded.yieldId =
      some ⟨.call fc, [⟨.onStepResolved c stepId, gas⟩]⟩)
    (answered : w.answers yielded.yieldId = some result) (balance : Nat) :
    Effect recorderId decode w
      { w with sequencer := w.sequencer.deliver balance yielded.yieldId result }
      (only c [.quiet]) := by
  have delivered : w.sequencer.deliver balance yielded.yieldId result =
      { w.sequencer.onStepResolved c stepId result with
        pool := (w.sequencer.onStepResolved c stepId result).pool.remove yielded.yieldId } := by
    rw [Sequencer.deliver, flying]
    rfl
  have stored : (w.line c).step stepId = some (yielded.call, .called (some result)) := by
    rw [line_eq registered flying, answered]
    rfl
  have removedStep := Sequencer.getStep_removeStep w.sequencer c
  rw [delivered]
  -- the step is gone and the queue is empty, or the next step is awake as well
  have finish : ∀ {s' : Sequencer}, Requeued (w.sequencer.removeStep c stepId) s' c [] →
      Effect recorderId decode w
        { w with sequencer := { s' with pool := s'.pool.remove yielded.yieldId } }
        (only c [.quiet]) := by
    intro s' requeued
    obtain ⟨tied', view⟩ := @tied.drop w
      { w with sequencer := { s' with pool := s'.pool.remove yielded.yieldId } } c stepId yielded
      registered
      (fun b sid => by
        rw [← removedStep, Sequencer.getStep, requeued.steps]
        rfl)
      (fun id => by
        show (s'.pool.remove _).get id = _
        rw [requeued.pool]
        exact Pool.get_remove _ _ _)
      (show s'.pool.next = _ by rw [requeued.pool]; rfl) rfl tied.aligned
    refine .of_move tied' view (fun b other => (requeued.queues b).trans (if_neg other)) ?_
      (recorded_of_quiet rfl c)
    have queue : World.queue { w with sequencer := { s' with
        pool := s'.pool.remove yielded.yieldId } } c = [] :=
      (requeued.queues c).trans (if_pos rfl)
    rw [queue]
    exact .finish stored
  unfold Sequencer.onStepResolved
  dsimp only
  split
  · rename_i bytes checked
    cases progressed (w.sequencer.removeStep c stepId) c with
    | ended requeued => exact finish requeued
    | resumed queued requeued resumed =>
        exact tied.onward registered stored ⟨bytes, checked⟩ queued requeued resumed
  · exact finish (Requeued.refl rfl).clear

end Tied

end SmartAccount.SimpleSequencer
