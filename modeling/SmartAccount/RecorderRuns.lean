import SmartAccount.RecorderReceipts

/-!
# What the recorder stores for a release

Every event moves the lines of the callers (`Tied.step`), so what the recorder stores for a
caller's release is what a prefix of its plan records, in the plan's order (`recorded_in_order`).
-/

namespace SmartAccount.SimpleSequencer

open Foundation Function
open Foundation.Release (Stage Line Label Move Moves)

section Events

variable {recorderId : AccountId} {decode : Bytes → Option (String × UInt32)}
  {w w' w'' : World} {c : AccountId}

/-! ## Events -/

/-- The event starts a release of the caller. -/
def World.releases (w : World) (callerId : AccountId) : World.Event → Prop
  | .transact env method =>
      env.predecessor = callerId ∧ (∀ input, method ≠ .registerStep input) ∧
        ∃ called, Sequencer.call env w.sequencer method = .ok called
  | _ => False

namespace Tied

/-- A public call registers steps, or starts a release of its caller, or both. -/
theorem transact (tied : Tied w) (env : Env) (method : Sequencer.Method) :
    ∃ labels, (∀ b order, .start order ∈ labels b → w.releases b (.transact env method)) ∧
      Effect recorderId decode w { w with sequencer := w.sequencer.transact env method }
        labels := by
  unfold Sequencer.transact
  split
  · rename_i called ok
    have released : (∀ input, method ≠ .registerStep input) → ∀ {labels},
        ∀ b order, Label.start order ∈ only env.predecessor labels b →
          w.releases b (.transact env method) :=
      fun releasing _ b _ inside => ⟨(mem_only.mp inside).1.symm, releasing, called, ok⟩
    obtain ⟨_, -, ok⟩ := bind_eq_ok.mp ok
    cases method with
    | executeSteps steps =>
        obtain ⟨⟨_, n⟩, executed, rfl⟩ := map_eq_ok.mp ok
        simp only [Sequencer.executeSteps, bind_eq_ok] at executed
        obtain ⟨-, -, -, -, stored, registered, started⟩ := executed
        have first : Effect recorderId decode w { w with sequencer := stored } _ :=
          tied.registerInputs registered
        have whole := first.trans (first.tied.startRelease started)
        rw [only_append] at whole
        exact ⟨_, released fun _ same => (by cases same), whole⟩
    | registerStep input =>
        obtain ⟨call, -, registered⟩ := bind_eq_ok.mp ok
        obtain ⟨absent, rfl⟩ := Sequencer.registerStepForCaller_eq_ok.mp registered
        refine ⟨_, fun b order inside => ?_, tied.storeStep absent⟩
        cases quiet_only _ b _ inside
    | runSequence callerId order =>
        obtain ⟨⟨_, n⟩, sequenced, rfl⟩ := map_eq_ok.mp ok
        obtain ⟨_, own, started⟩ := bind_eq_ok.mp sequenced
        rw [require_eq_ok, decide_eq_true_eq] at own
        subst own
        exact ⟨_, released fun _ same => (by cases same), tied.startRelease started⟩
  · exact ⟨_, fun b order inside => absurd inside List.not_mem_nil, .refl tied⟩

/-- The next callback of a flight runs. -/
theorem callback (tied : Tied w) (id : Nat) :
    ∃ labels, Quiet labels ∧ Effect recorderId decode w (w.callback id) labels := by
  unfold World.callback
  cases flying : w.sequencer.pool.get id with
  | none =>
      dsimp only
      rw [Sequencer.deliver_idle _ _ flying]
      exact ⟨_, quiet_nil, .refl tied⟩
  | some f =>
      obtain ⟨c, stepId, yielded, registered, rfl⟩ := tied.owned _ _ flying
      obtain ⟨rfl, f', flying', kept⟩ := tied.kept _ _ _ registered
      obtain rfl := Option.some.inj (flying'.symm.trans flying)
      cases kept with
      | asleep head_ enough =>
          rcases head_ with rfl | ⟨result, rfl⟩
          · have same : w.sequencer.deliver (w.sequencer.attaches yielded.yieldId
                ((w.answers yielded.yieldId).getD .failed)) yielded.yieldId
                ((w.answers yielded.yieldId).getD .failed) = w.sequencer := by
              rw [Sequencer.deliver, flying]
              rfl
            dsimp only
            rw [same]
            exact ⟨_, quiet_nil, .refl tied⟩
          · cases result with
            | successful bytes =>
                exact ⟨_, quiet_only c, tied.dispatch registered flying enough _ (Nat.le_refl _)⟩
            | failed => exact ⟨_, quiet_only c, tied.expire registered flying _ _⟩
      | called =>
          cases answered : w.answers yielded.yieldId with
          | none => exact ⟨_, quiet_nil, .refl tied⟩
          | some result => exact ⟨_, quiet_only c, tied.resolve registered flying answered _⟩

theorem step (tied : Tied w) (sequencerId : AccountId) (event : World.Event) :
    ∃ labels, (∀ b order, .start order ∈ labels b → w.releases b event) ∧
      Effect recorderId decode w (w.step sequencerId recorderId decode event) labels := by
  have unstarted : ∀ {w' : World}, (∃ labels, Quiet labels ∧
      Effect recorderId decode w w' labels) →
      ∃ labels, (∀ b order, .start order ∈ labels b → w.releases b event) ∧
        Effect recorderId decode w w' labels := by
    rintro w' ⟨labels, quiet, effect⟩
    exact ⟨labels, fun b order inside => absurd (quiet b _ inside) nofun, effect⟩
  cases event with
  | transact env method => exact tied.transact env method
  | timeout id => exact unstarted (tied.timeout id)
  | execute id signerId blockHeight timestampMs outOfGas answer =>
      obtain ⟨labels, silent, effect⟩ :=
        tied.execute sequencerId id signerId blockHeight timestampMs outOfGas answer
      exact ⟨labels, fun b order inside => absurd inside (silent b order), effect⟩
  | callback id => exact unstarted (tied.callback id)
  | direct at_ fc outOfGas answer =>
      exact unstarted ⟨_, quiet_nil, tied.direct at_ fc outOfGas answer⟩

end Tied

end Events

/-! ## Runs -/

section Runs

variable (sequencerId recorderId : AccountId) (decode : Bytes → Option (String × UInt32))

/-- No event of a run starts a release of the caller. -/
def World.Unreleased (w : World) (callerId : AccountId) : List World.Event → Prop
  | [] => True
  | event :: rest => ¬ w.releases callerId event ∧
      (w.step sequencerId recorderId decode event).Unreleased callerId rest

/-- The calls that a release of this method makes, in order. -/
def Sequencer.planned (s : Sequencer) : Sequencer.Method → Option (List Step)
  | .executeSteps steps => some steps
  | .registerStep _ => none
  | .runSequence callerId order =>
      order.mapM fun stepId => (s.getStep callerId stepId).map RegisteredStep.call

variable {sequencerId recorderId decode} {w w' : World} {c : AccountId}

theorem Tied.run (tied : Tied w) (events : List World.Event) :
    Tied (w.run sequencerId recorderId decode events) := by
  induction events generalizing w with
  | nil => exact tied
  | cons event rest ih =>
      obtain ⟨_, -, effect⟩ := tied.step sequencerId event
      exact ih effect.tied

/-- A run without a release of the caller moves its line. -/
theorem Tied.run_effect (tied : Tied w) (events : List World.Event)
    (unreleased : w.Unreleased sequencerId recorderId decode c events) :
    ∃ labels, Release.Unstarted (labels c) ∧
      Effect recorderId decode w (w.run sequencerId recorderId decode events) labels := by
  induction events generalizing w with
  | nil => exact ⟨_, fun _ => List.not_mem_nil, .refl tied⟩
  | cons event rest ih =>
      obtain ⟨labels, started, effect⟩ := @step recorderId decode w tied sequencerId event
      obtain ⟨labels', silent, effects⟩ := ih effect.tied unreleased.2
      refine ⟨_, fun order inside => ?_, effect.trans effects⟩
      rcases List.mem_append.mp inside with here | later
      · exact unreleased.1 (started c order here)
      · exact silent order later

/-- The recorder has stored what a prefix of the plan records. -/
theorem follows_recorded {calls : List Step} {ran : List (Step × PromiseResult)}
    (follows : Release.Follows Accepted (calls.map fun call => (call.stepId, call)) ran) :
    ∃ k, ran.filterMap (entryOf recorderId decode) =
      (calls.take k).filterMap (recordOf recorderId decode) := by
  obtain ⟨k, made⟩ := follows.calls
  have first : ran.map Prod.fst <+: calls := by
    have shape : ran.map Prod.fst = calls.take k := by
      rw [made, ← List.map_take, List.map_map]
      exact List.map_id _
    exact shape ▸ List.take_prefix k calls
  have told : ∀ entry : Step × PromiseResult, Accepted entry.2 →
      entryOf recorderId decode entry = recordOf recorderId decode entry.1 := by
    rintro ⟨call, result⟩ ⟨bytes, checked⟩
    cases result with
    | failed => cases checked
    | successful returned => rfl
  have recorded : ∀ entries : List (Step × PromiseResult), entries.map Prod.fst <+: calls →
      (∀ entry ∈ entries, entryOf recorderId decode entry = recordOf recorderId decode entry.1) →
      entries.filterMap (entryOf recorderId decode) =
        (calls.take entries.length).filterMap (recordOf recorderId decode) := by
    intro entries before same
    rw [List.prefix_iff_eq_take, List.length_map] at before
    rw [← before, List.filterMap_map]
    exact List.filterMap_congr same
  rcases List.eq_nil_or_concat ran with rfl | ⟨settled, ⟨call, result⟩, rfl⟩
  · exact ⟨0, rfl⟩
  · have accepted := follows.accepted
    rw [List.concat_eq_append] at first accepted ⊢
    rw [List.dropLast_concat] at accepted
    have same : ∀ entry ∈ settled, _ := fun entry inside => told entry (accepted entry inside)
    cases result with
    | successful returned =>
        refine ⟨_, recorded _ first fun entry inside => ?_⟩
        rcases List.mem_append.mp inside with old | last
        · exact same entry old
        · rw [List.mem_singleton.mp last]
          rfl
    | failed =>
        -- the call that failed recorded nothing
        rw [List.map_append] at first
        rw [List.filterMap_append, recorded settled ((List.prefix_append _ _).trans first) same]
        exact ⟨settled.length, List.append_nil _⟩

theorem Sequencer.registerInputs_keeps {s s' : Sequencer} {now spareGas : Nat} {inputs : List Step}
    (registered : s.registerInputs now spareGas c inputs = .ok s') {b : AccountId} {sid : String}
    {y : RegisteredStep} (stored : s.getStep b sid = some y) : s'.getStep b sid = some y := by
  induction inputs generalizing s with
  | nil =>
      cases registered
      exact stored
  | cons input rest ih =>
      obtain ⟨call, -, registered⟩ := bind_eq_ok.mp registered
      obtain ⟨_, first, later⟩ := bind_eq_ok.mp registered
      obtain ⟨absent, rfl⟩ := Sequencer.registerStepForCaller_eq_ok.mp first
      refine ih later ?_
      rw [Sequencer.getStep_storeStep, if_neg, stored]
      rintro ⟨rfl, rfl⟩
      rw [absent] at stored
      cases stored

theorem Sequencer.registerInputs_stored {s s' : Sequencer} {now spareGas : Nat} {inputs : List Step}
    (registered : s.registerInputs now spareGas c inputs = .ok s') :
    ∀ call ∈ inputs, ∃ y, s'.getStep c call.stepId = some y ∧ y.call = call := by
  induction inputs generalizing s with
  | nil => exact fun _ inside => absurd inside List.not_mem_nil
  | cons input rest ih =>
      obtain ⟨call, validated, registered⟩ := bind_eq_ok.mp registered
      obtain ⟨_, first, later⟩ := bind_eq_ok.mp registered
      obtain ⟨-, rfl⟩ := Sequencer.registerStepForCaller_eq_ok.mp first
      obtain ⟨_, -, same⟩ := bind_eq_ok.mp validated
      obtain rfl := Except.ok.inj same
      intro call inside
      rcases List.mem_cons.mp inside with rfl | behind
      · have here : (s.storeStep now spareGas c call).getStep c call.stepId =
            some ⟨s.pool.next, call, now⟩ := by
          rw [Sequencer.getStep_storeStep, if_pos ⟨rfl, rfl⟩]
        exact ⟨_, Sequencer.registerInputs_keeps later here, rfl⟩
      · exact ih later call behind

/-- The plan of a registered order has its steps, under their ids. -/
theorem Tied.planned_steps (tied : Tied w) {order : List String} {calls : List Step}
    (planned : (order.mapM fun stepId =>
      (w.sequencer.getStep c stepId).map RegisteredStep.call) = some calls) :
    order = calls.map Step.stepId ∧
      ∀ call ∈ calls, ∃ y, w.sequencer.getStep c call.stepId = some y ∧ y.call = call := by
  induction order generalizing calls with
  | nil =>
      cases planned
      exact ⟨rfl, fun _ inside => absurd inside List.not_mem_nil⟩
  | cons stepId rest ih =>
      simp only [List.mapM_cons, Option.bind_eq_bind, Option.bind_eq_some_iff,
        Option.map_eq_some_iff, Option.pure_def, Option.some.injEq] at planned
      obtain ⟨_, ⟨y, stored, rfl⟩, behind, later, rfl⟩ := planned
      obtain ⟨rfl, known⟩ := ih later
      obtain ⟨rfl, -⟩ := tied.kept _ _ _ stored
      refine ⟨rfl, fun call inside => ?_⟩
      rcases List.mem_cons.mp inside with rfl | old
      · exact ⟨y, stored, rfl⟩
      · exact known call old

/-- An accepted release registers what it brings and starts on its plan. -/
theorem Tied.release (tied : Tied w) {env : Env} {method : Sequencer.Method} {calls : List Step}
    {called : Sequencer} (idle : (w.line env.predecessor).Idle)
    (planned : w.sequencer.planned method = some calls)
    (distinct : ∀ callerId order, method = .runSequence callerId order → order.Nodup)
    (ok : Sequencer.call env w.sequencer method = .ok called) :
    ∃ w₁ : World, (w₁.line env.predecessor).Idle ∧
      w₁.recordedFor env.predecessor = w.recordedFor env.predecessor ∧
      (calls.map Step.stepId).Nodup ∧
      (∀ call ∈ calls, ∃ stage,
        (w₁.line env.predecessor).step call.stepId = some (call, stage)) ∧
      Effect recorderId decode w₁ { w with sequencer := called }
        (only env.predecessor [.start (calls.map Step.stepId)]) := by
  obtain ⟨_, -, ok⟩ := bind_eq_ok.mp ok
  cases method with
  | registerStep input => cases planned
  | executeSteps steps =>
      cases planned
      obtain ⟨⟨_, n⟩, executed, rfl⟩ := map_eq_ok.mp ok
      simp only [Sequencer.executeSteps, bind_eq_ok] at executed
      obtain ⟨-, -, _, apart, stored, registered, started⟩ := executed
      have first : Effect recorderId decode w { w with sequencer := stored } _ :=
        tied.registerInputs registered
      have silent : Release.Unstarted (only env.predecessor
          (List.replicate calls.length (.quiet : Label String Step PromiseResult))
          env.predecessor) := fun order inside => by
        cases List.eq_of_mem_replicate (mem_only.mp inside).2
      have idle' := idle.moves (first.moves _) silent
      refine ⟨_, idle'.1, ?_, (Machine.checkDistinct_eq_ok.mp apart).1, fun call inside => ?_,
        first.tied.startRelease started⟩
      · rw [first.recorded, idle'.2]
        exact List.append_nil _
      · obtain ⟨y, here, rfl⟩ := Sequencer.registerInputs_stored registered call inside
        obtain ⟨-, f, flying, -⟩ := first.tied.kept _ _ _ here
        exact ⟨_, line_eq here flying⟩
  | runSequence callerId order =>
      obtain ⟨⟨_, n⟩, sequenced, rfl⟩ := map_eq_ok.mp ok
      obtain ⟨_, own, started⟩ := bind_eq_ok.mp sequenced
      rw [require_eq_ok, decide_eq_true_eq] at own
      subst own
      obtain ⟨rfl, known⟩ := tied.planned_steps planned
      refine ⟨w, idle, rfl, distinct _ _ rfl, fun call inside => ?_, tied.startRelease started⟩
      obtain ⟨y, here, rfl⟩ := known call inside
      obtain ⟨-, f, flying, -⟩ := tied.kept _ _ _ here
      exact ⟨_, line_eq here flying⟩

/-- Until a caller starts a release, its line stays idle and nothing is recorded for it. -/
theorem Tied.unreleased_idle (tied : Tied w) (idle : (w.line c).Idle) (events : List World.Event)
    (unreleased : w.Unreleased sequencerId recorderId decode c events) :
    ((w.run sequencerId recorderId decode events).line c).Idle ∧
      (w.run sequencerId recorderId decode events).recordedFor c = w.recordedFor c := by
  obtain ⟨labels, silent, effect⟩ := tied.run_effect events unreleased
  obtain ⟨idle', nothing⟩ := idle.moves (effect.moves c) silent
  refine ⟨idle', ?_⟩
  rw [effect.recorded, nothing]
  exact List.append_nil _

theorem World.init_idle (c : AccountId) : (World.init.line c).Idle where
  drained := rfl
  dormant stepId call stage stored := by
    have none_ : (World.init.line c).step stepId = none := rfl
    rw [none_] at stored
    cases stored

/-- Of a release that finds its caller idle, and while the caller starts no other, the recorder
stores what a prefix of the plan records, in the plan's order: no entry is lost, doubled or out
of turn, whatever else is registered, expires or is called in between. -/
theorem recorded_in_order {before after : List World.Event} {env : Env} {method : Sequencer.Method}
    {calls : List Step}
    (planned : (World.init.run sequencerId recorderId decode before).sequencer.planned method =
      some calls)
    (distinct : ∀ callerId order, method = .runSequence callerId order → order.Nodup)
    (accepted : (Sequencer.call env
      (World.init.run sequencerId recorderId decode before).sequencer method).isOk)
    (idle : ((World.init.run sequencerId recorderId decode before).line env.predecessor).Idle)
    (unreleased : (World.init.run sequencerId recorderId decode
      (before ++ [.transact env method])).Unreleased sequencerId recorderId decode env.predecessor
        after) :
    ∃ k, (World.init.run sequencerId recorderId decode
        (before ++ .transact env method :: after)).recordedFor env.predecessor =
      (World.init.run sequencerId recorderId decode before).recordedFor env.predecessor ++
        (calls.take k).filterMap (recordOf recorderId decode) := by
  have run_append : ∀ events, World.init.run sequencerId recorderId decode (before ++ events) =
      (World.init.run sequencerId recorderId decode before).run sequencerId recorderId decode
        events := fun events => List.foldl_append
  rw [run_append] at unreleased ⊢
  have tied : Tied (World.init.run sequencerId recorderId decode before) := Tied.init.run before
  generalize World.init.run sequencerId recorderId decode before = w at *
  obtain ⟨called, ok⟩ : ∃ called, Sequencer.call env w.sequencer method = .ok called := by
    cases ran : Sequencer.call env w.sequencer method with
    | error message =>
        rw [ran] at accepted
        cases accepted
    | ok called => exact ⟨called, rfl⟩
  obtain ⟨w₁, idle₁, same, apart, known, start⟩ :=
    @Tied.release recorderId decode w tied env method calls called idle planned distinct ok
  have stepped : w.step sequencerId recorderId decode (.transact env method) =
      { w with sequencer := called } := by
    rw [World.step, Sequencer.transact, ok]
  change World.Unreleased sequencerId recorderId decode
    (w.step sequencerId recorderId decode (.transact env method)) env.predecessor
      after at unreleased
  show ∃ k, World.recordedFor ((w.step sequencerId recorderId decode
    (.transact env method)).run sequencerId recorderId decode after) _ = _
  rw [stepped] at unreleased ⊢
  obtain ⟨labels, silent, effect⟩ := start.tied.run_effect after unreleased
  have move : Move Accepted (w₁.line env.predecessor) (.start (calls.map Step.stepId))
      (World.line { w with sequencer := called } env.predecessor) := by
    have moves := start.moves env.predecessor
    rw [only, if_pos rfl] at moves
    cases moves with
    | cons first rest =>
        cases rest
        exact first
  have named : (calls.map fun call => (call.stepId, call)).map Prod.fst =
      calls.map Step.stepId := by
    rw [List.map_map]
    rfl
  have known' : ∀ entry ∈ calls.map fun call => (call.stepId, call), ∃ stage,
      (w₁.line env.predecessor).step entry.1 = some (entry.2, stage) := by
    intro entry inside
    obtain ⟨call, planned', rfl⟩ := List.mem_map.mp inside
    exact known call planned'
  obtain ⟨k, stored⟩ := follows_recorded (Moves.follows idle₁ move named known' apart
    (effect.moves env.predecessor) silent)
  refine ⟨k, ?_⟩
  rw [effect.recorded, start.recorded, same, stored, only, if_pos rfl]
  exact congrArg (· ++ _) (List.append_nil _)

end Runs

/-! ## A run -/

def recorderAccount : AccountId := ⟨"recorder.near", by decide +kernel⟩

def noteArgs (stepId : String) (value : UInt32) : Bytes :=
  utf8Bytes ("\x7b\"step_id\":\"" ++ stepId ++ "\",\"value\":" ++ toString value.toNat ++ "\x7d")

/-- What the recorder reads of the arguments in the run below. -/
def readNote (args : Bytes) : Option (String × UInt32) :=
  [("one", 7), ("two", 8), ("aside", 9)].find? fun entry => noteArgs entry.1 entry.2 = args

def note (stepId : String) (value : UInt32) : Step :=
  ⟨stepId, recorderAccount, "record", noteArgs stepId value, 0, 10⟩

/-- Alice has a step of her own registered when she starts the release. -/
def beforeNotes : List World.Event :=
  [.transact aliceEnv (.registerStep (note "aside" 9)),
    .transact marketEnv (.executeSteps [note "one" 7])]

/-- The market's release and a direct call run in between. -/
def afterNotes : List World.Event :=
  [.callback 1, .callback 2, .execute 2 alice 5 50 false .failed,
    .direct ⟨market, market, 5, 50⟩ (dispatchPromiseForCall (note "two" 8)).call false .failed,
    .execute 1 market 5 50 false .failed, .callback 1, .callback 2, .callback 3,
    .execute 3 alice 6 60 false .failed, .callback 3]

theorem notes_recorded_in_order :
    (∃ k, (World.init.run alice recorderAccount readNote (beforeNotes ++
        .transact aliceEnv (.executeSteps [note "one" 7, note "two" 8]) :: afterNotes)).recordedFor
          alice =
      (World.init.run alice recorderAccount readNote beforeNotes).recordedFor alice ++
        ([note "one" 7, note "two" 8].take k).filterMap (recordOf recorderAccount readNote)) ∧
    (World.init.run alice recorderAccount readNote (beforeNotes ++
      .transact aliceEnv (.executeSteps [note "one" 7, note "two" 8]) :: afterNotes)).recordedFor
        alice = [("one", 7), ("two", 8)] :=
  ⟨@recorded_in_order alice recorderAccount readNote beforeNotes afterNotes aliceEnv
      (.executeSteps [note "one" 7, note "two" 8]) _ rfl (fun _ _ same => by cases same)
      (by decide +kernel)
      (Tied.init.unreleased_idle (World.init_idle alice) beforeNotes
        ⟨fun releases => releases.2.1 _ rfl, fun releases => absurd releases.1 (by decide),
          trivial⟩).1
      ⟨id, id, id, id, id, id, id, id, id, id, trivial⟩,
    by decide +kernel⟩

end SmartAccount.SimpleSequencer
