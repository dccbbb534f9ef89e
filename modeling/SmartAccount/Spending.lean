import SmartAccount.RunSoundness

/-!
# What a run spends

The deposits the contract attaches under a namespace are those of the steps it dispatches
there, no more and no less: gates and postchecks are called without a deposit
(`Lane.Effect.spends`).  A run dispatches a prefix of its template, so whatever the gates,
targets and timeouts do, it attaches at most the total its template states, which the fire
held against the account's balance (`run_spends_within`).
-/

namespace SmartAccount

open Foundation Function
open Relation (ReflTransGen)

/-! ## Deposits in a trace -/

/-- The deposit a call of the namespace carries. -/
def TraceEvent.deposit (ns : String) : TraceEvent → Nat
  | called ns' _ fc => if ns' = ns then fc.depositYocto else 0
  | _ => 0

/-- What the contract attached to calls of the namespace. -/
def Trace.outlay (t : Trace) (ns : String) : Nat := (t.map (TraceEvent.deposit ns)).sum

namespace Trace

variable {ns : String}

theorem outlay_append (t t' : Trace) (ns : String) :
    outlay (t ++ t') ns = outlay t ns + outlay t' ns := by
  simp [outlay]

theorem dispatches_append (t t' : Trace) (ns : String) :
    dispatches (t ++ t') ns = dispatches t ns ++ dispatches t' ns :=
  List.filterMap_append ..

/-- Deposits are about their namespace only. -/
theorem outlay_filter (t : Trace) (ns : String) :
    outlay (t.filter (TraceEvent.concerns ns)) ns = outlay t ns := by
  induction t with
  | nil => rfl
  | cons event t ih =>
      have rest : outlay (event :: t) ns = event.deposit ns + outlay t ns := List.sum_cons
      rw [List.filter_cons]
      split
      · rw [rest, ← ih]
        exact List.sum_cons
      · rename_i apart
        have free : event.deposit ns = 0 := by
          unfold TraceEvent.deposit
          split
          · rw [if_neg]
            intro same
            exact apart (by simp [TraceEvent.concerns, TraceEvent.sequenceNamespace, same])
          · rfl
        rw [ih, rest, free, Nat.zero_add]

theorem dispatches_filter (t : Trace) (ns : String) :
    dispatches (t.filter (TraceEvent.concerns ns)) ns = dispatches t ns := by
  rw [dispatches_eq, milestones_filter, ← dispatches_eq]

/-- Events that dispatch nothing and attach nothing. -/
structure Frugal (events : Trace) (ns : String) : Prop where
  dispatches : events.dispatches ns = []
  outlay : events.outlay ns = 0

theorem Frugal.append {t t' : Trace} (first : t.Frugal ns) (second : t'.Frugal ns) :
    Frugal (t ++ t') ns :=
  ⟨by rw [dispatches_append, first.dispatches, second.dispatches, List.append_nil],
    by rw [outlay_append, first.outlay, second.outlay]⟩

theorem Frugal.nil : Frugal [] ns := ⟨rfl, rfl⟩

/-- Only a call attaches a deposit, and only a dispatch is one. -/
theorem Frugal.of_quiet {events : Trace} (uncalled : ∀ ns' id fc, .called ns' id fc ∉ events)
    (undispatched : ∀ ns' stepId id call args, .dispatched ns' stepId id call args ∉ events) :
    Frugal events ns := by
  refine ⟨List.filterMap_eq_nil_iff.mpr fun event inside => ?_, 
    List.sum_eq_zero_iff_forall_eq_nat.mpr ?_⟩
  · split
    · exact absurd inside (undispatched _ _ _ _ _)
    · rfl
  · intro deposit held
    obtain ⟨event, inside, rfl⟩ := List.mem_map.mp held
    unfold TraceEvent.deposit
    split
    · exact absurd inside (uncalled _ _ _)
    · rfl

/-- A call without a deposit. -/
theorem Frugal.called {fc : FunctionCall} (free : fc.depositYocto = 0) (ns' : String) (id : Nat) :
    Frugal [.called ns' id fc] ns :=
  ⟨rfl, by simp [Trace.outlay, TraceEvent.deposit, free]⟩

end Trace

/-! ## What a delivery spends -/

/-- The trace grows without spending, or by the dispatch of one call with its deposit. -/
inductive Spends (ns : String) (t t' : Trace) (may : Step → Prop) : Prop
  | nothing (dispatches : t'.dispatches ns = t.dispatches ns) (outlay : t'.outlay ns = t.outlay ns)
  | call (call : Step) (due : may call) (dispatches : t'.dispatches ns = t.dispatches ns ++ [call])
      (outlay : t'.outlay ns = t.outlay ns + call.attachedDepositYocto)

theorem Spends.of_frugal {ns : String} {t t' events : Trace} {may : Step → Prop}
    (trace : t' = t ++ events) (frugal : events.Frugal ns) : Spends ns t t' may :=
  .nothing (by rw [trace, Trace.dispatches_append, frugal.dispatches, List.append_nil])
    (by rw [trace, Trace.outlay_append, frugal.outlay, Nat.add_zero])

/-- The dispatch of a step attaches its deposit, with and without a hop or an adapter. -/
theorem resolvedPromise_deposit (authorizerId : Option AccountId) (ns stepId : String)
    (call : Step) : (resolvedPromise authorizerId ns stepId call).call.depositYocto =
      call.attachedDepositYocto := by
  unfold resolvedPromise dispatchPromiseForCall buildCallPromise
  cases call.policy <;> cases authorizerId <;> rfl

/-- The callback clears this call for dispatch. -/
def Lane.Clears (ℓ : Lane) (ns : String) (callback : Callback) (result : PromiseResult)
    (call : SmartAccount.Step) : Prop :=
  ∃ stepId yielded, ℓ.step stepId = some yielded ∧ yielded.call = call ∧
    Lane.Cleared ns yielded stepId callback result

/-- A callback attaches the deposit of the call it dispatches, and no other. -/
theorem Lane.Effect.spends {ns : String} {id : Nat} {ℓ ℓ' : Lane} {callback : Callback}
    {result : PromiseResult} {head : Head} {thens : List Then}
    (effect : Lane.Effect ns id ℓ callback result ℓ' head thens) :
    Spends ns ℓ.trace ℓ'.trace (ℓ.Clears ns callback result) := by
  have plain : ∀ events : Trace, ℓ'.trace = ℓ.trace ++ events →
      (∀ ns' id fc, .called ns' id fc ∉ events) →
      (∀ ns' stepId id call args, .dispatched ns' stepId id call args ∉ events) →
      Spends ns ℓ.trace ℓ'.trace (ℓ.Clears ns callback result) :=
    fun events trace uncalled undispatched =>
      .of_frugal trace (.of_quiet uncalled undispatched)
  -- a run that may have been closed, with events noted before and after
  have closed : ∀ {env : Env} {status : AutomationRunStatus} {failedStepId : Option String}
      (ℓ₁ : Lane) (before after : Trace), ℓ₁.trace = ℓ.trace ++ before →
      ℓ'.trace = (Lane.finish env (some id) ns ℓ₁ status failedStepId).trace ++ after →
      before.Frugal ns → after.Frugal ns →
      Spends ns ℓ.trace ℓ'.trace (ℓ.Clears ns callback result) := by
    intro env status failedStepId ℓ₁ before after trace trace' first last
    obtain ⟨closing, eq, finished⟩ := @Lane.finish_trace ℓ₁ env (some id) ns status failedStepId
    have middle : Trace.Frugal closing ns := by
      refine .of_quiet (fun ns' id' fc inside => ?_) fun ns' stepId id' call args inside => ?_
      all_goals
        obtain ⟨data, same⟩ := finished _ inside
        cases same
    exact .of_frugal (by rw [trace', eq, trace]; simp) ((first.append middle).append last)
  have emitted : ∀ event, Trace.Frugal [.emitted (some id) event] ns := fun event =>
    .of_quiet (by simp) (by simp)
  cases effect with
  | asleep absent => exact .of_frugal (List.append_nil _).symm .nil
  | unchecked ungated => exact .of_frugal (List.append_nil _).symm .nil
  | halted cause stored unsuccessful about =>
      rename_i stepId yielded env status data
      exact closed ((ℓ.dropStep stepId).setQueue []) [] [_] (List.append_nil _).symm rfl .nil
        (emitted _)
  | gated stored gate built =>
      subst built
      exact .of_frugal rfl (.called rfl ns id)
  | dispatched stored cleared built =>
      rename_i stepId yielded authorizerId args p
      subst built
      refine .call yielded.call ⟨stepId, yielded, stored, rfl, cleared⟩ ?_ ?_
      · simp [Trace.dispatches]
      · have deposit := resolvedPromise_deposit authorizerId ns stepId
          { yielded.call with args := args }
        simp [Trace.outlay, TraceEvent.deposit, deposit]
  | posted small built =>
      subst built
      exact .of_frugal rfl (.called rfl ns id)
  | matched equal => exact .of_frugal (List.append_nil _).symm .nil
  | advanced small queued other stored dormant => exact plain [_] rfl (by simp) (by simp)
  | stuck small queued about =>
      rename_i stepId next bytes waiting env data
      exact closed ((ℓ.dropStep stepId).setQueue []) [] [_] (List.append_nil _).symm rfl .nil
        (emitted _)
  | completed small drained =>
      rename_i stepId bytes env
      exact closed (((ℓ.dropStep stepId).setQueue []).note _) [_] [] rfl (List.append_nil _).symm
        (emitted _) .nil
  | failed failure =>
      rename_i stepId error env
      exact closed ((ℓ.dropStep stepId).setQueue []) [] [] (List.append_nil _).symm
        (List.append_nil _).symm .nil .nil

/-- The next callback of the flight is due and clears this call for dispatch. -/
def Lane.Releases (ℓ : Lane) (ns : String) (id : Nat) (call : SmartAccount.Step) : Prop :=
  ∃ head t rest result, Lane.Due ℓ id head t rest result ∧ ℓ.Clears ns t.callback result call

theorem Lane.Deliver.spends {ns : String} {id : Nat} {ℓ ℓ' : Lane}
    (delivered : Lane.Deliver ns ℓ id ℓ') :
    Spends ns ℓ.trace ℓ'.trace (ℓ.Releases ns id) := by
  cases delivered with
  | ran due effect =>
      rename_i ℓ₁ head head' t rest thens result
      have noted : Trace.Frugal [.delivered id t.callback result] ns :=
        .of_quiet (by simp) (by simp)
      have outlay : Trace.outlay (ℓ.trace ++ [.delivered id t.callback result]) ns =
          ℓ.trace.outlay ns := by
        rw [Trace.outlay_append, noted.outlay, Nat.add_zero]
      have dispatches : Trace.dispatches (ℓ.trace ++ [.delivered id t.callback result]) ns =
          ℓ.trace.dispatches ns := by
        rw [Trace.dispatches_append, noted.dispatches, List.append_nil]
      cases effect.spends with
      | nothing dispatches' outlay' =>
          exact .nothing (dispatches'.trans dispatches) (outlay'.trans outlay)
      | call call due' dispatches' outlay' =>
          refine .call call ⟨head, t, rest, result, due, due'⟩ ?_ ?_
          · exact dispatches'.trans (congrArg (· ++ [call]) dispatches)
          · exact outlay'.trans (congrArg (· + call.attachedDepositYocto) outlay)
  | rolledBack due => exact .of_frugal rfl (.of_quiet (by simp) (by simp))

/-! ## Which deliveries spend -/

/-- A yield that was not resumed releases nothing. -/
theorem Dormant.not_releases {ns stepId : String} {gas id : Nat} {f : Flight} {ℓ : Lane}
    (dormant : Dormant ns stepId gas f) (flying : ℓ.flight id = some f) {call : Step} :
    ¬ ℓ.Releases ns id call := by
  intro ⟨head, t, rest, result, ⟨due, answer, outcome⟩, _, _, _, _, cleared⟩
  rw [flying, Option.some.injEq] at due
  cases dormant with
  | waiting =>
      cases due
      cases outcome
  | expired =>
      cases due
      cases outcome
      cases cleared

/-- What an early flight releases is its own step. -/
theorem Early.clears {ns stepId : String} {id gas : Nat} {call : Step} {t : Trace} {f : Flight}
    {head : Head} {next : Then} {rest : List Then} {yielded : RegisteredStep}
    {result : PromiseResult} (early : Early ns id call gas t f) (flight : f = ⟨head, next :: rest⟩)
    (cleared : Lane.Cleared ns yielded stepId next.callback result) : stepId = call.stepId := by
  cases early with
  | resumed =>
      cases flight
      cases cleared
      rfl
  | gated gate built asked =>
      subst built
      cases flight
      cases cleared
      rfl

/-- A dispatched flight releases nothing any more. -/
theorem Late.not_clears {ns stepId : String} {id : Nat} {call : Step} {t : Trace} {f : Flight}
    {head : Head} {next : Then} {rest : List Then} {yielded : RegisteredStep}
    {result : PromiseResult} (late : Late ns id call t f) (flight : f = ⟨head, next :: rest⟩) :
    ¬ Lane.Cleared ns yielded stepId next.callback result := by
  intro cleared
  cases late with
  | dispatched built story =>
      rename_i authorizerId args p
      subst built
      have thens := congrArg Flight.thens flight
      rw [materialized_thens] at thens
      cases policy : call.policy <;> rw [policy] at thens <;> cases thens <;> cases cleared
  | posted policy small story =>
      cases flight
      cases cleared
  | matched policy small equal story =>
      cases flight
      cases cleared
  | rejected =>
      cases flight
      cases cleared

/-- What a run has spent: the deposits of the calls it dispatched, which begin its template. -/
structure WithinMeans (ns : String) (calls : List Step) (t : Trace) : Prop where
  dispatches : t.dispatches ns <+: calls
  outlay : t.outlay ns = depositSum (t.dispatches ns)

theorem WithinMeans.of_eq {ns : String} {calls : List Step} {t t' : Trace}
    (within : WithinMeans ns calls t) (dispatches : t'.dispatches ns = t.dispatches ns)
    (outlay : t'.outlay ns = t.outlay ns) : WithinMeans ns calls t' :=
  ⟨dispatches ▸ within.dispatches, by rw [outlay, within.outlay, dispatches]⟩

section Deliveries

variable {ns : String} {calls : List Step} {k id id' : Nat} {call call' : Step} {ℓ ℓ' : Lane}

/-- A run in progress releases its current call only. -/
theorem Advancing.releases (advancing : Advancing ns calls k id call ℓ) (tidy : Tidy ns ℓ)
    (copied : Copied ns calls ℓ.trace) (releases : ℓ.Releases ns id' call') :
    ℓ.trace.dispatches ns = calls.take k ∧ call' = call := by
  have flies := releases
  obtain ⟨head, t, rest, result, ⟨due, -⟩, stepId, yielded, stored, rfl, cleared⟩ := flies
  by_cases same : id' = id
  · subst same
    rcases advancing.tells _ due with ⟨⟨gas, early⟩, tells⟩ | ⟨late, -⟩
    · refine ⟨by rw [Trace.dispatches_eq, tells, dispatched_told], ?_⟩
      obtain ⟨own, gas', record⟩ := tidy.stored stepId yielded stored
      obtain ⟨gas'', record'⟩ := advancing.running.underway.record
      exact copied.call_eq (copied.records _ _ _ record) (copied.records _ _ _ record')
        (own.trans (early.clears rfl cleared))
    · exact absurd cleared (late.not_clears rfl)
  · obtain ⟨stepId', gas, dormant⟩ := advancing.running.underway.others id' _ same due
    exact absurd releases (dormant.not_releases due)

/-- A run that was given up releases nothing. -/
theorem Forgone.not_releases (forgone : Forgone ns id call ℓ) (cleaned : ℓ.Cleaned) :
    ¬ ℓ.Releases ns id' call' := by
  intro releases
  have flies := releases
  obtain ⟨head, t, rest, result, ⟨due, -⟩, stepId, yielded, stored, rfl, cleared⟩ := flies
  rcases forgone.still with quiet | ⟨ended, -⟩
  · obtain ⟨stepId', gas, dormant⟩ := quiet id' _ due
    exact dormant.not_releases due releases
  · cases ((cleaned ended).steps stepId).symm.trans stored

/-- A step of a run's lane after its fire keeps it within its means. -/
theorem WithinMeans.step (within : WithinMeans ns calls ℓ.trace) (auto : IsAutomation ns)
    (tidy : Tidy ns ℓ) (cleaned : ℓ.Cleaned) (copied : Copied ns calls ℓ.trace)
    (stands : Undecided ns calls ℓ ∨ Complete ns calls ℓ) {kind : Lane.Kind}
    (step : Lane.Step ns kind ℓ ℓ') (alone : kind ≠ .release) :
    WithinMeans ns calls ℓ'.trace := by
  cases step.passes auto alone with
  | prune stored terminal => exact within
  | expire dormant => exact within
  | deliver delivered =>
      cases delivered.spends with
      | nothing dispatches outlay => exact within.of_eq dispatches outlay
      | call call' due dispatches outlay =>
          -- only a run in progress dispatches, and then the next call of its template
          obtain ⟨k, before, here⟩ : ∃ k, ℓ.trace.dispatches ns = calls.take k ∧
              calls[k]? = some call' := by
            rcases stands with (advancing | forgone) | complete
            · obtain ⟨before, rfl⟩ := advancing.releases tidy copied due
              exact ⟨_, before, advancing.here⟩
            · exact absurd due (forgone.not_releases cleaned)
            · obtain ⟨f, flying⟩ := delivered.flew
              cases (complete.landed _).symm.trans flying
          refine ⟨?_, ?_⟩
          · have next : calls.take k ++ [call'] = calls.take (k + 1) := by
              rw [List.take_add_one, here]
              rfl
            rw [dispatches, before, next]
            exact List.take_prefix _ _
          · rw [outlay, dispatches, within.outlay]
            simp [depositSum]

end Deliveries

/-! ## The fire -/

/-- A release attaches nothing. -/
theorem Lane.Step.release_frugal {ns : String} {ℓ ℓ' : Lane}
    (step : Lane.Step ns .release ℓ ℓ') :
    ∃ events : Trace, ℓ'.trace = ℓ.trace ++ events ∧ events.Frugal ns := by
  have released : ∀ {ℓ₁ ℓ₂ : Lane} {order : List String}, Lane.Release ns order ℓ₁ ℓ₂ →
      ∃ events : Trace, ℓ₂.trace = ℓ₁.trace ++ events ∧ events.Frugal ns := by
    intro ℓ₁ ℓ₂ order released
    cases released with
    | mk shape idle known stored dormant =>
        exact ⟨_, List.append_assoc .., .of_quiet (by simp) (by simp)⟩
  cases step with
  | release manual done => exact released done
  | fire auto absent registered done running =>
      rename_i copies run
      obtain ⟨events, trace, frugal⟩ := released done
      have copied : Trace.Frugal (copies.map fun copy =>
          .registered ns copy.1.yieldId copy.1.call copy.2) ns := .of_quiet (by simp) (by simp)
      refine ⟨_, ?_, copied.append frugal⟩
      rw [← List.append_assoc, ← registered.records]
      exact trace

/-- Nothing is noted in an automation lane between fires and deliveries. -/
theorem asides_trace {ns : String} (auto : IsAutomation ns) {ℓ ℓ' : Lane}
    (chain : ReflTransGen (Lane.Step ns .aside) ℓ ℓ') : ℓ'.trace = ℓ.trace := by
  induction chain with
  | refl => rfl
  | tail _ step ih =>
      refine Eq.trans ?_ ih
      cases step.passes auto Lane.Kind.noConfusion with
      | prune stored terminal => rfl
      | expire dormant => rfl

namespace Machine

/-- What an accepted `execute_trigger` found. -/
structure Fired (m : Machine) (op : Op) (execution : TriggerExecution) (trigger : BalanceTrigger)
    (template : SequenceTemplate) : Prop where
  called : ∃ env, op = .transact env (.executeTrigger execution.triggerId) ∧
    template.totalAttachedDepositYocto ≤ env.accountBalance
  stored : m.contract.balanceTriggers.get execution.triggerId = some trigger
  known : m.contract.sequenceTemplates.get execution.sequenceId = some template
  left : trigger.runsStarted < trigger.maxRuns
  nonce : execution.runNonce = trigger.runsStarted + 1
  named : execution.sequenceNamespace =
    automationNamespace execution.triggerId execution.runNonce

theorem fired_of_fires {m : Machine} {op : Op} {execution : TriggerExecution}
    (fires : op.fires m = some execution) :
    ∃ trigger template, Fired m op execution trigger template := by
  unfold Op.fires at fires
  split at fires
  · rename_i env triggerId
    split at fires
    · cases ran : m.executeTrigger env triggerId with
      | error message =>
          rw [ran] at fires
          cases fires
      | ok out =>
          obtain ⟨m', execution'⟩ := out
          rw [ran] at fires
          obtain rfl := Option.some.inj fires
          simp only [executeTrigger, bind_eq_ok, expect_eq_ok] at ran
          obtain ⟨m₁, authorized, trigger, stored, template, source, _, checked, _, _, _, _, eq⟩ :=
            ran
          cases eq
          have kept : m₁.contract.sequenceTemplates = m.contract.sequenceTemplates ∧
              m₁.contract.balanceTriggers = m.contract.balanceTriggers := by
            cases authorizeFire_ok authorized <;> exact ⟨rfl, rfl⟩
          simp only [checkTrigger, bind_eq_ok, require_eq_ok, decide_eq_true_eq] at checked
          obtain ⟨_, -, _, left, _, covered, -⟩ := checked
          exact ⟨trigger, template, ⟨env, rfl, Nat.le_trans (Nat.le_max_right ..) covered⟩,
            kept.2 ▸ stored, kept.1 ▸ source, left, rfl, rfl⟩
    · cases fires
  · cases fires

/-- A run starts with nothing spent. -/
theorem Reachable.fire_frugal {m : Machine} (reachable : m.Reachable) {ns : String}
    (auto : IsAutomation ns) {env : Env} {method : PublicCall}
    (isolated : Isolated (m.step (.transact env method)).trace ns)
    (unused : m.lane ns = Lane.fresh) (calls : List Step) :
    WithinMeans ns calls ((m.step (.transact env method)).lane ns).trace := by
  have nothing : WithinMeans ns calls [] := ⟨List.nil_prefix, rfl⟩
  obtain ⟨ℓ, chain, ends⟩ := lane_transact reachable.wf env method isolated
  have silent : ℓ.trace = [] := by
    rw [asides_trace auto chain, unused]
    rfl
  rcases ends with same | step
  · have kept : ((m.step (.transact env method)).lane ns).trace = ℓ.trace :=
      congrArg Lane.trace same
    rwa [kept, silent]
  · obtain ⟨events, trace, frugal⟩ := step.release_frugal
    have spent : ((m.step (.transact env method)).lane ns).trace = events := by
      have grown : ((m.step (.transact env method)).lane ns).trace = ℓ.trace ++ events := trace
      rw [grown, silent, List.nil_append]
    rw [spent]
    exact nothing.of_eq frugal.dispatches frugal.outlay

/-! ## After the fire -/

/-- What holds of a run's lane after its fire. -/
structure Bounded (ns : String) (calls : List Step) (ℓ : Lane) : Prop where
  copied : Copied ns calls ℓ.trace
  stands : Undecided ns calls ℓ ∨ Complete ns calls ℓ
  within : WithinMeans ns calls ℓ.trace

theorem Reachable.bounded_step {m : Machine} (reachable : m.Reachable) {ns : String}
    (auto : IsAutomation ns) {calls : List Step} {op : Op}
    (isolated : Isolated (m.step op).trace ns)
    (idle : ∀ execution, op.fires m = some execution → execution.sequenceNamespace ≠ ns)
    (bounded : Bounded ns calls (m.lane ns)) : Bounded ns calls ((m.step op).lane ns) := by
  have isolated₀ := isolated.earlier (step_trace m op)
  obtain ⟨tidy, -⟩ := reachable.lane_tidy isolated₀
  obtain ⟨copied, opens, completes⟩ := reachable.stands_step auto isolated idle bounded.copied
  refine ⟨copied, ?_, ?_⟩
  · rcases bounded.stands with stands | stands
    · exact (opens stands).imp_right And.left
    · exact .inr (completes stands)
  · rcases reachable.lane_unfired auto isolated idle with chain | ⟨id, delivered⟩
    · rw [asides_trace auto chain]
      exact bounded.within
    · exact bounded.within.step auto tidy (reachable.cleaned auto isolated₀) bounded.copied
        bounded.stands (.deliver delivered) Lane.Kind.noConfusion

theorem Reachable.bounded_run {m : Machine} (reachable : m.Reachable) {ns : String}
    (auto : IsAutomation ns) {calls : List Step} {ops : List Op}
    (isolated : Isolated (m.run ops).trace ns)
    (idle : ∀ execution ∈ m.firings ops, execution.sequenceNamespace ≠ ns)
    (bounded : Bounded ns calls (m.lane ns)) : Bounded ns calls ((m.run ops).lane ns) := by
  induction ops generalizing m with
  | nil => exact bounded
  | cons op ops ih =>
      rw [firings_cons] at idle
      have isolated₁ := isolated.earlier (run_trace (m.step op) ops)
      refine ih (reachable.run [op]) isolated
        (fun execution inside => idle execution (List.mem_append_right _ inside)) ?_
      refine reachable.bounded_step auto isolated₁ (fun execution fires => ?_) bounded
      refine idle execution (List.mem_append_left _ ?_)
      rw [fires]
      exact List.mem_singleton_self _

end Machine

/-- Part of a template costs no more than the whole. -/
theorem depositSum_le_of_prefix {calls calls' : List Step} (begins : calls <+: calls') :
    depositSum calls ≤ depositSum calls' := by
  obtain ⟨rest, rfl⟩ := begins
  simp [depositSum]

/-- A run that fires once and shares no key with another stays within its template. -/
theorem Machine.fired_within (host : Host) (ownerId : AccountId) (authorizerId : Option AccountId)
    (before after : List Op) {op : Op} {execution : Machine.TriggerExecution}
    {trigger : BalanceTrigger} {template : SequenceTemplate}
    (fires : op.fires ((Machine.init host ownerId authorizerId).run before) = some execution)
    (fired : Machine.Fired ((Machine.init host ownerId authorizerId).run before) op execution
      trigger template)
    (once : ((Machine.init host ownerId authorizerId).firings (before ++ op :: after)).countP
      (fun other => other.sequenceNamespace = execution.sequenceNamespace) = 1)
    (isolated : Isolated ((Machine.init host ownerId authorizerId).run
      (before ++ op :: after)).trace execution.sequenceNamespace) :
    WithinMeans execution.sequenceNamespace template.calls
      ((Machine.init host ownerId authorizerId).run (before ++ op :: after)).trace ∧
    ((Machine.init host ownerId authorizerId).run (before ++ op :: after)).trace.outlay
      execution.sequenceNamespace ≤ template.totalAttachedDepositYocto := by
  have reachable := Machine.Reachable.init host ownerId authorizerId
  have empty := Machine.lane_init host ownerId authorizerId execution.sequenceNamespace
  generalize Machine.init host ownerId authorizerId = m₀ at *
  have auto : IsAutomation execution.sequenceNamespace := ⟨_, _, fired.named⟩
  have known := fired.known
  obtain ⟨⟨env, rfl, -⟩, -⟩ := fired
  rw [Machine.firings_append, Machine.firings_cons, fires, List.countP_append,
    List.countP_append] at once
  have own : ((some execution).toList).countP (fun other =>
      decide (other.sequenceNamespace = execution.sequenceNamespace)) = 1 := by
    simp
  rw [Machine.run_append, Machine.run_cons] at isolated ⊢
  have isolated₁ := isolated.earlier (Machine.run_trace _ after)
  have isolated₀ := isolated₁.earlier (Machine.step_trace _ _)
  have unfired : ∀ fired : List Machine.TriggerExecution, fired.countP (fun other =>
      decide (other.sequenceNamespace = execution.sequenceNamespace)) = 0 →
      ∀ other ∈ fired, other.sequenceNamespace ≠ execution.sequenceNamespace := by
    intro fired none other inside
    simpa using List.countP_eq_zero.mp none other inside
  have unused := reachable.lane_unused auto isolated₀ (unfired _ (by omega)) empty
  have reached := reachable.run before
  obtain ⟨id, call, advancing, copied⟩ := reached.run_starts fires known isolated₁ unused
  have reached₁ : ((m₀.run before).step
      (.transact env (.executeTrigger execution.triggerId))).Reachable :=
    reached.run [.transact env (.executeTrigger execution.triggerId)]
  have bounded := reached₁.bounded_run auto isolated (unfired _ (by omega))
    ⟨copied, .inl (.advancing advancing), reached.fire_frugal auto isolated₁ unused _⟩
  have within : WithinMeans execution.sequenceNamespace template.calls
      (((m₀.run before).step (.transact env (.executeTrigger execution.triggerId))).run
        after).trace :=
    bounded.within.of_eq (Trace.dispatches_filter _ _).symm (Trace.outlay_filter _ _).symm
  refine ⟨within, ?_⟩
  rw [within.outlay, (reached.storedAutomation.templates _ template known).total]
  exact depositSum_le_of_prefix within.dispatches

/-- A run that fires once and shares no key with another never spends more than its template
states: in every later state it has dispatched a prefix of the template, each call once and in
order, what the contract attached is the sum of these calls' deposits, and the fire found the
template's whole total in the account's balance. -/
theorem run_spends_within (host : Host) (ownerId : AccountId) (authorizerId : Option AccountId)
    (before after : List Op) {op : Op} {execution : Machine.TriggerExecution}
    {template : SequenceTemplate}
    (fires : op.fires ((Machine.init host ownerId authorizerId).run before) = some execution)
    (known : ((Machine.init host ownerId authorizerId).run
      before).contract.sequenceTemplates.get execution.sequenceId = some template)
    (once : ((Machine.init host ownerId authorizerId).firings (before ++ op :: after)).countP
      (fun other => other.sequenceNamespace = execution.sequenceNamespace) = 1)
    (isolated : Isolated ((Machine.init host ownerId authorizerId).run
      (before ++ op :: after)).trace execution.sequenceNamespace) :
    WithinMeans execution.sequenceNamespace template.calls
      ((Machine.init host ownerId authorizerId).run (before ++ op :: after)).trace ∧
    ((Machine.init host ownerId authorizerId).run (before ++ op :: after)).trace.outlay
      execution.sequenceNamespace ≤ template.totalAttachedDepositYocto ∧
    ∃ env triggerId, op = .transact env (.executeTrigger triggerId) ∧
      template.totalAttachedDepositYocto ≤ env.accountBalance := by
  obtain ⟨trigger, template', fired⟩ := Machine.fired_of_fires fires
  obtain rfl := Option.some.inj (known.symm.trans fired.known)
  obtain ⟨within, bounded⟩ :=
    Machine.fired_within host ownerId authorizerId before after fires fired once isolated
  obtain ⟨env, called, covered⟩ := fired.called
  exact ⟨within, bounded, env, execution.triggerId, called, covered⟩

/-- A direct call of the market with a deposit. -/
def paidStep (stepId : String) (deposit : Nat) : Step :=
  { plainStep stepId with attachedDepositYocto := deposit }

/-- The first step is dispatched and fails. -/
def halfWay : List Op := [.deliver aliceEnv 0 okResult, .deliver aliceEnv 0 .failed]

/-- Of two paid steps only the first is reached. -/
theorem run_spends_within_half_way :
    WithinMeans "auto:daily:1" [paidStep "a" 3, paidStep "b" 4] (deployed.run
      ([.transact aliceEnv (.saveSequenceTemplate "plan" [paidStep "a" 3, paidStep "b" 4]),
        .transact aliceEnv (.createBalanceTrigger "daily" "plan" 0 5)] ++
          fire :: halfWay)).trace := by
  have started : ((fire.fires (armed [paidStep "a" 3, paidStep "b" 4])).map fun execution =>
      (execution.sequenceNamespace, execution.sequenceId)) = some ("auto:daily:1", "plan") := by
    decide
  obtain ⟨execution, fires, named⟩ := Option.map_eq_some_iff.mp started
  obtain ⟨ns, sequence⟩ := Prod.mk.inj named
  have known : (armed [paidStep "a" 3, paidStep "b" 4]).contract.sequenceTemplates.get
      execution.sequenceId = some ⟨[paidStep "a" 3, paidStep "b" 4], 0, 7⟩ := by
    rw [sequence]
    decide
  rw [← ns]
  refine (run_spends_within aliceHost alice none _ halfWay fires known ?_ (.of_alone ?_)).1
  · rw [ns]
    decide
  · rw [ns]
    decide

example : (deployed.run
    ([.transact aliceEnv (.saveSequenceTemplate "plan" [paidStep "a" 3, paidStep "b" 4]),
      .transact aliceEnv (.createBalanceTrigger "daily" "plan" 0 5)] ++
        fire :: halfWay)).trace.outlay "auto:daily:1" = 3 := by decide

end SmartAccount
