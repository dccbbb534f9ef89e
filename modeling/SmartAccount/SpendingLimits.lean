import Mathlib.Algebra.Order.BigOperators.Group.Finset
import Mathlib.Order.Interval.Finset.Nat
import SmartAccount.Budgets
import SmartAccount.Spending

/-!
# What a trigger and a session can spend

The runs of a trigger have distinct namespaces and nonces, its nonces are bounded by `max_runs`,
and a run attaches at most the total of its template.  So however its runs interleave, all that
is ever attached under a trigger's namespaces is `max_runs` times the price of its dearest
template (`trigger_spends_within`), and the runs a session key fires cost `max_fire_count` times
that (`session_spends_within`), also after the grant is gone.
-/

namespace SmartAccount

open Foundation
open scoped BigOperators

namespace Machine

/-! ## The bound of a trigger -/

/-- The `max_runs` of a stored trigger. -/
def maxRuns (m : Machine) (triggerId : String) : Option Nat :=
  (m.contract.balanceTriggers.get triggerId).map BalanceTrigger.maxRuns

/-- The call creates the trigger with this bound. -/
def Creates (m : Machine) (op : Op) (triggerId : String) (bound : Nat) : Prop :=
  ∃ env sequenceId minBalance m',
    op = .transact env (.createBalanceTrigger triggerId sequenceId minBalance bound) ∧
    m.call env (.createBalanceTrigger triggerId sequenceId minBalance bound) = .ok m'

theorem maxRuns_eq {m m' : Machine}
    (same : m'.contract.balanceTriggers = m.contract.balanceTriggers) (triggerId : String) :
    m'.maxRuns triggerId = m.maxRuns triggerId := by
  rw [maxRuns, same, maxRuns]

theorem maxRuns_of_sequencing {m m' : Machine} (sequencing : Sequencing m m')
    (triggerId : String) : m'.maxRuns triggerId = m.maxRuns triggerId :=
  congrArg (Option.map BalanceTrigger.maxRuns)
    (congrFun (congrArg Books.triggers sequencing.books) triggerId)

/-- A stored bound was stored before or is the one of its creation. -/
theorem maxRuns_step {m : Machine} {op : Op} {triggerId : String} {bound : Nat}
    (stored : (m.step op).maxRuns triggerId = some bound) :
    m.maxRuns triggerId = some bound ∨ m.Creates op triggerId bound := by
  cases op with
  | timeout id =>
      refine .inl (stored.symm.trans (maxRuns_eq ?_ triggerId)).symm
      exact congrArg (fun c : Contract => c.balanceTriggers) (m.timeout_contract id)
  | abort id answer =>
      refine .inl (stored.symm.trans (maxRuns_eq ?_ triggerId)).symm
      exact congrArg (fun c : Contract => c.balanceTriggers) (m.abort_contract id answer)
  | deliver env id answer =>
      have same := m.deliver_triggers (f := BalanceTrigger.maxRuns) (fun _ _ _ => rfl) env id
        answer triggerId
      exact .inl (same.symm.trans stored)
  | transact env method =>
      cases called : m.call env method with
      | error message =>
          rw [step_refused called] at stored
          exact .inl stored
      | ok m' =>
          rw [step_transact called] at stored
          have effect := Effect.of_call called
          cases effect with
          | executeTrigger authorized there undisturbed books contexts execution ran about nonce
              named =>
              rename_i id trigger m₁
              have after : m'.maxRuns triggerId = _ :=
                congrArg (Option.map BalanceTrigger.maxRuns)
                  (congrFun (congrArg Books.triggers books) triggerId)
              rw [after] at stored
              simp only [Books.start, Function.update_apply] at stored
              split at stored
              · rename_i same
                rw [maxRuns, same, there]
                exact .inl stored
              · exact .inl stored
          | createBalanceTrigger template owner absent =>
              rename_i id sequenceId minBalance maxRuns
              by_cases same : triggerId = id
              · subst same
                simp only [Machine.maxRuns, emit, note, withContract,
                  IterableMap.get_insert_self, Option.map_some, newTrigger,
                  Option.some.injEq] at stored
                subst stored
                exact .inr ⟨env, _, _, _, rfl, called⟩
              · simp only [Machine.maxRuns, emit, note, withContract] at stored
                rw [IterableMap.get_insert_of_ne _ _ same] at stored
                exact .inl stored
          | deleteBalanceTrigger owner =>
              simp only [maxRuns, withContract, IterableMap.get_remove] at stored
              split at stored
              · cases stored
              · exact .inl stored
          | executeSteps executor sequencing =>
              exact .inl ((maxRuns_of_sequencing sequencing triggerId).symm.trans stored)
          | registerStep sequencing =>
              exact .inl ((maxRuns_of_sequencing sequencing triggerId).symm.trans stored)
          | runSequence executor sequencing =>
              exact .inl ((maxRuns_of_sequencing sequencing triggerId).symm.trans stored)
          | pruneFinishedAutomationRuns =>
              exact .inl ((maxRuns_eq (by rw [(pruneFinishedAutomationRuns_eq m).2.1])
                triggerId).symm.trans stored)
          | revokeExpiredSessions =>
              exact .inl ((maxRuns_eq (by rw [(revokeExpiredSessions_eq env m).2.1])
                triggerId).symm.trans stored)
          | revokeExpiredProxyKeys =>
              exact .inl ((maxRuns_eq (by rw [(revokeExpiredProxyKeys_eq env m).2.1])
                triggerId).symm.trans stored)
          | _ => exact .inl stored

/-- Every creation of the trigger in the run has at most this bound. -/
def CreatesWithin (m : Machine) (ops : List Op) (triggerId : String) (bound : Nat) : Prop :=
  ∀ before op after bound', ops = before ++ op :: after →
    (m.run before).Creates op triggerId bound' → bound' ≤ bound

theorem maxRuns_run {m : Machine} {ops : List Op} {triggerId : String} {bound : Nat}
    (created : m.CreatesWithin ops triggerId bound)
    (first : ∀ n, m.maxRuns triggerId = some n → n ≤ bound) (n : Nat)
    (stored : (m.run ops).maxRuns triggerId = some n) : n ≤ bound := by
  induction ops generalizing m with
  | nil => exact first n stored
  | cons op ops ih =>
      refine ih (fun before op' after bound' split creates => ?_) (fun k here => ?_) stored
      · exact created (op :: before) op' after bound' (by rw [split, List.cons_append]) creates
      · rcases maxRuns_step here with old | new
        · exact first k old
        · exact created [] op ops k rfl new

/-! ## The price of a run -/

/-- What is seen is seen at one of the operations. -/
theorem mem_observe {α : Type} {see : Machine → Op → Option α} {m : Machine} {ops : List Op}
    {a : α} (inside : a ∈ m.observe see ops) :
    ∃ before op after, ops = before ++ op :: after ∧ see (m.run before) op = some a := by
  induction ops generalizing m with
  | nil => exact absurd inside List.not_mem_nil
  | cons op ops ih =>
      rcases List.mem_append.mp inside with first | later
      · exact ⟨[], op, ops, rfl, Option.mem_toList.mp first⟩
      · obtain ⟨before, op', after, rfl, seen⟩ := ih later
        exact ⟨op :: before, op', after, rfl, seen⟩

/-- These fires run templates of at most this total. -/
def Priced (m : Machine) (ops : List Op) (kept : TriggerExecution → Prop) (price : Nat) : Prop :=
  ∀ before op after execution template, ops = before ++ op :: after →
    op.fires (m.run before) = some execution → kept execution →
    (m.run before).contract.sequenceTemplates.get execution.sequenceId = some template →
    template.totalAttachedDepositYocto ≤ price

section Runs

variable {host : Host} {ownerId : AccountId} {authorizerId : Option AccountId} {ops : List Op}
  {price : Nat}

/-- What was attached under the namespace of a run is within its price. -/
theorem outlay_le_of_fired {kept : TriggerExecution → Prop} {execution : TriggerExecution}
    (fresh : (Machine.init host ownerId authorizerId).FreshIds ops)
    (priced : (Machine.init host ownerId authorizerId).Priced ops kept price)
    (inside : execution ∈ (Machine.init host ownerId authorizerId).firings ops)
    (here : kept execution)
    (isolated : Isolated ((Machine.init host ownerId authorizerId).run ops).trace
      execution.sequenceNamespace) :
    ((Machine.init host ownerId authorizerId).run ops).trace.outlay
      execution.sequenceNamespace ≤ price := by
  have distinct := (counted_run host ownerId authorizerId ops fresh).distinct
  have once : ((Machine.init host ownerId authorizerId).firings ops).countP
      (fun other => other.sequenceNamespace = execution.sequenceNamespace) = 1 := by
    have single := List.count_eq_one_of_mem distinct (List.mem_map_of_mem inside)
    rw [List.count, List.countP_map] at single
    exact (List.countP_congr fun other _ => by simp).trans single
  obtain ⟨before, op, after, rfl, fires⟩ := mem_observe inside
  obtain ⟨trigger, template, fired⟩ := fired_of_fires fires
  exact Nat.le_trans (fired_within host ownerId authorizerId before after fires fired once
    isolated).2 (priced before op after execution template rfl fires here fired.known)

/-- Nothing was attached under the namespace of no run. -/
theorem outlay_eq_zero_of_unfired {ns : String} (auto : IsAutomation ns)
    (unfired : ∀ execution ∈ (Machine.init host ownerId authorizerId).firings ops,
      execution.sequenceNamespace ≠ ns)
    (isolated : Isolated ((Machine.init host ownerId authorizerId).run ops).trace ns) :
    ((Machine.init host ownerId authorizerId).run ops).trace.outlay ns = 0 := by
  have unused := (Reachable.init host ownerId authorizerId).lane_unused auto isolated unfired
    (lane_init host ownerId authorizerId ns)
  have silent : (((Machine.init host ownerId authorizerId).run ops).trace.filter
      (TraceEvent.concerns ns)) = [] := congrArg Lane.trace unused
  rw [← Trace.outlay_filter, silent]
  rfl

/-- The nonces of a trigger's runs are bounded by its `max_runs`. -/
theorem runNonce_le {triggerId : String} {bound : Nat} {execution : TriggerExecution}
    (created : (Machine.init host ownerId authorizerId).CreatesWithin ops triggerId bound)
    (inside : execution ∈ (Machine.init host ownerId authorizerId).firings ops)
    (own : execution.triggerId = triggerId) :
    1 ≤ execution.runNonce ∧ execution.runNonce ≤ bound := by
  obtain ⟨before, op, after, rfl, fires⟩ := mem_observe inside
  obtain ⟨trigger, template, fired⟩ := fired_of_fires fires
  have stored : ((Machine.init host ownerId authorizerId).run before).maxRuns triggerId =
      some trigger.maxRuns := by
    rw [maxRuns, ← own, fired.stored, Option.map_some]
  have earlier : (Machine.init host ownerId authorizerId).CreatesWithin before triggerId bound := by
    rintro before' op' after' bound' rfl creates
    exact created before' op' (after' ++ op :: after) bound' (by simp) creates
  have bounded := maxRuns_run earlier (fun n none => by cases none) _ stored
  have left := fired.left
  rw [fired.nonce]
  omega

end Runs

end Machine

/-! ## What a trigger spends -/

/-- A sum whose terms are bounded between `1` and `bound`, and zero elsewhere. -/
theorem sum_range_le {f : Nat → Nat} {bound price : Nat}
    (inside : ∀ n, 1 ≤ n → n ≤ bound → f n ≤ price)
    (outside : ∀ n, ¬ (1 ≤ n ∧ n ≤ bound) → f n = 0) (nonces : Nat) :
    ∑ n ∈ Finset.range nonces, f n ≤ bound * price := by
  have narrowed : ∑ n ∈ Finset.range nonces, f n =
      ∑ n ∈ (Finset.range nonces).filter (· ∈ Finset.Icc 1 bound), f n := by
    refine (Finset.sum_filter_of_ne fun n _ some_ => ?_).symm
    rw [Finset.mem_Icc]
    by_contra apart
    exact some_ (outside n apart)
  have few : ((Finset.range nonces).filter (· ∈ Finset.Icc 1 bound)).card ≤ bound := by
    refine (Finset.card_le_card fun n member => (Finset.mem_filter.mp member).2).trans ?_
    rw [Nat.card_Icc, Nat.add_sub_cancel]
  rw [narrowed]
  refine (Finset.sum_le_card_nsmul _ f price fun n member => ?_).trans ?_
  · obtain ⟨low, high⟩ := Finset.mem_Icc.mp (Finset.mem_filter.mp member).2
    exact inside n low high
  · rw [Nat.nsmul_eq_mul]
    exact Nat.mul_le_mul_right price few

/-- A trigger whose `max_runs` is bounded, none of whose runs has a dearer template than `price`
and whose runs share no key with another, attaches at most the product over its whole life: under
all its run namespaces together, in every state of every run in which no trigger is created again
under an id that fired. -/
theorem trigger_spends_within (host : Host) (ownerId : AccountId) (authorizerId : Option AccountId)
    (ops : List Op) (triggerId : String) (bound price : Nat)
    (fresh : (Machine.init host ownerId authorizerId).FreshIds ops)
    (created : (Machine.init host ownerId authorizerId).CreatesWithin ops triggerId bound)
    (priced : (Machine.init host ownerId authorizerId).Priced ops
      (fun execution => execution.triggerId = triggerId) price)
    (isolated : ∀ runNonce, Isolated ((Machine.init host ownerId authorizerId).run ops).trace
      (automationNamespace triggerId runNonce)) (nonces : Nat) :
    ∑ runNonce ∈ Finset.range nonces, ((Machine.init host ownerId authorizerId).run
      ops).trace.outlay (automationNamespace triggerId runNonce) ≤ bound * price := by
  have named := (Machine.counted_run host ownerId authorizerId ops fresh).named
  -- under a nonce of the trigger there is the run that was fired with it, or nothing
  have spent : ∀ runNonce, (∃ execution ∈ (Machine.init host ownerId authorizerId).firings ops,
      execution.triggerId = triggerId ∧ execution.runNonce = runNonce) ∨
      ((Machine.init host ownerId authorizerId).run ops).trace.outlay
        (automationNamespace triggerId runNonce) = 0 := by
    intro runNonce
    by_cases fired : ∃ execution ∈ (Machine.init host ownerId authorizerId).firings ops,
        execution.sequenceNamespace = automationNamespace triggerId runNonce
    · obtain ⟨execution, inside, same⟩ := fired
      have equal := automationNamespace_injective ((named execution inside).symm.trans same)
      exact .inl ⟨execution, inside, equal.1, equal.2⟩
    · refine .inr (Machine.outlay_eq_zero_of_unfired ⟨_, _, rfl⟩ (fun execution inside same => ?_)
        (isolated runNonce))
      exact fired ⟨execution, inside, same⟩
  refine sum_range_le (fun runNonce _ _ => ?_) (fun runNonce apart => ?_) nonces
  · rcases spent runNonce with ⟨execution, inside, rfl, rfl⟩ | nothing
    · rw [← named execution inside]
      exact Machine.outlay_le_of_fired fresh priced inside rfl
        (named execution inside ▸ isolated execution.runNonce)
    · rw [nothing]
      exact Nat.zero_le _
  · rcases spent runNonce with ⟨execution, inside, own, rfl⟩ | nothing
    · exact absurd (Machine.runNonce_le created inside own) apart
    · exact nothing

/-- A registration is in a namespace without a `#`. -/
def TraceEvent.hashless : TraceEvent → Bool
  | .registered ns _ _ _ => '#' ∉ ns.toList
  | _ => true

/-- Namespaces without a `#` share no key. -/
theorem Isolated.of_hashless {t : Trace} {ns : String} (own : '#' ∉ ns.toList)
    (all : t.all TraceEvent.hashless = true) : Isolated t ns := by
  intro ns' id call gas inside
  have other : '#' ∉ ns'.toList := of_decide_eq_true (List.all_eq_true.mp all _ inside)
  by_cases same : ns' = ns
  · exact .inl same
  · refine .inr fun stepId stepId' eq => ?_
    have lists := congrArg String.toList eq
    rw [registeredStepKey_toList, registeredStepKey_toList] at lists
    exact same (String.toList_inj.mp (append_cons_inj_of_notMem_left own other lists).1).symm

theorem hash_notMem_automationNamespace {triggerId : String} (absent : '#' ∉ triggerId.toList)
    (runNonce : Nat) : '#' ∉ (automationNamespace triggerId runNonce).toList := by
  rw [automationNamespace_toList, List.mem_append, List.mem_append, List.mem_cons]
  rintro (inside | inside | inside | inside)
  · revert inside
    decide
  · exact absent inside
  · revert inside
    decide
  · have digit := Nat.isDigit_of_mem_toDigits (by decide) (by decide) inside
    revert digit
    decide

/-- No template that was ever stored is dearer. -/
theorem Machine.Priced.of_templates {m : Machine} {ops : List Op}
    {kept : Machine.TriggerExecution → Prop} {price : Nat}
    (stored : ∀ before ∈ ops.inits, ∀ entry ∈ (m.run before).contract.sequenceTemplates.entries,
      entry.2.totalAttachedDepositYocto ≤ price) : m.Priced ops kept price := by
  rintro before op after execution template rfl - - known
  exact stored before ((List.mem_inits _ _).mpr (List.prefix_append ..)) _
    (IterableMap.get_eq_some_iff.mp known)

/-- A plan of two paid steps, a trigger for it, and a run whose first step fails. -/
def paidHistory : List Op :=
  [.transact aliceEnv (.saveSequenceTemplate "plan" [paidStep "a" 3, paidStep "b" 4]),
    .transact aliceEnv (.createBalanceTrigger "daily" "plan" 0 5)] ++ fire :: halfWay

/-- Five runs of seven yocto each, whatever the nonces. -/
theorem trigger_spends_within_half_way :
    ∑ runNonce ∈ Finset.range 100, (deployed.run paidHistory).trace.outlay
      (automationNamespace "daily" runNonce) ≤ 5 * 7 := by
  refine trigger_spends_within aliceHost alice none paidHistory "daily" 5 7
    (.of_unfired (by decide) ?_) ?_ (.of_templates (by decide))
    (fun runNonce => .of_hashless (hash_notMem_automationNamespace (by decide) _) (by decide)) 100
  · intro env triggerId sequenceId minBalance maxRuns inside
    simp [fire, halfWay] at inside
  · rintro before op after bound split ⟨env, sequenceId, minBalance, m', rfl, -⟩
    have inside : Op.transact env (.createBalanceTrigger "daily" sequenceId minBalance bound) ∈
        paidHistory := by
      rw [split]
      simp
    simp [paidHistory, fire, halfWay] at inside
    exact Nat.le_of_eq inside.2.2.2

/-! ## What a session spends -/

namespace Machine

/-- The runs that a key fired. -/
def sessionFirings (pk : PublicKey) (m : Machine) (ops : List Op) : List TriggerExecution :=
  m.observe (fun m op => if (op.sessionUse pk m).isSome then op.fires m else none) ops

/-- A key fires no more runs than it is used for. -/
theorem sessionFirings_length (pk : PublicKey) (m : Machine) (ops : List Op) :
    (m.sessionFirings pk ops).length ≤ (m.sessionUses pk ops).length := by
  induction ops generalizing m with
  | nil => exact Nat.le_refl _
  | cons op ops ih =>
      have later := ih (m.step op)
      rw [sessionFirings, sessionUses] at later ⊢
      rw [observe, observe, List.length_append, List.length_append]
      have here : (if (op.sessionUse pk m).isSome then op.fires m else none).toList.length ≤
          (op.sessionUse pk m).toList.length := by
        cases op.sessionUse pk m with
        | none => exact Nat.le_refl _
        | some use => cases op.fires m <;> simp
      omega

theorem mem_firings_of_session {pk : PublicKey} {m : Machine} {ops : List Op}
    {execution : TriggerExecution} (inside : execution ∈ m.sessionFirings pk ops) :
    execution ∈ m.firings ops := by
  obtain ⟨before, op, after, rfl, fires⟩ := mem_observe inside
  have fired : op.fires (m.run before) = some execution := by
    split at fires
    · exact fires
    · cases fires
  rw [firings_append, firings_cons, fired]
  simp

end Machine

/-- The runs that a session key, enrolled by its canonical text, fires attach at most
`max_fire_count` times the price of the dearest template they run, in every later state, also when
the grant is removed or replaced while they are under way. -/
theorem session_spends_within (host : Host) (ownerId : AccountId) (authorizerId : Option AccountId)
    (before during after : List Op) {env : Env} {text : String} {expires : Nat}
    {allowed : Option (List String)} {maxFire allowance : Nat} {label : Option String}
    {m : Machine} {pk : PublicKey} (price : Nat) (canonical : CanonicalText host text pk)
    (enrolled : ((Machine.init host ownerId authorizerId).run before).call env
      (.enrollSession text expires allowed maxFire allowance label) = .ok m)
    (kept : m.KeepsSession text during)
    (fresh : (Machine.init host ownerId authorizerId).FreshIds (before ++
      .transact env (.enrollSession text expires allowed maxFire allowance label) ::
        (during ++ after)))
    (priced : (Machine.init host ownerId authorizerId).Priced (before ++
      .transact env (.enrollSession text expires allowed maxFire allowance label) ::
        (during ++ after)) (· ∈ m.sessionFirings pk during) price)
    (isolated : ∀ execution ∈ m.sessionFirings pk during,
      Isolated (m.run (during ++ after)).trace execution.sequenceNamespace) :
    ((m.sessionFirings pk during).map fun execution =>
      (m.run (during ++ after)).trace.outlay execution.sequenceNamespace).sum ≤
        maxFire * price := by
  have same := canonical.same
  subst same
  have stepped := Machine.step_transact enrolled
  have whole : (Machine.init host ownerId authorizerId).run (before ++
      .transact env (.enrollSession text expires allowed maxFire allowance label) ::
        (during ++ after)) = m.run (during ++ after) := by
    rw [Machine.run_append, Machine.run_cons, stepped]
  have stored : m.contract.sessionGrants.get text =
      some ⟨text, env.now, expires, allowed, maxFire, 0, label⟩ := by
    cases Machine.Effect.of_call enrolled
    exact IterableMap.get_insert_self ..
  have budget := Machine.session_run stored (Nat.zero_le _) kept
  have few : (m.sessionFirings text during).length ≤ maxFire := by
    have bounded := budget.bounded
    simp only [Nat.zero_add] at bounded
    exact (m.sessionFirings_length text during).trans bounded
  have each : ∀ spent ∈ (m.sessionFirings text during).map fun execution =>
      (m.run (during ++ after)).trace.outlay execution.sequenceNamespace, spent ≤ price := by
    intro spent member
    obtain ⟨execution, inside, rfl⟩ := List.mem_map.mp member
    have fired : execution ∈ (Machine.init host ownerId authorizerId).firings (before ++
        .transact env (.enrollSession text expires allowed maxFire allowance label) ::
          (during ++ after)) := by
      rw [Machine.firings_append, Machine.firings_cons, stepped, Machine.firings_append]
      exact List.mem_append_right _ (List.mem_append_right _
        (List.mem_append_left _ (Machine.mem_firings_of_session inside)))
    have bounded := Machine.outlay_le_of_fired fresh priced fired inside
    rw [whole] at bounded
    exact bounded (isolated execution inside)
  refine (List.sum_le_card_nsmul _ price each).trans ?_
  rw [List.length_map, Nat.nsmul_eq_mul]
  exact Nat.mul_le_mul_right price few

/-- Alice's plan of paid steps and its trigger, under the host that knows her key. -/
def paidPlan : List Op :=
  [.transact aliceEnv (.saveSequenceTemplate "plan" [paidStep "a" 3, paidStep "b" 4]),
    .transact aliceEnv (.createBalanceTrigger "daily" "plan" 0 5)]

/-- The session is revoked while the run that it fired is under way. -/
def revokedMidway : List Op :=
  .transact payingEnv (.revokeSession prefixedKey) :: halfWay

theorem session_spends_within_revoked :
    let m := (((Machine.init keyHost alice none).run paidPlan).step (sessionEnrolment prefixedKey))
    ((m.sessionFirings prefixedKey [delegatedFire]).map fun execution =>
      (m.run ([delegatedFire] ++ revokedMidway)).trace.outlay execution.sequenceNamespace).sum ≤
        3 * 7 := by
  refine session_spends_within keyHost alice none paidPlan [delegatedFire] revokedMidway 7
    ⟨by decide, rfl⟩ (Machine.call_of_isOk (by decide)) ⟨rfl, by decide, trivial⟩
    (.of_unfired (by decide) ?_) (.of_templates (by decide))
    fun execution inside => .of_hashless ?_ (by decide)
  · intro env triggerId sequenceId minBalance maxRuns inside
    simp [delegatedFire, revokedMidway, halfWay] at inside
  · revert execution
    decide

end SmartAccount
