import SmartAccount.Methods

/-!
# Stored automation is well formed

A stored template has passed the checks of `save_sequence_template`, its total is the sum of
its deposits, and a stored trigger names a stored template.  Only the four methods that save
and delete templates and triggers bear on this; every other step keeps the templates and the
template each trigger names (`StoredAutomation.of_kept`).
-/

namespace SmartAccount

open Foundation

/-! ## Well-formed templates -/

/-- The sum of the deposits of a template's steps, not bounded by any word size. -/
def depositSum (calls : List Step) : Nat := (calls.map Step.attachedDepositYocto).sum

structure SequenceTemplate.WellFormed (template : SequenceTemplate) : Prop where
  nonempty : template.calls ≠ []
  named : ∀ call ∈ template.calls, call.stepId ≠ ""
  distinct : (template.calls.map Step.stepId).Nodup
  valid : ∀ call ∈ template.calls, validateStep call = .ok ()
  total : template.totalAttachedDepositYocto = depositSum template.calls

/-- What every stored template and trigger keeps. -/
structure StoredAutomation (c : Contract) : Prop where
  templates : ∀ sequenceId template, c.sequenceTemplates.get sequenceId = some template →
    template.WellFormed
  triggers : ∀ triggerId trigger, c.balanceTriggers.get triggerId = some trigger →
    ∃ template, c.sequenceTemplates.get trigger.sequenceId = some template

theorem validateStep_stepId {call : Step} (valid : validateStep call = .ok ()) :
    call.stepId ≠ "" := (validateStep_eq_ok.mp valid).1.stepId

/-- The running total of the validation loop ends as the exact sum. -/
theorem validateTemplateFrom_total {seen : List String} {total : Nat} {inputs calls : List Step}
    {sum : Nat} (accepted : validateTemplateFrom seen total inputs = .ok (calls, sum)) :
    sum = total + depositSum calls := by
  induction inputs generalizing seen total calls sum with
  | nil =>
      simp only [validateTemplateFrom, Except.ok.injEq, Prod.mk.injEq] at accepted
      obtain ⟨rfl, rfl⟩ := accepted
      rfl
  | cons input rest ih =>
      simp only [validateTemplateFrom, bind_eq_ok, stepFromRaw_eq_ok, require_eq_ok,
        decide_eq_true_eq, Except.ok.injEq, Prod.mk.injEq] at accepted
      obtain ⟨_, ⟨-, rfl⟩, _, -, _, -, ⟨tail, _⟩, looped, rfl, rfl⟩ := accepted
      rw [ih looped]
      simp only [depositSum, List.map_cons, List.sum_cons]
      omega

/-- Inputs that pass the validation make a well-formed template. -/
theorem validateSequenceTemplateInputs_wellFormed {inputs calls : List Step} {total : Nat}
    (given : inputs ≠ [])
    (accepted : validateSequenceTemplateInputs inputs = .ok (calls, total)) (savedAtMs : Nat) :
    SequenceTemplate.WellFormed ⟨calls, savedAtMs, total⟩ := by
  obtain ⟨rfl, valid, distinct, -⟩ := validateTemplateFrom_eq_ok accepted
  have sum := validateTemplateFrom_total accepted
  refine ⟨given, fun call inside => validateStep_stepId (valid call inside), distinct, valid, ?_⟩
  rw [Nat.zero_add] at sum
  exact sum

namespace StoredAutomation

/-! ## Steps elsewhere -/

/-- The templates are kept, and no trigger names a template that none named before. -/
theorem of_kept {c c' : Contract} (stored : StoredAutomation c)
    (templates : c'.sequenceTemplates = c.sequenceTemplates)
    (sources : ∀ triggerId trigger, c'.balanceTriggers.get triggerId = some trigger →
      ∃ trigger', c.balanceTriggers.get triggerId = some trigger' ∧
        trigger'.sequenceId = trigger.sequenceId) : StoredAutomation c' where
  templates sequenceId template held := by
    rw [templates] at held
    exact stored.templates sequenceId template held
  triggers triggerId trigger held := by
    obtain ⟨trigger', before, same⟩ := sources triggerId trigger held
    rw [templates, ← same]
    exact stored.triggers triggerId trigger' before

theorem of_eq {c c' : Contract} (stored : StoredAutomation c)
    (templates : c'.sequenceTemplates = c.sequenceTemplates)
    (triggers : c'.balanceTriggers.get = c.balanceTriggers.get) : StoredAutomation c' :=
  stored.of_kept templates fun triggerId trigger held =>
    ⟨trigger, congrFun triggers triggerId ▸ held, rfl⟩

theorem of_sequencing {m m' : Machine} (stored : StoredAutomation m.contract)
    (sequencing : Sequencing m m') : StoredAutomation m'.contract :=
  stored.of_eq sequencing.sequenceTemplates (congrArg Books.triggers sequencing.books)

theorem deliver {m : Machine} (stored : StoredAutomation m.contract) (env : Env) (id : Nat)
    (answer : PromiseResult) : StoredAutomation (m.deliver env id answer).contract := by
  refine stored.of_kept (Undisturbed.deliver env m id answer).sequenceTemplates ?_
  intro triggerId trigger held
  have same := @Machine.deliver_triggers _ BalanceTrigger.sequenceId (fun _ _ _ => rfl) env m id
    answer triggerId
  rw [held, Option.map_some] at same
  obtain ⟨trigger', before, eq⟩ := Option.map_eq_some_iff.mp same.symm
  exact ⟨trigger', before, eq⟩

/-- Firing a trigger keeps the template it names. -/
theorem fire {env : Env} {m m₁ m' : Machine} {triggerId : String} {trigger : BalanceTrigger}
    (stored : StoredAutomation m.contract) (authorized : Machine.MayFire env m triggerId m₁)
    (held : m.contract.balanceTriggers.get triggerId = some trigger)
    (undisturbed : Undisturbed m₁ m')
    (books : m'.contract.books = m.contract.books.start env triggerId trigger) :
    StoredAutomation m'.contract := by
  have templates : m₁.contract.sequenceTemplates = m.contract.sequenceTemplates := by
    cases authorized <;> rfl
  refine stored.of_kept (undisturbed.sequenceTemplates.trans templates) ?_
  intro other after held'
  have booked : m'.contract.balanceTriggers.get other = _ :=
    congrFun (congrArg Books.triggers books) other
  rw [booked] at held'
  by_cases same : other = triggerId
  · subst same
    simp only [Books.start, Function.update_self, Option.some.injEq] at held'
    subst held'
    exact ⟨trigger, held, rfl⟩
  · simp only [Books.start, Function.update_of_ne same] at held'
    exact ⟨after, held', rfl⟩

/-! ## The four methods -/

theorem save {env : Env} {m m' : Machine} {sequenceId : String} {calls : List StepInput}
    (stored : StoredAutomation m.contract)
    (saved : m.saveSequenceTemplate env sequenceId calls = .ok m') :
    StoredAutomation m'.contract := by
  simp only [Machine.saveSequenceTemplate, bind_eq_ok, require_eq_ok, decide_eq_true_eq,
    Except.ok.injEq] at saved
  obtain ⟨-, -, -, -, -, given, ⟨validated, total⟩, accepted, rfl⟩ := saved
  constructor
  · intro other template held
    change (m.contract.sequenceTemplates.insert sequenceId _).get other = _ at held
    rw [IterableMap.get_insert] at held
    split at held
    · obtain rfl := Option.some.inj held
      exact validateSequenceTemplateInputs_wellFormed given accepted env.now
    · exact stored.templates other template held
  · intro triggerId trigger held
    change ∃ template, (m.contract.sequenceTemplates.insert sequenceId _).get _ = some template
    obtain ⟨template, before⟩ := stored.triggers triggerId trigger held
    rw [IterableMap.get_insert]
    split
    · exact ⟨_, rfl⟩
    · exact ⟨template, before⟩

theorem delete {env : Env} {m m' : Machine} {sequenceId : String}
    (stored : StoredAutomation m.contract)
    (deleted : m.deleteSequenceTemplate env sequenceId = .ok m') :
    StoredAutomation m'.contract := by
  simp only [Machine.deleteSequenceTemplate, bind_eq_ok, require_eq_ok, Except.ok.injEq,
    Bool.not_eq_true'] at deleted
  obtain ⟨-, -, -, -, -, unreferenced, rfl⟩ := deleted
  constructor
  · intro other template held
    change (m.contract.sequenceTemplates.remove sequenceId).get other = _ at held
    rw [IterableMap.get_remove] at held
    split at held
    · cases held
    · exact stored.templates other template held
  · intro triggerId trigger held
    change ∃ template, (m.contract.sequenceTemplates.remove sequenceId).get _ = some template
    obtain ⟨template, before⟩ := stored.triggers triggerId trigger held
    have other : trigger.sequenceId ≠ sequenceId := by
      intro same
      have referenced : m.contract.sequenceIdIsReferenced sequenceId = true := by
        rw [Contract.sequenceIdIsReferenced, List.any_eq_true]
        exact ⟨_, IterableMap.get_eq_some_iff.mp held, decide_eq_true same⟩
      rw [unreferenced] at referenced
      cases referenced
    rw [IterableMap.get_remove_of_ne _ other]
    exact ⟨template, before⟩

theorem createTrigger {env : Env} {m m' : Machine} {triggerId sequenceId : String}
    {minBalanceYocto maxRuns : Nat} (stored : StoredAutomation m.contract)
    (created : m.createBalanceTrigger env triggerId sequenceId minBalanceYocto maxRuns = .ok m') :
    StoredAutomation m'.contract := by
  simp only [Machine.createBalanceTrigger, bind_eq_ok, require_eq_ok, expect_eq_ok,
    Except.ok.injEq] at created
  obtain ⟨-, -, -, -, -, -, -, -, -, -, template, source, rfl⟩ := created
  refine ⟨stored.templates, ?_⟩
  intro other trigger held
  change (m.contract.balanceTriggers.insert triggerId _).get other = _ at held
  rw [IterableMap.get_insert] at held
  split at held
  · obtain rfl := Option.some.inj held
    exact ⟨template, source⟩
  · exact stored.triggers other trigger held

theorem deleteTrigger {env : Env} {m m' : Machine} {triggerId : String}
    (stored : StoredAutomation m.contract)
    (deleted : m.deleteBalanceTrigger env triggerId = .ok m') : StoredAutomation m'.contract := by
  simp only [Machine.deleteBalanceTrigger, bind_eq_ok, Except.ok.injEq] at deleted
  obtain ⟨-, -, trigger, -, -, -, rfl⟩ := deleted
  refine ⟨stored.templates, ?_⟩
  intro other trigger held
  exact stored.triggers other trigger (IterableMap.get_remove_eq_some held).2

/-! ## Every step -/

theorem fresh (host : Host) (ownerId : AccountId) (authorizerId : Option AccountId) :
    StoredAutomation (Machine.init host ownerId authorizerId).contract := by
  constructor
  · intro sequenceId template held
    cases held
  · intro triggerId trigger held
    cases held

theorem call {env : Env} {m m' : Machine} {method : PublicCall}
    (stored : StoredAutomation m.contract) (accepted : m.call env method = .ok m') :
    StoredAutomation m'.contract := by
  have ran : m.execute env method = .ok m' := by
    simp only [Machine.call, bind_eq_ok] at accepted
    obtain ⟨-, -, ran⟩ := accepted
    exact ran
  cases Machine.Effect.of_call accepted with
  | saveSequenceTemplate template owner => exact stored.save ran
  | deleteSequenceTemplate owner => exact stored.delete ran
  | createBalanceTrigger template owner absent => exact stored.createTrigger ran
  | deleteBalanceTrigger owner => exact stored.deleteTrigger ran
  | executeTrigger authorized held undisturbed books contexts execution fired about nonce named =>
      exact stored.fire authorized held undisturbed books
  | executeSteps executor sequencing => exact stored.of_sequencing sequencing
  | registerStep sequencing => exact stored.of_sequencing sequencing
  | runSequence executor sequencing => exact stored.of_sequencing sequencing
  | pruneFinishedAutomationRuns =>
      rw [(Machine.pruneFinishedAutomationRuns_eq m).2.1]
      exact stored.of_eq rfl rfl
  | revokeExpiredSessions =>
      rw [(Machine.revokeExpiredSessions_eq env m).2.1]
      exact stored.of_eq rfl rfl
  | revokeExpiredProxyKeys =>
      rw [(Machine.revokeExpiredProxyKeys_eq env m).2.1]
      exact stored.of_eq rfl rfl
  | _ => exact stored.of_eq rfl rfl

theorem step {m : Machine} (stored : StoredAutomation m.contract) (op : Op) :
    StoredAutomation (m.step op).contract := by
  cases op with
  | transact env method =>
      change StoredAutomation (m.transact env method).contract
      unfold Machine.transact
      split
      · rename_i m' accepted
        exact stored.call accepted
      · exact stored
  | timeout id =>
      change StoredAutomation (m.timeout id).contract
      rw [Machine.timeout_contract]
      exact stored
  | abort id answer =>
      change StoredAutomation (m.abort id answer).contract
      rw [Machine.abort_contract]
      exact stored
  | deliver env id answer => exact stored.deliver env id answer

end StoredAutomation

theorem Machine.Reachable.storedAutomation {m : Machine} (reachable : m.Reachable) :
    StoredAutomation m.contract :=
  @Reachable.induct (fun m => StoredAutomation m.contract)
    StoredAutomation.fresh (fun _ op stored => stored.step op) m reachable

/-- In every reachable state a stored template is not empty, has distinct nonempty step ids and
valid steps, and its total is the exact sum of their deposits; and a stored trigger names a
stored template. -/
theorem stored_automation_wellFormed {m : Machine} (reachable : m.Reachable) :
    (∀ sequenceId template, m.contract.sequenceTemplates.get sequenceId = some template →
        template.calls ≠ [] ∧ (∀ call ∈ template.calls, call.stepId ≠ "") ∧
          (template.calls.map Step.stepId).Nodup ∧
          (∀ call ∈ template.calls, validateStep call = .ok ()) ∧
          template.totalAttachedDepositYocto =
            (template.calls.map Step.attachedDepositYocto).sum) ∧
      ∀ triggerId trigger, m.contract.balanceTriggers.get triggerId = some trigger →
        ∃ template, m.contract.sequenceTemplates.get trigger.sequenceId = some template := by
  have stored := reachable.storedAutomation
  refine ⟨?_, stored.triggers⟩
  intro sequenceId template held
  have formed := stored.templates sequenceId template held
  exact ⟨formed.nonempty, formed.named, formed.distinct, formed.valid, formed.total⟩

theorem stored_automation_wellFormed_armed :
    ∃ template, (armed [plainStep "a", plainStep "b"]).contract.sequenceTemplates.get "plan" =
        some template ∧
      template.totalAttachedDepositYocto =
        (template.calls.map Step.attachedDepositYocto).sum := by
  obtain ⟨templates, triggers⟩ :=
    stored_automation_wellFormed (armed_reachable [plainStep "a", plainStep "b"])
  obtain ⟨template, held⟩ := triggers "daily" _ rfl
  exact ⟨template, held, (templates "plan" template held).2.2.2.2⟩

end SmartAccount
