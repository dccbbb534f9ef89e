import SmartAccount.ValueThreading
import SmartAccount.Wedges

/-!
# Saved results are returned results

A step's `on_step_resolved` saves the outcome of the last promise of its chain.  For a
direct or an adapter step that is what the target or the adapter returned.  An asserted
step has two more callbacks in between, and what is saved is what the last of them hands
on: nothing.
-/

namespace SmartAccount

open Foundation Function

/-- The flight whose next callback an operation runs or ends. -/
def Op.runs : Op → Option Nat
  | .deliver _ id _ => some id
  | .abort id _ => some id
  | _ => none

namespace Machine

/-! ## Flights that rest -/

/-- A flight under an identifier handed out before, if it is no unresumed yield, is as it
was. -/
structure Rests (id : Nat) (m m' : Machine) : Prop where
  next : m.pool.next ≤ m'.pool.next
  same : id < m.pool.next → (∀ thens, m.pool.get id ≠ some ⟨.yielded, thens⟩) →
    m'.pool.get id = m.pool.get id

namespace Rests

variable {id : Nat} {m m₁ m' : Machine}

theorem of_pool (same : m'.pool = m.pool) : Rests id m m' := by
  refine ⟨Nat.le_of_eq (congrArg Pool.next same).symm, fun _ _ => ?_⟩
  rw [same]

theorem trans (first : Rests id m m₁) (second : Rests id m₁ m') : Rests id m m' where
  next := Nat.le_trans first.next second.next
  same known awake := by
    have kept := first.same known awake
    exact (second.same (Nat.lt_of_lt_of_le known first.next) (kept ▸ awake)).trans kept

/-- Only an unresumed yield is resumed or times out. -/
theorem updateYield {id' : Nat} {thens : List Then} (head : Head)
    (dormant : m.pool.get id' = some ⟨.yielded, thens⟩) :
    Rests id m { m with pool := m.pool.update id' ⟨head, thens⟩ } where
  next := Nat.le_refl _
  same _ awake := by
    refine Pool.get_update_of_ne _ _ fun same => ?_
    subst same
    exact awake thens dormant

theorem of_write {ns : String} (write : Write ns m m') : Rests id m m' := by
  cases write with
  | resume stored resumed =>
      obtain ⟨thens, dormant, rfl⟩ := resumeYield_eq_some.mp resumed
      exact updateYield _ dormant
  | _ => exact of_pool rfl

theorem of_writes {ns : String} (writes : Writes ns m m') : Rests id m m' := by
  induction writes with
  | refl => exact of_pool rfl
  | tail _ last ih => exact ih.trans (of_write last)

theorem withRegistered (env : Env) (m : Machine) (ns : String) (call : Step) :
    Rests id m (m.withRegistered env ns call) where
  next := Nat.le_succ _
  same known _ := by
    show (m.pool.create _).get id = _
    rw [Pool.get_create, if_neg (Nat.ne_of_lt known)]

theorem registerSteps {env : Env} {ns : String} {calls : List Step}
    (registered : m.registerSteps env ns calls = .ok m') : Rests id m m' := by
  induction calls generalizing m with
  | nil => exact registerSteps_nil.mp registered ▸ of_pool rfl
  | cons call calls ih =>
      exact (withRegistered env m ns call).trans (ih (registerSteps_cons.mp registered).2)

theorem of_accepted {env : Env} (accepted : Accepted env m m') : Rests id m m' := by
  cases accepted with
  | aside aside edit => exact of_pool aside.pool
  | pruned =>
      unfold pruneFinishedAutomationRuns
      simp only
      split <;> exact of_pool rfl
  | registered caller call valid registered =>
      obtain ⟨-, rfl⟩ := registerStepInNamespace_ok.mp registered
      exact withRegistered env m _ call
  | released caller calls order valid registered released =>
      exact (registerSteps registered).trans (of_writes (startSequenceRelease_writes released))
  | fired triggerId authorized stored known checked registered released =>
      have entered : Rests id m _ := of_pool (authorizeFire_aside authorized).1.pool
      have staged := entered.trans (registerSteps registered)
      have woken := @of_writes id _ _ _ (startSequenceRelease_writes released)
      refine (staged.trans ?_).trans (of_pool rfl)
      exact ⟨woken.next, woken.same⟩

theorem rollBack (m : Machine) (id' : Nat) (t : Then) (result : PromiseResult) (panic : Panic) :
    Rests id m (m.rollBack id' t result panic) := by
  have kept := congrArg pool (m.rollBack_eq id' t result panic)
  exact of_pool kept

theorem settle (m : Machine) {id' : Nat} (other : id ≠ id') (f : Flight) :
    Rests id m (m.settle id' f) := by
  unfold Machine.settle
  split
  · refine ⟨Nat.le_refl _, fun _ _ => ?_⟩
    show (m.pool.remove id').get id = _
    rw [Pool.get_remove, if_neg other]
  · exact ⟨Nat.le_refl _, fun _ _ => Pool.get_update_of_ne _ _ other⟩

theorem runThen (env : Env) (m : Machine) {id' : Nat} (other : id ≠ id') (t : Then)
    (rest : List Then) (result : PromiseResult) : Rests id m (m.runThen env id' t rest result) := by
  have delivered : Rests id m
      ({ m with executing := some id' }.note (.delivered id' t.callback result)) := of_pool rfl
  unfold Machine.runThen
  split
  · rename_i panic failed
    exact (rollBack m id' t result panic).trans (settle _ other _)
  · rename_i m₁ bytes attempted
    exact (delivered.trans (of_writes (.runCallback (attempt_ok.mp attempted).1))).trans
      (settle _ other _)
  · rename_i m₁ p attempted
    have called : Rests id m₁ (m₁.note (.called t.callback.sequenceNamespace id' p.call)) :=
      of_pool rfl
    exact ((delivered.trans (of_writes (.runCallback (attempt_ok.mp attempted).1))).trans
      called).trans (settle _ other _)

/-- An operation leaves alone every flight whose next callback it does not run. -/
theorem step (m : Machine) {op : Op} (other : op.runs ≠ some id) : Rests id m (m.step op) := by
  cases op with
  | transact env method =>
      show Rests id m (m.transact env method)
      unfold transact
      split
      · rename_i m' accepted
        exact of_accepted (.of_call accepted)
      · exact of_pool rfl
  | timeout id' =>
      show Rests id m (m.timeout id')
      unfold timeout
      split
      · rename_i thens dormant
        exact updateYield _ dormant
      · exact of_pool rfl
  | deliver env id' answer =>
      have elsewhere : id ≠ id' := fun same => other (congrArg some same.symm)
      rcases m.deliver_cases env id' answer with same | ⟨head, t, rest, result, -, -, ran⟩
      · exact of_pool (congrArg pool same)
      · show Rests id m (m.deliver env id' answer)
        rw [ran]
        exact runThen env m elsewhere t rest result
  | abort id' answer =>
      have elsewhere : id ≠ id' := fun same => other (congrArg some same.symm)
      rcases m.abort_cases id' answer with same | ⟨head, t, rest, result, panic, -, -, -, ended⟩
      · exact of_pool (congrArg pool same)
      · show Rests id m (m.abort id' answer)
        rw [ended]
        exact (rollBack m id' t result panic).trans (settle _ elsewhere _)

end Rests

/-! ## The target's return and the resolution -/

/-- The call of a copy to its target, or to its adapter, is outstanding: its flight waits for
the call that was dispatched, and carries the callbacks chained behind it. -/
def AwaitsTarget (m : Machine) (ns : String) (id : Nat) (call : Step) : Prop :=
  ∃ authorizerId args, m.pool.get id = some ⟨.call (materialized authorizerId ns call args).call,
    (materialized authorizerId ns call args).thens⟩

/-- The operation hands the flight's `on_step_resolved` an Ok outcome with these bytes. -/
def ResolvesOk (m : Machine) (ns stepId : String) (id : Nat) (bytes : Bytes) (op : Op) : Prop :=
  ∃ env answer head gas rest result, op = .deliver env id answer ∧
    m.pool.get id = some ⟨head, ⟨.onStepResolved ns stepId, gas⟩ :: rest⟩ ∧
    head.outcome answer = some result ∧ result.checked = .ok bytes

/-- `on_step_resolved` on an Ok outcome, up to where it has saved the result and goes on to
the next step. -/
def storingResult (m : Machine) (ns stepId : String) (bytes : Bytes) : Machine :=
  (m.removeStep ns stepId).saveIfAsked ns stepId
    ((m.getStep ns stepId).bind fun y => y.call.saveResult) bytes

/-- Where the operation resolves the copy Ok, the value stored under the name it asked for is
what its target returned: once it is saved, and in what the resolution leaves of the context
if the sequence goes on. -/
def SavesReturn (ns : String) (id : Nat) (call : Step) (returned : Bytes) (m : Machine)
    (op : Op) : Prop :=
  ∀ bytes spec, m.ResolvesOk ns call.stepId id bytes op → call.saveResult = some spec →
    SequenceContext.lookup ((m.storingResult ns call.stepId bytes).context ns) spec.asName =
        some returned ∧
      ((m.step op).context ns = none ∨
        SequenceContext.lookup ((m.step op).context ns) spec.asName = some returned)

/-- Where the operation resolves the copy Ok in an automation namespace, the copy is still
registered. -/
def StillRegistered (ns : String) (id : Nat) (call : Step) (m : Machine) (op : Op) : Prop :=
  ∀ bytes, m.ResolvesOk ns call.stepId id bytes op → IsManual ns ∨
    ∃ yielded, m.getStep ns call.stepId = some yielded ∧ yielded.yieldId = id

section Resolution

variable {m : Machine} {ns stepId : String} {id : Nat} {op : Op} {call : Step} {bytes : Bytes}

/-- A resolution stores the bytes it is given under the name the registered step asks for. -/
theorem lookup_storingResult {yielded : RegisteredStep} {spec : SaveResult}
    (stored : m.getStep ns stepId = some yielded) (asks : yielded.call.saveResult = some spec) :
    SequenceContext.lookup ((m.storingResult ns stepId bytes).context ns) spec.asName =
      some bytes := by
  unfold storingResult
  rw [lookup_saveIfAsked, stored, Option.bind_some, asks]
  exact update_self ..

/-- `on_step_resolved` always goes through, and hands on nothing. -/
theorem runThen_onStepResolved (env : Env) (m : Machine) (ns stepId : String) (id gas : Nat)
    (rest : List Then) (result : PromiseResult) :
    m.runThen env id ⟨.onStepResolved ns stepId, gas⟩ rest result =
      (({ m with executing := some id }.note (.delivered id (.onStepResolved ns stepId)
        result)).onStepResolved env ns stepId result).settle id ⟨.done (.successful []), rest⟩ :=
  rfl

/-- After a resolution the context is as it was stored, or the sequence is over and it is
gone. -/
theorem ResolvesOk.context (resolves : m.ResolvesOk ns stepId id bytes op) :
    (m.step op).context ns = none ∨
      (m.step op).context ns = (m.storingResult ns stepId bytes).context ns := by
  obtain ⟨env, answer, head, gas, rest, result, rfl, stored, outcome, small⟩ := resolves
  have ran : m.step (.deliver env id answer) =
      m.runThen env id ⟨.onStepResolved ns stepId, gas⟩ rest result := by
    show m.deliver env id answer = _
    unfold deliver
    rw [stored]
    simp only [outcome]
  rw [ran, runThen_onStepResolved]
  unfold onStepResolved
  simp only [small]
  rcases progress_files env _ ns stepId bytes.length _ _ rfl with ⟨empty, -⟩ | ⟨kept, -⟩
  · exact .inl empty
  · refine .inr (kept.trans ?_)
    show (Machine.saveIfAsked _ ns stepId ((m.getStep ns stepId).bind _) bytes).context ns = _
    unfold storingResult
    cases (m.getStep ns stepId).bind fun y => y.call.saveResult <;> rfl

/-- The outcomes of one flight's `on_step_resolved` have the same bytes. -/
theorem ResolvesOk.unique {bytes' : Bytes} (resolves : m.ResolvesOk ns stepId id bytes op)
    (again : m.ResolvesOk ns stepId id bytes' op) : bytes = bytes' := by
  obtain ⟨env, answer, head, gas, rest, result, rfl, stored, outcome, small⟩ := resolves
  obtain ⟨env', answer', head', gas', rest', result', same, stored', outcome', small'⟩ := again
  cases same
  cases stored.symm.trans stored'
  cases outcome.symm.trans outcome'
  exact Except.ok.inj (small.symm.trans small')

/-- A registered copy that resolves Ok saves what its target returned exactly when that is
the outcome `on_step_resolved` is handed. -/
theorem savesReturn_iff {yielded : RegisteredStep} {spec : SaveResult} {returned : Bytes}
    (resolves : m.ResolvesOk ns call.stepId id bytes op)
    (stored : m.getStep ns call.stepId = some yielded) (own : yielded.call = call)
    (asks : call.saveResult = some spec) :
    SavesReturn ns id call returned m op ↔ bytes = returned := by
  have saved : SequenceContext.lookup ((m.storingResult ns call.stepId bytes).context ns)
      spec.asName = some bytes := lookup_storingResult stored (own ▸ asks)
  constructor
  · intro saves
    exact Option.some.inj (saved.symm.trans (saves bytes spec resolves asks).1)
  · rintro rfl bytes' spec' again asks'
    obtain rfl := resolves.unique again
    obtain rfl := Option.some.inj (asks.symm.trans asks')
    refine ⟨saved, resolves.context.imp_right fun kept => ?_⟩
    rw [kept]
    exact saved

end Resolution

/-! ## From the target's return to the resolution -/

section Chained

variable {m : Machine} {ns stepId : String} {id gas : Nat} {op : Op} {call : Step} {ops : List Op}

/-- What is left of a flight whose `on_step_resolved` has no bytes to save: it is over, its
assertion is being evaluated, or it is settled. -/
inductive Spent (ns stepId : String) : Option Flight → Prop
  | gone : Spent ns stepId none
  | checking {fc : FunctionCall} {ns' stepId' : String} {expected : Bytes} {gas gas' : Nat} :
      Spent ns stepId (some ⟨.call fc, [⟨.onAssertedEvaluatePostcheck ns' stepId' expected, gas⟩,
        ⟨.onStepResolved ns stepId, gas'⟩]⟩)
  | settled {result : PromiseResult} {gas : Nat}
      (empty : ∀ bytes, result.checked = .ok bytes → bytes = []) :
      Spent ns stepId (some ⟨.done result, [⟨.onStepResolved ns stepId, gas⟩]⟩)

namespace Spent

theorem settle (m : Machine) (id : Nat) {f : Flight} (spent : Spent ns stepId (some f)) :
    Spent ns stepId ((m.settle id f).pool.get id) := by
  cases found : (m.settle id f).pool.get id with
  | none => exact .gone
  | some f' => exact settle_get found ▸ spent

/-- A failed callback leaves the failure to `on_step_resolved`. -/
theorem failed {gas : Nat} :
    Spent ns stepId (some ⟨.done .failed, [⟨.onStepResolved ns stepId, gas⟩]⟩) :=
  .settled fun _ small => nomatch small

/-- After `on_step_resolved` the flight is over. -/
theorem of_resolved (env : Env) (m : Machine) (ns stepId : String) (id gas : Nat)
    (result : PromiseResult) :
    (m.runThen env id ⟨.onStepResolved ns stepId, gas⟩ [] result).pool.get id = none := by
  rw [runThen_onStepResolved]
  exact (Pool.get_remove ..).trans (if_pos rfl)

/-- A delivery to a spent flight leaves it spent. -/
theorem deliver (spent : Spent ns stepId (m.pool.get id)) (env : Env) (answer : PromiseResult) :
    Spent ns stepId ((m.deliver env id answer).pool.get id) := by
  rcases m.deliver_cases env id answer with same | ⟨head, t, rest, result, stored, outcome, ran⟩
  · rw [same]
    exact spent
  · rw [ran]
    rw [stored] at spent
    cases spent with
    | checking =>
        unfold runThen
        split
        · exact settle _ _ failed
        · rename_i m' bytes attempted
          obtain ⟨checked, -, eq⟩ := bind_eq_ok.mp (attempt_ok.mp attempted).1
          cases eq
          exact settle _ _ (.settled fun bytes small => (Except.ok.inj small).symm)
        · rename_i m' p attempted
          obtain ⟨checked, -, eq⟩ := bind_eq_ok.mp (attempt_ok.mp attempted).1
          cases eq
    | settled empty =>
        rw [of_resolved]
        exact .gone

/-- So does the end of its next callback. -/
theorem abort (spent : Spent ns stepId (m.pool.get id)) (answer : PromiseResult) :
    Spent ns stepId ((m.abort id answer).pool.get id) := by
  rcases m.abort_cases id answer with same | ⟨head, t, rest, result, panic, stored, -, -, ended⟩
  · rw [same]
    exact spent
  · rw [ended]
    rw [stored] at spent
    cases spent with
    | checking => exact settle _ _ failed
    | @settled _ gas empty =>
        have finished : ((m.rollBack id ⟨.onStepResolved ns stepId, gas⟩ result panic).settle id
            ⟨.done .failed, []⟩).pool.get id = none := (Pool.get_remove ..).trans (if_pos rfl)
        rw [finished]
        exact .gone

theorem step (spent : Spent ns stepId (m.pool.get id)) (known : id < m.pool.next) (op : Op) :
    Spent ns stepId ((m.step op).pool.get id) := by
  by_cases here : op.runs = some id
  · cases op with
    | transact env method => cases here
    | timeout id' => cases here
    | deliver env id' answer =>
        cases here
        exact spent.deliver env answer
    | abort id' answer =>
        cases here
        exact spent.abort answer
  · have awake : ∀ thens, m.pool.get id ≠ some ⟨.yielded, thens⟩ := by
      intro thens dormant
      rw [dormant] at spent
      cases spent
    rw [(Rests.step m here).same known awake]
    exact spent

/-- A spent flight resolves with no bytes. -/
theorem resolvesOk {bytes : Bytes} (spent : Spent ns stepId (m.pool.get id))
    (resolves : m.ResolvesOk ns stepId id bytes op) : bytes = [] := by
  obtain ⟨env, answer, head, gas, rest, result, -, stored, outcome, small⟩ := resolves
  rw [stored] at spent
  cases spent with
  | settled empty =>
      cases outcome
      exact empty bytes small

end Spent

/-- Behind the target call of an asserted copy its assertion is still to be run; behind any
other, `on_step_resolved` is next. -/
theorem AwaitsTarget.cases (awaits : m.AwaitsTarget ns id call) :
    (call.policy.isAsserted = true ∧ ∃ fc assertionId method args expected gasTgas gas gas',
      m.pool.get id = some ⟨.call fc,
        [⟨.onAssertedRunPostcheck ns call.stepId assertionId method args expected gasTgas, gas⟩,
          ⟨.onStepResolved ns call.stepId, gas'⟩]⟩) ∨
      call.policy.isAsserted = false ∧ ∃ fc gas, m.pool.get id =
        some ⟨.call fc, [⟨.onStepResolved ns call.stepId, gas⟩]⟩ := by
  obtain ⟨authorizerId, args, stored⟩ := awaits
  rw [materialized_thens] at stored
  cases policy : call.policy with
  | asserted assertionId method assertionArgs expected gasTgas =>
      rw [policy] at stored
      exact .inl ⟨rfl, _, _, _, _, _, _, _, _, stored⟩
  | direct =>
      rw [policy] at stored
      exact .inr ⟨rfl, _, _, stored⟩
  | adapter adapterId adapterMethod =>
      rw [policy] at stored
      exact .inr ⟨rfl, _, _, stored⟩

/-- Right after its target returned, a copy's flight is spent. -/
theorem AwaitsTarget.spent (awaits : m.AwaitsTarget ns id call) (env : Env)
    (answer : PromiseResult) :
    Spent ns call.stepId ((m.step (.deliver env id answer)).pool.get id) := by
  show Spent ns call.stepId ((m.deliver env id answer).pool.get id)
  unfold deliver
  rcases awaits.cases with ⟨-, fc, assertionId, method, args, expected, gasTgas, gas, gas',
    stored⟩ | ⟨-, fc, gas, stored⟩
  · rw [stored]
    simp only [Head.outcome]
    unfold runThen
    split
    · exact Spent.settle _ _ .failed
    · rename_i m' bytes attempted
      obtain ⟨posted, -, eq⟩ := bind_eq_ok.mp (attempt_ok.mp attempted).1
      cases eq
    · rename_i m' p attempted
      obtain ⟨promise, posted, eq⟩ := bind_eq_ok.mp (attempt_ok.mp attempted).1
      cases eq
      obtain ⟨-, rfl⟩ := onAssertedRunPostcheck_ok posted
      exact Spent.settle _ _ .checking
  · rw [stored]
    simp only [Head.outcome]
    rw [Spent.of_resolved]
    exact .gone

/-- What `on_step_resolved` is handed once the target returned these bytes: them, unless two
more callbacks stand in between. -/
def handed (call : Step) (returned : Bytes) : Bytes :=
  if call.policy.isAsserted then [] else returned

/-- An Ok resolution of the copy is handed these bytes. -/
structure Hands (ns : String) (id : Nat) (call : Step) (bytes : Bytes) (m : Machine) (op : Op) :
    Prop where
  reachable : m.Reachable
  record : ∃ gas, .registered ns id call gas ∈ m.trace
  outcome : ∀ bytes', m.ResolvesOk ns call.stepId id bytes' op → bytes' = bytes

/-- What every operation keeps of a flight, and lets it resolve with these bytes only, holds
along a run. -/
theorem hands_along {P : Option Flight → Prop} {bytes : Bytes}
    (kept : ∀ (m : Machine) op, id < m.pool.next → P (m.pool.get id) → P ((m.step op).pool.get id))
    (outcome : ∀ (m : Machine) op bytes', P (m.pool.get id) →
      m.ResolvesOk ns call.stepId id bytes' op → bytes' = bytes) (reachable : m.Reachable)
    (record : .registered ns id call gas ∈ m.trace) (start : P (m.pool.get id)) :
    Along (Hands ns id call bytes) m ops := by
  induction ops generalizing m with
  | nil => trivial
  | cons op ops ih =>
      refine ⟨⟨reachable, ⟨gas, record⟩, fun bytes' resolves => outcome m op bytes' start resolves⟩,
        ih (reachable.run [op]) ((step_trace m op).subset record) ?_⟩
      exact kept m op (reachable.wf.known _ _ _ _ record) start

/-- A flight that is over stays over. -/
theorem gone_step (known : id < m.pool.next) (gone : m.pool.get id = none) (op : Op) :
    (m.step op).pool.get id = none := by
  by_cases here : op.runs = some id
  · cases op with
    | transact env method => cases here
    | timeout id' => cases here
    | deliver env id' answer =>
        cases here
        rcases m.deliver_cases env id answer with same | ⟨head, t, rest, result, stored, -, -⟩
        · exact (congrArg (fun m' : Machine => m'.pool.get id) same).trans gone
        · cases gone.symm.trans stored
    | abort id' answer =>
        cases here
        rcases m.abort_cases id answer with same | ⟨head, t, rest, result, -, stored, -, -, -⟩
        · exact (congrArg (fun m' : Machine => m'.pool.get id) same).trans gone
        · cases gone.symm.trans stored
  · rw [(Rests.step m here).same known fun thens => by
      rw [gone]
      exact (Option.some_ne_none _).symm]
    exact gone

/-- From the target's return on, every Ok resolution of the copy is handed the same bytes. -/
theorem AwaitsTarget.hands (awaits : m.AwaitsTarget ns id call) (reachable : m.Reachable)
    (record : .registered ns id call gas ∈ m.trace) (env : Env) (returned : Bytes) (ops : List Op) :
    Along (Hands ns id call (handed call returned)) m
      (.deliver env id (.successful returned) :: ops) := by
  have reachable' : (m.step (.deliver env id (.successful returned))).Reachable :=
    reachable.run [.deliver env id (.successful returned)]
  have record' := (step_trace m (.deliver env id (.successful returned))).subset record
  unfold handed
  rcases awaits.cases with ⟨asserted, fc, assertionId, method, args, expected, gasTgas, gas₁, gas₂,
    stored⟩ | ⟨plain, fc, gas₁, stored⟩
  · rw [if_pos asserted]
    refine ⟨⟨reachable, ⟨gas, record⟩, ?_⟩, ?_⟩
    · rintro bytes ⟨env', answer, head, gas', rest, result, -, stored', -, -⟩
      cases stored.symm.trans stored'
    · exact hands_along (fun m op known spent => spent.step known op)
        (fun m op bytes spent resolves => spent.resolvesOk resolves) reachable' record'
        (awaits.spent env _)
  · rw [if_neg (by rw [plain]; exact Bool.false_ne_true)]
    refine ⟨⟨reachable, ⟨gas, record⟩, ?_⟩, ?_⟩
    · rintro bytes ⟨env', answer, head, gas', rest, result, same, stored', outcome, small⟩
      cases same
      cases stored.symm.trans stored'
      cases outcome
      simp only [PromiseResult.checked] at small
      split at small
      · exact (Except.ok.inj small).symm
      · cases small
    · have spent : (m.step (.deliver env id (.successful returned))).pool.get id = none := by
        show (m.deliver env id (.successful returned)).pool.get id = none
        unfold deliver
        rw [stored]
        exact Spent.of_resolved env m ns call.stepId id gas₁ _
      refine hands_along (P := fun f => f = none) (fun m op known gone => gone_step known gone op)
        (fun m op bytes gone resolves => ?_) reachable' record' spent
      obtain ⟨env', answer, head, gas', rest, result, -, stored', -, -⟩ := resolves
      rw [gone] at stored'
      cases stored'

end Chained

/-! ## Fidelity of saved results -/

theorem along_and {P Q : Machine → Op → Prop} {m : Machine} {ops : List Op}
    (first : Along P m ops) (second : Along Q m ops) :
    Along (fun m op => P m op ∧ Q m op) m ops := by
  induction ops generalizing m with
  | nil => trivial
  | cons op ops ih => exact ⟨⟨first.1, second.1⟩, ih first.2 second.2⟩

theorem along_congr {P Q R : Machine → Op → Prop} {m : Machine} {ops : List Op}
    (same : ∀ m op, R m op → (P m op ↔ Q m op)) (holds : Along R m ops) :
    Along P m ops ↔ Along Q m ops := by
  induction ops generalizing m with
  | nil => exact Iff.rfl
  | cons op ops ih => exact and_congr (same m op holds.1) (ih holds.2)

/-- A copy that is still registered is the one its record tells. -/
theorem Hands.stored {m : Machine} {ns : String} {id : Nat} {call : Step} {bytes bytes' : Bytes}
    {op : Op} (hands : Hands ns id call bytes m op) (registered : StillRegistered ns id call m op)
    (resolves : m.ResolvesOk ns call.stepId id bytes' op) :
    ∃ yielded, m.getStep ns call.stepId = some yielded ∧ yielded.call = call := by
  obtain ⟨gas, record⟩ := hands.record
  have own : ∀ yielded, m.getStep ns call.stepId = some yielded → yielded.yieldId = id →
      yielded.call = call := by
    rintro yielded stored rfl
    obtain ⟨ns', gas', record', -⟩ := hands.reachable.wf.stored _ _ stored
    exact (hands.reachable.wf.unique _ _ _ _ _ _ _ record' record).2.1
  rcases registered bytes' resolves with manual | ⟨yielded, stored, same⟩
  · obtain ⟨tidy, -⟩ := hands.reachable.lane_tidy (hands.reachable.wf.isolated_of_manual manual)
    obtain ⟨env, answer, head, gas', rest, result, -, flying, -, -⟩ := resolves
    obtain ⟨nonempty, addressed⟩ := hands.reachable.wf.addressed_of_registered record flying
    have heard : .registered ns id call gas ∈ (m.lane ns).trace := List.mem_filter.mpr ⟨record, by
      simp [TraceEvent.concerns, TraceEvent.sequenceNamespace]⟩
    obtain ⟨yielded, stored, same⟩ := tidy.attached manual id _ call gas
      (lane_flight_of_addressed flying nonempty addressed) heard
    exact ⟨yielded, stored, own yielded stored same⟩
  · exact ⟨yielded, stored, own yielded stored same⟩

/-- Once the target of a copy that saves its result returned Ok, the copy's Ok resolutions save
what was returned exactly when the copy is not asserted or nothing was returned. -/
theorem saved_result_is_returned_iff {m : Machine} (reachable : m.Reachable) {ns : String}
    {id gas : Nat} {call : Step} {spec : SaveResult} (record : .registered ns id call gas ∈ m.trace)
    (asks : call.saveResult = some spec) (awaits : m.AwaitsTarget ns id call) (env : Env)
    (returned : Bytes) (ops : List Op)
    (registered : Along (StillRegistered ns id call) m
      (.deliver env id (.successful returned) :: ops)) :
    Along (SavesReturn ns id call returned) m (.deliver env id (.successful returned) :: ops) ↔
      Along (fun m op => ∀ bytes, m.ResolvesOk ns call.stepId id bytes op →
        call.policy.isAsserted = true → returned = []) m
          (.deliver env id (.successful returned) :: ops) := by
  have hands := along_and (awaits.hands reachable record env returned ops) registered
  refine along_congr (fun m op ⟨hands, registered⟩ => ?_) hands
  by_cases resolved : ∃ bytes, m.ResolvesOk ns call.stepId id bytes op
  · obtain ⟨bytes, resolves⟩ := resolved
    obtain ⟨yielded, stored, own⟩ := hands.stored registered resolves
    rw [savesReturn_iff resolves stored own asks, hands.outcome bytes resolves]
    unfold handed
    cases asserted : call.policy.isAsserted with
    | true => exact ⟨fun same _ _ _ => same.symm, fun empty => (empty bytes resolves rfl).symm⟩
    | false => exact iff_of_true rfl fun _ _ plain => nomatch plain
  · refine iff_of_true (fun bytes spec resolves => absurd ⟨bytes, resolves⟩ resolved)
      fun bytes resolves => absurd ⟨bytes, resolves⟩ resolved

/-! ## A gated step and an asserted one -/

/-- The price of nine, as the market returns it. -/
def nine : Bytes := utf8Bytes "\"9\""

/-- A step that saves the market's price, behind a gate. -/
def gatedSaving : Step := { savingStep "a" with preGate := gatedStep.preGate }

/-- A step that saves the market's price, and has the market vouch for it. -/
def assertedSaving : Step := { savingStep "a" with policy := assertedStep.policy }

/-- The price is awaited, the gate passed. -/
def askingPrice : Machine :=
  deployed.run [.transact { aliceEnv with spareGas := 100 }
      (.executeSteps [gatedSaving, plainStep "b"]),
    .deliver aliceEnv 0 okResult, .deliver aliceEnv 0 (.successful [6])]

theorem saved_result_is_returned_iff_gated :
    Along (SavesReturn (manualNamespace alice) 0 gatedSaving nine) askingPrice
      [.deliver aliceEnv 0 (.successful nine)] := by
  have recorded : .registered (manualNamespace alice) 0 gatedSaving 150 ∈ askingPrice.trace := by
    decide
  refine (saved_result_is_returned_iff (deployed_reachable.run _) recorded rfl
    ⟨none, [], by decide⟩ aliceEnv nine [] ⟨fun _ _ => .inl ⟨alice, rfl⟩, trivial⟩).mpr ?_
  refine ⟨fun bytes resolves asserted => ?_, trivial⟩
  cases asserted

/-- The price is awaited that the market is then asked to vouch for. -/
def assertingPrice : Machine :=
  deployed.run [.transact aliceEnv (.executeSteps [assertedSaving, plainStep "b"]),
    .deliver aliceEnv 0 okResult]

/-- The asserted step resolves Ok, and the price its target returned is not what it saves. -/
theorem asserted_step_saves_nothing : ∃ (m : Machine) (ns : String) (id gas : Nat) (call : Step)
    (spec : SaveResult) (env : Env) (returned : Bytes) (ops : List Op), m.Reachable ∧
      .registered ns id call gas ∈ m.trace ∧ call.saveResult = some spec ∧
      m.AwaitsTarget ns id call ∧
      Along (StillRegistered ns id call) m (.deliver env id (.successful returned) :: ops) ∧
      ¬ Along (SavesReturn ns id call returned) m
        (.deliver env id (.successful returned) :: ops) := by
  refine ⟨assertingPrice, manualNamespace alice, 0, resumeCallbackGas assertedSaving,
    assertedSaving, ⟨"price", .u128Json⟩, aliceEnv, nine,
    [.deliver aliceEnv 0 (.successful [1]), .deliver aliceEnv 0 okResult],
    deployed_reachable.run _, by decide, rfl, ⟨none, [], by decide⟩,
    ⟨fun _ _ => .inl ⟨alice, rfl⟩, fun _ _ => .inl ⟨alice, rfl⟩, fun _ _ => .inl ⟨alice, rfl⟩,
      trivial⟩, ?_⟩
  intro along
  have saves := along.2.2.1
  have resolves : (assertingPrice.run [.deliver aliceEnv 0 (.successful nine),
      .deliver aliceEnv 0 (.successful [1])]).ResolvesOk (manualNamespace alice) "a" 0 []
        (.deliver aliceEnv 0 okResult) :=
    ⟨aliceEnv, okResult, .done (.successful []), stepResolveCallbackGasTgas, [], .successful [],
      rfl, by decide, rfl, rfl⟩
  have stored : SequenceContext.lookup (((assertingPrice.run
      [.deliver aliceEnv 0 (.successful nine), .deliver aliceEnv 0 (.successful [1])]).storingResult
        (manualNamespace alice) "a" []).context (manualNamespace alice)) "price" = some [] := by
    decide
  have returned := stored.symm.trans (saves [] ⟨"price", .u128Json⟩ resolves rfl).1
  revert returned
  decide

end Machine

end SmartAccount
