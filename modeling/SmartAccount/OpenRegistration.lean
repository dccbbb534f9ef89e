import SmartAccount.Methods

/-!
# Open registration

Anybody may call `register_step`, and the timeout of a yield made so clears what it finds under
its namespace.  Both stay within the caller's manual namespace: it is separate from every
namespace the contract creates, and no automation run is ever stored under it
(`open_registration_is_contained`).
-/

namespace SmartAccount

open Foundation

/-! ## Changes within one namespace -/

/-- The two contracts differ at most in the steps, the queue and the saved results of `ns`. -/
structure OnlyWithin (ns : String) (c c' : Contract) : Prop where
  settings : c'.settings = c.settings
  triggers : c'.balanceTriggers = c.balanceTriggers
  runs : c'.automationRuns = c.automationRuns
  steps : ∀ key, (∀ stepId, key ≠ registeredStepKey ns stepId) →
    c'.registeredSteps.get key = c.registeredSteps.get key
  queue : ∀ ns', ns' ≠ ns → c'.sequenceQueue.get ns' = c.sequenceQueue.get ns'
  contexts : ∀ ns', ns' ≠ ns → c'.sequenceContexts.get ns' = c.sequenceContexts.get ns'

namespace OnlyWithin

variable {ns : String}

theorem refl (ns : String) (c : Contract) : OnlyWithin ns c c :=
  ⟨rfl, rfl, rfl, fun _ _ => rfl, fun _ _ => rfl, fun _ _ => rfl⟩

theorem trans {c₁ c₂ c₃ : Contract} (first : OnlyWithin ns c₁ c₂) (second : OnlyWithin ns c₂ c₃) :
    OnlyWithin ns c₁ c₃ where
  settings := second.settings.trans first.settings
  triggers := second.triggers.trans first.triggers
  runs := second.runs.trans first.runs
  steps key other := (second.steps key other).trans (first.steps key other)
  queue ns' other := (second.queue ns' other).trans (first.queue ns' other)
  contexts ns' other := (second.contexts ns' other).trans (first.contexts ns' other)

/-- A write of a namespace that has no run row. -/
theorem of_write {m m' : Machine} (write : Write ns m m')
    (rowless : m.contract.automationRuns.get ns = none) :
    OnlyWithin ns m.contract m'.contract := by
  have settings := (Undisturbed.of_write write).settings
  cases write with
  | note event about plain => exact refl ns _
  | removeStep stepId =>
      refine ⟨settings, rfl, rfl, fun key other => ?_, fun _ _ => rfl, fun _ _ => rfl⟩
      exact IterableMap.get_remove_of_ne _ (other stepId)
  | setQueue waiting =>
      refine ⟨settings, rfl, rfl, fun _ _ => rfl, fun ns' other => ?_, fun _ _ => rfl⟩
      exact IterableMap.get_insert_of_ne _ _ other
  | removeQueue =>
      refine ⟨settings, rfl, rfl, fun _ _ => rfl, fun ns' other => ?_, fun _ _ => rfl⟩
      exact IterableMap.get_remove_of_ne _ other
  | clearContext =>
      refine ⟨settings, rfl, rfl, fun _ _ => rfl, fun _ _ => rfl, fun ns' other => ?_⟩
      exact IterableMap.get_remove_of_ne _ other
  | saveResult spec bytes =>
      refine ⟨settings, rfl, rfl, fun _ _ => rfl, fun _ _ => rfl, fun ns' other => ?_⟩
      exact IterableMap.get_insert_of_ne _ _ other
  | resume stored resumed =>
      obtain ⟨thens, -, rfl⟩ := Machine.resumeYield_eq_some.mp resumed
      exact refl ns _
  | finishRun stored running closing =>
      rw [rowless] at stored
      cases stored
  | clearNamespace =>
      refine ⟨settings, rfl, rfl, fun key other => ?_, fun _ _ => rfl, fun _ _ => rfl⟩
      change (m.contract.registeredSteps.removeAll _).get key = _
      rw [IterableMap.get_removeAll, if_neg]
      intro inside
      obtain ⟨stepId, same⟩ := startsWith_namespace_iff.mp (List.mem_filter.mp inside).2
      exact other stepId same

theorem of_writes {m m' : Machine} (writes : Writes ns m m')
    (rowless : m.contract.automationRuns.get ns = none) :
    OnlyWithin ns m.contract m'.contract := by
  induction writes with
  | refl => exact refl ns _
  | tail _ last ih => exact ih.trans (of_write last (ih.runs ▸ rowless))

/-- Registering a step is a change within its namespace. -/
theorem withRegistered (env : Env) (m : Machine) (call : Step) :
    OnlyWithin ns m.contract (m.withRegistered env ns call).contract := by
  refine ⟨rfl, rfl, rfl, fun key other => ?_, fun _ _ => rfl, fun _ _ => rfl⟩
  exact IterableMap.get_insert_of_ne _ _ (other call.stepId)

/-- No namespace that shares no key with this one loses or gains a step. -/
theorem getStep {m m' : Machine} (within : OnlyWithin ns m.contract m'.contract) {ns' : String}
    (separate : Separate ns ns') (stepId : String) :
    m'.getStep ns' stepId = m.getStep ns' stepId :=
  within.steps _ fun stepId' => (separate stepId' stepId).symm

end OnlyWithin

/-! ## Open operations -/

/-- An account registers a step, or one of the yields from `first` on times out and wakes. -/
inductive Open (caller : AccountId) (first : Nat) : Op → Prop
  | registers {env : Env} (input : StepInput) (own : env.predecessor = caller) :
      Open caller first (.transact env (.registerStep input))
  | expires {id : Nat} (later : first ≤ id) : Open caller first (.timeout id)
  | wakes {env : Env} {id : Nat} {answer : PromiseResult} (later : first ≤ id) :
      Open caller first (.deliver env id answer)

/-- Every callback of a yield from `first` on is addressed to the namespace. -/
def Addressed (ns : String) (first : Nat) (m : Machine) : Prop :=
  ∀ id f, first ≤ id → m.pool.get id = some f →
    ∀ t ∈ f.thens, t.callback.sequenceNamespace = ns

namespace Addressed

variable {ns : String} {first : Nat} {m : Machine}

theorem of_keeps {m' : Machine} (addressed : Addressed ns first m) (keeps : Keeps m m') :
    Addressed ns first m' := by
  intro id f' later stored
  obtain ⟨f, before, same⟩ := keeps.flew stored
  rw [← same]
  exact addressed id f later before

theorem withRegistered (addressed : Addressed ns first m) (env : Env) (call : Step) :
    Addressed ns first (m.withRegistered env ns call) := by
  intro id f later stored
  have inserted : (m.pool.create ⟨.yielded, [⟨.onStepResumed ns call.stepId,
      resumeCallbackGas call + env.spareGas⟩]⟩).get id = some f := stored
  rw [Pool.get_create] at inserted
  split at inserted
  · cases inserted
    intro t inside
    rw [List.mem_singleton.mp inside]
    rfl
  · exact addressed id f later inserted

theorem settle (addressed : Addressed ns first m) {id : Nat} {f : Flight}
    (own : ∀ t ∈ f.thens, t.callback.sequenceNamespace = ns) :
    Addressed ns first (m.settle id f) := by
  intro id' g later stored
  have inside : (if f.thens = [] then m.pool.remove id else m.pool.update id f).get id' =
      some g := stored
  split at inside
  · rw [Pool.get_remove] at inside
    split at inside
    · cases inside
    · exact addressed id' g later inside
  · rw [Pool.get_update] at inside
    split at inside
    · obtain ⟨_, _, rfl⟩ := Option.map_eq_some_iff.mp inside
      exact own
    · exact addressed id' g later inside

/-- Running the next callback of such a flight hands on callbacks of the namespace only. -/
theorem runThen (addressed : Addressed ns first m) {env : Env} {id : Nat} {t : Then}
    {rest : List Then} {result : PromiseResult}
    (own : ∀ t' ∈ t :: rest, t'.callback.sequenceNamespace = ns) :
    Addressed ns first (m.runThen env id t rest result) := by
  obtain ⟨here, remaining⟩ := List.forall_mem_cons.mp own
  unfold Machine.runThen
  split
  · rename_i panic _
    exact (addressed.of_keeps (.rollBack m id t result panic)).settle remaining
  · rename_i m' bytes attempted
    have ran := (Machine.attempt_ok.mp attempted).1
    exact (addressed.of_keeps ((Keeps.delivered m id t.callback result).trans
      (.of_writes (.runCallback ran)))).settle remaining
  · rename_i m' p attempted
    have ran := (Machine.attempt_ok.mp attempted).1
    refine ((addressed.of_keeps ((Keeps.delivered m id t.callback result).trans
      (.of_writes (.runCallback ran)))).of_keeps (.called m' _ _ _)).settle ?_
    intro t' inside
    rcases List.mem_append.mp inside with new | old
    · rw [runCallback_addressed ran t' new]
      exact here
    · exact remaining t' old

end Addressed

/-- What open operations since `m` have left: changes within the caller's namespace, and flights
of their own addressed to it. -/
structure Contained (caller : AccountId) (m m' : Machine) : Prop where
  within : OnlyWithin (manualNamespace caller) m.contract m'.contract
  addressed : Addressed (manualNamespace caller) m.pool.next m'

/-- A delivery to a flight of a namespace without a run row stays within it. -/
theorem OnlyWithin.deliver {ns : String} {env : Env} {m : Machine} {id : Nat}
    {answer : PromiseResult} (rowless : m.contract.automationRuns.get ns = none)
    (own : ∀ f, m.pool.get id = some f → ∀ t ∈ f.thens, t.callback.sequenceNamespace = ns) :
    OnlyWithin ns m.contract (m.deliver env id answer).contract := by
  rcases m.deliver_contract env id answer with same | ⟨_, t, _, _, m₁, _, flying, ran, after⟩
  · rw [same]
    exact .refl ns _
  · rw [after]
    have here : t.callback.sequenceNamespace = ns := own _ flying t (List.mem_cons_self ..)
    subst here
    have writes := OnlyWithin.of_writes (Writes.runCallback ran)
    exact writes rowless

theorem Contained.step {caller : AccountId} {m m' : Machine} (contained : Contained caller m m')
    (rowless : m.contract.automationRuns.get (manualNamespace caller) = none) {op : Op}
    (opened : Open caller m.pool.next op) : Contained caller m (m'.step op) := by
  have rowless' : m'.contract.automationRuns.get (manualNamespace caller) = none := by
    rw [contained.within.runs, rowless]
  cases opened with
  | registers input own =>
      rename_i env
      cases called : m'.call env (.registerStep input) with
      | error message =>
          rw [Machine.step_refused called]
          exact contained
      | ok m'' =>
          rw [Machine.step_transact called]
          simp only [Machine.call, Machine.execute, Machine.registerStep, bind_eq_ok,
            stepFromRaw_eq_ok, Machine.registerStepInNamespace_ok] at called
          obtain ⟨-, -, _, ⟨-, rfl⟩, -, rfl⟩ := called
          rw [own]
          exact ⟨contained.within.trans (.withRegistered env m' _),
            contained.addressed.withRegistered env _⟩
  | expires later =>
      rename_i id
      change Contained caller m (m'.timeout id)
      unfold Machine.timeout
      split
      · rename_i thens stored
        exact ⟨contained.within, contained.addressed.of_keeps (.updateHead _ stored)⟩
      · exact contained
  | wakes later =>
      rename_i env id answer
      change Contained caller m (m'.deliver env id answer)
      have own : ∀ f, m'.pool.get id = some f → ∀ t ∈ f.thens,
          t.callback.sequenceNamespace = manualNamespace caller :=
        fun f stored => contained.addressed id f later stored
      refine ⟨contained.within.trans (.deliver rowless' own), ?_⟩
      rcases m'.deliver_cases env id answer with same | ⟨head, t, rest, result, stored, -, ran⟩
      · rw [same]
        exact contained.addressed
      · rw [ran]
        exact contained.addressed.runThen (own _ stored)

theorem Contained.run {caller : AccountId} {m m' : Machine} (contained : Contained caller m m')
    (rowless : m.contract.automationRuns.get (manualNamespace caller) = none) {ops : List Op}
    (opened : ∀ op ∈ ops, Open caller m.pool.next op) : Contained caller m (m'.run ops) := by
  induction ops generalizing m' with
  | nil => exact contained
  | cons op ops ih =>
      obtain ⟨here, later⟩ := List.forall_mem_cons.mp opened
      exact ih (contained.step rowless here) later

/-- From any reachable state, whatever steps an account registers and whatever of its yields
times out changes only what is stored for its own manual namespace: every other field of the
contract, and every step, queue and saved result of every other namespace, is as it was. -/
theorem open_registration_is_contained {m : Machine} (reachable : m.Reachable)
    (caller : AccountId) {ops : List Op} (opened : ∀ op ∈ ops, Open caller m.pool.next op) :
    OnlyWithin (manualNamespace caller) m.contract (m.run ops).contract ∧
      ∀ ns, ns ≠ manualNamespace caller → IsManual ns ∨ IsAutomation ns →
        ∀ stepId, (m.run ops).getStep ns stepId = m.getStep ns stepId := by
  have rowless : m.contract.automationRuns.get (manualNamespace caller) = none := by
    cases stored : m.contract.automationRuns.get (manualNamespace caller) with
    | none => rfl
    | some run =>
        exact absurd (reachable.wf.rows _ run stored) (IsManual.not_automation ⟨caller, rfl⟩)
  have start : Contained caller m m := by
    refine ⟨.refl _ _, fun id f later stored => ?_⟩
    exact absurd (Pool.lt_next_of_get stored) (Nat.not_lt.mpr later)
  have contained := start.run rowless opened
  refine ⟨contained.within, fun ns other created stepId => ?_⟩
  exact contained.within.getStep (IsManual.separate ⟨caller, rfl⟩ other created) stepId

/-- Someone who is neither the owner nor the executor. -/
def outsider : AccountId := ⟨"outsider.near", by decide +kernel⟩

def outsiderEnv : Env := { aliceEnv with predecessor := outsider, signerId := outsider }

/-- While Alice's run is in flight, an outsider registers a step whose id looks like a key of
that run, and its yield times out. -/
theorem open_registration_is_contained_in_flight :
    OnlyWithin (manualNamespace outsider) ((armed [plainStep "a"]).run [fire]).contract
        (((armed [plainStep "a"]).run [fire]).run
          [.transact outsiderEnv (.registerStep (plainStep "auto:daily:1#a")), .timeout 1,
            .deliver outsiderEnv 1 .failed]).contract ∧
      (((armed [plainStep "a"]).run [fire]).run
        [.transact outsiderEnv (.registerStep (plainStep "auto:daily:1#a")), .timeout 1,
          .deliver outsiderEnv 1 .failed]).getStep "auto:daily:1" "a" =
        ((armed [plainStep "a"]).run [fire]).getStep "auto:daily:1" "a" := by
  have opened : ∀ op ∈ [Op.transact outsiderEnv (.registerStep (plainStep "auto:daily:1#a")),
      .timeout 1, .deliver outsiderEnv 1 .failed],
      Open outsider ((armed [plainStep "a"]).run [fire]).pool.next op := by
    intro op inside
    simp only [List.mem_cons, List.not_mem_nil, or_false] at inside
    rcases inside with rfl | rfl | rfl
    · exact .registers _ rfl
    · exact .expires (by decide)
    · exact .wakes (by decide)
  obtain ⟨within, kept⟩ := open_registration_is_contained ((armed_reachable _).run [fire])
    outsider opened
  exact ⟨within, kept "auto:daily:1" (by decide) (.inr ⟨"daily", 1, by decide⟩) "a"⟩

end SmartAccount
