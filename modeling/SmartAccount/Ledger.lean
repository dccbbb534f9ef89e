import SmartAccount.WellFormed

/-!
# The books of automation

Balance triggers and run rows live in two maps.  `Books` is the pair of them, `Books.Entry`
is all that the contract ever books there, and `Ledger` is the invariant each entry
restores.  Every operation of the machine is a sequence of entries (`step_entries`), so in
every reachable state the two maps agree (`triggers_and_runs_agree`).
-/

namespace SmartAccount

open Foundation Function
open Relation (ReflTransGen)

/-! ## Books and entries -/

structure Books where
  triggers : String → Option BalanceTrigger
  runs : String → Option AutomationRun

namespace Books

/-- The books after a run has started. -/
def start (b : Books) (env : Env) (triggerId : String) (trigger : BalanceTrigger) : Books :=
  let ns := automationNamespace triggerId (trigger.runsStarted + 1)
  { triggers := update b.triggers triggerId
      (some (Machine.startedTrigger env trigger ns (trigger.runsStarted + 1)))
    runs := update b.runs ns
      (some (Machine.startedRun env triggerId trigger.sequenceId ns (trigger.runsStarted + 1))) }

/-- The books after a run has finished. -/
def finish (b : Books) (env : Env) (ns : String) (run : AutomationRun)
    (status : AutomationRunStatus) (failedStepId : Option String) : Books where
  triggers := update b.triggers run.triggerId
    ((b.triggers run.triggerId).map fun trigger => Machine.finishedTrigger env trigger status)
  runs := update b.runs ns (some (Machine.finishedRun env run status failedStepId))

/-- One booking. -/
inductive Entry (b : Books) : Books → Prop
  | create {triggerId : String} {trigger : BalanceTrigger} (absent : b.triggers triggerId = none)
      (unused : trigger.runsStarted = 0) (idle : trigger.inFlight = false)
      (outcome : trigger.lastRunOutcome = none) :
      Entry b { b with triggers := update b.triggers triggerId (some trigger) }
  | delete {triggerId : String} {trigger : BalanceTrigger}
      (stored : b.triggers triggerId = some trigger) (idle : trigger.inFlight = false) :
      Entry b { b with triggers := update b.triggers triggerId none }
  | start {env : Env} {triggerId : String} {trigger : BalanceTrigger}
      (stored : b.triggers triggerId = some trigger) (idle : trigger.inFlight = false)
      (left : trigger.runsStarted < trigger.maxRuns)
      (absent : b.runs (automationNamespace triggerId (trigger.runsStarted + 1)) = none) :
      Entry b (b.start env triggerId trigger)
  | finish {env : Env} {ns : String} {run : AutomationRun} {status : AutomationRunStatus}
      {failedStepId : Option String} (stored : b.runs ns = some run)
      (running : run.status = .inFlight) (closing : status ≠ .inFlight) :
      Entry b (b.finish env ns run status failedStepId)
  | prune {gone : List String}
      (terminal : ∀ ns ∈ gone, ∀ run, b.runs ns = some run → run.status ≠ .inFlight) :
      Entry b { b with runs := fun ns => if ns ∈ gone then none else b.runs ns }

end Books

/-! ## The invariant -/

/-- The run that a trigger has in flight. -/
structure OpenRun (triggerId : String) (trigger : BalanceTrigger) (run : AutomationRun) :
    Prop where
  triggerId : run.triggerId = triggerId
  runNonce : run.runNonce = trigger.runsStarted
  status : run.status = .inFlight

structure Ledger (b : Books) : Prop where
  named : ∀ ns run, b.runs ns = some run →
    ns = automationNamespace run.triggerId run.runNonce ∧ run.sequenceNamespace = ns
  bounded : ∀ triggerId trigger, b.triggers triggerId = some trigger →
    trigger.runsStarted ≤ trigger.maxRuns
  outcome : ∀ triggerId trigger, b.triggers triggerId = some trigger →
    (trigger.lastRunOutcome = some .inFlight ↔ trigger.inFlight = true)
  open_ : ∀ triggerId trigger, b.triggers triggerId = some trigger → trigger.inFlight = true →
    ∃ ns run, trigger.lastRunNamespace = some ns ∧ b.runs ns = some run ∧
      OpenRun triggerId trigger run
  owned : ∀ ns run, b.runs ns = some run → run.status = .inFlight →
    ∃ trigger, b.triggers run.triggerId = some trigger ∧ trigger.inFlight = true ∧
      trigger.runsStarted = run.runNonce

namespace Ledger

variable {b b' : Books}

/-- A trigger has at most one run in flight. -/
theorem unique (ledger : Ledger b) {ns ns' : String} {run run' : AutomationRun}
    (stored : b.runs ns = some run) (stored' : b.runs ns' = some run')
    (running : run.status = .inFlight) (running' : run'.status = .inFlight)
    (same : run.triggerId = run'.triggerId) : ns = ns' := by
  obtain ⟨trigger, here, -, nonce⟩ := ledger.owned ns run stored running
  obtain ⟨trigger', there, -, nonce'⟩ := ledger.owned ns' run' stored' running'
  rw [same, there, Option.some.injEq] at here
  rw [(ledger.named ns run stored).1, (ledger.named ns' run' stored').1, same, ← nonce, ← nonce',
    here]

/-- An idle trigger has no run in flight. -/
theorem not_running (ledger : Ledger b) {triggerId : String}
    (idle : ∀ trigger, b.triggers triggerId = some trigger → trigger.inFlight = false)
    {ns : String} {run : AutomationRun} (stored : b.runs ns = some run)
    (running : run.status = .inFlight) : run.triggerId ≠ triggerId := by
  intro same
  obtain ⟨trigger, here, busy, -⟩ := ledger.owned ns run stored running
  rw [idle trigger (same ▸ here)] at busy
  cases busy

theorem empty : Ledger ⟨fun _ => none, fun _ => none⟩ where
  named _ _ stored := by cases stored
  bounded _ _ stored := by cases stored
  outcome _ _ stored := by cases stored
  open_ _ _ stored := by cases stored
  owned _ _ stored := by cases stored

/-- A new or a deleted trigger: an idle one takes the place of none or of an idle one. -/
theorem setTrigger (ledger : Ledger b) {triggerId : String} {new : Option BalanceTrigger}
    (idle : ∀ trigger, b.triggers triggerId = some trigger → trigger.inFlight = false)
    (fresh : ∀ trigger, new = some trigger → trigger.runsStarted = 0 ∧
      trigger.inFlight = false ∧ trigger.lastRunOutcome = none) :
    Ledger { b with triggers := update b.triggers triggerId new } := by
  have split : ∀ {id trigger}, update b.triggers triggerId new id = some trigger →
      new = some trigger ∨ id ≠ triggerId ∧ b.triggers id = some trigger := by
    intro id trigger stored
    rw [update_apply] at stored
    split at stored
    · exact .inl stored
    · exact .inr ⟨‹_›, stored⟩
  refine ⟨ledger.named, fun id trigger stored => ?_, fun id trigger stored => ?_,
    fun id trigger stored busy => ?_, fun ns run stored running => ?_⟩
  · rcases split stored with new | ⟨-, old⟩
    · rw [(fresh trigger new).1]
      exact Nat.zero_le _
    · exact ledger.bounded id trigger old
  · rcases split stored with new | ⟨-, old⟩
    · obtain ⟨-, idle', outcome⟩ := fresh trigger new
      rw [idle', outcome]
      exact iff_of_false (by simp) (by simp)
    · exact ledger.outcome id trigger old
  · rcases split stored with new | ⟨-, old⟩
    · rw [(fresh trigger new).2.1] at busy
      cases busy
    · exact ledger.open_ id trigger old busy
  · obtain ⟨trigger, here, busy, nonce⟩ := ledger.owned ns run stored running
    have other := ledger.not_running idle stored running
    exact ⟨trigger, (update_of_ne other _ _).trans here, busy, nonce⟩

/-- A started run is the only one its trigger has in flight. -/
theorem start (ledger : Ledger b) {env : Env} {triggerId : String} {trigger : BalanceTrigger}
    (stored : b.triggers triggerId = some trigger) (idle : trigger.inFlight = false)
    (left : trigger.runsStarted < trigger.maxRuns)
    (absent : b.runs (automationNamespace triggerId (trigger.runsStarted + 1)) = none) :
    Ledger (b.start env triggerId trigger) := by
  have idle' : ∀ trigger', b.triggers triggerId = some trigger' → trigger'.inFlight = false := by
    intro trigger' stored'
    rw [stored, Option.some.injEq] at stored'
    exact stored' ▸ idle
  have triggers : ∀ {id t}, (b.start env triggerId trigger).triggers id = some t →
      id = triggerId ∧ t = Machine.startedTrigger env trigger
        (automationNamespace triggerId (trigger.runsStarted + 1)) (trigger.runsStarted + 1) ∨
      id ≠ triggerId ∧ b.triggers id = some t := by
    intro id t found
    simp only [Books.start, update_apply] at found
    split at found
    · exact .inl ⟨‹_›, (Option.some.inj found).symm⟩
    · exact .inr ⟨‹_›, found⟩
  have runs : ∀ {ns run}, (b.start env triggerId trigger).runs ns = some run →
      ns = automationNamespace triggerId (trigger.runsStarted + 1) ∧
        run = Machine.startedRun env triggerId trigger.sequenceId ns (trigger.runsStarted + 1) ∨
      b.runs ns = some run := by
    intro ns run found
    simp only [Books.start, update_apply] at found
    split at found
    · rename_i same
      exact .inl ⟨same, same ▸ (Option.some.inj found).symm⟩
    · exact .inr found
  refine ⟨fun ns run found => ?_, fun id t found => ?_, fun id t found => ?_,
    fun id t found busy => ?_, fun ns run found running => ?_⟩
  · rcases runs found with ⟨rfl, rfl⟩ | old
    · exact ⟨rfl, rfl⟩
    · exact ledger.named ns run old
  · rcases triggers found with ⟨-, rfl⟩ | ⟨-, old⟩
    · exact left
    · exact ledger.bounded id t old
  · rcases triggers found with ⟨-, rfl⟩ | ⟨-, old⟩
    · exact iff_of_true rfl rfl
    · exact ledger.outcome id t old
  · rcases triggers found with ⟨rfl, rfl⟩ | ⟨-, old⟩
    · exact ⟨_, _, rfl, update_self .., rfl, rfl, rfl⟩
    · obtain ⟨ns, run, last, there, opened⟩ := ledger.open_ id t old busy
      refine ⟨ns, run, last, (update_of_ne ?_ _ _).trans there, opened⟩
      intro same
      rw [same, absent] at there
      cases there
  · rcases runs found with ⟨rfl, rfl⟩ | old
    · exact ⟨_, update_self .., rfl, rfl⟩
    · obtain ⟨t, here, busy, nonce⟩ := ledger.owned ns run old running
      exact ⟨t, (update_of_ne (ledger.not_running idle' old running) _ _).trans here, busy, nonce⟩

/-- A finished run closes its trigger. -/
theorem finish (ledger : Ledger b) {env : Env} {ns : String} {run : AutomationRun}
    {status : AutomationRunStatus} {failedStepId : Option String} (stored : b.runs ns = some run)
    (running : run.status = .inFlight) (closing : status ≠ .inFlight) :
    Ledger (b.finish env ns run status failedStepId) := by
  have triggers : ∀ {id t}, (b.finish env ns run status failedStepId).triggers id = some t →
      id = run.triggerId ∧ (∃ trigger, b.triggers id = some trigger ∧
        t = Machine.finishedTrigger env trigger status) ∨
      id ≠ run.triggerId ∧ b.triggers id = some t := by
    intro id t found
    simp only [Books.finish, update_apply] at found
    split at found
    · rename_i same
      obtain ⟨trigger, here, eq⟩ := Option.map_eq_some_iff.mp found
      exact .inl ⟨same, trigger, same ▸ here, eq.symm⟩
    · exact .inr ⟨‹_›, found⟩
  have runs : ∀ {ns' run'}, (b.finish env ns run status failedStepId).runs ns' = some run' →
      ns' = ns ∧ run' = Machine.finishedRun env run status failedStepId ∨
      ns' ≠ ns ∧ b.runs ns' = some run' := by
    intro ns' run' found
    simp only [Books.finish, update_apply] at found
    split at found
    · exact .inl ⟨‹_›, (Option.some.inj found).symm⟩
    · exact .inr ⟨‹_›, found⟩
  refine ⟨fun ns' run' found => ?_, fun id t found => ?_, fun id t found => ?_,
    fun id t found busy => ?_, fun ns' run' found running' => ?_⟩
  · rcases runs found with ⟨rfl, rfl⟩ | ⟨-, old⟩
    · exact ledger.named ns' run stored
    · exact ledger.named ns' run' old
  · rcases triggers found with ⟨-, trigger, here, rfl⟩ | ⟨-, old⟩
    · exact ledger.bounded id trigger here
    · exact ledger.bounded id t old
  · rcases triggers found with ⟨-, trigger, here, rfl⟩ | ⟨-, old⟩
    · refine iff_of_false (fun same => closing (Option.some.inj same)) (fun busy => ?_)
      cases busy
    · exact ledger.outcome id t old
  · rcases triggers found with ⟨-, trigger, here, rfl⟩ | ⟨other, old⟩
    · cases busy
    · obtain ⟨ns', run', last, there, opened⟩ := ledger.open_ id t old busy
      refine ⟨ns', run', last, (update_of_ne ?_ _ _).trans there, opened⟩
      intro same
      rw [same, stored, Option.some.injEq] at there
      exact other (there ▸ opened.triggerId.symm)
  · rcases runs found with ⟨rfl, rfl⟩ | ⟨other, old⟩
    · exact absurd running' closing
    · obtain ⟨t, here, busy, nonce⟩ := ledger.owned ns' run' old running'
      refine ⟨t, (update_of_ne ?_ _ _).trans here, busy, nonce⟩
      exact fun same => other (ledger.unique old stored running' running same)

/-- Only finished runs are pruned. -/
theorem prune (ledger : Ledger b) {gone : List String}
    (terminal : ∀ ns ∈ gone, ∀ run, b.runs ns = some run → run.status ≠ .inFlight) :
    Ledger { b with runs := fun ns => if ns ∈ gone then none else b.runs ns } := by
  have runs : ∀ {ns run}, (if ns ∈ gone then none else b.runs ns) = some run →
      b.runs ns = some run := by
    intro ns run found
    split at found
    · cases found
    · exact found
  refine ⟨fun ns run found => ledger.named ns run (runs found), ledger.bounded, ledger.outcome,
    fun id t stored busy => ?_, fun ns run found => ledger.owned ns run (runs found)⟩
  obtain ⟨ns, run, last, there, opened⟩ := ledger.open_ id t stored busy
  have kept : ns ∉ gone := fun inside => terminal ns inside run there opened.status
  exact ⟨ns, run, last, (if_neg kept).trans there, opened⟩

/-- Every entry restores the invariant. -/
theorem entry (ledger : Ledger b) (entry : Books.Entry b b') : Ledger b' := by
  cases entry with
  | create absent unused idle outcome =>
      refine ledger.setTrigger (fun trigger stored => ?_) fun trigger same => ?_
      · rw [absent] at stored
        cases stored
      · exact Option.some.inj same ▸ ⟨unused, idle, outcome⟩
  | delete stored idle =>
      refine ledger.setTrigger (fun trigger stored' => ?_) fun trigger same => ?_
      · rw [stored, Option.some.injEq] at stored'
        exact stored' ▸ idle
      · cases same
  | start stored idle left absent => exact ledger.start stored idle left absent
  | finish stored running closing => exact ledger.finish stored running closing
  | prune terminal => exact ledger.prune terminal

theorem entries (ledger : Ledger b) (entries : ReflTransGen Books.Entry b b') : Ledger b' := by
  induction entries with
  | refl => exact ledger
  | tail _ last ih => exact ih.entry last

end Ledger

/-! ## The books of the contract -/

def Contract.books (c : Contract) : Books := ⟨c.balanceTriggers.get, c.automationRuns.get⟩

theorem Contract.books_eq {c c' : Contract} (triggers : c'.balanceTriggers = c.balanceTriggers)
    (runs : c'.automationRuns = c.automationRuns) : c'.books = c.books := by
  rw [books, triggers, runs, books]

theorem insert_get {V : Type} (m : IterableMap String V) (key : String) (v : V) :
    (m.insert key v).get = update m.get key (some v) := by
  funext key'
  rw [IterableMap.get_insert, update_apply]

theorem remove_get {V : Type} (m : IterableMap String V) (key : String) :
    (m.remove key).get = update m.get key none := by
  funext key'
  rw [IterableMap.get_remove, update_apply]

theorem Contract.books_setTrigger {c c' : Contract} {triggerId : String}
    {new : Option BalanceTrigger}
    (triggers : c'.balanceTriggers.get = update c.balanceTriggers.get triggerId new)
    (runs : c'.automationRuns = c.automationRuns) :
    c'.books = { c.books with triggers := update c.books.triggers triggerId new } := by
  rw [books, triggers, runs]
  rfl

theorem books_recordRunFinished (env : Env) (m : Machine) (ns : String) (run : AutomationRun)
    (status : AutomationRunStatus) (failedStepId : Option String) :
    (m.recordRunFinished env ns run status failedStepId).contract.books =
      m.contract.books.finish env ns run status failedStepId := by
  simp only [Machine.recordRunFinished, Machine.withContract, Contract.books, Books.finish,
    insert_get, Books.mk.injEq, and_true]
  split
  · rename_i absent
    rw [absent, Option.map_none, ← absent, update_eq_self]
  · rename_i trigger stored
    rw [stored, insert_get, Option.map_some]

/-- A write of a callback books at most the end of a run. -/
theorem Write.entries {ns : String} {m m' : Machine} (write : Write ns m m') :
    ReflTransGen Books.Entry m.contract.books m'.contract.books := by
  cases write with
  | note event about plain => exact .refl
  | removeStep stepId => exact .refl
  | setQueue waiting => exact .refl
  | removeQueue => exact .refl
  | clearContext => exact .refl
  | saveResult spec bytes => exact .refl
  | resume stored resumed =>
      obtain ⟨thens, flying, rfl⟩ := Machine.resumeYield_eq_some.mp resumed
      exact .refl
  | finishRun stored running closing =>
      rw [books_recordRunFinished]
      exact .single (.finish stored running closing)
  | clearNamespace => exact .refl

theorem Writes.entries {ns : String} {m m' : Machine} (writes : Writes ns m m') :
    ReflTransGen Books.Entry m.contract.books m'.contract.books := by
  induction writes with
  | refl => exact .refl
  | tail _ last ih => exact ih.trans last.entries

/-! ## Operations -/

namespace Machine

theorem registerSteps_books {env : Env} {m m' : Machine} {ns : String} {calls : List Step}
    (registered : m.registerSteps env ns calls = .ok m') :
    m'.contract.books = m.contract.books := by
  induction calls generalizing m with
  | nil => rw [registerSteps_nil.mp registered]
  | cons call calls ih => exact (ih (registerSteps_cons.mp registered).2).trans rfl

theorem startSequenceRelease_books {m m' : Machine} {ns : String} {order : List String} {n : Nat}
    (released : m.startSequenceReleaseInNamespace ns order = .ok (m', n)) :
    m'.contract.books = m.contract.books := by
  obtain ⟨first, rest, resumed, rfl, -, -, woken, rfl, -⟩ := startSequenceRelease_ok released
  obtain ⟨yielded, m₁, -, taken, rfl⟩ := resumeRegisteredStep_ok.mp woken
  obtain ⟨thens, -, rfl⟩ := resumeYield_eq_some.mp taken
  show ((m.withQueued ns rest).contract).books = _
  unfold withQueued
  split <;> rfl

theorem checkTrigger_ok {env : Env} {m : Machine} {triggerId : String} {trigger : BalanceTrigger}
    {template : SequenceTemplate} (checked : m.checkTrigger env triggerId trigger template = .ok ()) :
    trigger.inFlight = false ∧ trigger.runsStarted < trigger.maxRuns ∧
      m.contract.automationRuns.get
        (automationNamespace triggerId (trigger.runsStarted + 1)) = none := by
  simp only [checkTrigger, bind_eq_ok, require_eq_ok, Bool.not_eq_true', decide_eq_true_eq,
    Option.isNone_iff_eq_none] at checked
  obtain ⟨-, idle, -, left, -, -, -, -, absent⟩ := checked
  exact ⟨idle, left, absent⟩

theorem books_recordRunStarted (env : Env) (m : Machine) (triggerId : String)
    (trigger : BalanceTrigger) :
    (m.recordRunStarted env triggerId (automationNamespace triggerId (trigger.runsStarted + 1))
      (trigger.runsStarted + 1) trigger).contract.books =
        m.contract.books.start env triggerId trigger := by
  simp only [recordRunStarted, withContract, Contract.books, Books.start, insert_get]

/-- An accepted call makes at most one entry. -/
theorem accepted_entries {env : Env} {m m' : Machine} (accepted : Accepted env m m') :
    ReflTransGen Books.Entry m.contract.books m'.contract.books := by
  cases accepted with
  | aside aside edit =>
      cases edit with
      | kept same =>
          rw [Contract.books_eq same aside.automationRuns]
      | created triggerId sequenceId minBalance maxRuns createdAt absent same =>
          rw [Contract.books_setTrigger (same ▸ insert_get ..) aside.automationRuns]
          exact .single (.create absent rfl rfl rfl)
      | deleted triggerId trigger stored idle same =>
          rw [Contract.books_setTrigger (same ▸ remove_get ..) aside.automationRuns]
          exact .single (.delete stored idle)
  | pruned =>
      unfold pruneFinishedAutomationRuns
      simp only
      split
      · exact .refl
      · refine .single ?_
        have removed : (m.contract.automationRuns.removeAll (terminalRuns m.contract)).get =
            fun ns => if ns ∈ terminalRuns m.contract then none
              else m.contract.automationRuns.get ns := by
          funext ns
          rw [IterableMap.get_removeAll]
        show Books.Entry m.contract.books ⟨_, (m.contract.automationRuns.removeAll _).get⟩
        rw [removed]
        refine .prune fun ns inside run stored => ?_
        obtain ⟨⟨ns', run'⟩, listed, rfl⟩ := List.mem_map.mp inside
        obtain ⟨here, terminal⟩ := List.mem_filter.mp listed
        have there := IterableMap.get_eq_some_iff.mpr here
        have same : m.contract.automationRuns.get ns' = some run := stored
        rw [there, Option.some.injEq] at same
        exact same ▸ of_decide_eq_true terminal
  | registered caller call valid registered =>
      obtain ⟨-, rfl⟩ := registerStepInNamespace_ok.mp registered
      exact .refl
  | released caller calls order valid registered released =>
      rw [startSequenceRelease_books released, registerSteps_books registered]
  | fired triggerId authorized stored known checked registered released =>
      rename_i m₁ m₂ m₃ n trigger template
      obtain ⟨aside, triggers⟩ := authorizeFire_aside authorized
      obtain ⟨idle, left, absent⟩ := checkTrigger_ok checked
      have same : m₃.contract.books = m.contract.books :=
        (startSequenceRelease_books released).trans ((registerSteps_books registered).trans
          (Contract.books_eq triggers aside.automationRuns))
      rw [books_recordRunStarted, same]
      rw [triggers] at stored
      rw [aside.automationRuns] at absent
      exact .single (.start stored idle left absent)

/-- Running a callback books what its writes book, or nothing when it is rolled back. -/
theorem runThen_entries (env : Env) (m : Machine) (id : Nat) (t : Then) (rest : List Then)
    (result : PromiseResult) :
    ReflTransGen Books.Entry m.contract.books (m.runThen env id t rest result).contract.books := by
  unfold runThen
  split
  · rename_i panic _
    have kept := congrArg contract (m.rollBack_eq id t result panic)
    show ReflTransGen _ _ (m.rollBack id t result panic).contract.books
    rw [kept]
  · rename_i m' bytes attempted
    have writes := Writes.runCallback (attempt_ok.mp attempted).1
    exact writes.entries
  · rename_i m' p attempted
    have writes := Writes.runCallback (attempt_ok.mp attempted).1
    exact writes.entries

/-- Every operation is a sequence of entries. -/
theorem step_entries (m : Machine) (op : Op) :
    ReflTransGen Books.Entry m.contract.books (m.step op).contract.books := by
  cases op with
  | transact env method =>
      show ReflTransGen _ _ (m.transact env method).contract.books
      unfold transact
      split
      · rename_i m' called
        exact accepted_entries (.of_call called)
      · exact .refl
  | timeout id =>
      show ReflTransGen _ _ (m.timeout id).contract.books
      rw [timeout_contract]
  | deliver env id answer =>
      show ReflTransGen _ _ (m.deliver env id answer).contract.books
      rcases m.deliver_cases env id answer with same | ⟨head, t, rest, result, -, -, ran⟩
      · rw [same]
      · rw [ran]
        exact runThen_entries env m id t rest result
  | abort id answer =>
      show ReflTransGen _ _ (m.abort id answer).contract.books
      rw [abort_contract]

theorem Reachable.ledger {m : Machine} (reachable : m.Reachable) : Ledger m.contract.books :=
  @Reachable.induct (fun m => Ledger m.contract.books) (fun _ _ _ => .empty)
    (fun m op ledger => ledger.entries (m.step_entries op)) m reachable

end Machine

/-! ## The lifecycle of triggers and runs -/

/-- Triggers and runs agree: a trigger is in flight exactly while one of its runs is, which
is then its latest and only one; it never starts more runs than it may; a run is stored
under the namespace its trigger and nonce make; and the last outcome says in flight exactly
while the trigger is. -/
structure Lifecycle (c : Contract) : Prop where
  inFlight : ∀ triggerId trigger, c.balanceTriggers.get triggerId = some trigger →
    (trigger.inFlight = true ↔ ∃ ns run, c.automationRuns.get ns = some run ∧
      run.triggerId = triggerId ∧ run.status = .inFlight)
  latest : ∀ triggerId trigger, c.balanceTriggers.get triggerId = some trigger →
    trigger.inFlight = true → ∀ ns run, c.automationRuns.get ns = some run →
      run.triggerId = triggerId → run.status = .inFlight →
        trigger.lastRunNamespace = some ns ∧ run.runNonce = trigger.runsStarted
  bounded : ∀ triggerId trigger, c.balanceTriggers.get triggerId = some trigger →
    trigger.runsStarted ≤ trigger.maxRuns
  named : ∀ ns run, c.automationRuns.get ns = some run →
    ns = automationNamespace run.triggerId run.runNonce ∧ run.sequenceNamespace = ns
  outcome : ∀ triggerId trigger, c.balanceTriggers.get triggerId = some trigger →
    (trigger.lastRunOutcome = some .inFlight ↔ trigger.inFlight = true)

/-- In every reachable state triggers and runs agree. -/
theorem triggers_and_runs_agree {m : Machine} (reachable : m.Reachable) :
    Lifecycle m.contract := by
  have ledger := reachable.ledger
  refine ⟨fun triggerId trigger stored => ⟨fun busy => ?_, ?_⟩,
    fun triggerId trigger stored busy ns run found own running => ?_, ledger.bounded, ledger.named,
    ledger.outcome⟩
  · obtain ⟨ns, run, -, found, opened⟩ := ledger.open_ triggerId trigger stored busy
    exact ⟨ns, run, found, opened.triggerId, opened.status⟩
  · rintro ⟨ns, run, found, rfl, running⟩
    obtain ⟨trigger', stored', busy, -⟩ := ledger.owned ns run found running
    have same : m.contract.balanceTriggers.get run.triggerId = some trigger' := stored'
    rw [stored, Option.some.injEq] at same
    exact same ▸ busy
  · obtain ⟨ns', run', last, found', opened⟩ := ledger.open_ triggerId trigger stored busy
    have same := ledger.unique found found' running opened.status (own.trans opened.triggerId.symm)
    subst same
    have here : m.contract.automationRuns.get ns = some run' := found'
    rw [here, Option.some.injEq] at found
    exact ⟨last, found ▸ opened.runNonce⟩

/-- While a run of the trigger is in flight. -/
theorem triggers_and_runs_agree_in_flight :
    Lifecycle ((armed [plainStep "a", plainStep "b"]).run [fire]).contract :=
  triggers_and_runs_agree ((armed_reachable _).run [fire])

end SmartAccount
