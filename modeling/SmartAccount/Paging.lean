import SmartAccount.ListingOrder
import SmartAccount.Foundation.Pager

/-!
# Paging through the runs

`list_automation_runs` shows at most a hundred runs at a time, so a client reads them in pages,
and between two pages the contract goes on: runs start, progress and finish.  None of that
moves a row, and a new row comes last (`runs_grow`).  So unless rows are pruned in between, the
pages together show the rows of one moment, each once and in their order
(`paging_shows_every_run`).
-/

namespace SmartAccount

open Foundation

/-- `automation_runs_count`. -/
def Contract.automationRunsCount (c : Contract) : Nat := c.automationRuns.len

/-- All the views that `list_automation_runs` cuts its pages from. -/
def Contract.automationRunViews (c : Contract) : List AutomationRunView :=
  c.automationRuns.entries.map fun entry => automationRunView entry.1 entry.2

theorem Contract.listAutomationRuns_eq (c : Contract) (fromIndex limit : Nat) :
    c.listAutomationRuns fromIndex limit =
      (c.automationRunViews.drop fromIndex).take (min limit 100) := by
  rw [automationRunViews, ← List.map_drop, ← List.map_take]
  rfl

theorem Contract.automationRunViews_keys (c : Contract) :
    c.automationRunViews.map AutomationRunView.sequenceNamespace = c.automationRuns.keys := by
  rw [automationRunViews, List.map_map]
  rfl

theorem Contract.mem_automationRunViews {c : Contract} {view : AutomationRunView}
    (shown : view ∈ c.automationRunViews) :
    ∃ run, c.automationRuns.get view.sequenceNamespace = some run ∧
      view = automationRunView view.sequenceNamespace run := by
  obtain ⟨⟨ns, run⟩, stored, rfl⟩ := List.mem_map.mp shown
  exact ⟨run, IterableMap.get_eq_some_iff.mpr stored, rfl⟩

namespace Machine

/-- The operation prunes no row. -/
def Unpruned (m : Machine) (op : Op) : Prop := m.prunedRuns op = []

instance (m : Machine) (op : Op) : Decidable (m.Unpruned op) :=
  inferInstanceAs (Decidable (_ = _))

/-- Rows keep their places, and a new one comes last. -/
theorem runs_grow {m : Machine} {op : Op} (unpruned : m.Unpruned op) :
    m.contract.automationRuns.keys <+: (m.step op).contract.automationRuns.keys := by
  have unmoved : ∀ {m' : Machine},
      m'.contract.automationRuns.keys = m.contract.automationRuns.keys →
        m.contract.automationRuns.keys <+: m'.contract.automationRuns.keys := by
    intro m' same
    exact same ▸ List.prefix_refl _
  cases op with
  | timeout id =>
      exact unmoved (congrArg (fun c : Contract => c.automationRuns.keys) (m.timeout_contract id))
  | abort id answer =>
      exact unmoved
        (congrArg (fun c : Contract => c.automationRuns.keys) (m.abort_contract id answer))
  | deliver env id answer =>
      refine @unmoved (m.deliver env id answer) ?_
      cases due : m.due id answer with
      | none => rw [deliver_idle due]
      | some delivered => rw [(deliver_fallen due).runs, runsAfter_keys]
  | transact env method =>
      cases called : m.call env method with
      | error message => exact unmoved (by rw [step_refused called])
      | ok m' =>
          rw [step_transact called]
          have untouched : m'.contract.automationRuns = m.contract.automationRuns →
              m.contract.automationRuns.keys <+: m'.contract.automationRuns.keys :=
            fun same => unmoved (congrArg IterableMap.keys same)
          cases Effect.of_call called with
          | executeTrigger authorized stored undisturbed books contexts execution ran about =>
              obtain ⟨absent, run, runs⟩ := executeTrigger_runs ran
              rw [runs, IterableMap.keys_insert_new run fun inside =>
                IterableMap.mem_keys_iff.mp inside absent]
              exact List.prefix_append _ _
          | pruneFinishedAutomationRuns =>
              obtain ⟨_, free, _⟩ := bind_eq_ok.mp called
              rw [Unpruned, prunedRuns,
                if_pos (of_decide_eq_true (require_eq_ok.mp free))] at unpruned
              refine untouched ?_
              rw [(pruneFinishedAutomationRuns_eq m).2.1, unpruned]
              rfl
          | executeSteps => exact untouched (manual_runs called (.inl ⟨_, rfl⟩))
          | registerStep => exact untouched (manual_runs called (.inr (.inl ⟨_, rfl⟩)))
          | runSequence => exact untouched (manual_runs called (.inr (.inr ⟨_, _, rfl⟩)))
          | revokeExpiredSessions =>
              exact untouched (by rw [(revokeExpiredSessions_eq env m).2.1])
          | revokeExpiredProxyKeys =>
              exact untouched (by rw [(revokeExpiredProxyKeys_eq env m).2.1])
          | _ => exact untouched rfl

theorem runs_grow_run {m : Machine} {ops : List Op} (unpruned : Along Unpruned m ops) :
    m.contract.automationRuns.keys <+: (m.run ops).contract.automationRuns.keys := by
  induction ops generalizing m with
  | nil => exact List.prefix_refl _
  | cons op ops ih => exact (runs_grow unpruned.1).trans (ih unpruned.2)

/-- The states in which a client makes its requests, with what happens before each. -/
def visits (m : Machine) : List (List Op) → List Machine
  | [] => []
  | ops :: gaps => m.run ops :: (m.run ops).visits gaps

theorem length_visits (m : Machine) (gaps : List (List Op)) :
    (m.visits gaps).length = gaps.length := by
  induction gaps generalizing m with
  | nil => rfl
  | cons ops gaps ih => rw [visits, List.length_cons, List.length_cons, ih]

/-- No row is pruned in any of the gaps. -/
def AllUnpruned (m : Machine) : List (List Op) → Prop
  | [] => True
  | ops :: gaps => Along Unpruned m ops ∧ (m.run ops).AllUnpruned gaps

theorem visits_grow {m m' : Machine} {gaps : List (List Op)} (unpruned : m.AllUnpruned gaps)
    (visited : m' ∈ m.visits gaps) :
    m.contract.automationRuns.keys <+: m'.contract.automationRuns.keys := by
  induction gaps generalizing m with
  | nil => cases visited
  | cons ops gaps ih =>
      have first := runs_grow_run unpruned.1
      rcases List.mem_cons.mp visited with rfl | later
      · exact first
      · exact first.trans (ih unpruned.2 later)

theorem visits_pairwise {m : Machine} {gaps : List (List Op)} (unpruned : m.AllUnpruned gaps) :
    (m.visits gaps).Pairwise fun m₁ m₂ =>
      m₁.contract.automationRuns.keys <+: m₂.contract.automationRuns.keys := by
  induction gaps generalizing m with
  | nil => exact List.Pairwise.nil
  | cons ops gaps ih =>
      exact List.pairwise_cons.mpr ⟨fun m' later => visits_grow unpruned.2 later,
        ih unpruned.2⟩

/-- A client reads the pages one after the other. -/
def readRuns (m : Machine) (limit : Nat) (gaps : List (List Op)) :
    Option (List AutomationRunView) :=
  Pager.readFrom (fun m start => m.contract.listAutomationRuns start limit) (min limit 100) 0
    (m.visits gaps)

end Machine

/-- While no row is pruned, a client that reads page after page until one is not full gets the
runs there are at one of its requests, in the order of the rows and none twice.  It misses no run
that existed when it began, and what it has of a run is what was stored at one of the requests.
Pages for more runs than there are suffice. -/
theorem paging_shows_every_run {m : Machine} {limit : Nat} {gaps : List (List Op)}
    (positive : 0 < limit) (asked : gaps ≠ []) (unpruned : m.AllUnpruned gaps)
    (enough : ∀ m' ∈ m.visits gaps,
      m'.contract.automationRunsCount < min limit 100 * gaps.length) :
    ∃ views, m.readRuns limit gaps = some views ∧
      (∃ m' ∈ m.visits gaps,
        views.map AutomationRunView.sequenceNamespace = m'.contract.automationRuns.keys ∧
          views.length = m'.contract.automationRunsCount) ∧
      (views.map AutomationRunView.sequenceNamespace).Nodup ∧
      m.contract.automationRuns.keys <+: views.map AutomationRunView.sequenceNamespace ∧
      ∀ view ∈ views, ∃ m' ∈ m.visits gaps, ∃ run,
        m'.contract.automationRuns.get view.sequenceNamespace = some run ∧
          view = automationRunView view.sequenceNamespace run := by
  have pages : Pager.Pages (fun (m : Machine) start => m.contract.listAutomationRuns start limit)
      (min limit 100) fun m => m.contract.automationRunViews :=
    fun m start => m.contract.listAutomationRuns_eq start limit
  have capped : 0 < min limit 100 := by omega
  have visited : m.visits gaps ≠ [] := by
    intro none
    rw [← List.length_eq_zero_iff, Machine.length_visits, List.length_eq_zero_iff] at none
    exact asked none
  obtain ⟨views, reads⟩ := Pager.exists_readFrom pages capped (fun m' member => by
    have few := enough m' member
    rw [Machine.length_visits, Nat.zero_add, Contract.automationRunViews, List.length_map]
    exact few) visited
  have grows := Machine.visits_pairwise unpruned
  simp only [← Contract.automationRunViews_keys] at grows
  obtain ⟨m', member, keys⟩ := Pager.readFrom_keys AutomationRunView.sequenceNamespace pages
    capped grows reads
  rw [List.drop_zero, Contract.automationRunViews_keys] at keys
  refine ⟨views, reads, ⟨m', member, keys, ?_⟩, ?_, ?_, fun view shown => ?_⟩
  · have lengths := congrArg List.length keys
    rw [List.length_map, IterableMap.keys, List.length_map] at lengths
    exact lengths
  · rw [keys]
    exact m'.contract.automationRuns.nodup
  · rw [keys]
    exact Machine.visits_grow unpruned member
  · obtain ⟨m₁, member₁, held⟩ := Pager.readFrom_mem pages reads shown
    obtain ⟨run, stored, same⟩ := Contract.mem_automationRunViews held
    exact ⟨m₁, member₁, run, stored, same⟩

/-- One run after another: the first succeeds, and the second begins. -/
def succession : List Op := [.deliver aliceEnv 0 okResult, .deliver aliceEnv 0 okResult, fire]

/-- Pages of one row; the second run begins between the first page and the second. -/
theorem paging_shows_every_run_succession : ∃ views,
    (deployed.run (arming ++ [fire])).readRuns 1 [[], succession, []] = some views ∧
      (views.map AutomationRunView.sequenceNamespace).Nodup := by
  obtain ⟨views, reads, -, distinct, -⟩ := @paging_shows_every_run
    (deployed.run (arming ++ [fire])) 1 [[], succession, []] (by decide) (by decide)
    ⟨trivial, by decide, trivial, trivial⟩ (by decide)
  exact ⟨views, reads, distinct⟩

-- A row that is pruned in between pulls a later one below the next page.
example : ((deployed.run (arming ++ [fire] ++ succession)).readRuns 1
      [[], [.transact aliceEnv .pruneFinishedAutomationRuns], []]).map
        (·.map AutomationRunView.sequenceNamespace) = some ["auto:daily:1"] := by
  decide

end SmartAccount
