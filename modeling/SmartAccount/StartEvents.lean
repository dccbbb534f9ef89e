import SmartAccount.WellFormed
import SmartAccount.Simulation

/-!
# What `sequence_started` says about its run

The event of a release looks its run up in `automation_runs`.  `execute_trigger` starts the
release before it stores the run, and refuses a namespace that has one, so that the event of a
fired run is that of a manual release: no run record, and origin `manual`
(`start_attributed_iff`).
-/

namespace SmartAccount

open Foundation

/-! ## Start events -/

/-- What a `sequence_started` event says of its namespace. -/
structure StartNotice where
  sequenceNamespace : String
  automationRun : Option AutomationContext
  origin : String
deriving DecidableEq

def TraceEvent.startNotice : TraceEvent → Option StartNotice
  | emitted _ (.sequenceStarted ns _ _ _ run origin) => some ⟨ns, run, origin⟩
  | _ => none

/-- The `sequence_started` events, oldest first. -/
def Trace.startNotices (t : Trace) : List StartNotice := t.filterMap TraceEvent.startNotice

theorem Trace.startNotices_append (t t' : Trace) :
    Trace.startNotices (t ++ t') = t.startNotices ++ t'.startNotices :=
  List.filterMap_append ..

/-- The calls that start a release. -/
def PublicCall.startsRelease : PublicCall → Bool
  | executeSteps _ => true
  | runSequence _ _ => true
  | executeTrigger _ => true
  | _ => false

/-- The notice attributes its release: to the run that the fire stored, or to a manual caller. -/
def Attributed (c : Contract) (notice : StartNotice) : PublicCall → Prop
  | .executeTrigger _ => notice.origin = "automation" ∧
      ∃ run, c.automationRuns.get notice.sequenceNamespace = some run ∧
        notice.automationRun = some (Machine.automationContext run)
  | _ => notice.origin = "manual"

namespace Machine

/-! ## Registration and release -/

theorem registerSteps_startNotices {env : Env} {m m' : Machine} {ns : String} {calls : List Step}
    (registered : m.registerSteps env ns calls = .ok m') :
    m'.trace.startNotices = m.trace.startNotices ∧
      m'.contract.automationRuns = m.contract.automationRuns := by
  induction calls generalizing m with
  | nil =>
      obtain rfl := registerSteps_nil.mp registered
      exact ⟨rfl, rfl⟩
  | cons call calls ih =>
      obtain ⟨-, rest⟩ := registerSteps_cons.mp registered
      obtain ⟨notices, runs⟩ := ih rest
      refine ⟨notices.trans ?_, runs⟩
      show Trace.startNotices ((m.trace ++ [_]) ++ [_]) = _
      rw [Trace.startNotices_append, Trace.startNotices_append]
      simp [Trace.startNotices, TraceEvent.startNotice]

theorem resumeRegisteredStep_startNotices {m m' : Machine} {ns stepId : String}
    (resumed : m.resumeRegisteredStep ns stepId = .ok m') :
    m'.trace.startNotices = m.trace.startNotices ∧ m'.contract = m.contract := by
  obtain ⟨yielded, woken, -, wakes, rfl⟩ := resumeRegisteredStep_ok.mp resumed
  obtain ⟨thens, -, rfl⟩ := resumeYield_eq_some.mp wakes
  refine ⟨?_, rfl⟩
  show Trace.startNotices (m.trace ++ [_]) = _
  rw [Trace.startNotices_append]
  exact List.append_nil _

/-- What `automation_runs` has on the namespace. -/
def startNotice (m : Machine) (ns : String) : StartNotice where
  sequenceNamespace := ns
  automationRun := (m.contract.automationRuns.get ns).map automationContext
  origin := if (m.contract.automationRuns.get ns).isSome then "automation" else "manual"

/-- A release says what `automation_runs` has before it. -/
theorem startSequenceRelease_startNotices {m m' : Machine} {ns : String} {order : List String}
    {n : Nat} (released : m.startSequenceReleaseInNamespace ns order = .ok (m', n)) :
    m'.trace.startNotices = m.trace.startNotices ++ [m.startNotice ns] := by
  obtain ⟨first, rest, resumed, -, -, -, wakes, rfl, -⟩ := startSequenceRelease_ok released
  obtain ⟨notices, same⟩ := resumeRegisteredStep_startNotices wakes
  have runs : resumed.contract.automationRuns = m.contract.automationRuns := by
    rw [same]
    unfold withQueued
    split <;> rfl
  have queued : (m.withQueued ns rest).trace = m.trace := by
    unfold withQueued
    split <;> rfl
  have marked : Trace.startNotices ((m.withQueued ns rest).note (.released ns order)).trace =
      m.trace.startNotices := by
    show Trace.startNotices ((m.withQueued ns rest).trace ++ [_]) = _
    rw [Trace.startNotices_append, queued]
    exact List.append_nil _
  show Trace.startNotices (resumed.trace ++ [_]) = _
  rw [Trace.startNotices_append, notices, marked, List.append_right_inj]
  simp only [Trace.startNotices, TraceEvent.startNotice, sequenceStartedEvent,
    List.filterMap_cons, List.filterMap_nil, startNotice, runs, Option.isSome_map]

theorem startNotice_of_absent {m : Machine} {ns : String}
    (absent : m.contract.automationRuns.get ns = none) :
    m.startNotice ns = ⟨ns, none, "manual"⟩ := by
  unfold startNotice
  rw [absent]
  rfl

theorem emit_triggerFired_startNotices (m : Machine) (data : TriggerFired) :
    (m.emit (.triggerFired data)).trace.startNotices = m.trace.startNotices := by
  show Trace.startNotices (m.trace ++ [_]) = _
  rw [Trace.startNotices_append]
  exact List.append_nil _

/-- Calls about no sequence start none. -/
theorem startNotices_of_aside {m m' : Machine} (aside : Aside m m') :
    m'.trace.startNotices = m.trace.startNotices := by
  obtain ⟨events, silent, trace⟩ := aside.trace
  rw [trace, Trace.startNotices_append, List.append_right_eq_self]
  refine List.filterMap_eq_nil_iff.mpr fun event inside => ?_
  obtain ⟨plain, member, rfl⟩ := List.mem_map.mp inside
  have none := silent plain member
  cases plain <;> first | rfl | cases none

/-! ## Accepted calls -/

/-- A reachable contract has no run under a manual namespace. -/
theorem Reachable.manual_absent {m : Machine} (reachable : m.Reachable) (caller : AccountId) :
    m.contract.automationRuns.get (manualNamespace caller) = none := by
  cases stored : m.contract.automationRuns.get (manualNamespace caller) with
  | none => rfl
  | some run =>
      exact absurd (reachable.wf.rows _ run stored)
        (IsManual.not_automation ⟨caller, rfl⟩)

/-- Every release of an accepted call is announced once, and the notice attributes it exactly if
the call is not a fire. -/
theorem Reachable.start_attributed_iff {m m' : Machine} (reachable : m.Reachable) {env : Env}
    {method : PublicCall} (accepted : m.call env method = .ok m')
    (starts : method.startsRelease = true) :
    ∃ notice, m'.trace.startNotices = m.trace.startNotices ++ [notice] ∧
      (Attributed m'.contract notice method ↔ ∀ triggerId, method ≠ .executeTrigger triggerId) := by
  simp only [call, bind_eq_ok, require_eq_ok] at accepted
  obtain ⟨_, _, ran⟩ := accepted
  cases method with
  | executeSteps steps =>
      simp only [execute, map_fst_eq_ok, executeSteps, bind_eq_ok] at ran
      obtain ⟨n, _, _, _, _, _, _, m₁, looped, released⟩ := ran
      obtain ⟨notices, runs⟩ := registerSteps_startNotices (registerInputs_ok looped).1
      have announced := startSequenceRelease_startNotices released
      rw [startNotice_of_absent (runs ▸ reachable.manual_absent env.predecessor),
        notices] at announced
      exact ⟨_, announced, fun _ _ same => (by cases same), fun _ => rfl⟩
  | runSequence callerId order =>
      simp only [execute, map_fst_eq_ok, runSequence, bind_eq_ok] at ran
      obtain ⟨n, _, _, released⟩ := ran
      have announced := startSequenceRelease_startNotices released
      rw [startNotice_of_absent (reachable.manual_absent callerId)] at announced
      exact ⟨_, announced, fun _ _ same => (by cases same), fun _ => rfl⟩
  | executeTrigger triggerId =>
      simp only [execute, map_fst_eq_ok, executeTrigger, bind_eq_ok, expect_eq_ok] at ran
      obtain ⟨_, m₁, authorized, trigger, -, template, -, _, checked, m₂, registered,
        ⟨m₃, n⟩, released, eq⟩ := ran
      cases eq
      obtain ⟨notices, runs⟩ := registerSteps_startNotices registered
      have idle := startNotices_of_aside (authorizeFire_aside authorized).1
      have absent := (congrArg (IterableMap.get · _) runs).trans (checkTrigger_absent checked)
      have announced := startSequenceRelease_startNotices released
      rw [@startNotice_of_absent (m₂.emit _) _ absent] at announced
      rw [emit_triggerFired_startNotices, notices, idle] at announced
      refine ⟨_, announced, ?_⟩
      refine ⟨fun attributed => ?_, fun other => absurd rfl (other triggerId)⟩
      have origin : "manual" = "automation" := attributed.1
      exact absurd origin (by decide)
  | _ => cases starts

end Machine

/-- Alice's trigger is fired: the notice of its run has no run record. -/
theorem fire_announced_as_manual : ∃ m', (armed [plainStep "a"]).call aliceEnv
      (.executeTrigger "daily") = .ok m' ∧ ∃ notice,
        m'.trace.startNotices = (armed [plainStep "a"]).trace.startNotices ++ [notice] ∧
          (Attributed m'.contract notice (.executeTrigger "daily") ↔
            ∀ triggerId, PublicCall.executeTrigger "daily" ≠ .executeTrigger triggerId) := by
  have accepts : ((armed [plainStep "a"]).call aliceEnv (.executeTrigger "daily")).isOk = true := by
    decide
  cases fired : (armed [plainStep "a"]).call aliceEnv (.executeTrigger "daily") with
  | error message =>
      rw [fired] at accepts
      cases accepts
  | ok m' => exact ⟨m', rfl, (armed_reachable _).start_attributed_iff fired rfl⟩

/-- Not every accepted release is announced with its attribution: the first fire is not. -/
theorem fire_not_attributed : ¬ ∀ (m m' : Machine) (env : Env) (method : PublicCall),
    m.Reachable → m.call env method = .ok m' → method.startsRelease = true →
      ∃ notice, m'.trace.startNotices = m.trace.startNotices ++ [notice] ∧
        Attributed m'.contract notice method := by
  intro always
  have notices : ((armed [plainStep "a"]).call aliceEnv (.executeTrigger "daily")).map
      (fun m' => m'.trace.startNotices) = .ok [⟨"auto:daily:1", none, "manual"⟩] := by
    decide
  obtain ⟨m', fired, announced⟩ := map_eq_ok.mp notices
  obtain ⟨notice, appended, attributed⟩ :=
    always _ m' aliceEnv (.executeTrigger "daily") (armed_reachable _) fired rfl
  have before : (armed [plainStep "a"]).trace.startNotices = [] := by decide
  rw [announced, before] at appended
  obtain rfl := List.cons.inj appended |>.1
  exact absurd attributed.1 (by decide)

end SmartAccount
