import SmartAccount.Fates
import SmartAccount.Methods
import SmartAccount.Runtime
import SmartAccount.Telemetry

/-!
# The observer's verdict

`build_outcome_banner` scans the events of a trace backward for a `sequence_completed` or a
`sequence_halted` and takes the failed step from `step_id`, a field that the contract does not
write there.  A completed release is reported as it ended; an ended one is reported rightly
only where the failed step is called `?` (`banner_agrees_iff`).
-/

namespace SmartAccount

open Foundation

/-! ## The banner -/

/-- The fields of a `ParsedEvent` that the banner reads. -/
structure ParsedEvent where
  event : String
  data : Json

/-- The banner that an event makes, if the scan stops at it. -/
def ParsedEvent.banner (e : ParsedEvent) : Option (String × Bool) :=
  if e.event = "sequence_completed" then
    let step := (e.data.get "final_step_id").asStr.getD "?"
    some ("sequence_completed  (final step " ++ step ++ ")", false)
  else if e.event = "sequence_halted" then
    let reason := (e.data.get "reason").asStr.getD "?"
    let step := (e.data.get "step_id").asStr.getD "?"
    let kind := (e.data.get "error_kind").asStr.getD ""
    if kind = "" then
      some ("sequence_halted  (reason=" ++ reason ++ ", step " ++ step ++ ")", true)
    else
      some ("sequence_halted  (reason=" ++ reason ++ ", error_kind=" ++ kind ++ ", step " ++
        step ++ ")", true)
  else none

/-- `build_outcome_banner`: the text and whether it is an error. -/
def buildOutcomeBanner (events : List ParsedEvent) : String × Bool :=
  (events.reverse.findSome? ParsedEvent.banner).getD
    ("(no sequence terminal event detected)", false)

/-! ## The contract's events, parsed -/

/-- The parsed form of an event. -/
def Event.parse (runtime : RuntimeSnapshot) (event : Event) : ParsedEvent :=
  ⟨event.name, event.data runtime⟩

/-- An event as it was parsed, emitted under some runtime snapshot. -/
def Event.Parsed (event : Event) (parsed : ParsedEvent) : Prop :=
  ∃ runtime, parsed = event.parse runtime

theorem Event.parsed_map (runtime : RuntimeSnapshot) (events : List Event) :
    List.Forall₂ Event.Parsed events (events.map (Event.parse runtime)) :=
  List.forall₂_map_right_iff.mpr (List.forall₂_same.mpr fun _ _ => ⟨runtime, rfl⟩)

/-- The text of a halt up to its step. -/
def HaltData.bannerFront (data : HaltData) : String :=
  if data.errorKind = "" then "sequence_halted  (reason=" ++ data.reason
  else "sequence_halted  (reason=" ++ data.reason ++ ", error_kind=" ++ data.errorKind

/-- The banner of an event of the contract: no step is found in a halt. -/
def Event.banner : Event → Option (String × Bool)
  | sequenceCompleted _ final _ => some ("sequence_completed  (final step " ++ final ++ ")", false)
  | sequenceHalted data => some (data.bannerFront ++ ", step " ++ "?" ++ ")", true)
  | _ => none

theorem Event.Parsed.banner_eq {event : Event} {parsed : ParsedEvent}
    (read : event.Parsed parsed) : parsed.banner = event.banner := by
  obtain ⟨runtime, rfl⟩ := read
  cases event with
  | sequenceHalted data =>
      have step : (((Event.sequenceHalted data).data runtime).get "step_id").asStr = none := by
        cases after : data.afterStepId <;>
          simp [Event.data, Event.fields, HaltData.fields, after, Json.get, Json.asStr]
      simp only [ParsedEvent.banner, Event.parse, step]
      show (if data.errorKind = "" then _ else _) = some (data.bannerFront ++ _ ++ _ ++ _, true)
      unfold HaltData.bannerFront
      split <;> rfl
  | _ => rfl

/-- The banner is that of the last event that makes one. -/
def lastBanner (events : List Event) : Option (String × Bool) :=
  events.reverse.findSome? Event.banner

theorem lastBanner_append (events events' : List Event) :
    lastBanner (events ++ events') = (lastBanner events').or (lastBanner events) := by
  rw [lastBanner, List.reverse_append, List.findSome?_append]
  rfl

theorem lastBanner_cons (event : Event) (events : List Event) :
    lastBanner (event :: events) = (lastBanner events).or event.banner := by
  rw [← List.singleton_append, lastBanner_append]
  exact congrArg _ (by cases event <;> rfl)

theorem lastBanner_silent {events : List Event} (silent : ∀ event ∈ events, event.banner = none) :
    lastBanner events = none :=
  List.findSome?_eq_none_iff.mpr fun event inside => silent event (List.mem_reverse.mp inside)

theorem buildOutcomeBanner_parsed {events : List Event} {parsed : List ParsedEvent}
    (read : List.Forall₂ Event.Parsed events parsed) :
    buildOutcomeBanner parsed =
      (lastBanner events).getD ("(no sequence terminal event detected)", false) := by
  have same : parsed.map ParsedEvent.banner = events.map Event.banner := by
    induction read with
    | nil => rfl
    | cons head _ ih => rw [List.map_cons, List.map_cons, head.banner_eq, ih]
  have found : parsed.reverse.findSome? ParsedEvent.banner = lastBanner events := by
    have reversed := congrArg List.reverse same
    rw [← List.map_reverse, ← List.map_reverse] at reversed
    have searched := congrArg (List.findSome? id) reversed
    rw [List.findSome?_map, List.findSome?_map] at searched
    exact searched
  rw [buildOutcomeBanner, found]

/-! ## Naming a step -/

/-- The banner ends with the failed step's id. -/
def NamesFailed (banner stepId : String) : Prop :=
  ∃ front, banner = front ++ ", step " ++ stepId ++ ")"

/-- The banner ends with the final step's id. -/
def NamesFinal (banner stepId : String) : Prop :=
  ∃ front, banner = front ++ "(final step " ++ stepId ++ ")"

/-- Where no comma of the front is followed by the word `step`, the last one is. -/
theorem names_last {front front' stepId stepId' : List Char}
    (other : ∀ before after, front = before ++ ',' :: after → after.take 2 = [' ', 'e'])
    (plain : ',' ∉ stepId)
    (same : front ++ ',' :: ([' ', 's', 't', 'e', 'p', ' '] ++ stepId) =
      front' ++ ',' :: ([' ', 's', 't', 'e', 'p', ' '] ++ stepId')) : stepId' = stepId := by
  rcases append_cons_eq_append_cons same with rfl | ⟨rest, rfl⟩ | ⟨rest, rfl⟩
  · have tails := List.append_cancel_left same
    exact (List.append_cancel_left (List.cons.inj tails).2).symm
  · rw [List.append_assoc, List.append_cancel_left_eq] at same
    have tails : [' ', 's', 't', 'e', 'p', ' '] ++ stepId =
        rest ++ ',' :: ([' ', 's', 't', 'e', 'p', ' '] ++ stepId') := (List.cons.inj same).2
    have inside : ',' ∈ [' ', 's', 't', 'e', 'p', ' '] ++ stepId :=
      tails ▸ List.mem_append_right rest List.mem_cons_self
    rcases List.mem_append.mp inside with word | id
    · exact absurd word (by decide)
    · exact absurd id plain
  · have start := other front' rest rfl
    rw [List.append_assoc, List.append_cancel_left_eq] at same
    have tails : rest ++ ',' :: ([' ', 's', 't', 'e', 'p', ' '] ++ stepId) =
        [' ', 's', 't', 'e', 'p', ' '] ++ stepId' := (List.cons.inj same).2
    have letters := congrArg (List.take 2) tails
    rw [List.take_append_of_le_length, start] at letters
    · revert letters
      simp
    · have length := congrArg List.length start
      rw [List.length_take] at length
      simp at length
      omega

/-- A comma in the front of a halt's text is the one before the error's kind. -/
theorem HaltData.Plain.bannerFront {data : HaltData} (plain : data.Plain)
    {before after : List Char} (split : data.bannerFront.toList = before ++ ',' :: after) :
    after.take 2 = [' ', 'e'] := by
  have reason : ',' ∉ ("sequence_halted  (reason=" ++ data.reason).toList := by
    rw [String.toList_append, List.mem_append, not_or]
    exact ⟨by decide, plain.reason⟩
  unfold HaltData.bannerFront at split
  split at split
  · rw [split] at reason
    exact absurd (List.mem_append_right before List.mem_cons_self) reason
  · rw [String.toList_append, String.toList_append] at split
    have parts : ("sequence_halted  (reason=" ++ data.reason).toList ++
        ',' :: (" error_kind=".toList ++ data.errorKind.toList) = before ++ ',' :: after :=
      Eq.trans (by simp) split
    rcases append_cons_eq_append_cons parts with same | ⟨rest, early⟩ | ⟨rest, late⟩
    · rw [same, List.append_cancel_left_eq] at parts
      rw [← (List.cons.inj parts).2]
      rfl
    · rw [early, List.append_assoc, List.append_cancel_left_eq] at parts
      have tails : " error_kind=".toList ++ data.errorKind.toList = rest ++ ',' :: after :=
        (List.cons.inj parts).2
      have inside : ',' ∈ " error_kind=".toList ++ data.errorKind.toList :=
        tails ▸ List.mem_append_right rest List.mem_cons_self
      rcases List.mem_append.mp inside with word | kind
      · exact absurd word (by decide)
      · exact absurd kind plain.kind
    · rw [late] at reason
      exact absurd (List.mem_append_right before List.mem_cons_self) reason

/-- The banner of a halt names a step called `?`, and no other. -/
theorem HaltData.Plain.names_iff {data : HaltData} (plain : data.Plain) {stepId : String} :
    NamesFailed (data.bannerFront ++ ", step " ++ "?" ++ ")") stepId ↔ stepId = "?" := by
  constructor
  · rintro ⟨front, same⟩
    have lists := congrArg String.toList same
    simp only [String.toList_append] at lists
    have cut := List.append_cancel_right lists
    have marked : data.bannerFront.toList ++ ',' :: ([' ', 's', 't', 'e', 'p', ' '] ++ ['?']) =
        front.toList ++ ',' :: ([' ', 's', 't', 'e', 'p', ' '] ++ stepId.toList) := by
      simpa using cut
    exact String.toList_inj.mp
      (names_last (fun before after => plain.bannerFront) (by decide) marked)
  · rintro rfl
    exact ⟨_, rfl⟩

/-! ## The contract's halts -/

namespace Machine

theorem closingEvents_finished {env : Env} {m : Machine} {ns : String}
    {verdict : Option (AutomationRunStatus × Option String)} {event : Event}
    (inside : event ∈ m.closingEvents env ns verdict) : ∃ data, event = .runFinished data := by
  unfold closingEvents at inside
  split at inside
  · exact ⟨_, List.mem_singleton.mp inside⟩
  · exact absurd inside List.not_mem_nil

/-- The halts among the events that announce a fate are plain. -/
theorem Tells.plain {env : Env} {m : Machine} {ns stepId : String} {fate : Fate}
    {told : List Event} (tells : Tells env m ns stepId fate told) {data : HaltData}
    (halted : .sequenceHalted data ∈ told) : data.Plain := by
  have open_ : ∀ {verdict}, .sequenceHalted data ∉ m.closingEvents env ns verdict := by
    intro verdict inside
    obtain ⟨finished, eq⟩ := closingEvents_finished inside
    cases eq
  cases tells with
  | passes => cases halted
  | halts data' about names plain =>
      rcases List.mem_append.mp halted with closing | last
      · exact absurd closing open_
      · cases List.mem_singleton.mp last
        exact plain
  | advances n createdAtMs latencyMs call => cases List.mem_singleton.mp halted
  | stuck n createdAtMs latencyMs call data' about names plain =>
      rcases List.mem_cons.mp halted with first | rest
      · cases first
      · rcases List.mem_append.mp rest with closing | last
        · exact absurd closing open_
        · cases List.mem_singleton.mp last
          exact plain
  | completes n createdAtMs latencyMs call =>
      rcases List.mem_cons.mp halted with first | rest
      · cases first
      · rcases List.mem_cons.mp rest with second | closing
        · cases second
        · exact absurd closing open_
  | fails error createdAtMs latencyMs call =>
      rcases List.mem_append.mp halted with closing | last
      · exact absurd closing open_
      · cases List.mem_singleton.mp last

/-- Every halt that the contract announces is plain. -/
theorem Reachable.plain {m : Machine} (reachable : m.Reachable) :
    ∀ data, .sequenceHalted data ∈ m.trace.events → data.Plain := by
  refine Reachable.induct (motive := fun m => ∀ data, .sequenceHalted data ∈ m.trace.events →
    data.Plain) (fun _ _ _ _ inside => absurd inside List.not_mem_nil) ?_ reachable
  intro m op ih data halted
  cases op with
  | timeout id =>
      refine ih data ?_
      exact m.timeout_trace id ▸ halted
  | abort id answer => exact ih data (m.abort_events id answer ▸ halted)
  | transact env method =>
      cases called : m.call env method with
      | error message => exact ih data (step_refused called ▸ halted)
      | ok m' =>
          rw [step_transact called] at halted
          obtain ⟨added, trace, opens⟩ := (Accepted.of_call called).opens
          rw [trace, Trace.events_append] at halted
          rcases List.mem_append.mp halted with old | new
          · exact ih data old
          · obtain ⟨by_, inside⟩ := Trace.mem_events.mp new
            cases opens _ inside
  | deliver env id answer =>
      replace halted : .sequenceHalted data ∈ (m.deliver env id answer).trace.events := halted
      cases due : m.due id answer with
      | none => exact ih data (deliver_idle due ▸ halted)
      | some delivered =>
          obtain ⟨remarks, told, added, quiet, tells⟩ := (deliver_fallen due).events
          rw [added, List.mem_append, List.mem_append] at halted
          rcases halted with old | remark | announced
          · exact ih data old
          · cases (quiet _ remark).1
          · exact tells.plain announced

end Machine

/-! ## The verdict -/

/-- Events that end a release, for the banner. -/
def Event.endsRelease : Event → Bool
  | sequenceCompleted _ _ _ => true
  | sequenceHalted _ => true
  | _ => false

theorem lastBanner_eq (events : List Event) :
    lastBanner events = (events.reverse.find? Event.endsRelease).bind Event.banner := by
  rw [lastBanner]
  induction events.reverse with
  | nil => rfl
  | cons event events ih => cases event <;> first | rfl | exact ih

/-- The last of the events that end a release is a halt. -/
def EndsHalted (events : List Event) : Prop :=
  ∃ data, events.reverse.find? Event.endsRelease = some (.sequenceHalted data)

/-- The banner reports the end of a release: an error that names the failed step, or the
completion with its final step. -/
def BannerAgrees (stepId : String) (banner : String × Bool) : Fate → Prop
  | .passes => True
  | .advances _ => True
  | .halts _ => banner.2 = true ∧ NamesFailed banner.1 stepId
  | .stuck next => banner.2 = true ∧ NamesFailed banner.1 next
  | .fails => banner.2 = true ∧ NamesFailed banner.1 stepId
  | .completes => banner.2 = false ∧ NamesFinal banner.1 stepId

/-- The ends that the banner reports rightly. -/
def Legible (earlier : List Event) (stepId : String) : Fate → Prop
  | .halts _ => stepId = "?"
  | .stuck next => next = "?"
  | .fails => stepId = "?" ∧ EndsHalted earlier
  | _ => True

/-- A release that ends, with any events of the contract before: the banner reports its end
exactly when it completed, or the failed step is called `?` and a halt is the last event that
ends a release. -/
theorem banner_agrees_iff {m : Machine} (reachable : m.Reachable) {env : Env} {id : Nat}
    {answer result : PromiseResult} {callback : Callback}
    (due : m.due id answer = some (callback, result)) {earlier added : List Event}
    (emitted : ∀ event ∈ earlier, event ∈ m.trace.events)
    (adds : (m.deliver env id answer).trace.events = m.trace.events ++ added)
    {parsed : List ParsedEvent} (read : List.Forall₂ Event.Parsed (earlier ++ added) parsed) :
    BannerAgrees callback.stepId (buildOutcomeBanner parsed) (m.fate callback result) ↔
      Legible earlier callback.stepId (m.fate callback result) := by
  obtain ⟨remarks, told, events, quiet, tells⟩ := (Machine.deliver_fallen due).events
  obtain rfl := List.append_cancel_left (adds.symm.trans events)
  have unmarked : lastBanner remarks = none := lastBanner_silent fun event inside => by
    have remark := (quiet event inside).1
    cases event <;> first | rfl | cases remark
  have open_ : ∀ {verdict}, lastBanner (m.closingEvents env callback.sequenceNamespace verdict) =
      none := lastBanner_silent fun event inside => by
    obtain ⟨finished, rfl⟩ := Machine.closingEvents_finished inside
    rfl
  rw [buildOutcomeBanner_parsed read, lastBanner_append, lastBanner_append, unmarked,
    Option.or_none]
  generalize m.fate callback result = fate at tells ⊢
  cases tells with
  | passes => exact Iff.rfl
  | advances n createdAtMs latencyMs call => exact Iff.rfl
  | halts data about names plain =>
      rw [lastBanner_append]
      exact (and_iff_right rfl).trans plain.names_iff
  | stuck n createdAtMs latencyMs call data about names plain =>
      rw [lastBanner_cons, lastBanner_append]
      exact (and_iff_right rfl).trans plain.names_iff
  | completes n createdAtMs latencyMs call =>
      rw [lastBanner_cons, lastBanner_cons, open_]
      exact iff_of_true ⟨rfl, "sequence_completed  ", rfl⟩ trivial
  | fails error createdAtMs latencyMs call =>
      rw [lastBanner_append, open_]
      have before : ((lastBanner [.stepResolvedErr callback.stepId callback.sequenceNamespace
          error createdAtMs latencyMs call]).or none).or (lastBanner earlier) =
            lastBanner earlier := rfl
      rw [before, lastBanner_eq]
      show _ ∧ _ ↔ _ ∧ ∃ data, _ = _
      cases found : earlier.reverse.find? Event.endsRelease with
      | none =>
          refine iff_of_false (fun agreed => Bool.noConfusion agreed.1) fun agreed => ?_
          obtain ⟨data, eq⟩ := agreed.2
          cases eq
      | some last =>
          have ends := List.find?_some found
          have inside := List.mem_reverse.mp (List.mem_of_find?_eq_some found)
          cases last with
          | sequenceHalted data =>
              have plain := reachable.plain data (emitted _ inside)
              refine (and_iff_right rfl).trans (plain.names_iff.trans ?_)
              exact ⟨fun named => ⟨named, data, rfl⟩, And.left⟩
          | sequenceCompleted ns final n =>
              refine iff_of_false (fun agreed => Bool.noConfusion agreed.1) fun agreed => ?_
              obtain ⟨data, eq⟩ := agreed.2
              cases eq
          | _ => cases ends

/-- Alice's plan of one step, whose target is called. -/
def calledPlan : Machine :=
  deployed.run [.transact aliceEnv (.executeSteps [plainStep "a"]), .deliver aliceEnv 0 okResult]

/-- The events of a delivery on Alice's plan. -/
def planEvents (answer : PromiseResult) : List Event :=
  (calledPlan.deliver aliceEnv 0 answer).trace.events.drop calledPlan.trace.events.length

theorem banner_agrees_iff_completed :
    BannerAgrees "a" (buildOutcomeBanner ((calledPlan.trace.events ++ planEvents okResult).map
        (Event.parse aliceRuntime)))
      (calledPlan.fate (.onStepResolved (manualNamespace alice) "a") okResult) ↔
    Legible calledPlan.trace.events "a"
      (calledPlan.fate (.onStepResolved (manualNamespace alice) "a") okResult) := by
  have due : calledPlan.due 0 okResult =
      some (.onStepResolved (manualNamespace alice) "a", okResult) := by
    decide
  have adds : (calledPlan.deliver aliceEnv 0 okResult).trace.events =
      calledPlan.trace.events ++ planEvents okResult := by
    decide
  exact banner_agrees_iff (deployed_reachable.run _) due (fun _ inside => inside) adds
    (Event.parsed_map _ _)

/-- A failed step is reported by `step_resolved_err`, which the banner passes over. -/
theorem failed_step_unreported :
    ¬ ∀ (m : Machine) (env : Env) (id : Nat) (answer result : PromiseResult)
      (callback : Callback) (earlier added : List Event) (parsed : List ParsedEvent),
      m.Reachable → m.due id answer = some (callback, result) →
      (∀ event ∈ earlier, event ∈ m.trace.events) →
      (m.deliver env id answer).trace.events = m.trace.events ++ added →
      List.Forall₂ Event.Parsed (earlier ++ added) parsed →
      BannerAgrees callback.stepId (buildOutcomeBanner parsed) (m.fate callback result) := by
  intro agrees
  have failed := agrees calledPlan aliceEnv 0 .failed .failed
    (.onStepResolved (manualNamespace alice) "a") calledPlan.trace.events (planEvents .failed) _
    (deployed_reachable.run _) (by decide) (fun _ inside => inside) (by decide)
    (Event.parsed_map aliceRuntime _)
  have fate : calledPlan.fate (.onStepResolved (manualNamespace alice) "a") .failed = .fails := by
    decide
  rw [fate] at failed
  have silent := failed.1
  revert silent
  decide

end SmartAccount
