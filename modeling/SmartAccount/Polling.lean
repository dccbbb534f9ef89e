import SmartAccount.DemoAdapter
import SmartAccount.Foundation.Pool
import SmartAccount.Foundation.Register
import SmartAccount.WildRouter

/-!
# Polling the wild router

`World` is a wild router with all that is under way around it: the detached echoes it started,
for the adapter or for anybody else, and the adapter's calls (`Journey`), each at its own
`Stage`.  Any receipt may execute next and any receipt may fail, so a run is any list of
operations.  A journey may also aim at another account, whose answers are free.

`Course` is what a journey has seen at each stage.  Every operation keeps every journey on its
course, and the router's register at what the log wrote to it last (`Sound.step`).
-/

namespace SmartAccount

open Foundation

namespace DemoAdapter

/-! ## The world -/

/-- A detached echo, and the outcome that `on_echo_finished` will be handed. -/
structure Chain where
  call : WildRouter.EchoCall
  answer : Option (Except PromiseError Nat)

/-- How far a call of the adapter has come. -/
inductive Stage where
  /-- The start receipt is outstanding. -/
  | starting (call : RouteEcho) (callback : PollArgs)
  /-- `on_route_echo_started` is due. -/
  | started (callback : PollArgs) (result : Except PromiseError String)
  /-- A poll is outstanding. -/
  | polling (call : GetLastFinished) (callback : PollArgs)
  /-- `on_last_finished_polled` is due. -/
  | polled (callback : PollArgs) (result : Except PromiseError (Option Nat))
  | settled (outcome : Except String Nat)

/-- What a call of the adapter is for. -/
structure Errand where
  targetId : AccountId
  expectedN : Nat
  /-- The budget of the first callback. -/
  budgetTgas : Nat

/-- A call of the adapter that passed its checks. -/
structure Journey where
  errand : Errand
  stage : Stage

/-- What happens at the router, and what the polls of a journey return. -/
inductive Happening where
  | started (journey : Option Nat) (chain n : Nat)
  | finished (chain : Nat) (result : Except PromiseError Nat)
  | polled (journey : Nat) (result : Except PromiseError (Option Nat))

/-- What is written to `last_finished`. -/
def Happening.writes : Happening → Option (Option Nat)
  | started _ _ _ => some none
  | finished _ (.ok n) => some (some n)
  | finished _ (.error _) => some none
  | polled _ _ => none

structure World where
  router : WildRouter
  chains : Pool Chain
  journeys : Pool Journey
  log : List Happening

/-- What can happen next to a journey. -/
inductive Move where
  /-- The start receipt executes, or fails. -/
  | start (answer : Except PromiseError String)
  /-- A poll executes, or fails. -/
  | poll (answer : Except PromiseError (Option Nat))
  /-- The callback that is due runs. -/
  | resume
  /-- The callback that is due fails, for want of gas or on a result it cannot read. -/
  | starve

/-- What can happen next to a detached echo. -/
inductive Turn where
  | echo (answer : Except PromiseError Nat)
  /-- `on_echo_finished` runs. -/
  | finish
  /-- `on_echo_finished` fails. -/
  | drop

inductive Op where
  /-- Somebody calls the adapter. -/
  | call (prepaidGasTgas : Nat) (input : AdapterDispatchInput)
  /-- Somebody else routes through the router. -/
  | route (callee : AccountId) (n : Nat)
  | move (journey : Nat) (move : Move)
  | turn (chain : Nat) (turn : Turn)

/-- What a callback that ran leaves outstanding. -/
def Stage.after : Except String Answer → Stage
  | .ok (.value n) => .settled (.ok n)
  | .ok (.poll call callback) => .polling call callback
  | .error message => .settled (.error message)

namespace World

def init : World := ⟨.new, .empty, .empty, []⟩

def setStage (w : World) (id : Nat) (j : Journey) (stage : Stage) : World :=
  { w with journeys := w.journeys.update id { j with stage := stage } }

def note (w : World) (happening : Happening) : World := { w with log := w.log ++ [happening] }

/-- `route_echo_fire_and_forget` executes, for a journey or for somebody else. -/
def route (w : World) (journey : Option Nat) (callee : AccountId) (n : Nat) : World :=
  { w with
    router := (w.router.routeEchoFireAndForget callee n).1
    chains := w.chains.create ⟨(w.router.routeEchoFireAndForget callee n).2.1, none⟩
    log := w.log ++ [.started journey w.chains.next n] }

section Step

variable (routerId : AccountId) (parseArgs : Bytes → Option RouteEchoArgs)

/-- The start receipt.  The router's method takes no deposit. -/
def start (w : World) (id : Nat) (j : Journey) (call : RouteEcho) (callback : PollArgs)
    (answer : Except PromiseError String) : World :=
  match answer with
  | .error e => w.setStage id j (.started callback (.error e))
  | .ok text =>
      if call.targetId = routerId then
        if call.attachedDepositYocto = 0 then
          (w.route (some id) call.callee call.n).setStage id j
            (.started callback (.ok (w.router.routeEchoFireAndForget call.callee call.n).2.2))
        else w.setStage id j (.started callback (.error .failed))
      else w.setStage id j (.started callback (.ok text))

/-- What a poll returns. -/
def seen (w : World) (call : GetLastFinished) (answer : Except PromiseError (Option Nat)) :
    Except PromiseError (Option Nat) :=
  match answer with
  | .error e => .error e
  | .ok seen => .ok (if call.targetId = routerId then w.router.getLastFinished else seen)

def move (w : World) (id : Nat) (j : Journey) (move : Move) : World :=
  match move, j.stage with
  | .start answer, .starting call callback => w.start routerId id j call callback answer
  | .poll answer, .polling call callback =>
      (w.note (.polled id (w.seen routerId call answer))).setStage id j
        (.polled callback (w.seen routerId call answer))
  | .resume, .started callback result =>
      w.setStage id j (.after (onRouteEchoStarted callback result))
  | .resume, .polled callback result =>
      w.setStage id j (.after (onLastFinishedPolled callback result))
  | .starve, .started _ _ => w.setStage id j (.settled (.error "Exceeded the prepaid gas."))
  | .starve, .polled _ _ => w.setStage id j (.settled (.error "Exceeded the prepaid gas."))
  | _, _ => w

def turn (w : World) (id : Nat) (chain : Chain) (turn : Turn) : World :=
  match turn, chain.answer with
  | .echo answer, none =>
      { w with chains := w.chains.update id { chain with answer := some answer } }
  | .finish, some result =>
      { w with
        router := (w.router.onEchoFinished result).1
        chains := w.chains.remove id
        log := w.log ++ [.finished id result] }
  | .drop, some _ => { w with chains := w.chains.remove id }
  | _, _ => w

/-- A call of the adapter that passes its checks sets out. -/
def depart (w : World) (start : RouteEcho) (callback : PollArgs) : World :=
  { w with
    journeys := w.journeys.create
      ⟨⟨start.targetId, start.n, callback.remainingBudgetTgas⟩, .starting start callback⟩ }

def step (w : World) : Op → World
  | .call prepaidGasTgas input =>
      match adaptFireAndForgetRouteEcho parseArgs prepaidGasTgas input with
      | .ok (start, callback) => w.depart start callback
      | .error _ => w
  | .route callee n => w.route none callee n
  | .move id move =>
      match w.journeys.get id with
      | some j => w.move routerId id j move
      | none => w
  | .turn id turn =>
      match w.chains.get id with
      | some chain => w.turn id chain turn
      | none => w

/-- What an operation may do, in every state of a run. -/
inductive Reach (allowed : World → Op → Prop) : World → Prop
  | init : Reach allowed init
  | step {w : World} (op : Op) (reach : Reach allowed w) (fits : allowed w op) :
      Reach allowed (w.step routerId parseArgs op)

/-- Echoes that answer as the `echo` contract does, or fail. -/
def Echoing (w : World) : Op → Prop
  | .turn id (.echo (.ok k)) => ∀ chain, w.chains.get id = some chain → k = echo chain.call.n
  | _ => True

end Step

theorem Reach.mono {routerId : AccountId} {parseArgs : Bytes → Option RouteEchoArgs}
    {allowed allowed' : World → Op → Prop} {w : World}
    (weaker : ∀ w op, allowed w op → allowed' w op) (reach : Reach routerId parseArgs allowed w) :
    Reach routerId parseArgs allowed' w := by
  induction reach with
  | init => exact .init
  | step op reach fits ih => exact .step op ih (weaker _ op fits)

theorem Reach.foldl {routerId : AccountId} {parseArgs : Bytes → Option RouteEchoArgs}
    {allowed : World → Op → Prop} {w : World} (reach : Reach routerId parseArgs allowed w)
    (ops : List Op) (fits : ∀ w, ∀ op ∈ ops, allowed w op) :
    Reach routerId parseArgs allowed (ops.foldl (World.step routerId parseArgs) w) := by
  induction ops generalizing w with
  | nil => exact reach
  | cons op ops ih =>
      exact ih (reach.step op (fits w op List.mem_cons_self)) fun w op inside =>
        fits w op (List.mem_cons_of_mem _ inside)

end World

/-! ## What a journey has seen -/

/-- What the polls of the journey returned, oldest first. -/
def reads (log : List Happening) (id : Nat) : List (Except PromiseError (Option Nat)) :=
  log.filterMap fun
    | .polled id' result => if id' = id then some result else none
    | _ => none

theorem reads_append (log log' : List Happening) (id : Nat) :
    reads (log ++ log') id = reads log id ++ reads log' id := List.filterMap_append ..

theorem reads_polled (log : List Happening) (id : Nat)
    (result : Except PromiseError (Option Nat)) :
    reads (log ++ [.polled id result]) id = reads log id ++ [result] := by
  rw [reads_append]
  simp [reads]

/-- The router has started the journey's echo. -/
def Begun (log : List Happening) (id n : Nat) : Prop := ∃ chain, .started (some id) chain n ∈ log

/-- Behind the start of the journey an echo of its number has finished. -/
def Witnessed (log : List Happening) (id n : Nat) : Prop :=
  ∃ past chain between finisher later, log =
    past ++ .started (some id) chain n :: (between ++ .finished finisher (.ok n) :: later)

/-- Entries that are not about the journey. -/
def Foreign (id : Nat) (added : List Happening) : Prop :=
  reads added id = [] ∧ ∀ chain n, .started (some id) chain n ∉ added

theorem Begun.later {log added : List Happening} {id n : Nat} (begun : Begun log id n) :
    Begun (log ++ added) id n := by
  obtain ⟨chain, inside⟩ := begun
  exact ⟨chain, List.mem_append_left _ inside⟩

theorem Witnessed.later {log added : List Happening} {id n : Nat}
    (witnessed : Witnessed log id n) : Witnessed (log ++ added) id n := by
  obtain ⟨past, chain, between, finisher, later, rfl⟩ := witnessed
  exact ⟨past, chain, between, finisher, later ++ added, by simp⟩

/-- A register that shows a number behind a start, which clears it, has it from an echo. -/
theorem Witnessed.of_shown {log : List Happening} {id n : Nat} (begun : Begun log id n)
    (shown : lastWrite Happening.writes none log = some n) : Witnessed log id n := by
  obtain ⟨chain, inside⟩ := begun
  obtain ⟨past, later, rfl⟩ := List.append_of_mem inside
  rw [lastWrite_append, ← List.singleton_append, lastWrite_append] at shown
  change lastWrite Happening.writes none later = some n at shown
  rcases @lastWrite_cases _ _ Happening.writes none later with
    ⟨blank, -⟩ | ⟨between, entry, after, rfl, wrote, -⟩
  · rw [blank] at shown
    cases shown
  · rw [shown] at wrote
    cases entry with
    | started journey chain' n' => cases wrote
    | polled journey result => cases wrote
    | finished finisher result =>
        cases result with
        | error e => cases wrote
        | ok k =>
            obtain rfl : k = n := Option.some.inj (Option.some.inj wrote)
            exact ⟨past, chain, between, finisher, after, rfl⟩

/-- The arguments of the callback behind the poll that follows `polls` others. -/
def Errand.args (e : Errand) (polls : Nat) : PollArgs where
  targetId := e.targetId
  expectedN := e.expectedN
  remainingBudgetTgas := e.budgetTgas - pollStepOverheadTgas * polls
  attemptsLeft := maxPollAttempts + 1 - polls
  gasTgas := e.budgetTgas - pollStepOverheadTgas * polls

/-- The budget lasts for this many polls. -/
def Errand.Lasts (e : Errand) (polls : Nat) : Prop :=
  pollStepOverheadTgas * polls + minCallbackBudgetTgas ≤ e.budgetTgas

theorem Errand.lasts_of_ample {e : Errand} {polls : Nat} (ample : pollingBudgetTgas ≤ e.budgetTgas)
    (few : polls ≤ maxPollAttempts + 1) : e.Lasts polls :=
  Nat.le_trans (Nat.add_le_add_right (Nat.mul_le_mul_left _ few) _) ample

/-- None of these results shows the journey's number. -/
def Errand.Unseen (e : Errand) (results : List (Except PromiseError (Option Nat))) : Prop :=
  ∀ result ∈ results, result ≠ .ok (some e.expectedN)

/-- Why a journey fails. -/
inductive Failure (e : Errand) (results : List (Except PromiseError (Option Nat))) :
    String → Prop
  | unstarted (none : results = []) : Failure e results "wild-router start receipt failed"
  | unpaid (unseen : e.Unseen results) (left : results.length ≤ maxPollAttempts)
      (short : ¬ e.Lasts (results.length + 1)) :
      Failure e results "adapter callback budget is too small to keep polling"
  | unseen (unseen : e.Unseen results) (all : results.length = maxPollAttempts + 1) :
      Failure e results "wild-router never exposed the expected finished state"
  | starved (few : results.length ≤ maxPollAttempts + 1) :
      Failure e results "Exceeded the prepaid gas."

/-- What a journey at a stage has seen. -/
inductive Course (routerId : AccountId) (log : List Happening) (id : Nat) (e : Errand) :
    Stage → Prop
  | starting {call : RouteEcho} (target : call.targetId = e.targetId)
      (number : call.n = e.expectedN) (unread : reads log id = [])
      (unstarted : ∀ chain n, .started (some id) chain n ∉ log) :
      Course routerId log id e
        (.starting call ⟨e.targetId, e.expectedN, e.budgetTgas, maxPollAttempts, e.budgetTgas⟩)
  | started {result : Except PromiseError String} (unread : reads log id = [])
      (begun : e.targetId = routerId → result.isOk = true → Begun log id e.expectedN) :
      Course routerId log id e (.started
        ⟨e.targetId, e.expectedN, e.budgetTgas, maxPollAttempts, e.budgetTgas⟩ result)
  | polling {call : GetLastFinished} (target : call.targetId = e.targetId)
      (unseen : e.Unseen (reads log id)) (left : (reads log id).length ≤ maxPollAttempts)
      (lasts : e.Lasts ((reads log id).length + 1))
      (begun : e.targetId = routerId → Begun log id e.expectedN) :
      Course routerId log id e (.polling call (e.args ((reads log id).length + 1)))
  | polled {result : Except PromiseError (Option Nat)}
      (before : List (Except PromiseError (Option Nat)))
      (results : reads log id = before ++ [result]) (unseen : e.Unseen before)
      (left : before.length ≤ maxPollAttempts) (lasts : e.Lasts (before.length + 1))
      (begun : e.targetId = routerId → Begun log id e.expectedN)
      (witnessed : e.targetId = routerId → result = .ok (some e.expectedN) →
        Witnessed log id e.expectedN) :
      Course routerId log id e (.polled (e.args (before.length + 1)) result)
  | succeeded (before : List (Except PromiseError (Option Nat)))
      (results : reads log id = before ++ [.ok (some e.expectedN)]) (unseen : e.Unseen before)
      (left : before.length ≤ maxPollAttempts)
      (witnessed : e.targetId = routerId → Witnessed log id e.expectedN) :
      Course routerId log id e (.settled (.ok e.expectedN))
  | failed {message : String} (failure : Failure e (reads log id) message) :
      Course routerId log id e (.settled (.error message))

namespace Course

variable {routerId : AccountId} {log added : List Happening} {id : Nat} {e : Errand}
  {stage : Stage}

/-- What happens to others leaves a journey where it is. -/
theorem later (course : Course routerId log id e stage) (foreign : Foreign id added) :
    Course routerId (log ++ added) id e stage := by
  have same : reads (log ++ added) id = reads log id := by
    rw [reads_append, foreign.1, List.append_nil]
  cases course with
  | starting target number unread unstarted =>
      refine .starting target number (same.trans unread) fun chain n inside => ?_
      rcases List.mem_append.mp inside with early | late
      · exact unstarted chain n early
      · exact foreign.2 chain n late
  | started unread begun =>
      exact .started (same.trans unread) fun target ok => (begun target ok).later
  | polling target unseen left lasts begun =>
      rw [← same] at unseen left lasts ⊢
      exact .polling target unseen left lasts fun target => (begun target).later
  | polled before results unseen left lasts begun witnessed =>
      exact .polled before (same.trans results) unseen left lasts
        (fun target => (begun target).later) fun target shown => (witnessed target shown).later
  | succeeded before results unseen left witnessed =>
      exact .succeeded before (same.trans results) unseen left
        fun target => (witnessed target).later
  | failed failure => exact .failed (same.symm ▸ failure)

/-- The poll that a callback makes, or its failure for want of gas. -/
theorem schedule {polls remainingBudgetTgas attemptsLeft : Nat}
    (polled : (reads log id).length = polls) (unseen : e.Unseen (reads log id))
    (left : polls ≤ maxPollAttempts)
    (remaining : remainingBudgetTgas = e.budgetTgas - pollStepOverheadTgas * polls)
    (attempts : attemptsLeft = maxPollAttempts - polls)
    (begun : e.targetId = routerId → Begun log id e.expectedN) :
    Course routerId log id e (.after (do
      let (call, callback) ← scheduleFinishedPoll e.targetId e.expectedN remainingBudgetTgas
        attemptsLeft
      .ok (.poll call callback))) := by
  subst remaining attempts
  cases scheduled : scheduleFinishedPoll e.targetId e.expectedN
      (e.budgetTgas - pollStepOverheadTgas * polls) (maxPollAttempts - polls) with
  | error message =>
      obtain ⟨rfl, short⟩ := scheduleFinishedPoll_error scheduled
      refine .failed (.unpaid unseen (polled.symm ▸ left) fun lasts => ?_)
      rw [polled, Errand.Lasts] at lasts
      rw [pollStepOverheadTgas] at lasts short
      omega
  | ok poll =>
      obtain ⟨call, callback⟩ := poll
      obtain ⟨budget, rfl, rfl⟩ := scheduleFinishedPoll_ok scheduled
      have next : (⟨e.targetId, e.expectedN,
          e.budgetTgas - pollStepOverheadTgas * polls - pollStepOverheadTgas,
          maxPollAttempts - polls,
          e.budgetTgas - pollStepOverheadTgas * polls - pollStepOverheadTgas⟩ : PollArgs) =
          e.args ((reads log id).length + 1) := by
        rw [polled, Errand.args, Nat.sub_sub, ← Nat.mul_succ, Nat.add_sub_add_right]
      show Course routerId log id e (.polling _ _)
      rw [next]
      refine .polling rfl unseen (polled.symm ▸ left) ?_ begun
      rw [polled, Errand.Lasts]
      rw [pollStepOverheadTgas] at budget ⊢
      omega

/-- A journey polls at most five times. -/
theorem reads_length_le (course : Course routerId log id e stage) :
    (reads log id).length ≤ maxPollAttempts + 1 := by
  cases course with
  | starting target number unread unstarted =>
      rw [unread]
      exact Nat.zero_le _
  | started unread begun =>
      rw [unread]
      exact Nat.zero_le _
  | polling target unseen left lasts begun => exact Nat.le_succ_of_le left
  | polled before results unseen left lasts begun witnessed =>
      rw [results, List.length_append, List.length_singleton]
      exact Nat.succ_le_succ left
  | succeeded before results unseen left witnessed =>
      rw [results, List.length_append, List.length_singleton]
      exact Nat.succ_le_succ left
  | failed failure =>
      cases failure with
      | unstarted none =>
          rw [none]
          exact Nat.zero_le _
      | unpaid unseen left short => exact Nat.le_succ_of_le left
      | unseen unseen all => exact Nat.le_of_eq all
      | starved few => exact few

theorem resume_started {callback : PollArgs} {result : Except PromiseError String}
    (course : Course routerId log id e (.started callback result)) :
    Course routerId log id e (.after (onRouteEchoStarted callback result)) := by
  cases course with
  | started unread begun =>
      cases result with
      | error _ => exact .failed (.unstarted unread)
      | ok text =>
          have none : (reads log id).length = 0 := by rw [unread, List.length_nil]
          refine schedule none ?_ (Nat.zero_le _) (by rw [Nat.mul_zero, Nat.sub_zero])
            (Nat.sub_zero _).symm fun target => begun target rfl
          rw [unread]
          exact fun _ inside => absurd inside List.not_mem_nil

theorem resume_polled {callback : PollArgs} {result : Except PromiseError (Option Nat)}
    (course : Course routerId log id e (.polled callback result)) :
    Course routerId log id e (.after (onLastFinishedPolled callback result)) := by
  cases course with
  | polled before results unseen left lasts begun witnessed =>
      unfold onLastFinishedPolled
      by_cases shown : result = .ok (some e.expectedN)
      · rw [if_pos (show result = .ok (some (e.args _).expectedN) from shown)]
        exact .succeeded before (shown ▸ results) unseen left fun target =>
          witnessed target shown
      · rw [if_neg (show ¬ result = .ok (some (e.args _).expectedN) from shown)]
        have none : e.Unseen (reads log id) := by
          rw [results]
          exact List.forall_mem_append.mpr ⟨unseen, List.forall_mem_singleton.mpr shown⟩
        have count : (reads log id).length = before.length + 1 := by
          rw [results, List.length_append, List.length_singleton]
        have attempts : (e.args (before.length + 1)).attemptsLeft =
            maxPollAttempts - before.length := Nat.add_sub_add_right ..
        by_cases last : (e.args (before.length + 1)).attemptsLeft = 0
        · rw [if_pos last]
          refine .failed (.unseen none ?_)
          rw [attempts] at last
          omega
        · rw [if_neg last, attempts]
          rw [attempts] at last
          exact schedule count none (by omega) rfl (Nat.sub_sub ..) begun

end Course

/-! ## Every journey keeps its course -/

/-- The router's register is what the log says, and every journey is on its course. -/
structure Sound (routerId : AccountId) (w : World) : Prop where
  register : w.router.lastFinished = lastWrite Happening.writes none w.log
  journeys : ∀ id j, w.journeys.get id = some j → Course routerId w.log id j.errand j.stage
  unborn : ∀ id, w.journeys.next ≤ id → Foreign id w.log

theorem Foreign.append {id : Nat} {log added : List Happening} (foreign : Foreign id log)
    (foreign' : Foreign id added) : Foreign id (log ++ added) := by
  refine ⟨by rw [reads_append, foreign.1, foreign'.1]; rfl, fun chain n inside => ?_⟩
  rcases List.mem_append.mp inside with early | late
  · exact foreign.2 chain n early
  · exact foreign'.2 chain n late

theorem foreign_nil (id : Nat) : Foreign id [] := ⟨rfl, fun _ _ inside => by cases inside⟩

theorem foreign_started {id : Nat} {journey : Option Nat} (chain n : Nat)
    (other : journey ≠ some id) : Foreign id [.started journey chain n] := by
  refine ⟨rfl, fun chain' n' inside => ?_⟩
  cases List.mem_singleton.mp inside
  exact other rfl

theorem foreign_finished (id chain : Nat) (result : Except PromiseError Nat) :
    Foreign id [.finished chain result] :=
  ⟨rfl, fun _ _ inside => by cases List.mem_singleton.mp inside⟩

theorem foreign_polled {id id' : Nat} (result : Except PromiseError (Option Nat))
    (other : id' ≠ id) : Foreign id [.polled id' result] := by
  refine ⟨?_, fun chain n inside => by cases List.mem_singleton.mp inside⟩
  simp [reads, other]

theorem lastWrite_noted {log log' : List Happening} {happening : Happening}
    (grown : log' = log ++ [happening]) :
    lastWrite Happening.writes none log' =
      happening.writes.getD (lastWrite Happening.writes none log) := by
  rw [grown, lastWrite_snoc]

namespace Sound

variable {routerId : AccountId} {w w' : World} {added : List Happening}

theorem init (routerId : AccountId) : Sound routerId World.init where
  register := rfl
  journeys _ _ stored := by cases stored
  unborn id _ := foreign_nil id

/-- What happens beside the journeys. -/
theorem aside (sound : Sound routerId w) (log : w'.log = w.log ++ added)
    (journeys : w'.journeys = w.journeys) (foreign : ∀ id, Foreign id added)
    (register : w'.router.lastFinished = lastWrite Happening.writes none w'.log) :
    Sound routerId w' where
  register := register
  journeys id j stored := by
    rw [journeys] at stored
    rw [log]
    exact (sound.journeys id j stored).later (foreign id)
  unborn id unused := by
    rw [journeys] at unused
    rw [log]
    exact (sound.unborn id unused).append (foreign id)

/-- One journey moves on. -/
theorem move {id : Nat} {j : Journey} {stage : Stage} (sound : Sound routerId w)
    (flying : w.journeys.get id = some j) (log : w'.log = w.log ++ added)
    (journeys : w'.journeys = w.journeys.update id { j with stage := stage })
    (foreign : ∀ id', id' ≠ id → Foreign id' added)
    (register : w'.router.lastFinished = lastWrite Happening.writes none w'.log)
    (course : Course routerId w'.log id j.errand stage) : Sound routerId w' where
  register := register
  journeys id' j' stored := by
    rw [journeys, Pool.get_update] at stored
    by_cases same : id' = id
    · rw [if_pos same, flying] at stored
      cases stored
      exact same ▸ course
    · rw [if_neg same] at stored
      rw [log]
      exact (sound.journeys id' j' stored).later (foreign id' same)
  unborn id' unused := by
    rw [journeys, Pool.next_update] at unused
    rw [log]
    refine (sound.unborn id' unused).append (foreign id' ?_)
    exact Nat.ne_of_gt (Nat.lt_of_lt_of_le (Pool.lt_next_of_get flying) unused)

/-- A callback that runs or fails touches only its journey. -/
theorem setStage {id : Nat} {j : Journey} {stage : Stage} (sound : Sound routerId w)
    (flying : w.journeys.get id = some j) (course : Course routerId w.log id j.errand stage) :
    Sound routerId (w.setStage id j stage) :=
  sound.move flying (List.append_nil _).symm rfl (fun id' _ => foreign_nil id') sound.register
    course

theorem start {id : Nat} {j : Journey} {call : RouteEcho} {callback : PollArgs}
    (sound : Sound routerId w) (flying : w.journeys.get id = some j)
    (starting : j.stage = .starting call callback) (answer : Except PromiseError String) :
    Sound routerId (w.start routerId id j call callback answer) := by
  have course := sound.journeys id j flying
  rw [starting] at course
  cases course with
  | starting target number unread unstarted =>
      unfold World.start
      cases answer with
      | error e => exact sound.setStage flying (.started unread fun _ ok => by cases ok)
      | ok text =>
          simp only
          split
          · rename_i here
            split
            · have grown : (w.route (some id) call.callee call.n).log =
                  w.log ++ [.started (some id) w.chains.next call.n] := rfl
              refine sound.move flying grown rfl (fun id' other => foreign_started _ _
                fun same => other (Option.some.inj same).symm) ?_ ?_
              · exact (lastWrite_noted grown).symm
              · refine .started ?_ fun _ _ => ?_
                · exact (reads_append ..).trans (by rw [unread]; rfl)
                · exact ⟨w.chains.next,
                    List.mem_append_right _ (number ▸ List.mem_singleton_self _)⟩
            · exact sound.setStage flying (.started unread fun _ ok => by cases ok)
          · rename_i elsewhere
            exact sound.setStage flying (.started unread fun here _ =>
              absurd (target.trans here) elsewhere)

theorem poll {id : Nat} {j : Journey} {call : GetLastFinished} {callback : PollArgs}
    (sound : Sound routerId w) (flying : w.journeys.get id = some j)
    (polling : j.stage = .polling call callback) (answer : Except PromiseError (Option Nat)) :
    Sound routerId ((w.note (.polled id (w.seen routerId call answer))).setStage id j
      (.polled callback (w.seen routerId call answer))) := by
  have course := sound.journeys id j flying
  rw [polling] at course
  cases course with
  | polling target unseen left lasts begun =>
      have grown : (w.note (.polled id (w.seen routerId call answer))).log =
          w.log ++ [.polled id (w.seen routerId call answer)] := rfl
      refine sound.move flying grown rfl (fun id' other => foreign_polled _ other.symm) ?_ ?_
      · exact sound.register.trans (lastWrite_noted grown).symm
      · refine .polled _ (reads_polled ..) unseen left lasts (fun here => (begun here).later)
          fun here shown => Witnessed.later (Witnessed.of_shown (begun here) ?_)
        rw [← sound.register]
        unfold World.seen at shown
        split at shown
        · cases shown
        · rw [if_pos (target.trans here)] at shown
          exact Except.ok.inj shown

/-- Every operation keeps every journey on its course. -/
theorem step {parseArgs : Bytes → Option RouteEchoArgs} (sound : Sound routerId w) (op : Op) :
    Sound routerId (w.step routerId parseArgs op) := by
  cases op with
  | call prepaidGasTgas input =>
      show Sound routerId (match adaptFireAndForgetRouteEcho parseArgs prepaidGasTgas input with
        | .ok (start, callback) => w.depart start callback
        | .error _ => w)
      cases accepted : adaptFireAndForgetRouteEcho parseArgs prepaidGasTgas input with
      | error message => exact sound
      | ok departure =>
          obtain ⟨start, callback⟩ := departure
          obtain ⟨routeArgs, -, -, rfl, rfl⟩ := adaptFireAndForgetRouteEcho_ok accepted
          obtain ⟨unread, unstarted⟩ := sound.unborn w.journeys.next (Nat.le_refl _)
          refine ⟨sound.register, fun id j stored => ?_, fun id unused => ?_⟩
          · rw [show (w.depart _ _).journeys = w.journeys.create _ from rfl,
              Pool.get_create] at stored
            split at stored
            · rename_i same
              cases stored
              exact same ▸ .starting rfl rfl unread unstarted
            · exact sound.journeys id j stored
          · exact sound.unborn id (Nat.le_of_succ_le unused)
  | route callee n =>
      have grown : (w.route none callee n).log = w.log ++ [.started none w.chains.next n] := rfl
      refine sound.aside grown rfl (fun id => foreign_started _ _ (by simp)) ?_
      exact (lastWrite_noted grown).symm
  | move id move =>
      show Sound routerId (match w.journeys.get id with
        | some j => w.move routerId id j move
        | none => w)
      cases flying : w.journeys.get id with
      | none => exact sound
      | some j =>
          have course := sound.journeys id j flying
          simp only [World.move]
          split
          · rename_i starting
            exact sound.start flying starting _
          · rename_i polling
            exact sound.poll flying polling _
          · rename_i due
            rw [due] at course
            exact sound.setStage flying course.resume_started
          · rename_i due
            rw [due] at course
            exact sound.setStage flying course.resume_polled
          · exact sound.setStage flying (.failed (.starved course.reads_length_le))
          · exact sound.setStage flying (.failed (.starved course.reads_length_le))
          · exact sound
  | turn id turn =>
      show Sound routerId (match w.chains.get id with
        | some chain => w.turn id chain turn
        | none => w)
      cases w.chains.get id with
      | none => exact sound
      | some chain =>
          simp only [World.turn]
          split
          · exact sound.aside (List.append_nil _).symm rfl foreign_nil sound.register
          · rename_i result _
            refine sound.aside rfl rfl (fun id' => foreign_finished id' id result) ?_
            refine Eq.trans ?_ (lastWrite_noted rfl).symm
            cases result <;> rfl
          · exact sound.aside (List.append_nil _).symm rfl foreign_nil sound.register
          · exact sound

end Sound

theorem World.Reach.sound {routerId : AccountId} {parseArgs : Bytes → Option RouteEchoArgs}
    {allowed : World → Op → Prop} {w : World} (reach : World.Reach routerId parseArgs allowed w) :
    Sound routerId w := by
  induction reach with
  | init => exact .init routerId
  | step op reach fits ih => exact ih.step op

end DemoAdapter

end SmartAccount
