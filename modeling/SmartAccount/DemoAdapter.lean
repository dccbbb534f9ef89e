import SmartAccount.Sequencer

/-!
# The demo adapter

The `demo-adapter` contract makes one honest call out of the wild router's fire-and-forget: it
starts the route, then polls `get_last_finished` until the router shows the number it asked
for, at most five times.  It keeps no state; what it knows of a call travels in the arguments
of its callbacks (`PollArgs`).

Each promise it makes fits in the gas that the function making it was given
(`adapt_affordable`, `scheduleFinishedPoll_affordable`).  With what a step of the adapter policy
attaches the call is accepted (`accepted_of_dispatch`) and there is gas for every poll
(`adapt_of_dispatch`).
-/

namespace SmartAccount

open Foundation

namespace DemoAdapter

/-! ## The contract -/

def minCallbackBudgetTgas : Nat := 40
def adapterStartOverheadTgas : Nat := 30
def pollGasTgas : Nat := 10
def pollStepOverheadTgas : Nat := 25
def maxPollAttempts : Nat := 4

/-- `FireAndForgetRouteEchoArgs`. -/
structure RouteEchoArgs where
  callee : AccountId
  n : Nat
deriving DecidableEq

/-- `ext_wild_router::route_echo_fire_and_forget`, on `targetId`. -/
structure RouteEcho where
  targetId : AccountId
  callee : AccountId
  n : Nat
  attachedDepositYocto : Nat
  gasTgas : Nat
deriving DecidableEq

/-- `ext_wild_router::get_last_finished`, on `targetId`. -/
structure GetLastFinished where
  targetId : AccountId
  gasTgas : Nat
deriving DecidableEq

/-- The arguments of `on_route_echo_started` and `on_last_finished_polled`, and the static gas
of the callback. -/
structure PollArgs where
  targetId : AccountId
  expectedN : Nat
  remainingBudgetTgas : Nat
  attemptsLeft : Nat
  gasTgas : Nat
deriving DecidableEq

/-- `adapt_fire_and_forget_route_echo`, given how serde_json reads its arguments.  Sums of gas
are checked `u64` additions. -/
def adaptFireAndForgetRouteEcho (parseArgs : Bytes → Option RouteEchoArgs) (prepaidGasTgas : Nat)
    (call : AdapterDispatchInput) : Except String (RouteEcho × PollArgs) := do
  require (call.methodName = "route_echo_fire_and_forget")
    "adapt_fire_and_forget_route_echo only supports route_echo_fire_and_forget"
  let routeArgs ← expect (parseArgs call.args) "invalid route_echo_fire_and_forget args"
  require (call.gasTgas + adapterStartOverheadTgas < 2 ^ 64) "attempt to add with overflow"
  let callbackBudgetTgas := prepaidGasTgas - (call.gasTgas + adapterStartOverheadTgas)
  require (minCallbackBudgetTgas ≤ callbackBudgetTgas) "adapter callback budget is too small"
  .ok (⟨call.targetId, routeArgs.callee, routeArgs.n, call.attachedDepositYocto, call.gasTgas⟩,
    ⟨call.targetId, routeArgs.n, callbackBudgetTgas, maxPollAttempts, callbackBudgetTgas⟩)

/-- `schedule_finished_poll`. -/
def scheduleFinishedPoll (targetId : AccountId) (expectedN remainingBudgetTgas attemptsLeft : Nat) :
    Except String (GetLastFinished × PollArgs) := do
  let nextCallbackBudgetTgas := remainingBudgetTgas - pollStepOverheadTgas
  require (minCallbackBudgetTgas ≤ nextCallbackBudgetTgas)
    "adapter callback budget is too small to keep polling"
  .ok (⟨targetId, pollGasTgas⟩,
    ⟨targetId, expectedN, nextCallbackBudgetTgas, attemptsLeft, nextCallbackBudgetTgas⟩)

/-- What a callback hands on. -/
inductive Answer where
  | value (n : Nat)
  | poll (call : GetLastFinished) (callback : PollArgs)
deriving DecidableEq

def onRouteEchoStarted (args : PollArgs) (result : Except PromiseError String) :
    Except String Answer :=
  match result with
  | .ok _ => do
      let (call, callback) ← scheduleFinishedPoll args.targetId args.expectedN
        args.remainingBudgetTgas args.attemptsLeft
      .ok (.poll call callback)
  | .error _ => .error "wild-router start receipt failed"

def onLastFinishedPolled (args : PollArgs) (result : Except PromiseError (Option Nat)) :
    Except String Answer :=
  if result = .ok (some args.expectedN) then .ok (.value args.expectedN)
  else if args.attemptsLeft = 0 then
    .error "wild-router never exposed the expected finished state"
  else do
    let (call, callback) ← scheduleFinishedPoll args.targetId args.expectedN
      args.remainingBudgetTgas (args.attemptsLeft - 1)
    .ok (.poll call callback)

/-! ## Inversions -/

theorem adaptFireAndForgetRouteEcho_ok {parseArgs : Bytes → Option RouteEchoArgs}
    {prepaidGasTgas : Nat} {call : AdapterDispatchInput} {start : RouteEcho} {callback : PollArgs}
    (accepted : adaptFireAndForgetRouteEcho parseArgs prepaidGasTgas call =
      .ok (start, callback)) :
    ∃ routeArgs, parseArgs call.args = some routeArgs ∧
      call.gasTgas + adapterStartOverheadTgas + minCallbackBudgetTgas ≤ prepaidGasTgas ∧
      start = ⟨call.targetId, routeArgs.callee, routeArgs.n, call.attachedDepositYocto,
        call.gasTgas⟩ ∧
      callback = ⟨call.targetId, routeArgs.n,
        prepaidGasTgas - (call.gasTgas + adapterStartOverheadTgas), maxPollAttempts,
        prepaidGasTgas - (call.gasTgas + adapterStartOverheadTgas)⟩ := by
  simp only [adaptFireAndForgetRouteEcho, bind_eq_ok, require_eq_ok, expect_eq_ok,
    decide_eq_true_eq, Except.ok.injEq, Prod.mk.injEq] at accepted
  obtain ⟨-, -, routeArgs, parsed, -, -, -, budget, rfl, rfl⟩ := accepted
  refine ⟨routeArgs, parsed, ?_, rfl, rfl⟩
  simp only [minCallbackBudgetTgas, adapterStartOverheadTgas] at budget ⊢
  omega

theorem scheduleFinishedPoll_ok {targetId : AccountId}
    {expectedN remainingBudgetTgas attemptsLeft : Nat} {call : GetLastFinished}
    {callback : PollArgs}
    (scheduled : scheduleFinishedPoll targetId expectedN remainingBudgetTgas attemptsLeft =
      .ok (call, callback)) :
    pollStepOverheadTgas + minCallbackBudgetTgas ≤ remainingBudgetTgas ∧
      call = ⟨targetId, pollGasTgas⟩ ∧
      callback = ⟨targetId, expectedN, remainingBudgetTgas - pollStepOverheadTgas, attemptsLeft,
        remainingBudgetTgas - pollStepOverheadTgas⟩ := by
  simp only [scheduleFinishedPoll, bind_eq_ok, require_eq_ok, decide_eq_true_eq,
    Except.ok.injEq, Prod.mk.injEq] at scheduled
  obtain ⟨-, budget, rfl, rfl⟩ := scheduled
  refine ⟨?_, rfl, rfl⟩
  simp only [minCallbackBudgetTgas, pollStepOverheadTgas] at budget ⊢
  omega

theorem scheduleFinishedPoll_error {targetId : AccountId}
    {expectedN remainingBudgetTgas attemptsLeft : Nat} {message : String}
    (refused : scheduleFinishedPoll targetId expectedN remainingBudgetTgas attemptsLeft =
      .error message) :
    message = "adapter callback budget is too small to keep polling" ∧
      remainingBudgetTgas < pollStepOverheadTgas + minCallbackBudgetTgas := by
  unfold scheduleFinishedPoll at refused
  rcases bind_eq_error.mp refused with short | ⟨_, _, impossible⟩
  · unfold require at short
    split at short
    · cases short
    · rename_i little
      cases short
      have little := of_decide_eq_false (eq_false_of_ne_true little)
      simp only [minCallbackBudgetTgas, pollStepOverheadTgas] at little ⊢
      exact ⟨trivial, by omega⟩
  · cases impossible

/-! ## Gas -/

/-- The start of a route and the callback behind it fit in what the adapter was given. -/
theorem adapt_affordable {parseArgs : Bytes → Option RouteEchoArgs} {prepaidGasTgas : Nat}
    {call : AdapterDispatchInput} {start : RouteEcho} {callback : PollArgs}
    (accepted : adaptFireAndForgetRouteEcho parseArgs prepaidGasTgas call =
      .ok (start, callback)) :
    start.gasTgas + callback.gasTgas + adapterStartOverheadTgas = prepaidGasTgas ∧
      callback.gasTgas = callback.remainingBudgetTgas := by
  obtain ⟨routeArgs, -, budget, rfl, rfl⟩ := adaptFireAndForgetRouteEcho_ok accepted
  refine ⟨?_, rfl⟩
  show call.gasTgas + (prepaidGasTgas - (call.gasTgas + adapterStartOverheadTgas)) + _ = _
  omega

/-- A poll and the callback behind it fit in what the callback before it was given. -/
theorem scheduleFinishedPoll_affordable {targetId : AccountId}
    {expectedN remainingBudgetTgas attemptsLeft : Nat} {call : GetLastFinished}
    {callback : PollArgs}
    (scheduled : scheduleFinishedPoll targetId expectedN remainingBudgetTgas attemptsLeft =
      .ok (call, callback)) :
    call.gasTgas + callback.gasTgas < remainingBudgetTgas ∧
      callback.gasTgas = callback.remainingBudgetTgas := by
  obtain ⟨budget, rfl, rfl⟩ := scheduleFinishedPoll_ok scheduled
  refine ⟨?_, rfl⟩
  simp only [pollStepOverheadTgas, minCallbackBudgetTgas, pollGasTgas] at budget ⊢
  omega

/-- The callback budget that lasts for every poll. -/
def pollingBudgetTgas : Nat := pollStepOverheadTgas * (maxPollAttempts + 1) + minCallbackBudgetTgas

/-- The adapter accepts a route whose arguments it can read if its gas covers the start and the
least callback budget. -/
theorem adaptFireAndForgetRouteEcho_of_budget {parseArgs : Bytes → Option RouteEchoArgs}
    {prepaidGasTgas : Nat} {call : AdapterDispatchInput} {routeArgs : RouteEchoArgs}
    (route : call.methodName = "route_echo_fire_and_forget")
    (parsed : parseArgs call.args = some routeArgs) (fits : prepaidGasTgas < 2 ^ 64)
    (budget : call.gasTgas + adapterStartOverheadTgas + minCallbackBudgetTgas ≤ prepaidGasTgas) :
    ∃ start callback, adaptFireAndForgetRouteEcho parseArgs prepaidGasTgas call =
      .ok (start, callback) := by
  have summed : call.gasTgas + adapterStartOverheadTgas < 2 ^ 64 := by omega
  have left : minCallbackBudgetTgas ≤
      prepaidGasTgas - (call.gasTgas + adapterStartOverheadTgas) := by omega
  unfold adaptFireAndForgetRouteEcho
  simp only [require_of (decide_eq_true route), require_of (decide_eq_true summed), parsed, expect]
  simp only [bind, Except.bind]
  rw [require_of (decide_eq_true left)]
  exact ⟨_, _, rfl⟩

/-- What a step of the adapter policy leaves to the adapter, with or without the hop. -/
theorem prepaid_of_dispatch {authorizerId : Option AccountId} {ns adapterMethod : String}
    {adapterId : AccountId} {call : Step} (adapted : call.policy = .adapter adapterId adapterMethod)
    {prepaidGasTgas : Nat}
    (prepaid : prepaidGasTgas + (authorizerId.map fun _ => authorizerHopOverheadTgas).getD 0 =
      (dispatchPromiseForCall authorizerId ns call).call.gasTgas) :
    prepaidGasTgas = call.gasTgas + adapterSequenceOverheadTgas := by
  unfold dispatchPromiseForCall at prepaid
  rw [adapted] at prepaid
  cases authorizerId with
  | none => exact prepaid
  | some auth =>
      simp only [buildCallPromise, Option.map_some, Option.getD_some] at prepaid
      exact Nat.add_right_cancel prepaid

/-- With what a step of the adapter policy attaches, the adapter accepts a route whose arguments
it can read. -/
theorem accepted_of_dispatch {authorizerId : Option AccountId} {ns adapterMethod : String}
    {adapterId : AccountId} {call : Step} (adapted : call.policy = .adapter adapterId adapterMethod)
    {parseArgs : Bytes → Option RouteEchoArgs} {routeArgs : RouteEchoArgs} {prepaidGasTgas : Nat}
    (prepaid : prepaidGasTgas + (authorizerId.map fun _ => authorizerHopOverheadTgas).getD 0 =
      (dispatchPromiseForCall authorizerId ns call).call.gasTgas)
    (route : call.methodName = "route_echo_fire_and_forget")
    (parsed : parseArgs call.args = some routeArgs) (fits : prepaidGasTgas < 2 ^ 64) :
    ∃ start callback, adaptFireAndForgetRouteEcho parseArgs prepaidGasTgas
      call.adapterDispatchInput = .ok (start, callback) := by
  refine adaptFireAndForgetRouteEcho_of_budget route parsed fits ?_
  rw [prepaid_of_dispatch adapted prepaid]
  show call.gasTgas + adapterStartOverheadTgas + minCallbackBudgetTgas ≤ _
  simp only [adapterStartOverheadTgas, minCallbackBudgetTgas, adapterSequenceOverheadTgas]
  omega

/-- A step of the adapter policy attaches enough gas for every poll. -/
theorem adapt_of_dispatch {authorizerId : Option AccountId} {ns adapterMethod : String}
    {adapterId : AccountId} {call : Step} (adapted : call.policy = .adapter adapterId adapterMethod)
    {parseArgs : Bytes → Option RouteEchoArgs} {start : RouteEcho} {callback : PollArgs}
    {prepaidGasTgas : Nat}
    (prepaid : prepaidGasTgas + (authorizerId.map fun _ => authorizerHopOverheadTgas).getD 0 =
      (dispatchPromiseForCall authorizerId ns call).call.gasTgas)
    (accepted : adaptFireAndForgetRouteEcho parseArgs prepaidGasTgas call.adapterDispatchInput =
      .ok (start, callback)) : pollingBudgetTgas ≤ callback.remainingBudgetTgas := by
  obtain ⟨routeArgs, -, -, -, rfl⟩ := adaptFireAndForgetRouteEcho_ok accepted
  rw [prepaid_of_dispatch adapted prepaid]
  show pollingBudgetTgas ≤ call.gasTgas + adapterSequenceOverheadTgas -
    (call.gasTgas + adapterStartOverheadTgas)
  simp only [pollingBudgetTgas, pollStepOverheadTgas, maxPollAttempts, minCallbackBudgetTgas,
    adapterSequenceOverheadTgas, adapterStartOverheadTgas]
  omega

end DemoAdapter

end SmartAccount
