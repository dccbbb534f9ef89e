import SmartAccount.Polling

/-!
# What the adapter's answer is worth

A journey that returns a number has read it from an echo that finished behind its own start
(`settled_is_witnessed`); where echoes echo and nobody else asks for the number, that echo is
its own (`settled_is_own_echo`).  It returns the number exactly if one of its first five reads
shows it (`settled_iff_shown`), and with what a step of the adapter policy attaches it is accepted
and gives up only behind five (`dispatched_gives_up`).
-/

namespace SmartAccount

open Foundation

namespace DemoAdapter

/-! ## Whose echo was seen -/

/-- Where every echo comes from, when echoes answer as the `echo` contract does. -/
structure Traced (w : World) : Prop where
  owned : ∀ id chain, w.chains.get id = some chain →
    ∃ journey, .started journey id chain.call.n ∈ w.log
  honest : ∀ id chain k, w.chains.get id = some chain → chain.answer = some (.ok k) →
    k = chain.call.n
  finished : ∀ id k, .finished id (.ok k) ∈ w.log → ∃ journey, .started journey id k ∈ w.log
  once : ∀ id chain n chain' n', .started (some id) chain n ∈ w.log →
    .started (some id) chain' n' ∈ w.log → chain = chain'

namespace Traced

variable {routerId : AccountId} {w w' : World}

theorem init : Traced World.init where
  owned _ _ stored := by cases stored
  honest _ _ _ stored := by cases stored
  finished _ _ inside := by cases inside
  once _ _ _ _ _ inside := by cases inside

/-- What starts and finishes no echo. -/
theorem of_log (traced : Traced w) {added : List Happening} (log : w'.log = w.log ++ added)
    (chains : w'.chains = w.chains)
    (polls : ∀ happening ∈ added, ∃ id result, happening = .polled id result) : Traced w' := by
  have old : ∀ journey chain n, .started journey chain n ∈ w'.log →
      .started journey chain n ∈ w.log := by
    intro journey chain n inside
    rw [log] at inside
    rcases List.mem_append.mp inside with early | late
    · exact early
    · obtain ⟨_, _, impossible⟩ := polls _ late
      cases impossible
  have kept : ∀ happening ∈ w.log, happening ∈ w'.log := fun happening inside =>
    log ▸ List.mem_append_left _ inside
  refine ⟨fun id chain stored => ?_, fun id chain k stored answer => ?_, fun id k inside => ?_,
    fun id chain n chain' n' first second => ?_⟩
  · obtain ⟨journey, inside⟩ := traced.owned id chain (chains ▸ stored)
    exact ⟨journey, kept _ inside⟩
  · exact traced.honest id chain k (chains ▸ stored) answer
  · rw [log] at inside
    rcases List.mem_append.mp inside with early | late
    · obtain ⟨journey, there⟩ := traced.finished id k early
      exact ⟨journey, kept _ there⟩
    · obtain ⟨_, _, impossible⟩ := polls _ late
      cases impossible
  · exact traced.once id chain n chain' n' (old _ _ _ first) (old _ _ _ second)

theorem route (traced : Traced w) {journey : Option Nat} (callee : AccountId) (n : Nat)
    (fresh : ∀ id, journey = some id → ∀ chain k, .started (some id) chain k ∉ w.log) :
    Traced (w.route journey callee n) := by
  have split : ∀ happening ∈ (w.route journey callee n).log,
      happening ∈ w.log ∨ happening = .started journey w.chains.next n := fun happening inside =>
    (List.mem_append.mp inside).imp_right List.mem_singleton.mp
  have kept : ∀ happening ∈ w.log, happening ∈ (w.route journey callee n).log :=
    fun happening inside => List.mem_append_left _ inside
  have stored : ∀ id chain, (w.route journey callee n).chains.get id = some chain →
      id = w.chains.next ∧ chain = ⟨⟨callee, n, WildRouter.gasEchoTgas,
        WildRouter.gasCallbackTgas⟩, none⟩ ∨ w.chains.get id = some chain := by
    intro id chain stored
    rw [show (w.route journey callee n).chains = w.chains.create _ from rfl,
      Pool.get_create] at stored
    split at stored
    · exact .inl ⟨‹_›, (Option.some.inj stored).symm⟩
    · exact .inr stored
  refine ⟨fun id chain here => ?_, fun id chain k here answer => ?_, fun id k inside => ?_,
    fun id chain m chain' m' first second => ?_⟩
  · rcases stored id chain here with ⟨rfl, rfl⟩ | old
    · exact ⟨journey, List.mem_append_right _ (List.mem_singleton_self _)⟩
    · obtain ⟨by_, inside⟩ := traced.owned id chain old
      exact ⟨by_, kept _ inside⟩
  · rcases stored id chain here with ⟨rfl, rfl⟩ | old
    · cases answer
    · exact traced.honest id chain k old answer
  · rcases split _ inside with old | new
    · obtain ⟨by_, there⟩ := traced.finished id k old
      exact ⟨by_, kept _ there⟩
    · cases new
  · rcases split _ first with old | new
    · rcases split _ second with old' | new'
      · exact traced.once id chain m chain' m' old old'
      · cases new'
        exact absurd old (fresh id rfl chain m)
    · cases new
      rcases split _ second with old' | new'
      · exact absurd old' (fresh id rfl chain' m')
      · cases new'
        rfl

theorem turn (traced : Traced w) {id : Nat} {chain : Chain} (flying : w.chains.get id = some chain)
    (turn : Turn) (fits : World.Echoing w (.turn id turn)) : Traced (w.turn id chain turn) := by
  unfold World.turn
  split
  · rename_i answer unanswered
    have stored : ∀ id' chain', (w.chains.update id { chain with answer := some answer }).get id' =
        some chain' → id' = id ∧ chain' = { chain with answer := some answer } ∨
          w.chains.get id' = some chain' := by
      intro id' chain' here
      rw [Pool.get_update] at here
      split at here
      · rw [flying, Option.map_some, Option.some.injEq] at here
        exact .inl ⟨‹_›, here.symm⟩
      · exact .inr here
    refine ⟨fun id' chain' here => ?_, fun id' chain' k here answered => ?_, traced.finished,
      traced.once⟩
    · rcases stored id' chain' here with ⟨rfl, rfl⟩ | old
      · exact traced.owned id' chain flying
      · exact traced.owned id' chain' old
    · rcases stored id' chain' here with ⟨rfl, rfl⟩ | old
      · obtain rfl : answer = .ok k := Option.some.inj answered
        exact fits chain flying
      · exact traced.honest id' chain' k old answered
  · rename_i result answered
    have old : ∀ id' chain', (w.chains.remove id).get id' = some chain' →
        w.chains.get id' = some chain' := by
      intro id' chain' here
      rw [Pool.get_remove] at here
      split at here
      · cases here
      · exact here
    have split : ∀ happening ∈ w.log ++ [.finished id result],
        happening ∈ w.log ∨ happening = .finished id result := fun happening inside =>
      (List.mem_append.mp inside).imp_right List.mem_singleton.mp
    refine ⟨fun id' chain' here => ?_, fun id' chain' k here answered => ?_, fun id' k inside => ?_,
      fun id' chain' m chain'' m' first second => ?_⟩
    · obtain ⟨journey, inside⟩ := traced.owned id' chain' (old id' chain' here)
      exact ⟨journey, List.mem_append_left _ inside⟩
    · exact traced.honest id' chain' k (old id' chain' here) answered
    · rcases split _ inside with early | new
      · obtain ⟨journey, there⟩ := traced.finished id' k early
        exact ⟨journey, List.mem_append_left _ there⟩
      · cases new
        obtain ⟨journey, there⟩ := traced.owned id chain flying
        rw [← traced.honest id chain k flying answered] at there
        exact ⟨journey, List.mem_append_left _ there⟩
    · rcases split _ first with early | new
      · rcases split _ second with early' | new'
        · exact traced.once id' chain' m chain'' m' early early'
        · cases new'
      · cases new
  · refine ⟨fun id' chain' here => ?_, fun id' chain' k here => ?_, traced.finished, traced.once⟩
    all_goals
      rw [Pool.get_remove] at here
      split at here
      · cases here
    · exact traced.owned id' chain' here
    · exact traced.honest id' chain' k here
  · exact traced

theorem move {id : Nat} {j : Journey} (traced : Traced w) (sound : Sound routerId w)
    (flying : w.journeys.get id = some j) (move : Move) : Traced (w.move routerId id j move) := by
  have staged : ∀ stage, Traced (w.setStage id j stage) := fun stage =>
    traced.of_log (List.append_nil _).symm rfl fun _ inside => by cases inside
  unfold World.move
  split
  · rename_i answer call callback starting
    have course := sound.journeys id j flying
    rw [starting] at course
    cases course with
    | starting target number unread unstarted =>
        unfold World.start
        split
        · exact staged _
        · split
          · split
            · have routed : Traced (w.route (some id) call.callee call.n) :=
                traced.route _ _ fun id' same => Option.some.inj same ▸ unstarted
              exact routed.of_log (List.append_nil _).symm rfl fun _ inside => by cases inside
            · exact staged _
          · exact staged _
  · exact traced.of_log rfl rfl fun happening inside => ⟨_, _, List.mem_singleton.mp inside⟩
  · exact staged _
  · exact staged _
  · exact staged _
  · exact staged _
  · exact traced

theorem step {parseArgs : Bytes → Option RouteEchoArgs} (traced : Traced w)
    (sound : Sound routerId w) (op : Op) (fits : World.Echoing w op) :
    Traced (w.step routerId parseArgs op) := by
  cases op with
  | call prepaidGasTgas input =>
      simp only [World.step]
      split
      · exact traced.of_log (List.append_nil _).symm rfl fun _ inside => by cases inside
      · exact traced
  | route callee n => exact traced.route callee n fun _ impossible => by cases impossible
  | move id move =>
      simp only [World.step]
      split
      · exact traced.move sound ‹_› move
      · exact traced
  | turn id turn =>
      simp only [World.step]
      split
      · exact traced.turn ‹_› turn fits
      · exact traced

end Traced

theorem World.Reach.traced {routerId : AccountId} {parseArgs : Bytes → Option RouteEchoArgs}
    {w : World} (reach : World.Reach routerId parseArgs World.Echoing w) : Traced w := by
  induction reach with
  | init => exact .init
  | step op reach fits ih => exact ih.step reach.sound op fits

/-- Calls of the adapter come from steps of the adapter policy. -/
def World.FromSteps (_ : World) : Op → Prop
  | .call prepaidGasTgas input => ∃ (authorizerId : Option AccountId) (ns adapterMethod : String)
      (adapterId : AccountId) (call : Step), call.policy = .adapter adapterId adapterMethod ∧
        input = call.adapterDispatchInput ∧
        prepaidGasTgas + (authorizerId.map fun _ => authorizerHopOverheadTgas).getD 0 =
          (dispatchPromiseForCall authorizerId ns call).call.gasTgas
  | _ => True

/-! ## A small world -/

def wildRouter : AccountId := ⟨"wild-router.near", by decide +kernel⟩

def demoAdapter : AccountId := ⟨"demo-adapter.near", by decide +kernel⟩

/-- Every call asks the router's own account to echo seven. -/
def seven : Bytes → Option RouteEchoArgs := fun _ => some ⟨wildRouter, 7⟩

/-- A step that starts an echo through the adapter. -/
def sevenStep : Step where
  stepId := "seven"
  targetId := wildRouter
  methodName := "route_echo_fire_and_forget"
  args := []
  attachedDepositYocto := 0
  gasTgas := 40
  policy := .adapter demoAdapter "adapt_fire_and_forget_route_echo"
  preGate := none
  saveResult := none
  argsTemplate := none

namespace World

def after (w : World) (op : Op) : World := w.step wildRouter seven op

/-- The step is dispatched, the router starts the echo, and the first poll is on its way. -/
def asked : World :=
  ((init.after (.call 360 sevenStep.adapterDispatchInput)).after (.move 0 (.start (.ok "")))).after
    (.move 0 .resume)

/-- The echo finishes behind the first poll, and the second one sees it. -/
def answered : World :=
  ((((((asked.after (.move 0 (.poll (.ok none)))).after (.turn 0 (.echo (.ok 7)))).after
    (.turn 0 .finish)).after (.move 0 .resume)).after (.move 0 (.poll (.ok none)))).after
      (.move 0 .resume))

/-- The echo never answers. -/
def unanswered : World :=
  (List.replicate 5 [Op.move 0 (.poll (.ok none)), .move 0 .resume]).flatten.foldl after asked

/-- Echoes echo, and calls come from steps. -/
def Ordinary (w : World) (op : Op) : Prop := Echoing w op ∧ FromSteps w op

theorem asked_reach : Reach wildRouter seven Ordinary asked :=
  ((Reach.init.step (.call 360 sevenStep.adapterDispatchInput)
    ⟨trivial, none, "", "adapt_fire_and_forget_route_echo", demoAdapter, sevenStep, rfl, rfl,
      rfl⟩).step (.move 0 (.start (.ok ""))) ⟨trivial, trivial⟩).step (.move 0 .resume)
        ⟨trivial, trivial⟩

theorem answered_reach : Reach wildRouter seven Ordinary answered := by
  refine (((((asked_reach.step (.move 0 (.poll (.ok none))) ⟨trivial, trivial⟩).step
    (.turn 0 (.echo (.ok 7))) ⟨fun chain stored => ?_, trivial⟩).step (.turn 0 .finish)
      ⟨trivial, trivial⟩).step (.move 0 .resume) ⟨trivial, trivial⟩).step
        (.move 0 (.poll (.ok none))) ⟨trivial, trivial⟩).step (.move 0 .resume)
          ⟨trivial, trivial⟩
  cases stored
  rfl

end World

/-! ## What the answer is worth -/

section Answers

variable {routerId : AccountId} {parseArgs : Bytes → Option RouteEchoArgs}
  {allowed : World → Op → Prop} {w : World} {id : Nat} {j : Journey} {n : Nat}

/-- A journey that returned a number has read it from an echo that finished behind its own
start. -/
theorem settled_is_witnessed (reach : World.Reach routerId parseArgs allowed w)
    (stored : w.journeys.get id = some j) (settled : j.stage = .settled (.ok n))
    (aimed : j.errand.targetId = routerId) : n = j.errand.expectedN ∧ Witnessed w.log id n := by
  have course := reach.sound.journeys id j stored
  rw [settled] at course
  cases course with
  | succeeded before results unseen left witnessed => exact ⟨rfl, witnessed aimed⟩

/-- The echo that the second poll sees. -/
theorem settled_is_witnessed_answered : Witnessed World.answered.log 0 7 :=
  (@settled_is_witnessed wildRouter seven World.Ordinary World.answered 0
    ⟨⟨wildRouter, 7, 290⟩, .settled (.ok 7)⟩ 7 World.answered_reach rfl rfl rfl).2

/-- Where echoes echo and nobody else asks for the number, it is the journey's own echo that
finished before it returned. -/
theorem settled_is_own_echo (reach : World.Reach routerId parseArgs World.Echoing w)
    (stored : w.journeys.get id = some j) (settled : j.stage = .settled (.ok n))
    (aimed : j.errand.targetId = routerId)
    (alone : ∀ journey chain, .started journey chain n ∈ w.log → journey = some id) :
    ∃ past chain between later, w.log = past ++ .started (some id) chain n ::
      (between ++ .finished chain (.ok n) :: later) := by
  have course := reach.sound.journeys id j stored
  rw [settled] at course
  cases course with
  | succeeded before results unseen left witnessed =>
      obtain ⟨past, chain, between, finisher, later, log⟩ := witnessed aimed
      have started : .started (some id) chain j.errand.expectedN ∈ w.log := by
        rw [log]
        exact List.mem_append_right _ List.mem_cons_self
      have finished : .finished finisher (.ok j.errand.expectedN) ∈ w.log := by
        rw [log]
        exact List.mem_append_right _ (List.mem_cons_of_mem _
          (List.mem_append_right _ List.mem_cons_self))
      obtain ⟨journey, started'⟩ := reach.traced.finished finisher _ finished
      obtain rfl := alone journey finisher started'
      obtain rfl := reach.traced.once id chain _ finisher _ started started'
      exact ⟨past, chain, between, later, log⟩

theorem settled_is_own_echo_answered :
    ∃ past chain between later, World.answered.log = past ++ .started (some 0) chain 7 ::
      (between ++ .finished chain (.ok 7) :: later) := by
  refine @settled_is_own_echo wildRouter seven World.answered 0
    ⟨⟨wildRouter, 7, 290⟩, .settled (.ok 7)⟩ 7
    (World.answered_reach.mono fun _ _ ordinary => ordinary.1) rfl rfl rfl ?_
  intro journey chain inside
  have log : World.answered.log = [.started (some 0) 0 7, .polled 0 (.ok none),
    .finished 0 (.ok 7), .polled 0 (.ok (some 7))] := rfl
  rw [log] at inside
  simp only [List.mem_cons, Happening.started.injEq, reduceCtorEq, List.not_mem_nil,
    or_false] at inside
  exact inside.1

/-- A journey polls at most five times.  Once settled, unless a callback failed, it returned its
number exactly if a poll showed it; and with a budget for all polls it gives up only behind
five. -/
theorem settled_iff_shown (reach : World.Reach routerId parseArgs allowed w)
    (stored : w.journeys.get id = some j) :
    (reads w.log id).length ≤ maxPollAttempts + 1 ∧
      ∀ outcome, j.stage = .settled outcome → outcome ≠ .error "Exceeded the prepaid gas." →
        (outcome = .ok j.errand.expectedN ↔ .ok (some j.errand.expectedN) ∈ reads w.log id) ∧
          (outcome.isOk = true → outcome = .ok j.errand.expectedN) ∧
          (pollingBudgetTgas ≤ j.errand.budgetTgas → outcome.isOk = false →
            reads w.log id ≠ [] → (reads w.log id).length = maxPollAttempts + 1) := by
  have course := reach.sound.journeys id j stored
  refine ⟨course.reads_length_le, fun outcome settled ran => ?_⟩
  rw [settled] at course
  cases course with
  | succeeded before results unseen left witnessed =>
      rw [results]
      exact ⟨⟨fun _ => List.mem_append_right _ (List.mem_singleton_self _), fun _ => rfl⟩,
        fun _ => rfl, fun _ failed => by cases failed⟩
  | failed failure =>
      have unshown : ∀ message : String,
          (Except.error message : Except String Nat) ≠ .ok j.errand.expectedN :=
        fun _ same => by cases same
      cases failure with
      | unstarted none =>
          rw [none]
          exact ⟨iff_of_false (unshown _) List.not_mem_nil, (by intro ok; cases ok),
            fun _ _ some => absurd rfl some⟩
      | unpaid unseen left short =>
          refine ⟨iff_of_false (unshown _) fun inside => unseen _ inside rfl,
            (by intro ok; cases ok), fun ample => absurd ?_ short⟩
          exact Errand.lasts_of_ample ample (Nat.succ_le_succ left)
      | unseen unseen all =>
          exact ⟨iff_of_false (unshown _) fun inside => unseen _ inside rfl,
            (by intro ok; cases ok), fun _ _ _ => all⟩
      | starved => exact absurd rfl ran

theorem settled_iff_shown_answered :
    (.ok (some 7) : Except PromiseError (Option Nat)) ∈ reads World.answered.log 0 ∧
      (reads World.answered.log 0).length ≤ maxPollAttempts + 1 := by
  obtain ⟨few, settled⟩ := @settled_iff_shown wildRouter seven World.Ordinary World.answered 0
    ⟨⟨wildRouter, 7, 290⟩, .settled (.ok 7)⟩ World.answered_reach rfl
  obtain ⟨shown, -⟩ := settled (.ok 7) rfl fun same => by cases same
  exact ⟨shown.mp rfl, few⟩

theorem World.move_errands {w : World} {id id' : Nat} {j j' : Journey}
    (flying : w.journeys.get id = some j) (move : Move)
    (stored : (w.move routerId id j move).journeys.get id' = some j') :
    ∃ j₀, w.journeys.get id' = some j₀ ∧ j'.errand = j₀.errand := by
  have staged : ∀ w' : World, w'.journeys = w.journeys → ∀ stage,
      (w'.setStage id j stage).journeys.get id' = some j' →
      ∃ j₀, w.journeys.get id' = some j₀ ∧ j'.errand = j₀.errand := by
    intro w' same stage stored
    rw [show (w'.setStage id j stage).journeys = w'.journeys.update id _ from rfl, same,
      Pool.get_update] at stored
    split at stored
    · rename_i here
      rw [flying, Option.map_some, Option.some.injEq] at stored
      exact ⟨j, here ▸ flying, stored ▸ rfl⟩
    · exact ⟨j', stored, rfl⟩
  unfold World.move at stored
  split at stored
  · unfold World.start at stored
    split at stored
    · exact staged w rfl _ stored
    · split at stored
      · split at stored
        · exact staged (w.route (some id) _ _) rfl _ stored
        · exact staged w rfl _ stored
      · exact staged w rfl _ stored
  · exact staged (w.note _) rfl _ stored
  · exact staged w rfl _ stored
  · exact staged w rfl _ stored
  · exact staged w rfl _ stored
  · exact staged w rfl _ stored
  · exact ⟨j', stored, rfl⟩

/-- What a step of the adapter policy attaches lasts for every poll. -/
theorem World.Reach.ample (reach : World.Reach routerId parseArgs World.FromSteps w)
    (stored : w.journeys.get id = some j) : pollingBudgetTgas ≤ j.errand.budgetTgas := by
  induction reach generalizing id j with
  | init => cases stored
  | @step w op reach fits ih =>
      cases op with
      | call prepaidGasTgas input =>
          obtain ⟨authorizerId, ns, adapterMethod, adapterId, call, adapted, rfl, prepaid⟩ := fits
          simp only [World.step] at stored
          split at stored
          · rename_i start callback accepted
            rw [show (w.depart start callback).journeys = w.journeys.create _ from rfl,
              Pool.get_create] at stored
            split at stored
            · cases stored
              exact adapt_of_dispatch adapted prepaid accepted
            · exact ih stored
          · exact ih stored
      | route callee n => exact ih stored
      | move id' move =>
          simp only [World.step] at stored
          split at stored
          · obtain ⟨j₀, before, same⟩ := World.move_errands ‹_› move stored
            exact same ▸ ih before
          · exact ih stored
      | turn id' turn =>
          simp only [World.step] at stored
          refine @ih id j ?_
          split at stored
          · unfold World.turn at stored
            split at stored <;> exact stored
          · exact stored

/-- Dispatched by a step, a call of the adapter is accepted if it names the route and its
arguments can be read, and sets out; and it gives up behind five polls, unless its start or a
callback failed. -/
theorem dispatched_gives_up (reach : World.Reach routerId parseArgs World.FromSteps w) :
    (∀ prepaidGasTgas input routeArgs, World.FromSteps w (.call prepaidGasTgas input) →
        prepaidGasTgas < 2 ^ 64 → input.methodName = "route_echo_fire_and_forget" →
        parseArgs input.args = some routeArgs →
        ∃ start callback,
          adaptFireAndForgetRouteEcho parseArgs prepaidGasTgas input = .ok (start, callback) ∧
          w.step routerId parseArgs (.call prepaidGasTgas input) = w.depart start callback) ∧
      ∀ id j message, w.journeys.get id = some j → j.stage = .settled (.error message) →
        message = "wild-router start receipt failed" ∧ reads w.log id = [] ∨
          message = "Exceeded the prepaid gas." ∨
          message = "wild-router never exposed the expected finished state" ∧
            (reads w.log id).length = maxPollAttempts + 1 ∧
            .ok (some j.errand.expectedN) ∉ reads w.log id := by
  constructor
  · intro prepaidGasTgas input routeArgs fromStep fits route parsed
    obtain ⟨authorizerId, ns, adapterMethod, adapterId, call, adapted, rfl, prepaid⟩ := fromStep
    obtain ⟨start, callback, accepted⟩ := accepted_of_dispatch adapted prepaid route parsed fits
    refine ⟨start, callback, accepted, ?_⟩
    simp only [World.step, accepted]
  · intro id j message stored settled
    have course := reach.sound.journeys id j stored
    rw [settled] at course
    cases course with
    | failed failure =>
        cases failure with
        | unstarted none => exact .inl ⟨rfl, none⟩
        | starved => exact .inr (.inl rfl)
        | unseen unseen all => exact .inr (.inr ⟨rfl, all, fun inside => unseen _ inside rfl⟩)
        | unpaid unseen left short =>
            exact absurd (Errand.lasts_of_ample (reach.ample stored) (Nat.succ_le_succ left)) short

/-- Nobody answers the echo, and the fifth poll is the last. -/
theorem dispatched_gives_up_unanswered :
    (adaptFireAndForgetRouteEcho seven 360 sevenStep.adapterDispatchInput).isOk = true ∧
      (reads World.unanswered.log 0).length = maxPollAttempts + 1 := by
  have reach : World.Reach wildRouter seven World.FromSteps World.unanswered := by
    refine (World.asked_reach.mono fun _ _ ordinary => ordinary.2).foldl _ fun _ op inside => ?_
    simp only [List.replicate, List.flatten_cons, List.flatten_nil, List.mem_append,
      List.mem_cons, List.not_mem_nil, or_false, List.append_nil] at inside
    rcases inside with (rfl | rfl) | (rfl | rfl) | (rfl | rfl) | (rfl | rfl) | rfl | rfl <;>
      trivial
  obtain ⟨accepts, gives⟩ := @dispatched_gives_up wildRouter seven World.unanswered reach
  obtain ⟨start, callback, accepted, -⟩ := accepts 360 sevenStep.adapterDispatchInput
    ⟨wildRouter, 7⟩ ⟨none, "", "adapt_fire_and_forget_route_echo", demoAdapter, sevenStep, rfl,
      rfl, rfl⟩ (by decide) rfl rfl
  refine ⟨by rw [accepted]; rfl, ?_⟩
  rcases gives 0 ⟨⟨wildRouter, 7, 290⟩, .settled (.error _)⟩ _ rfl rfl with
    ⟨same, -⟩ | same | ⟨-, all, -⟩
  · exact absurd same (by decide)
  · exact absurd same (by decide)
  · exact all

end Answers

end DemoAdapter

end SmartAccount
