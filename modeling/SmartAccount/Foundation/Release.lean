import Mathlib.Data.List.Basic
import Mathlib.Logic.Function.Basic

/-!
# Ordered release

A line holds steps that wait for their turn.  A release wakes the first step of an order and
queues the others; each later step is woken when the call of the step before it has been
answered and the answer is accepted, and anything else ends the release.  Whatever is registered,
expires or is dropped meanwhile, the calls that run from a release on are a prefix of its plan,
in order, and all but the last were accepted (`Moves.follows`).
-/

namespace Foundation.Release

open Function

/-- How far a step has come: its call, once made, runs and has then an answer. -/
inductive Stage (ρ : Type) where
  | waiting
  | expired
  | woken
  | called (answer : Option ρ)

/-- The steps with their calls, and the queue of a release. -/
structure Line (ι κ ρ : Type) where
  step : ι → Option (κ × Stage ρ)
  queue : List ι

inductive Label (ι κ ρ : Type) where
  | quiet
  | start (order : List ι)
  | ran (call : κ) (answer : ρ)

section Line

variable {ι κ ρ : Type}

/-- The step will not run unless it is woken. -/
def Stage.Dormant (stage : Stage ρ) : Prop := stage = .waiting ∨ stage = .expired

theorem Stage.not_dormant_woken : ¬ (woken : Stage ρ).Dormant := by rintro (eq | eq) <;> cases eq

theorem Stage.not_dormant_called (answer : Option ρ) : ¬ (called answer).Dormant := by
  rintro (eq | eq) <;> cases eq

namespace Line

/-- No step is on its way. -/
structure Idle (l : Line ι κ ρ) : Prop where
  drained : l.queue = []
  dormant : ∀ i call stage, l.step i = some (call, stage) → stage.Dormant

end Line

/-- The calls that ran, with their answers. -/
def runs (labels : List (Label ι κ ρ)) : List (κ × ρ) :=
  labels.filterMap fun
    | .ran call answer => some (call, answer)
    | _ => none

/-- No release is started. -/
def Unstarted (labels : List (Label ι κ ρ)) : Prop := ∀ order, .start order ∉ labels

/-- The calls of the first steps of the plan ran, and these answers were accepted. -/
structure Told (accepts : ρ → Prop) (plan : List (ι × κ)) (k : Nat) (ran : List (κ × ρ)) :
    Prop where
  calls : ran.map Prod.fst = (plan.take k).map Prod.snd
  accepted : ∀ entry ∈ ran, accepts entry.2

/-- The calls that ran are a prefix of the plan, and all answers but the last were accepted. -/
structure Follows (accepts : ρ → Prop) (plan : List (ι × κ)) (ran : List (κ × ρ)) : Prop where
  calls : ∃ k, ran.map Prod.fst = (plan.take k).map Prod.snd
  accepted : ∀ entry ∈ ran.dropLast, accepts entry.2

/-- The step that is on its way, and what has run. -/
inductive Abroad (accepts : ρ → Prop) (plan : List (ι × κ)) (k : Nat) (call : κ) :
    Stage ρ → List (κ × ρ) → Prop
  | woken {ran : List (κ × ρ)} (told : Told accepts plan k ran) :
      Abroad accepts plan k call .woken ran
  | called {ran : List (κ × ρ)} (told : Told accepts plan k ran) :
      Abroad accepts plan k call (.called none) ran
  | answered {ran : List (κ × ρ)} (told : Told accepts plan k ran) (answer : ρ) :
      Abroad accepts plan k call (.called (some answer)) (ran ++ [(call, answer)])

variable {accepts : ρ → Prop} {plan : List (ι × κ)} {k : Nat} {i : ι} {call : κ}
  {ran : List (κ × ρ)}

theorem Told.next (told : Told accepts plan k ran) (here : plan[k]? = some (i, call)) {answer : ρ}
    (accepted : accepts answer) : Told accepts plan (k + 1) (ran ++ [(call, answer)]) where
  calls := by
    rw [List.map_append, told.calls, List.take_add_one, here, List.map_append]
    rfl
  accepted := by
    intro entry inside
    rcases List.mem_append.mp inside with old | new
    · exact told.accepted entry old
    · rw [List.mem_singleton.mp new]
      exact accepted

theorem Abroad.follows {stage : Stage ρ} (abroad : Abroad accepts plan k call stage ran)
    (here : plan[k]? = some (i, call)) : Follows accepts plan ran := by
  have plain : ∀ {ran : List (κ × ρ)}, Told accepts plan k ran → Follows accepts plan ran :=
    fun told => ⟨⟨k, told.calls⟩, fun entry inside =>
      told.accepted entry (List.dropLast_subset _ inside)⟩
  cases abroad with
  | woken told => exact plain told
  | called told => exact plain told
  | answered told answer =>
      refine ⟨⟨k + 1, ?_⟩, fun entry inside => ?_⟩
      · rw [List.map_append, told.calls, List.take_add_one, here, List.map_append]
        rfl
      · rw [List.dropLast_concat] at inside
        exact told.accepted entry inside

theorem Abroad.not_dormant {stage : Stage ρ} (abroad : Abroad accepts plan k call stage ran) :
    ¬ stage.Dormant := by
  rintro (rfl | rfl) <;> cases abroad

/-- A line after a release with this plan was started on it: the step `i` is on its way, the
steps behind it are queued with the calls of the plan or forgotten, and nothing else moves. -/
structure Underway (accepts : ρ → Prop) (plan : List (ι × κ)) (k : Nat) (i : ι) (call : κ)
    (ran : List (κ × ρ)) (l : Line ι κ ρ) : Prop where
  here : plan[k]? = some (i, call)
  stored : ∃ stage, l.step i = some (call, stage) ∧ Abroad accepts plan k call stage ran
  others : ∀ j call' stage, j ≠ i → l.step j = some (call', stage) → stage.Dormant
  queue : l.queue = [] ∨ l.queue = (plan.drop (k + 1)).map Prod.fst ∧
    ∀ entry ∈ plan.drop (k + 1), ∃ stage, l.step entry.1 = some (entry.2, stage)

/-- The release is under way or over. -/
inductive Course (accepts : ρ → Prop) (plan : List (ι × κ)) (ran : List (κ × ρ))
    (l : Line ι κ ρ) : Prop
  | underway (k : Nat) (i : ι) (call : κ) (underway : Underway accepts plan k i call ran l)
  | ended (idle : l.Idle) (follows : Follows accepts plan ran)

theorem Course.follows {l : Line ι κ ρ} (course : Course accepts plan ran l) :
    Follows accepts plan ran := by
  cases course with
  | underway k i call underway =>
      obtain ⟨stage, -, abroad⟩ := underway.stored
      exact abroad.follows underway.here
  | ended idle follows => exact follows

/-- What is asleep is another step. -/
theorem Underway.asleep {l : Line ι κ ρ} (underway : Underway accepts plan k i call ran l) {j : ι}
    {call' : κ} {stage : Stage ρ} (stored : l.step j = some (call', stage))
    (dormant : stage.Dormant) : j ≠ i := by
  rintro rfl
  obtain ⟨stage', own, abroad⟩ := underway.stored
  rw [own, Option.some.injEq, Prod.mk.injEq] at stored
  exact abroad.not_dormant (stored.2 ▸ dormant)

end Line

section Moves

variable {ι κ ρ : Type} [DecidableEq ι]

def Line.set (l : Line ι κ ρ) (i : ι) (entry : Option (κ × Stage ρ)) : Line ι κ ρ :=
  { l with step := update l.step i entry }

def Line.setQueue (l : Line ι κ ρ) (queue : List ι) : Line ι κ ρ := { l with queue := queue }

/-- One move of a line. -/
inductive Move (accepts : ρ → Prop) (l : Line ι κ ρ) : Label ι κ ρ → Line ι κ ρ → Prop
  | register {i : ι} (call : κ) (absent : l.step i = none) :
      Move accepts l .quiet (l.set i (some (call, .waiting)))
  | expire {i : ι} {call : κ} (stored : l.step i = some (call, .waiting)) :
      Move accepts l .quiet (l.set i (some (call, .expired)))
  /-- An expired step is gone, and takes the queue with it. -/
  | drop {i : ι} {call : κ} (stored : l.step i = some (call, .expired)) :
      Move accepts l .quiet ((l.set i none).setQueue [])
  | start {i : ι} {rest : List ι} {call : κ} (drained : l.queue = [])
      (known : ∀ j ∈ rest, (l.step j).isSome) (stored : l.step i = some (call, .waiting)) :
      Move accepts l (.start (i :: rest)) ((l.set i (some (call, .woken))).setQueue rest)
  | call {i : ι} {call : κ} (stored : l.step i = some (call, .woken)) :
      Move accepts l .quiet (l.set i (some (call, .called none)))
  | run {i : ι} {call : κ} (stored : l.step i = some (call, .called none)) (answer : ρ) :
      Move accepts l (.ran call answer) (l.set i (some (call, .called (some answer))))
  /-- The next step of the queue is woken. -/
  | next {i j : ι} {rest : List ι} {call call' : κ} {answer : ρ}
      (stored : l.step i = some (call, .called (some answer))) (accepted : accepts answer)
      (queued : l.queue = j :: rest) (other : j ≠ i) (waits : l.step j = some (call', .waiting)) :
      Move accepts l .quiet
        (((l.set i none).set j (some (call', .woken))).setQueue rest)
  /-- The release is over: drained, stuck or failed. -/
  | finish {i : ι} {call : κ} {answer : ρ}
      (stored : l.step i = some (call, .called (some answer))) :
      Move accepts l .quiet ((l.set i none).setQueue [])

/-- Any number of moves, with their labels. -/
inductive Moves (accepts : ρ → Prop) : Line ι κ ρ → List (Label ι κ ρ) → Line ι κ ρ → Prop
  | nil (l : Line ι κ ρ) : Moves accepts l [] l
  | cons {l l' l'' : Line ι κ ρ} {label : Label ι κ ρ} {labels : List (Label ι κ ρ)}
      (first : Move accepts l label l') (rest : Moves accepts l' labels l'') :
      Moves accepts l (label :: labels) l''

namespace Moves

variable {accepts : ρ → Prop} {l l' l'' : Line ι κ ρ} {labels labels' : List (Label ι κ ρ)}

theorem append (first : Moves accepts l labels l') (second : Moves accepts l' labels' l'') :
    Moves accepts l (labels ++ labels') l'' := by
  induction first with
  | nil => exact second
  | cons move _ ih => exact .cons move (ih second)

theorem single {label : Label ι κ ρ} (move : Move accepts l label l') :
    Moves accepts l [label] l' := .cons move (.nil _)

end Moves

variable {accepts : ρ → Prop} {plan : List (ι × κ)} {k : Nat} {i : ι} {call : κ}
  {ran : List (κ × ρ)} {l l' : Line ι κ ρ}

/-! ## The course of a release -/

@[simp] theorem Line.set_self (l : Line ι κ ρ) (i : ι) (entry : Option (κ × Stage ρ)) :
    (l.set i entry).step i = entry := update_self ..

theorem Line.set_of_ne (l : Line ι κ ρ) {i j : ι} (other : j ≠ i)
    (entry : Option (κ × Stage ρ)) : (l.set i entry).step j = l.step j := update_of_ne other ..

/-- An idle line stays idle until a release is started. -/
theorem Line.Idle.move (idle : l.Idle) {label : Label ι κ ρ} (move : Move accepts l label l')
    (unstarted : ∀ order, label ≠ .start order) : l'.Idle ∧ runs [label] = [] := by
  have still : ∀ {j : ι} {call : κ} {stage : Stage ρ}, l.step j = some (call, stage) →
      ¬ stage.Dormant → False := fun stored moving => moving (idle.dormant _ _ _ stored)
  have kept : ∀ (j : ι) (entry : Option (κ × Stage ρ)) (queue : List ι), queue = [] →
      (∀ call stage, entry = some (call, stage) → stage.Dormant) →
      ((l.set j entry).setQueue queue).Idle := by
    intro j entry queue drained dormant
    refine ⟨drained, fun j' call' stage stored => ?_⟩
    by_cases same : j' = j
    · subst same
      exact dormant call' stage ((l.set_self j' entry).symm.trans stored)
    · exact idle.dormant j' call' stage ((l.set_of_ne same entry).symm.trans stored)
  cases move with
  | register call absent =>
      refine ⟨kept _ _ l.queue idle.drained fun call' stage eq => ?_, rfl⟩
      cases eq
      exact .inl rfl
  | expire stored =>
      refine ⟨kept _ _ l.queue idle.drained fun call' stage eq => ?_, rfl⟩
      cases eq
      exact .inr rfl
  | drop stored =>
      refine ⟨kept _ _ [] rfl fun call' stage eq => ?_, rfl⟩
      cases eq
  | start => exact absurd rfl (unstarted _)
  | call stored => exact (still stored Stage.not_dormant_woken).elim
  | run stored => exact (still stored (Stage.not_dormant_called _)).elim
  | next stored => exact (still stored (Stage.not_dormant_called _)).elim
  | finish stored => exact (still stored (Stage.not_dormant_called _)).elim

theorem Line.Idle.moves (idle : l.Idle) {labels : List (Label ι κ ρ)}
    (moves : Moves accepts l labels l') (unstarted : Unstarted labels) :
    l'.Idle ∧ runs labels = [] := by
  induction moves with
  | nil => exact ⟨idle, rfl⟩
  | @cons l₁ l₂ l₃ label labels first _ ih =>
      obtain ⟨idle', silent⟩ := idle.move first fun order same =>
        unstarted order (same ▸ List.mem_cons_self)
      obtain ⟨rest, later⟩ := ih idle' fun order inside =>
        unstarted order (List.mem_cons_of_mem _ inside)
      exact ⟨rest, (List.filterMap_append (l := [label])).trans (by
        rw [← runs, ← runs, silent, later, List.append_nil])⟩

namespace Underway

/-- A dormant step that is not on its way moves in its sleep. -/
theorem aside (underway : Underway accepts plan k i call ran l) {j : ι}
    {entry : Option (κ × Stage ρ)} (queue : List ι) (other : j ≠ i)
    (dormant : ∀ call' stage, entry = some (call', stage) → stage.Dormant)
    (kept : queue = [] ∨ queue = l.queue ∧
      ∀ call' stage, l.step j = some (call', stage) → ∃ stage', entry = some (call', stage')) :
    Underway accepts plan k i call ran ((l.set j entry).setQueue queue) where
  here := underway.here
  stored := by
    obtain ⟨stage, stored, abroad⟩ := underway.stored
    exact ⟨stage, (l.set_of_ne other.symm entry).trans stored, abroad⟩
  others j' call' stage apart stored := by
    by_cases same : j' = j
    · subst same
      exact dormant call' stage ((l.set_self j' entry).symm.trans stored)
    · exact underway.others j' call' stage apart ((l.set_of_ne same entry).symm.trans stored)
  queue := by
    rcases kept with empty | ⟨same, calls⟩
    · exact .inl empty
    · rcases underway.queue with empty | ⟨queued, waiting⟩
      · exact .inl (same.trans empty)
      · refine .inr ⟨same.trans queued, fun entry' inside => ?_⟩
        obtain ⟨stage, stored⟩ := waiting entry' inside
        by_cases here : entry'.1 = j
        · rw [here] at stored ⊢
          obtain ⟨stage', eq⟩ := calls _ _ stored
          exact ⟨stage', (l.set_self j entry).trans eq⟩
        · exact ⟨stage, (l.set_of_ne here entry).trans stored⟩

/-- The step on its way goes on. -/
theorem forth (underway : Underway accepts plan k i call ran l) {stage : Stage ρ}
    {ran' : List (κ × ρ)} (abroad : Abroad accepts plan k call stage ran') :
    Underway accepts plan k i call ran' (l.set i (some (call, stage))) where
  here := underway.here
  stored := ⟨stage, l.set_self i _, abroad⟩
  others j call' stage' apart stored :=
    underway.others j call' stage' apart ((l.set_of_ne apart _).symm.trans stored)
  queue := by
    rcases underway.queue with empty | ⟨queued, waiting⟩
    · exact .inl empty
    · refine .inr ⟨queued, fun entry inside => ?_⟩
      obtain ⟨stage', stored⟩ := waiting entry inside
      by_cases here : entry.1 = i
      · obtain ⟨stage'', own, -⟩ := underway.stored
        rw [here, own, Option.some.injEq, Prod.mk.injEq] at stored
        exact ⟨stage, by rw [here, l.set_self, ← stored.1]⟩
      · exact ⟨stage', (l.set_of_ne here _).trans stored⟩

/-- What is awake is the step on its way. -/
theorem awake (underway : Underway accepts plan k i call ran l) {j : ι} {call' : κ}
    {stage : Stage ρ} (stored : l.step j = some (call', stage)) (moving : ¬ stage.Dormant) :
    j = i ∧ call' = call ∧ Abroad accepts plan k call stage ran := by
  by_cases same : j = i
  · subst same
    obtain ⟨stage', own, abroad⟩ := underway.stored
    rw [own, Option.some.injEq, Prod.mk.injEq] at stored
    obtain ⟨rfl, rfl⟩ := stored
    exact ⟨rfl, rfl, abroad⟩
  · exact absurd (underway.others j call' stage same stored) moving

/-- The next step of the plan sets out. -/
theorem onward {answer : ρ}
    (underway : Underway accepts plan k i call (ran ++ [(call, answer)]) l)
    (told : Told accepts plan (k + 1) (ran ++ [(call, answer)]))
    (distinct : (plan.map Prod.fst).Nodup) {j : ι} {rest : List ι} {call' : κ}
    (queued : l.queue = j :: rest)
    (waits : l.step j = some (call', .waiting)) :
    Underway accepts plan (k + 1) j call' (ran ++ [(call, answer)])
      (((l.set i none).set j (some (call', .woken))).setQueue rest) := by
  rcases underway.queue with empty | ⟨shape, waiting⟩
  · rw [empty] at queued
    cases queued
  · -- the head of the queue is the next entry of the plan
    rw [queued] at shape
    cases split : plan.drop (k + 1) with
    | nil =>
        rw [split] at shape
        cases shape
    | cons entry behind =>
        rw [split, List.map_cons, List.cons.injEq] at shape
        obtain ⟨rfl, rfl⟩ := shape
        obtain ⟨stage, stored⟩ := waiting entry (split ▸ List.mem_cons_self)
        rw [waits, Option.some.injEq, Prod.mk.injEq] at stored
        obtain ⟨rfl, -⟩ := stored
        have later : plan.drop (k + 2) = behind := by
          have tail := congrArg (List.drop 1) split
          rwa [List.drop_drop] at tail
        have apart : ∀ entry' ∈ behind, entry'.1 ≠ i ∧ entry'.1 ≠ entry.1 := by
          have shape : plan = plan.take k ++ (i, call) :: entry :: behind := by
            rw [← split, ← List.getElem?_eq_some_iff.mp underway.here |>.2,
              ← List.drop_eq_getElem_cons, List.take_append_drop]
          rw [shape] at distinct
          simp only [List.map_append, List.map_cons, List.nodup_append, List.nodup_cons,
            List.mem_cons, not_or] at distinct
          obtain ⟨-, ⟨⟨-, first⟩, second, -⟩, -⟩ := distinct
          intro entry' inside
          exact ⟨fun same => first (same ▸ List.mem_map_of_mem inside),
            fun same => second (same ▸ List.mem_map_of_mem inside)⟩
        refine ⟨?_, ⟨.woken, Line.set_self .., .woken told⟩,
          fun j' call'' stage' other stored => ?_,
          .inr ⟨by rw [later]; rfl, fun entry' inside => ?_⟩⟩
        · rw [← Nat.add_zero (k + 1), ← List.getElem?_drop, split]
          rfl
        · have here : (l.set i none).step j' = some (call'', stage') :=
            (Line.set_of_ne _ other _).symm.trans stored
          by_cases same : j' = i
          · subst same
            rw [l.set_self] at here
            cases here
          · exact underway.others j' call'' stage' same ((l.set_of_ne same _).symm.trans here)
        · rw [later] at inside
          obtain ⟨other, other'⟩ := apart entry' inside
          obtain ⟨stage', stored⟩ := waiting entry' (split ▸ List.mem_cons_of_mem _ inside)
          exact ⟨stage', (Line.set_of_ne _ other' _).trans ((l.set_of_ne other _).trans stored)⟩

end Underway

/-- A move that starts no release keeps the course. -/
theorem Course.move (course : Course accepts plan ran l) (distinct : (plan.map Prod.fst).Nodup)
    {label : Label ι κ ρ} (move : Move accepts l label l')
    (unstarted : ∀ order, label ≠ .start order) : Course accepts plan (ran ++ runs [label]) l' := by
  cases course with
  | ended idle follows =>
      obtain ⟨idle', silent⟩ := idle.move move unstarted
      rw [silent, List.append_nil]
      exact .ended idle' follows
  | underway k i call underway =>
      have quiet : ran ++ runs [(.quiet : Label ι κ ρ)] = ran := List.append_nil _
      cases move with
      | register call' absent =>
          rename_i j
          have other : j ≠ i := by
            rintro rfl
            obtain ⟨stage, stored, -⟩ := underway.stored
            rw [absent] at stored
            cases stored
          rw [quiet]
          refine .underway k i call (underway.aside l.queue other
            (fun call'' stage eq => ?_) (.inr ⟨rfl, fun call'' stage stored => ?_⟩))
          · cases eq
            exact .inl rfl
          · rw [absent] at stored
            cases stored
      | expire stored =>
          have other := underway.asleep stored (.inl rfl)
          rw [quiet]
          refine .underway k i call (underway.aside l.queue other
            (fun call'' stage eq => ?_) (.inr ⟨rfl, fun call'' stage stored' => ?_⟩))
          · cases eq
            exact .inr rfl
          · rw [stored, Option.some.injEq, Prod.mk.injEq] at stored'
            exact ⟨.expired, by rw [stored'.1]⟩
      | drop stored =>
          have other := underway.asleep stored (.inr rfl)
          rw [quiet]
          refine .underway k i call (underway.aside [] other (fun call'' stage eq => ?_) (.inl rfl))
          cases eq
      | start => exact absurd rfl (unstarted _)
      | call stored =>
          obtain ⟨rfl, rfl, abroad⟩ := underway.awake stored Stage.not_dormant_woken
          rw [quiet]
          cases abroad with
          | woken told => exact .underway k _ _ (underway.forth (.called told))
      | run stored answer =>
          obtain ⟨rfl, rfl, abroad⟩ := underway.awake stored (Stage.not_dormant_called _)
          cases abroad with
          | called told => exact .underway k _ _ (underway.forth (.answered told answer))
      | next stored accepted queued other waits =>
          obtain ⟨rfl, rfl, abroad⟩ := underway.awake stored (Stage.not_dormant_called _)
          rw [quiet]
          cases abroad with
          | answered told answer =>
              exact .underway (k + 1) _ _ (underway.onward (told.next underway.here accepted)
                distinct queued waits)
      | @finish i' call' answer stored =>
          obtain ⟨rfl, rfl, abroad⟩ := underway.awake stored (Stage.not_dormant_called _)
          rw [quiet]
          refine .ended ⟨rfl, fun j call'' stage stored' => ?_⟩ (abroad.follows underway.here)
          by_cases same : j = i'
          · rw [same] at stored'
            exact absurd ((l.set_self _ _).symm.trans stored') nofun
          · exact underway.others j call'' stage same ((l.set_of_ne same _).symm.trans stored')

theorem Course.moves (course : Course accepts plan ran l) (distinct : (plan.map Prod.fst).Nodup)
    {labels : List (Label ι κ ρ)} (moves : Moves accepts l labels l')
    (unstarted : Unstarted labels) : Course accepts plan (ran ++ runs labels) l' := by
  induction moves generalizing ran with
  | nil => rwa [runs, List.filterMap_nil, List.append_nil]
  | @cons l₁ l₂ l₃ label labels first _ ih =>
      have begun := course.move distinct first fun order same =>
        unstarted order (same ▸ List.mem_cons_self)
      have rest := ih begun fun order inside => unstarted order (List.mem_cons_of_mem _ inside)
      have split : runs (label :: labels) = runs [label] ++ runs labels :=
        List.filterMap_append (l := [label])
      rwa [split, ← List.append_assoc]

/-- A release of an idle line sets out on its plan. -/
theorem Line.Idle.start (idle : l.Idle) {order : List ι} (move : Move accepts l (.start order) l')
    (named : plan.map Prod.fst = order)
    (known : ∀ entry ∈ plan, ∃ stage, l.step entry.1 = some (entry.2, stage))
    (distinct : order.Nodup) : Course accepts plan [] l' := by
  cases move with
  | start drained present stored =>
      rename_i i rest call
      cases plan with
      | nil => cases named
      | cons entry behind =>
          obtain ⟨rfl, rfl⟩ := List.cons.inj named
          obtain ⟨stage, own⟩ := known entry List.mem_cons_self
          rw [stored, Option.some.injEq, Prod.mk.injEq] at own
          obtain ⟨rfl, -⟩ := own
          refine .underway 0 entry.1 entry.2 ⟨rfl, ⟨.woken, l.set_self _ _, .woken ⟨rfl, nofun⟩⟩,
            fun j call' stage' other there => ?_, .inr ⟨rfl, fun entry' inside => ?_⟩⟩
          · exact idle.dormant j call' stage' ((l.set_of_ne other _).symm.trans there)
          · obtain ⟨stage', there⟩ := known entry' (List.mem_cons_of_mem _ inside)
            have other : entry'.1 ≠ entry.1 := fun same =>
              (List.nodup_cons.mp distinct).1 (same ▸ List.mem_map_of_mem inside)
            exact ⟨stage', (l.set_of_ne other _).trans there⟩

/-- After a release of an idle line, and as long as no other is started, the calls that run are a
prefix of the plan in its order, and all but the last of them were accepted. -/
theorem Moves.follows {order : List ι} {labels : List (Label ι κ ρ)} {l'' : Line ι κ ρ}
    (idle : l.Idle) (start : Move accepts l (.start order) l') (named : plan.map Prod.fst = order)
    (known : ∀ entry ∈ plan, ∃ stage, l.step entry.1 = some (entry.2, stage))
    (distinct : order.Nodup) (moves : Moves accepts l' labels l'') (unstarted : Unstarted labels) :
    Follows accepts plan (runs labels) :=
  ((idle.start start named known distinct).moves (named ▸ distinct) moves unstarted).follows

end Moves

end Foundation.Release
