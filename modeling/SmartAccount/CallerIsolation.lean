import SmartAccount.CallerMirrors

/-!
# Callers of the simple sequencer do not interfere

All callers share the balance of the contract's account.  As long as it covers the same of their
callbacks, deleting every operation and every callback of some callers from a run leaves the
other callers with the steps, the queue and the dispatched calls that they had
(`callers_do_not_interfere`); where the deleted callers drain it, it does not
(`deposits_interfere`).  An operation of a deleted caller is not seen by the others
(`Tracks.step_gone`), and one of a kept caller does in the shorter run what it does in the whole
(`Tracks.step_kept`).
-/

namespace SmartAccount.SimpleSequencer

open Foundation Relation

/-! ## Runs without some callers -/

namespace Account

/-- The caller an operation runs for. -/
def Op.owner (all : List AccountId) : Op → Option AccountId
  | .transact env _ => some env.predecessor
  | .timeout id => all[id]?
  | .deliver id _ => all[id]?
  | .abort id _ => all[id]?
  | .credit flight _ => flight.bind (all[·]?)
  | .debit flight _ => flight.bind (all[·]?)

/-- The operation, on flights that have new numbers. -/
def Op.rename (f : Nat → Nat) : Op → Op
  | .transact env method => .transact env method
  | .timeout id => .timeout (f id)
  | .deliver id answer => .deliver (f id) answer
  | .abort id answer => .abort (f id) answer
  | .credit flight amount => .credit (flight.map f) amount
  | .debit flight amount => .debit (flight.map f) amount

/-- The callers of the flights that an operation creates. -/
def created (a : Account) : Op → List AccountId
  | .transact env method => List.replicate
      ((a.sequencer.transact env method).pool.next - a.sequencer.pool.next) env.predecessor
  | .timeout _ | .deliver _ _ | .abort _ _ | .credit _ _ | .debit _ _ => []

/-- The callers of the flights that a run creates, in the order of their creation. -/
def owners (a : Account) : List Op → List AccountId
  | [] => []
  | op :: ops => a.created op ++ (a.step op).owners ops

/-- For each operation of a run that does not run for a deleted caller, whether the balance
covers what it attaches. -/
def covered (keep : AccountId → Bool) (all : List AccountId) (a : Account) : List Op → List Bool
  | [] => []
  | op :: ops =>
      (if (op.owner all).all keep then [a.covers op] else []) ++ (a.step op).covered keep all ops

end Account

/-- The operations that do not run for a deleted caller, on the renumbered flights. -/
def without (keep : AccountId → Bool) (all : List AccountId) (ops : List Account.Op) :
    List Account.Op :=
  (ops.filter fun op => (op.owner all).all keep).map (.rename (rank keep all))

section Runs

variable (balance : Nat)

/-- The run with all operations and callbacks of one caller deleted. -/
def deleting (b : AccountId) (ops : List Account.Op) : List Account.Op :=
  without (fun c => c ≠ b) ((Account.deployed balance).owners ops) ops

/-- What the balance covers in a run, but for the operations and callbacks of one caller. -/
def coveredBut (b : AccountId) (ops : List Account.Op) : List Bool :=
  (Account.deployed balance).covered (fun c => c ≠ b) ((Account.deployed balance).owners ops) ops

/-- The contract after a run from its deployment. -/
def after (ops : List Account.Op) : Sequencer := ((Account.deployed balance).run ops).sequencer

/-- The calls made by a caller's flights. -/
def callsFor (all : List AccountId) (caller : AccountId) (trace : List TraceEvent) :
    List FunctionCall :=
  trace.filterMap fun
    | .called flight fc => if all[flight]? = some caller then some fc else none
    | .resumed _ => none

/-- The calls that a run from the start dispatches for a caller, in their order. -/
def dispatchedFor (caller : AccountId) (ops : List Account.Op) : List FunctionCall :=
  callsFor ((Account.deployed balance).owners ops) caller (after balance ops).trace

/-- Two runs from the start that end the same for a caller: the step registered under each id,
the list of the steps, the queue, and the calls. -/
structure SameFor (caller : AccountId) (ops ops' : List Account.Op) : Prop where
  steps : ∀ stepId, ((after balance ops).getStep caller stepId).map registeredStepView =
    ((after balance ops').getStep caller stepId).map registeredStepView
  listed : (after balance ops).registeredStepsFor caller =
    (after balance ops').registeredStepsFor caller
  queue : (after balance ops).contract.sequenceQueue.get (sequenceQueueKey caller) =
    (after balance ops').contract.sequenceQueue.get (sequenceQueueKey caller)
  calls : dispatchedFor balance caller ops = dispatchedFor balance caller ops'

end Runs

variable {keep : AccountId → Bool} {all : List AccountId} {c : AccountId} {s s' t t' : Sequencer}

/-! ## The two runs -/

theorem without_of_kept {op : Account.Op} (kept : (op.owner all).all keep = true) :
    without keep all [op] = [op.rename (rank keep all)] := by
  simp [without, kept]

theorem without_of_gone {op : Account.Op} (gone : (op.owner all).all keep = false) :
    without keep all [op] = [] := by
  simp [without, gone]

theorem without_cons (keep : AccountId → Bool) (all : List AccountId) (op : Account.Op)
    (ops : List Account.Op) :
    without keep all (op :: ops) = without keep all [op] ++ without keep all ops := by
  rw [without, without, without, ← List.map_append, ← List.filter_append, List.singleton_append]

namespace Account

theorem run_append (a : Account) (ops ops' : List Op) :
    a.run (ops ++ ops') = (a.run ops).run ops' := List.foldl_append

theorem owners_append (a : Account) (ops ops' : List Op) :
    a.owners (ops ++ ops') = a.owners ops ++ (a.run ops).owners ops' := by
  induction ops generalizing a with
  | nil => rfl
  | cons op ops ih => rw [List.cons_append, owners, owners, ih, List.append_assoc]; rfl

theorem covered_append (keep : AccountId → Bool) (all : List AccountId) (a : Account)
    (ops ops' : List Op) :
    a.covered keep all (ops ++ ops') =
      a.covered keep all ops ++ (a.run ops).covered keep all ops' := by
  induction ops generalizing a with
  | nil => rfl
  | cons op ops ih => rw [List.cons_append, covered, covered, ih, List.append_assoc]; rfl

/-- Where all flights are those of kept callers, what is kept of an operation stays kept. -/
theorem Op.owner_rename {op : Op} (kept : (op.owner all).all keep = true)
    {all' : List AccountId} (clean : ∀ c ∈ all', keep c = true) (f : Nat → Nat) :
    ((op.rename f).owner all').all keep = true := by
  have flight : ∀ id : Nat, (all'[id]?).all keep = true := by
    intro id
    cases owner : all'[id]? with
    | none => rfl
    | some c => exact clean c (List.mem_of_getElem? owner)
  have cause : ∀ id : Option Nat, ((id.map f).bind (all'[·]?)).all keep = true := by
    intro id
    cases id with
    | none => rfl
    | some id => exact flight (f id)
  cases op with
  | transact env method => exact kept
  | timeout id => exact flight (f id)
  | deliver id answer => exact flight (f id)
  | abort id answer => exact flight (f id)
  | credit id amount => exact cause id
  | debit id amount => exact cause id

/-- An operation that creates no flight creates none in the short run. -/
theorem owners_of_quiet {op : Op}
    (quiet : ∀ (a : Account) (f : Nat → Nat), a.created (op.rename f) = []) (a : Account) :
    a.owners (without keep all [op]) = [] := by
  cases kept : (op.owner all).all keep with
  | true =>
      rw [without_of_kept kept]
      exact (List.append_nil _).trans (quiet a _)
  | false =>
      rw [without_of_gone kept]
      rfl

/-- The flights of the short run are those of kept callers. -/
theorem kept_of_mem_owners {ops : List Op} {a : Account}
    (member : c ∈ a.owners (without keep all ops)) : keep c = true := by
  induction ops generalizing a with
  | nil => cases member
  | cons op ops ih =>
      rw [without_cons, owners_append] at member
      rcases List.mem_append.mp member with first | later
      · cases op with
        | transact env method =>
            cases kept : keep env.predecessor with
            | true =>
                rw [@without_of_kept _ _ (.transact env method) kept] at first
                change c ∈ List.replicate _ env.predecessor ++ [] at first
                rw [List.append_nil] at first
                rw [(List.mem_replicate.mp first).2]
                exact kept
            | false =>
                rw [@without_of_gone _ _ (.transact env method) kept] at first
                cases first
        | _ =>
            rw [owners_of_quiet fun _ _ => rfl] at first
            cases first
      · exact ih later

end Account

namespace Sequencer

theorem timeout_idle {s : Sequencer} {id : Nat} (gone : s.pool.get id = none) :
    s.timeout id = s := by
  rw [timeout, gone]

theorem deliver_idle {s : Sequencer} {id : Nat} (balance : Nat) (answer : PromiseResult)
    (gone : s.pool.get id = none) : s.deliver balance id answer = s := by
  rw [deliver, gone]

theorem abort_idle {s : Sequencer} {id : Nat} (answer : PromiseResult)
    (gone : s.pool.get id = none) : s.abort id answer = s := by
  rw [abort, gone]

end Sequencer

/-! ### Runs and their callers -/

/-- The run so far created the flights of `past`, and each stays its caller's whatever flights the
rest of the run creates. -/
structure Attributed (past : List AccountId) (s : Sequencer) : Prop where
  created : past.length = s.pool.next
  owned : ∀ rest, Owned (past ++ rest) s

namespace Attributed

variable {past : List AccountId} {a : Account}

theorem new : Attributed [] Sequencer.new := ⟨rfl, fun rest => .new rest⟩

/-- The flights created next are those of their creator. -/
theorem owner_of_new (past rest : List AccountId) {n id : Nat} (low : past.length ≤ id)
    (high : id < past.length + n) : (past ++ List.replicate n c ++ rest)[id]? = some c := by
  rw [List.append_assoc, List.getElem?_append_right low,
    List.getElem?_append_left (by rw [List.length_replicate]; omega),
    List.getElem?_replicate_of_lt (by omega)]

/-- A transaction creates its registrations, if it is accepted. -/
theorem created_of_ok {env : Env} {method : Sequencer.Method}
    (accepted : a.sequencer.call env method = .ok s') :
    a.sequencer.transact env method = s' ∧ a.created (.transact env method) =
      List.replicate method.registrations env.predecessor := by
  have ran : a.sequencer.transact env method = s' := by
    rw [Sequencer.transact, accepted]
  refine ⟨ran, ?_⟩
  rw [Account.created, ran, Sequencer.call_next accepted, Nat.add_sub_cancel_left]

theorem created_of_error {env : Env} {method : Sequencer.Method} {message : String}
    (refused : a.sequencer.call env method = .error message) :
    a.sequencer.transact env method = a.sequencer ∧ a.created (.transact env method) = [] := by
  have ran : a.sequencer.transact env method = a.sequencer := by
    rw [Sequencer.transact, refused]
  refine ⟨ran, ?_⟩
  rw [Account.created, ran, Nat.sub_self, List.replicate_zero]

theorem length_transact (attributed : Attributed past a.sequencer) (env : Env)
    (method : Sequencer.Method) : (past ++ a.created (.transact env method)).length =
      (a.sequencer.transact env method).pool.next := by
  cases accepted : a.sequencer.call env method with
  | error message =>
      rw [(created_of_error accepted).1, (created_of_error accepted).2, List.append_nil]
      exact attributed.created
  | ok s' =>
      rw [(created_of_ok accepted).1, (created_of_ok accepted).2, List.length_append,
        List.length_replicate, attributed.created, Sequencer.call_next accepted]

/-- What happens to a flight is written by its caller; without a flight, nothing happens. -/
theorem onFlight (attributed : Attributed past s) {s' : Sequencer} {id : Nat}
    (idle : s.pool.get id = none → s' = s) (writes : ∀ {all : List AccountId} {c : AccountId},
      Owned all s → all[id]? = some c → Writes all c s s') :
    (∃ c, ∀ rest, (past ++ rest)[id]? = some c ∧ Writes (past ++ rest) c s s') ∨ s' = s := by
  by_cases known : id < past.length
  · refine .inl ⟨past[id], fun rest => ?_⟩
    have own : (past ++ rest)[id]? = some past[id] := by
      rw [List.getElem?_append_left known, List.getElem?_eq_getElem known]
    exact ⟨own, writes (attributed.owned rest) own⟩
  · exact .inr (idle (Pool.get_of_next_le (attributed.created ▸ Nat.not_lt.mp known)))

/-- An operation writes for the caller it runs for, or not at all. -/
theorem step_writes (attributed : Attributed past a.sequencer) (op : Account.Op) :
    (∃ c, ∀ rest, op.owner (past ++ a.created op ++ rest) = some c ∧
      Writes (past ++ a.created op ++ rest) c a.sequencer (a.step op).sequencer) ∨
      (a.step op).sequencer = a.sequencer := by
  cases op with
  | transact env method =>
      refine .inl ⟨env.predecessor, fun rest => ⟨rfl, ?_⟩⟩
      have owned := attributed.owned (a.created (.transact env method) ++ rest)
      rw [← List.append_assoc] at owned
      refine owned.transact_writes method fun id low high => ?_
      have length := attributed.length_transact env method
      rw [List.length_append, Account.created, List.length_replicate] at length
      rw [← attributed.created] at low
      exact owner_of_new past rest low (by omega)
  | timeout id =>
      rw [Account.created, List.append_nil]
      exact attributed.onFlight (fun gone => Sequencer.timeout_idle gone)
        fun owned own => owned.timeout_writes own
  | deliver id answer =>
      rw [Account.created, List.append_nil]
      exact attributed.onFlight (fun gone => Sequencer.deliver_idle _ answer gone)
        fun owned own => owned.deliver_writes _ answer own
  | abort id answer =>
      rw [Account.created, List.append_nil]
      exact attributed.onFlight (fun gone => Sequencer.abort_idle answer gone)
        fun owned own => owned.abort_writes answer own
  | credit flight amount => exact .inr rfl
  | debit flight amount => exact .inr rfl

theorem step (attributed : Attributed past a.sequencer) (op : Account.Op) :
    Attributed (past ++ a.created op) (a.step op).sequencer := by
  have quiet : a.created op = [] →
      (past ++ a.created op).length = (a.step op).sequencer.pool.next := by
    intro none
    rcases attributed.step_writes op with ⟨c, writes⟩ | same
    · have written := (writes []).2
      rw [none, List.append_nil, List.append_nil] at written
      rw [none, List.append_nil, written.next_eq attributed.created]
      exact attributed.created
    · rw [none, List.append_nil, same]
      exact attributed.created
  refine ⟨?_, fun rest => ?_⟩
  · cases op with
    | transact env method => exact attributed.length_transact env method
    | _ => exact quiet rfl
  · have owned := attributed.owned (a.created op ++ rest)
    rw [← List.append_assoc] at owned
    rcases attributed.step_writes op with ⟨c, writes⟩ | same
    · exact owned.writes (writes rest).2
    · rw [same]
      exact owned

/-- In every run each flight and each step is its caller's. -/
theorem run (attributed : Attributed past a.sequencer) (ops : List Account.Op) :
    Attributed (past ++ a.owners ops) (a.run ops).sequencer := by
  induction ops generalizing past a with
  | nil =>
      rw [Account.owners, List.append_nil]
      exact attributed
  | cons op ops ih =>
      have later := ih (attributed.step op)
      rw [List.append_assoc] at later
      exact later

end Attributed

/-! ### The runs beside each other -/

/-- The run so far created the flights of `past`, and `t` mirrors `s` whatever flights the rest
of the run creates. -/
structure Tracks (keep : AccountId → Bool) (past : List AccountId) (s t : Sequencer) : Prop where
  created : past.length = s.pool.next
  mirrors : ∀ rest, Mirrors keep (past ++ rest) s t

namespace Tracks

variable {past : List AccountId}

theorem new (keep : AccountId → Bool) : Tracks keep [] Sequencer.new Sequencer.new :=
  ⟨rfl, fun rest => .new keep rest⟩

theorem attributed (tracks : Tracks keep past s t) : Attributed past s :=
  ⟨tracks.created, fun rest => (tracks.mirrors rest).owned⟩

variable {a a' : Account}

/-- A transaction of a kept caller creates the same flights on both sides. -/
theorem transact (tracks : Tracks keep past a.sequencer a'.sequencer) {env : Env}
    (kept : keep env.predecessor = true) (method : Sequencer.Method) :
    Tracks keep (past ++ a.created (.transact env method)) (a.sequencer.transact env method)
        (a'.sequencer.transact env method) ∧
      a'.created (.transact env method) = a.created (.transact env method) := by
  have agree : ∀ rest, Agree
      (Mirrors keep (past ++ List.replicate method.registrations env.predecessor ++ rest))
      (a.sequencer.call env method) (a'.sequencer.call env method) := by
    intro rest
    have mirrors := tracks.mirrors (List.replicate method.registrations env.predecessor ++ rest)
    rw [← List.append_assoc] at mirrors
    refine mirrors.call kept method fun id low high => ?_
    rw [← tracks.created] at low high
    exact Attributed.owner_of_new past rest low high
  cases accepted : a.sequencer.call env method with
  | error message =>
      cases accepted' : a'.sequencer.call env method with
      | ok t' =>
          have both := agree []
          rw [accepted, accepted'] at both
          cases both
      | error message' =>
          obtain ⟨same, none⟩ := Attributed.created_of_error accepted
          obtain ⟨same', none'⟩ := Attributed.created_of_error accepted'
          rw [same, none, same', none', List.append_nil]
          exact ⟨tracks, rfl⟩
  | ok s' =>
      cases accepted' : a'.sequencer.call env method with
      | error message' =>
          have both := agree []
          rw [accepted, accepted'] at both
          cases both
      | ok t' =>
          obtain ⟨same, some_⟩ := Attributed.created_of_ok accepted
          obtain ⟨same', some'⟩ := Attributed.created_of_ok accepted'
          rw [same, some_, same', some']
          refine ⟨⟨?_, fun rest => ?_⟩, rfl⟩
          · rw [List.length_append, List.length_replicate, tracks.created,
              Sequencer.call_next accepted]
          · have both := agree rest
            rw [accepted, accepted'] at both
            cases both with
            | ok related => exact related

/-- An operation of a deleted caller is not seen by the others. -/
theorem step_gone (tracks : Tracks keep past a.sequencer t) (op : Account.Op)
    (rest : List AccountId) (gone : (op.owner (past ++ a.created op ++ rest)).all keep = false) :
    Tracks keep (past ++ a.created op) (a.step op).sequencer t := by
  refine ⟨(tracks.attributed.step op).created, fun later => ?_⟩
  have mirrors := tracks.mirrors (a.created op ++ later)
  rw [← List.append_assoc] at mirrors
  rcases tracks.attributed.step_writes op with ⟨c, writes⟩ | same
  · rw [(writes rest).1, Option.all_some] at gone
    exact mirrors.frame gone (writes later).2
  · rw [same]
    exact mirrors

/-- What happens to the flight of a kept caller happens on both sides; where there is no flight,
nothing does. -/
theorem onFlight (tracks : Tracks keep past s t) {s' t' : Sequencer} {id : Nat}
    {rest : List AccountId} (kept : ((past ++ rest)[id]?).all keep = true)
    (created : past.length = s'.pool.next) (idle : s.pool.get id = none → s' = s)
    (idle' : t.pool.get (rank keep (past ++ rest) id) = none → t' = t)
    (mirrors : ∀ {all : List AccountId} {c : AccountId}, Mirrors keep all s t → keep c = true →
      all[id]? = some c → rank keep (past ++ rest) id = rank keep all id →
        Mirrors keep all s' t') : Tracks keep past s' t' := by
  refine ⟨created, fun later => ?_⟩
  by_cases known : id < past.length
  · have own : ∀ rest : List AccountId, (past ++ rest)[id]? = some past[id] := by
      intro rest
      rw [List.getElem?_append_left known, List.getElem?_eq_getElem known]
    have same : ∀ rest : List AccountId, rank keep (past ++ rest) id = rank keep past id :=
      fun rest => rank_append rest (Nat.le_of_lt known)
    rw [own rest, Option.all_some] at kept
    exact mirrors (tracks.mirrors later) kept (own later) ((same rest).trans (same later).symm)
  · have late : s.pool.next ≤ id := tracks.created ▸ Nat.not_lt.mp known
    have late' : t.pool.next ≤ rank keep (past ++ rest) id := by
      rw [(tracks.mirrors rest).next]
      exact rank_mono late
    rw [idle (Pool.get_of_next_le late), idle' (Pool.get_of_next_le late')]
    exact tracks.mirrors later

/-- An operation of a kept caller does on both sides the same, if the balances cover the same of
what it attaches. -/
theorem step_kept (tracks : Tracks keep past a.sequencer a'.sequencer) (op : Account.Op)
    (rest : List AccountId) (kept : (op.owner (past ++ a.created op ++ rest)).all keep = true)
    (covers : a.covers op = a'.covers (op.rename (rank keep (past ++ a.created op ++ rest)))) :
    Tracks keep (past ++ a.created op) (a.step op).sequencer
      (a'.step (op.rename (rank keep (past ++ a.created op ++ rest)))).sequencer := by
  have created := (tracks.attributed.step op).created
  cases op with
  | transact env method => exact (tracks.transact kept method).1
  | timeout id =>
      rw [Account.created, List.append_nil] at kept created ⊢
      refine tracks.onFlight kept created (fun gone => Sequencer.timeout_idle gone)
        (fun gone => Sequencer.timeout_idle gone) fun mirrors kept own same => ?_
      rw [Account.Op.rename, same]
      exact mirrors.timeout kept own
  | deliver id answer =>
      rw [Account.created, List.append_nil] at kept created covers ⊢
      refine tracks.onFlight kept created (fun gone => Sequencer.deliver_idle _ answer gone)
        (fun gone => Sequencer.deliver_idle _ answer gone) fun mirrors kept own same => ?_
      rw [Account.Op.rename, same] at covers ⊢
      exact mirrors.deliver kept own answer (decide_eq_decide.mp covers)
  | abort id answer =>
      rw [Account.created, List.append_nil] at kept created ⊢
      refine tracks.onFlight kept created (fun gone => Sequencer.abort_idle answer gone)
        (fun gone => Sequencer.abort_idle answer gone) fun mirrors kept own same => ?_
      rw [Account.Op.rename, same]
      exact mirrors.abort kept own answer
  | credit flight amount =>
      rw [Account.created, List.append_nil]
      exact tracks
  | debit flight amount =>
      rw [Account.created, List.append_nil]
      exact tracks

/-- The short run creates the flights of the kept callers. -/
theorem owners_step (tracks : Tracks keep past a.sequencer a'.sequencer) (op : Account.Op)
    (rest : List AccountId) :
    a'.owners (without keep (past ++ a.created op ++ rest) [op]) =
      (a.created op).filter keep := by
  cases op with
  | transact env method =>
      have owner : ∀ all, Option.all keep ((Account.Op.transact env method).owner all) =
          keep env.predecessor := fun _ => rfl
      cases kept : keep env.predecessor with
      | true =>
          rw [without_of_kept ((owner _).trans kept)]
          refine (List.append_nil _).trans ((tracks.transact kept method).2.trans ?_)
          rw [Account.created, List.filter_replicate_of_pos kept]
      | false =>
          have dropped : ¬keep env.predecessor = true := by
            rw [kept]
            exact Bool.false_ne_true
          rw [without_of_gone ((owner _).trans kept), Account.created,
            List.filter_replicate_of_neg dropped]
          rfl
  | _ => exact Account.owners_of_quiet (fun _ _ => rfl) a'

/-- Where the balances cover the same of what is kept, the short run goes on mirroring the long
run, and creates the flights of the kept callers. -/
theorem run (tracks : Tracks keep past a.sequencer a'.sequencer) (ops : List Account.Op)
    (split : all = past ++ a.owners ops) {all' : List AccountId}
    (clean : ∀ c ∈ all', keep c = true)
    (covered : a.covered keep all ops = a'.covered keep all' (without keep all ops)) :
    Tracks keep all (a.run ops).sequencer (a'.run (without keep all ops)).sequencer ∧
      a'.owners (without keep all ops) = (a.owners ops).filter keep := by
  induction ops generalizing past a a' with
  | nil =>
      rw [Account.owners, List.append_nil] at split
      exact ⟨split ▸ tracks, rfl⟩
  | cons op ops ih =>
      rw [Account.owners, ← List.append_assoc] at split
      have created := tracks.owners_step op ((a.step op).owners ops)
      rw [without_cons, Account.covered_append, Account.covered] at covered
      rw [← split] at created
      rw [without_cons, Account.owners_append, Account.run_append, created, Account.owners,
        List.filter_append]
      cases kept : (op.owner all).all keep with
      | true =>
          rw [without_of_kept kept, kept, if_pos rfl, Account.covered, Account.covered,
            if_pos (Account.Op.owner_rename kept clean _), List.append_nil,
            List.singleton_append, List.singleton_append] at covered
          rw [without_of_kept kept]
          obtain ⟨first, later⟩ := List.cons.inj covered
          have stepped := tracks.step_kept op ((a.step op).owners ops)
          rw [← split] at stepped
          obtain ⟨after, owners⟩ := ih (stepped kept first) split later
          exact ⟨after, congrArg _ owners⟩
      | false =>
          rw [without_of_gone kept, kept, if_neg Bool.false_ne_true, Account.covered,
            List.nil_append, List.nil_append] at covered
          rw [without_of_gone kept]
          have stepped := tracks.step_gone op ((a.step op).owners ops)
          rw [← split] at stepped
          obtain ⟨after, owners⟩ := ih (stepped kept) split covered
          exact ⟨after, congrArg _ owners⟩

end Tracks

/-! ## What a kept caller has -/

/-- The calls of a kept caller in the short run are those of the long run. -/
theorem callsFor_kept (kept : keep c = true) (trace : List TraceEvent) :
    callsFor (all.filter keep) c (trace.filterMap (TraceEvent.kept keep all)) =
      callsFor all c trace := by
  rw [callsFor, callsFor, List.filterMap_filterMap]
  refine congrArg (List.filterMap · trace) (funext fun event => ?_)
  cases owner : all[event.flight]? with
  | none =>
      rw [TraceEvent.kept, owner]
      cases event with
      | called flight fc =>
          change all[flight]? = none at owner
          dsimp only
          rw [owner]
          rfl
      | resumed yieldId => rfl
  | some b =>
      rw [TraceEvent.kept_of_owner owner]
      cases event with
      | resumed yieldId => cases keep b <;> rfl
      | called flight fc =>
          change all[flight]? = some b at owner
          dsimp only
          rw [owner]
          cases kept' : keep b with
          | true =>
              show (if (all.filter keep)[rank keep all flight]? = some c then some fc else none) = _
              rw [getElem?_filter_rank owner kept']
          | false =>
              have other : some b ≠ some c := by
                rintro ⟨⟩
                rw [kept] at kept'
                cases kept'
              exact (if_neg other).symm

/-- In every run each step is under its own caller's key. -/
theorem Owned.run (balance : Nat) (ops : List Account.Op) :
    Owned ((Account.deployed balance).owners ops) (after balance ops) := by
  have owned := (Attributed.run (a := .deployed balance) .new ops).owned []
  rwa [List.nil_append, List.append_nil] at owned

/-- Deleting callers leaves the others as they were, as far as the balances cover the same. -/
theorem Tracks.same (balance : Nat) (ops : List Account.Op) (kept : keep c = true)
    (covered : (Account.deployed balance).covered keep ((Account.deployed balance).owners ops) ops =
      (Account.deployed balance).covered keep ((Account.deployed balance).owners
        (without keep ((Account.deployed balance).owners ops) ops))
        (without keep ((Account.deployed balance).owners ops) ops)) :
    SameFor balance c ops (without keep ((Account.deployed balance).owners ops) ops) := by
  have start : Tracks keep [] (Account.deployed balance).sequencer
    (Account.deployed balance).sequencer := .new keep
  obtain ⟨tracks, owners⟩ := start.run ops rfl
    (fun _ member => Account.kept_of_mem_owners member) covered
  have mirrors := tracks.mirrors []
  rw [List.nil_append, List.append_nil] at mirrors
  rw [List.nil_append] at owners
  have steps : ∀ stepId, ((after balance ops).getStep c stepId).map registeredStepView =
      ((after balance (without keep ((Account.deployed balance).owners ops) ops)).getStep c
        stepId).map registeredStepView := by
    intro stepId
    rw [after, after, mirrors.steps c kept, Option.map_map]
    rfl
  refine ⟨steps, (Owned.run balance ops).registeredStepsFor_congr (Owned.run balance _) steps,
    (mirrors.queue c kept).symm, ?_⟩
  rw [dispatchedFor, dispatchedFor, owners, after, after, mirrors.trace, callsFor_kept kept]

/-- Callers interfere through the balance alone: where all operations and callbacks of another
caller are deleted and the balance still covers the same of what is left, a caller has the same
registered steps and the same queue, and the same calls are dispatched for it in the same order. -/
theorem callers_do_not_interfere {a b : AccountId} (distinct : a ≠ b) (balance : Nat)
    (ops : List Account.Op)
    (covered : coveredBut balance b ops = coveredBut balance b (deleting balance b ops)) :
    SameFor balance a ops (deleting balance b ops) :=
  Tracks.same balance ops (decide_eq_true distinct) covered

/-- A call of the market, which takes a deposit. -/
def trade (stepId : String) : Step := ⟨stepId, market, "trade", [], 5, 10⟩

/-- The market calls the contract itself. -/
def marketEnv : Env := ⟨market, market, "ed25519:market", 0, 0, 1000, 0⟩

/-- Alice and the market use the same step ids at the same time. -/
def besideMarket : List Account.Op :=
  [.transact aliceEnv (.registerStep (trade "one")),
    .transact marketEnv (.executeSteps [trade "one", trade "two"]),
    .transact aliceEnv (.executeSteps [trade "two"]),
    .deliver 1 okResult, .deliver 3 okResult, .timeout 0, .deliver 1 .failed, .credit (some 1) 5,
    .deliver 3 okResult]

theorem alice_beside_market :
    SameFor 10 alice besideMarket (deleting 10 market besideMarket) ∧
      dispatchedFor 10 alice besideMarket = [(dispatchPromiseForCall (trade "two")).call] :=
  ⟨callers_do_not_interfere (by decide) 10 besideMarket (by decide), by decide⟩

/-- With half of that balance the market's step takes what Alice's step would have attached. -/
theorem deposits_interfere : ¬∀ (a b : AccountId) (balance : Nat) (ops : List Account.Op), a ≠ b →
    SameFor balance a ops (deleting balance b ops) := by
  intro isolated
  have calls := (isolated alice market 5 besideMarket (by decide)).calls
  have drained : dispatchedFor 5 alice besideMarket = [] := by decide
  have alone : dispatchedFor 5 alice (deleting 5 market besideMarket) =
    [(dispatchPromiseForCall (trade "two")).call] := by decide
  rw [drained, alone] at calls
  cases calls

end SmartAccount.SimpleSequencer
