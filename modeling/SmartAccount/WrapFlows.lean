import SmartAccount.CompatAdapter
import SmartAccount.Foundation.Potential

/-!
# Interleaved wraps

Any number of calls of the wrap adapter are on their way at once, and their receipts execute in
any order, between payments, deposits and transfers of others.  The adapter has one balance for
all of them, and at every wrap contract one balance of wNEAR; it stores nothing, so nothing but
the arguments of its callbacks says what belongs to which call.

The wrap contract is taken to do what `CompatAdapter` takes it to do: its `near_deposit` credits
what is attached, its `ft_transfer` moves its amount, and either refunds its deposit when it fails.

The books balance in every run (`books_balance`): of the adapter's NEAR and wNEAR every call has
taken exactly what its stage says.  Where every call attaches what it asks for, no call lives at
the expense of another (`wraps_are_independent`): it settles as it would alone.
-/

namespace SmartAccount

open Foundation Function

namespace CompatAdapter

/-! ## Calls on their way -/

/-- A call of the adapter, what it attached, and how the wrap contract will answer it. -/
structure Wrap where
  caller : AccountId
  prepaidGasTgas : Nat
  deposit : Nat
  call : AdapterDispatchInput
  answers : Answers

/-- How far it has come. -/
structure Wrapping extends Wrap where
  stage : Stage

/-- The NEAR of all accounts and, at every wrap contract, their wNEAR; the calls of the adapter;
the `ft_transfer`s that were executed for them; and what others have given the adapter. -/
structure Books where
  near : AccountId → Nat
  wnear : AccountId → AccountId → Nat
  wraps : Pool Wrapping
  transfers : List (Nat × FtTransfer)
  givenNear : Nat
  givenWnear : AccountId → Nat

/-- What happens next: a call arrives, a receipt of a call executes, or somebody pays NEAR,
sends wNEAR, wraps or unwraps. -/
inductive Op where
  | start (caller : AccountId) (prepaidGasTgas deposit : Nat) (call : AdapterDispatchInput)
      (answers : Answers)
  | advance (id : Nat)
  | pay (sender receiver : AccountId) (amount : Nat)
  | send (targetId sender receiver : AccountId) (amount : Nat)
  | deposit (targetId sender : AccountId) (amount : Nat)
  | withdraw (targetId sender : AccountId) (amount : Nat)

/-- Whose move it is, the adapter's receipts apart. -/
def Op.actor : Op → Option AccountId
  | start caller _ _ _ _ => some caller
  | advance _ => none
  | pay sender _ _ => some sender
  | send _ sender _ _ => some sender
  | deposit _ sender _ => some sender
  | withdraw _ sender _ => some sender

/-- The `ft_transfer` executed between two stages. -/
def transferred : Stage → Stage → Option FtTransfer
  | .ftTransfer call _, .ftTransferFinished _ true => some call
  | _, _ => none

/-- `amount` changes hands. -/
def moveAmount (held : AccountId → Nat) (sender receiver : AccountId) (amount : Nat) :
    AccountId → Nat :=
  update (update held sender (held sender - amount)) receiver
    (update held sender (held sender - amount) receiver + amount)

namespace Books

variable (adapter : AccountId)

/-- What a receipt of the wrap contract `targetId` reads and writes. -/
def ledger (b : Books) (targetId : AccountId) : Ledger := ⟨b.near, b.wnear targetId⟩

def write (b : Books) (targetId : AccountId) (l : Ledger) : Books :=
  { b with near := l.near, wnear := update b.wnear targetId l.wnear }

/-- A call whose `near_deposit` has been sent. -/
def arrive (b : Books) (l : Ledger) (wrap : Wrapping) : Books :=
  { b.write wrap.call.targetId l with wraps := b.wraps.create wrap }

/-- The receipt of `wrap` that is due executes. -/
def advance (b : Books) (id : Nat) (wrap : Wrapping) : Books :=
  let next := Flow.step adapter wrap.answers ⟨b.ledger wrap.call.targetId, wrap.stage⟩
  { b.write wrap.call.targetId next.ledger with
    wraps := b.wraps.update id { wrap with stage := next.stage }
    transfers := b.transfers ++ ((transferred wrap.stage next.stage).map (id, ·)).toList }

/-- A refused call and a payment that is not covered change nothing. -/
def step (b : Books) : Op → Books
  | .start caller prepaidGasTgas deposit call answers =>
      match Flow.start (b.ledger call.targetId) adapter caller prepaidGasTgas deposit call with
      | .ok flow =>
          b.arrive flow.ledger ⟨⟨caller, prepaidGasTgas, deposit, call, answers⟩, flow.stage⟩
      | .error _ => b
  | .advance id =>
      match b.wraps.get id with
      | some wrap => b.advance adapter id wrap
      | none => b
  | .pay sender receiver amount =>
      if amount ≤ b.near sender then
        { b with
          near := moveAmount b.near sender receiver amount
          givenNear := if receiver = adapter then b.givenNear + amount else b.givenNear }
      else b
  | .send targetId sender receiver amount =>
      if amount ≤ b.wnear targetId sender then
        { b with
          wnear := update b.wnear targetId
            (moveAmount (b.wnear targetId) sender receiver amount)
          givenWnear := if receiver = adapter then
            update b.givenWnear targetId (b.givenWnear targetId + amount) else b.givenWnear }
      else b
  | .deposit targetId sender amount =>
      if amount ≤ b.near sender then
        b.write targetId (((b.ledger targetId).debit sender amount).mint sender amount)
      else b
  | .withdraw targetId sender amount =>
      if amount ≤ b.wnear targetId sender then
        b.write targetId (((b.ledger targetId).burn sender amount).credit sender amount)
      else b

def run (b : Books) (ops : List Op) : Books := ops.foldl (step adapter) b

/-- The `ft_transfer`s executed for one call. -/
def transfersOf (b : Books) (id : Nat) : List FtTransfer :=
  (b.transfers.filter fun transfer => transfer.1 == id).map Prod.snd

/-- No call has been made and nothing been given yet. -/
def Fresh (b : Books) : Prop :=
  b.wraps = .empty ∧ b.transfers = [] ∧ b.givenNear = 0 ∧ b.givenWnear = fun _ => 0

end Books

/-- A receipt of the call executes. -/
def Op.advances (id : Nat) : Op → Bool
  | advance id' => id' == id
  | _ => false

/-- The adapter itself makes no call. -/
def Op.Outside (adapter : AccountId) (op : Op) : Prop := op.actor ≠ some adapter

/-- Calls of the adapter attach what they ask for. -/
def Op.Paying : Op → Prop
  | start _ _ paid call _ => paid = call.attachedDepositYocto
  | _ => True

/-! ## What a call has taken -/

namespace Wrap

/-- What is wrapped and forwarded. -/
def amount (w : Wrap) : Nat := w.call.attachedDepositYocto - ftTransferDepositYocto

/-- The gas lasts until the callback of the `ft_transfer`. -/
def Lasts (w : Wrap) : Prop :=
  minCallbackBudgetTgas ≤ w.prepaidGasTgas - (w.call.gasTgas + adapterStartOverheadTgas) -
    wrapTransferStepOverheadTgas

instance (w : Wrap) : Decidable w.Lasts := inferInstanceAs (Decidable (_ ≤ _))

/-- The outcome of a call whose receipts find what they need. -/
def outcome (w : Wrap) : Except String Nat :=
  if w.answers.nearDeposit = false then .error "wrap near_deposit failed"
  else if ¬ w.Lasts then
    .error "adapter callback budget is too small to confirm wrap transfer"
  else if w.answers.ftTransfer = false then
    .error "wrap ft_transfer failed after near_deposit"
  else .ok w.amount

/-- The adapter's NEAR that the call has taken at a stage. -/
def spent (w : Wrap) : Stage → Nat
  | .nearDeposit _ _ => w.amount
  | .nearDepositStarted _ wrapped => if wrapped then w.amount else 0
  | .ftTransfer _ _ => w.amount + ftTransferDepositYocto
  | .ftTransferFinished _ moved =>
      if moved then w.amount + ftTransferDepositYocto else w.amount
  | .settled (.ok _) => w.amount + ftTransferDepositYocto
  | .settled (.error _) => if w.answers.nearDeposit then w.amount else 0

/-- The wNEAR that the adapter has from the call. -/
def held (w : Wrap) : Stage → Nat
  | .nearDeposit _ _ => 0
  | .nearDepositStarted _ wrapped => if wrapped then w.amount else 0
  | .ftTransfer _ _ => w.amount
  | .ftTransferFinished _ moved => if moved then 0 else w.amount
  | .settled (.ok _) => 0
  | .settled (.error _) => if w.answers.nearDeposit then w.amount else 0

theorem spent_le (w : Wrap) (stage : Stage) :
    w.spent stage ≤ w.amount + ftTransferDepositYocto := by
  unfold spent
  split
  · exact Nat.le_add_right _ _
  · split <;> omega
  · exact Nat.le_refl _
  · split <;> omega
  · exact Nat.le_refl _
  · split <;> omega

/-- The `ft_transfer` of the call. -/
def forwarding (w : Wrap) : FtTransfer :=
  ⟨w.call.targetId, w.caller, w.amount,
    some ("compat-adapter forward to " ++ w.caller.val), ftTransferDepositYocto,
    wrapTransferGasTgas⟩

/-- Its callback. -/
def finishing (w : Wrap) : FtTransferFinished :=
  ⟨w.caller, w.amount, w.prepaidGasTgas - (w.call.gasTgas + adapterStartOverheadTgas) -
    wrapTransferStepOverheadTgas⟩

/-- The `ft_transfer`s that were executed for the call. -/
def forwarded (w : Wrap) : Stage → List FtTransfer
  | .ftTransferFinished _ true => [w.forwarding]
  | .settled (.ok _) => [w.forwarding]
  | _ => []

/-- The adapter could not pay for the `ft_transfer`. -/
abbrev broke : Stage := .settled (.error "The account doesn't have enough balance")

/-- What the stages of a call hold. -/
inductive Sound (w : Wrap) : Stage → Prop
  | nearDeposit :
      Sound w (.nearDeposit (depositing w.call) (awaiting w.prepaidGasTgas w.caller w.call))
  | nearDepositStarted : Sound w (.nearDepositStarted
      (awaiting w.prepaidGasTgas w.caller w.call) w.answers.nearDeposit)
  | ftTransfer (wrapped : w.answers.nearDeposit = true) (lasts : w.Lasts) :
      Sound w (.ftTransfer w.forwarding w.finishing)
  | ftTransferFinished (wrapped : w.answers.nearDeposit = true) (lasts : w.Lasts) :
      Sound w (.ftTransferFinished w.finishing w.answers.ftTransfer)
  | settled : Sound w (.settled w.outcome)
  | broke (wrapped : w.answers.nearDeposit = true) (lasts : w.Lasts) :
      Sound w broke

/-- The receipts that are still to come. -/
def due : Stage → Nat
  | .nearDeposit _ _ => 4
  | .nearDepositStarted _ _ => 3
  | .ftTransfer _ _ => 2
  | .ftTransferFinished _ _ => 1
  | .settled _ => 0

theorem due_step (adapter : AccountId) (answers : Answers) (flow : Flow) :
    due (flow.step adapter answers).stage ≤ due flow.stage - 1 := by
  unfold Flow.step
  split
  · rename_i call callback here
    rw [here]
    split <;> exact Nat.le_refl _
  · rename_i callback result here
    rw [here]
    split
    · exact Nat.zero_le _
    · split
      · exact Nat.zero_le _
      · exact Nat.le_refl _
  · rename_i call callback here
    rw [here]
    split <;> exact Nat.le_refl _
  · exact Nat.zero_le _
  · rename_i outcome here
    rw [here]
    exact Nat.le_refl _

/-- What one receipt does to the adapter's balances and to the call. -/
structure Advances (adapter : AccountId) (w : Wrap) (l : Ledger) (stage : Stage) (next : Flow) :
    Prop where
  sound : w.Sound next.stage
  near : next.ledger.near adapter + w.spent next.stage = l.near adapter + w.spent stage
  wnear : next.ledger.wnear adapter + w.held stage = l.wnear adapter + w.held next.stage
  forwarded : w.forwarded next.stage =
    w.forwarded stage ++ (transferred stage next.stage).toList
  poor : next.stage = broke → stage = broke ∨
    (w.spent stage = w.amount ∧ l.near adapter < ftTransferDepositYocto)

section Advancing

variable {adapter : AccountId} {w : Wrap} {l : Ledger} {stage : Stage}

theorem advances_nearDeposit : w.Advances adapter l
    (.nearDeposit (depositing w.call) (awaiting w.prepaidGasTgas w.caller w.call))
    (Flow.step adapter w.answers
      ⟨l, .nearDeposit (depositing w.call) (awaiting w.prepaidGasTgas w.caller w.call)⟩) := by
  have sound := @Sound.nearDepositStarted w
  cases wrapped : w.answers.nearDeposit with
  | true =>
      rw [wrapped] at sound
      simp only [Flow.step, wrapped, if_true]
      refine ⟨sound, rfl, ?_, rfl, fun same => by cases same⟩
      simp [Ledger.mint, held, amount]
  | false =>
      rw [wrapped] at sound
      simp only [Flow.step, wrapped, Bool.false_eq_true, if_false]
      refine ⟨sound, ?_, rfl, rfl, fun same => by cases same⟩
      simp [Ledger.credit, spent, amount]

theorem outcome_ne_broke (w : Wrap) : Stage.settled w.outcome ≠ broke := by
  intro same
  rw [Stage.settled.injEq, outcome] at same
  split_ifs at same <;> simp at same

theorem outcome_of_short (wrapped : w.answers.nearDeposit = true) (short : ¬ w.Lasts) :
    w.outcome =
      .error "adapter callback budget is too small to confirm wrap transfer" := by
  rw [outcome, wrapped, if_neg (by decide), if_pos short]

theorem outcome_of_lasts (wrapped : w.answers.nearDeposit = true) (lasts : w.Lasts) :
    w.outcome = if w.answers.ftTransfer = false then
      .error "wrap ft_transfer failed after near_deposit" else .ok w.amount := by
  rw [outcome, wrapped, if_neg (by decide), if_neg (not_not.mpr lasts)]

theorem advances_nearDepositStarted : w.Advances adapter l
    (.nearDepositStarted (awaiting w.prepaidGasTgas w.caller w.call) w.answers.nearDeposit)
    (Flow.step adapter w.answers ⟨l, .nearDepositStarted
      (awaiting w.prepaidGasTgas w.caller w.call) w.answers.nearDeposit⟩) := by
  cases wrapped : w.answers.nearDeposit with
  | false =>
      have fails : w.outcome = .error "wrap near_deposit failed" := by rw [outcome, if_pos wrapped]
      have settled : Flow.step adapter w.answers ⟨l, .nearDepositStarted
          (awaiting w.prepaidGasTgas w.caller w.call) false⟩ = ⟨l, .settled w.outcome⟩ := by
        rw [fails]
        rfl
      rw [settled]
      refine ⟨.settled, ?_, ?_, ?_, fun same => absurd same w.outcome_ne_broke⟩ <;> rw [fails]
      · simp [spent, wrapped]
      · simp [held, wrapped]
      · rfl
  | true =>
      by_cases lasts : w.Lasts
      · have called := onWrapNearDepositStarted_of_le
          (awaiting w.prepaidGasTgas w.caller w.call) lasts
        by_cases yocto : ftTransferDepositYocto ≤ l.near adapter
        · have sent : Flow.step adapter w.answers ⟨l, .nearDepositStarted
              (awaiting w.prepaidGasTgas w.caller w.call) true⟩ =
              ⟨l.debit adapter ftTransferDepositYocto, .ftTransfer w.forwarding w.finishing⟩ := by
            simp only [Flow.step, called, attach_of_le yocto]
            rfl
          rw [sent]
          refine ⟨.ftTransfer wrapped lasts, ?_, rfl, rfl, fun same => by cases same⟩
          simp only [Ledger.debit, update_self, spent, if_true]
          omega
        · -- Another call may have taken the yocto that this one left with the adapter.
          have poor : Flow.step adapter w.answers ⟨l, .nearDepositStarted
              (awaiting w.prepaidGasTgas w.caller w.call) true⟩ =
              ⟨l, .settled (.error "The account doesn't have enough balance")⟩ := by
            simp only [Flow.step, called, attach, require_of_not (decide_eq_false yocto)]
            rfl
          rw [poor]
          refine ⟨.broke wrapped lasts, ?_, ?_, rfl, fun _ => .inr ⟨rfl, by omega⟩⟩
          · simp [spent, wrapped]
          · simp [held, wrapped]
      · have short := outcome_of_short wrapped lasts
        have settled : Flow.step adapter w.answers ⟨l, .nearDepositStarted
            (awaiting w.prepaidGasTgas w.caller w.call) true⟩ = ⟨l, .settled w.outcome⟩ := by
          have few : decide (minCallbackBudgetTgas ≤ (awaiting w.prepaidGasTgas w.caller
              w.call).remainingBudgetTgas - wrapTransferStepOverheadTgas) = false :=
            decide_eq_false lasts
          rw [short]
          simp only [Flow.step, onWrapNearDepositStarted]
          rw [require_of rfl, require_of_not few]
          rfl
        rw [settled]
        refine ⟨.settled, ?_, ?_, ?_, fun same => absurd same w.outcome_ne_broke⟩ <;> rw [short]
        · simp [spent, wrapped]
        · simp [held, wrapped]
        · rfl

theorem advances_ftTransfer (other : w.caller ≠ adapter) (wrapped : w.answers.nearDeposit = true)
    (lasts : w.Lasts) (covered : w.amount ≤ l.wnear adapter) :
    w.Advances adapter l (.ftTransfer w.forwarding w.finishing)
      (Flow.step adapter w.answers ⟨l, .ftTransfer w.forwarding w.finishing⟩) := by
  have sound := Sound.ftTransferFinished wrapped lasts
  cases moved : w.answers.ftTransfer with
  | true =>
      rw [moved] at sound
      simp only [Flow.step, moved, true_and]
      rw [if_pos (show w.forwarding.amount ≤ l.wnear adapter from covered)]
      refine ⟨sound, rfl, ?_, rfl, fun same => by cases same⟩
      simp only [Ledger.burn, Ledger.mint, forwarding, held, if_true, update_of_ne other.symm,
        update_self]
      omega
  | false =>
      rw [moved] at sound
      simp only [Flow.step, moved, Bool.false_eq_true, false_and, if_false]
      refine ⟨sound, ?_, rfl, rfl, fun same => by cases same⟩
      simp only [Ledger.credit, forwarding, spent, update_self, Bool.false_eq_true, if_false]
      omega

theorem advances_ftTransferFinished (wrapped : w.answers.nearDeposit = true) (lasts : w.Lasts) :
    w.Advances adapter l (.ftTransferFinished w.finishing w.answers.ftTransfer)
      (Flow.step adapter w.answers
        ⟨l, .ftTransferFinished w.finishing w.answers.ftTransfer⟩) := by
  have ends := outcome_of_lasts wrapped lasts
  have sound := @Sound.settled w
  have solvent := w.outcome_ne_broke
  cases moved : w.answers.ftTransfer with
  | true =>
      rw [moved, if_neg (by decide)] at ends
      rw [ends] at sound
      exact ⟨sound, rfl, rfl, rfl, fun same => by cases same⟩
  | false =>
      rw [moved, if_pos rfl] at ends
      rw [ends] at sound solvent
      refine ⟨sound, ?_, ?_, rfl, fun same => absurd same solvent⟩
      · simp [Flow.step, onWrapFtTransferFinished, require, bind, Except.bind, spent, wrapped]
      · simp [Flow.step, onWrapFtTransferFinished, require, bind, Except.bind, held, wrapped]

/-- Every receipt of a call leaves it sound, and takes or returns what the stages say. -/
theorem Sound.advances (other : w.caller ≠ adapter) (sound : w.Sound stage)
    (covered : w.held stage ≤ l.wnear adapter) :
    w.Advances adapter l stage (Flow.step adapter w.answers ⟨l, stage⟩) := by
  cases sound with
  | nearDeposit => exact advances_nearDeposit
  | nearDepositStarted => exact advances_nearDepositStarted
  | ftTransfer wrapped lasts => exact advances_ftTransfer other wrapped lasts covered
  | ftTransferFinished wrapped lasts => exact advances_ftTransferFinished wrapped lasts
  | settled => exact ⟨.settled, rfl, rfl, (List.append_nil _).symm, .inl⟩
  | broke wrapped lasts => exact ⟨.broke wrapped lasts, rfl, rfl, rfl, .inl⟩

end Advancing

end Wrap

namespace Wrapping

def spent (w : Wrapping) : Nat := w.toWrap.spent w.stage

/-- The wNEAR of the call at one wrap contract. -/
def heldAt (targetId : AccountId) (w : Wrapping) : Nat :=
  if w.call.targetId = targetId then w.held w.stage else 0

theorem heldAt_self (w : Wrapping) : w.heldAt w.call.targetId = w.held w.stage := if_pos rfl

/-- An accepted call of somebody else, at a sound stage. -/
structure Admitted (adapter : AccountId) (w : Wrapping) : Prop where
  other : w.caller ≠ adapter
  enough : ftTransferDepositYocto < w.call.attachedDepositYocto
  sound : w.Sound w.stage

end Wrapping

/-- The call on its own, with what it asked for attached. -/
theorem Wrap.settle_outcome {adapter : AccountId} {w : Wrap} {l : Ledger} {flow : Flow}
    (other : w.caller ≠ adapter)
    (accepted : Flow.start l adapter w.caller w.prepaidGasTgas w.call.attachedDepositYocto
      w.call = .ok flow) :
    (flow.settle adapter w.answers).stage = .settled w.outcome := by
  obtain ⟨-, enough, -, -, rfl⟩ := start_ok accepted
  have yocto : ftTransferDepositYocto ≤
      (sending l adapter w.caller w.call.attachedDepositYocto w.call).near adapter := by
    rw [sending_near other, ftTransferDepositYocto]
    simp only [ftTransferDepositYocto] at enough
    omega
  cases wrapped : w.answers.nearDeposit with
  | false =>
      simp [Flow.settle, Flow.step, wrapped, onWrapNearDepositStarted, outcome, require, bind,
        Except.bind]
  | true =>
      by_cases lasts : w.Lasts
      · have called := onWrapNearDepositStarted_of_le
          (awaiting w.prepaidGasTgas w.caller w.call) lasts
        generalize sending l adapter w.caller w.call.attachedDepositYocto w.call = sent at yocto ⊢
        have paid := @attach_of_le (sent.mint adapter (depositing w.call).attachedDepositYocto)
          adapter ftTransferDepositYocto yocto
        have covered : (depositing w.call).attachedDepositYocto ≤ ((sent.mint adapter (depositing
            w.call).attachedDepositYocto).debit adapter ftTransferDepositYocto).wnear adapter := by
          simp [Ledger.mint, Ledger.debit]
        rw [outcome_of_lasts wrapped lasts]
        cases moved : w.answers.ftTransfer with
        | true =>
            simp [Flow.settle, Flow.step, wrapped, called, paid, moved, covered, amount,
              onWrapFtTransferFinished, require, bind, Except.bind]
        | false =>
            simp [Flow.settle, Flow.step, wrapped, called, paid, moved,
              onWrapFtTransferFinished, require, bind, Except.bind]
      · have few : ¬ minCallbackBudgetTgas ≤ w.prepaidGasTgas -
          (w.call.gasTgas + adapterStartOverheadTgas) - wrapTransferStepOverheadTgas := lasts
        rw [outcome_of_short wrapped lasts]
        simp [Flow.settle, Flow.step, wrapped, onWrapNearDepositStarted, require, bind,
          Except.bind, few]

/-! ## The books balance -/

namespace Books

variable {adapter : AccountId} {b₀ b b' : Books}

/-- The calls are sound, the adapter's balances are what it had and was given and attached, less
what its calls have taken, and every call has had the transfers that its stage says. -/
structure Kept (adapter : AccountId) (b₀ b : Books) : Prop where
  admitted : ∀ id w, b.wraps.get id = some w → w.Admitted adapter
  near : b.near adapter + b.wraps.total Wrapping.spent =
    b₀.near adapter + b.givenNear + b.wraps.total fun w => w.deposit
  wnear : ∀ targetId, b.wnear targetId adapter =
    b₀.wnear targetId adapter + b.givenWnear targetId +
      b.wraps.total (Wrapping.heldAt targetId)
  transfers : ∀ id, b.transfersOf id =
    ((b.wraps.get id).map fun w => w.forwarded w.stage).getD []

theorem Fresh.kept (fresh : b.Fresh) : Kept adapter b b := by
  obtain ⟨none, quiet, noNear, noWnear⟩ := fresh
  refine ⟨fun id w stored => ?_, ?_, fun targetId => ?_, fun id => ?_⟩
  · rw [none] at stored
    cases stored
  · rw [none, noNear]
    rfl
  · rw [none, noWnear]
    rfl
  · rw [none, transfersOf, quiet]
    rfl

/-- Others' moves leave the calls alone and add to the adapter's balances what it is given. -/
theorem Kept.of_others (kept : Kept adapter b₀ b) (wraps : b'.wraps = b.wraps)
    (transfers : b'.transfers = b.transfers)
    (near : b'.near adapter + b.givenNear = b.near adapter + b'.givenNear)
    (wnear : ∀ targetId, b'.wnear targetId adapter + b.givenWnear targetId =
      b.wnear targetId adapter + b'.givenWnear targetId) : Kept adapter b₀ b' := by
  refine ⟨fun id w stored => ?_, ?_, fun targetId => ?_, fun id => ?_⟩
  · rw [wraps] at stored
    exact kept.admitted id w stored
  · have before := kept.near
    rw [wraps]
    omega
  · have before := kept.wnear targetId
    have same := wnear targetId
    rw [wraps]
    omega
  · rw [wraps, ← kept.transfers id, transfersOf, transfersOf, transfers]

theorem moveAmount_of_ne {held : AccountId → Nat} {sender receiver a : AccountId} {amount : Nat}
    (other : sender ≠ a) : moveAmount held sender receiver amount a =
      held a + if receiver = a then amount else 0 := by
  unfold moveAmount
  by_cases same : receiver = a
  · rw [same, update_self, update_of_ne other.symm, if_pos rfl]
  · rw [update_of_ne (Ne.symm same), update_of_ne other.symm, if_neg same, Nat.add_zero]

theorem wnear_write (b : Books) (targetId targetId' : AccountId) (l : Ledger) :
    (b.write targetId l).wnear targetId' =
      if targetId' = targetId then l.wnear else b.wnear targetId' :=
  update_apply b.wnear targetId l.wnear targetId'

/-- An equation about the adapter's wNEAR at the contract that is written holds of the others
where it says that nothing changes. -/
theorem wnear_write_adapter (b : Books) {targetId : AccountId} {l : Ledger} {before after : Nat}
    (here : l.wnear adapter + before = b.wnear targetId adapter + after) (targetId' : AccountId) :
    (b.write targetId l).wnear targetId' adapter + (if targetId = targetId' then before else 0) =
      b.wnear targetId' adapter + (if targetId = targetId' then after else 0) := by
  rw [wnear_write]
  by_cases same : targetId' = targetId
  · rw [if_pos same, if_pos same.symm, if_pos same.symm, same, here]
  · rw [if_neg same, if_neg (Ne.symm same), if_neg (Ne.symm same)]

theorem wnear_write_of_eq (b : Books) {targetId : AccountId} {l : Ledger}
    (same : l.wnear adapter = b.wnear targetId adapter) (targetId' : AccountId) :
    (b.write targetId l).wnear targetId' adapter = b.wnear targetId' adapter := by
  have wrote := b.wnear_write_adapter (congrArg (· + 0) same) targetId'
  rwa [ite_self, Nat.add_zero, Nat.add_zero] at wrote

/-- A write that leaves the adapter's balances as they were. -/
theorem Kept.write (kept : Kept adapter b₀ b) {targetId : AccountId} {l : Ledger}
    (near : l.near adapter = b.near adapter)
    (wnear : l.wnear adapter = b.wnear targetId adapter) :
    Kept adapter b₀ (b.write targetId l) :=
  kept.of_others rfl rfl (congrArg (· + b.givenNear) near) fun targetId' =>
    congrArg (· + b.givenWnear targetId') (b.wnear_write_of_eq wnear targetId')

/-- A call arrives and its `near_deposit` is sent. -/
theorem Kept.start (kept : Kept adapter b₀ b) {caller : AccountId} {prepaidGasTgas paid : Nat}
    {call : AdapterDispatchInput} {answers : Answers} {flow : Flow} (other : caller ≠ adapter)
    (accepted : Flow.start (b.ledger call.targetId) adapter caller prepaidGasTgas paid call =
      .ok flow) :
    Kept adapter b₀
      (b.arrive flow.ledger ⟨⟨caller, prepaidGasTgas, paid, call, answers⟩, flow.stage⟩) := by
  obtain ⟨-, enough, -, funded, rfl⟩ := start_ok accepted
  have near := @sending_near (b.ledger call.targetId) adapter caller paid call other
  have covered : call.attachedDepositYocto - 1 ≤ b.near adapter + paid := by
    simpa [Ledger.credit, Ledger.debit, other.symm, ftTransferDepositYocto, ledger] using funded
  refine ⟨fun id w stored => ?_, ?_, fun targetId => ?_, fun id => ?_⟩
  · rw [arrive, Pool.get_create] at stored
    split at stored
    · cases stored
      exact ⟨other, enough, .nearDeposit⟩
    · exact kept.admitted id w stored
  · have before := kept.near
    show (sending _ adapter caller paid call).near adapter + (b.wraps.create _).total _ =
      b₀.near adapter + b.givenNear + (b.wraps.create _).total _
    rw [near, Pool.total_create, Pool.total_create]
    show b.near adapter + paid - (call.attachedDepositYocto - 1) +
        (b.wraps.total Wrapping.spent + (call.attachedDepositYocto - 1)) =
      b₀.near adapter + b.givenNear + ((b.wraps.total fun w => w.deposit) + paid)
    omega
  · have same := b.wnear_write_of_eq
      (show (sending (b.ledger call.targetId) adapter caller paid call).wnear adapter =
        b.wnear call.targetId adapter from rfl) targetId
    have nothing : Wrapping.heldAt targetId ⟨⟨caller, prepaidGasTgas, paid, call, answers⟩,
        .nearDeposit (depositing call) (awaiting prepaidGasTgas caller call)⟩ = 0 := ite_self 0
    show (b.write call.targetId _).wnear targetId adapter = b₀.wnear targetId adapter +
      b.givenWnear targetId + (b.wraps.create _).total _
    rw [same, Pool.total_create, nothing, Nat.add_zero]
    exact kept.wnear targetId
  · show b.transfersOf id = _
    rw [arrive, Pool.get_create, kept.transfers id]
    split
    · rename_i same
      rw [same, Pool.get_next]
      rfl
    · rfl

theorem transfersOf_append {done : List (Nat × FtTransfer)} (b : Books) (id id' : Nat)
    (transfer : Option FtTransfer)
    (appended : done = b.transfers ++ (transfer.map (id, ·)).toList) :
    ((done.filter fun transfer => transfer.1 == id').map Prod.snd) =
      b.transfersOf id' ++ (if id' = id then transfer.toList else []) := by
  rw [appended, List.filter_append, List.map_append, transfersOf]
  refine congrArg _ ?_
  cases transfer with
  | none => simp
  | some call =>
      by_cases same : id' = id
      · subst same
        simp
      · simp [same, Ne.symm same]

/-- The adapter holds what each of its calls does. -/
theorem Kept.held_le (kept : Kept adapter b₀ b) {id : Nat} {w : Wrapping}
    (stored : b.wraps.get id = some w) :
    w.held w.stage ≤ (b.ledger w.call.targetId).wnear adapter := by
  have part := @Pool.le_total _ (Wrapping.heldAt w.call.targetId) _ _ _ stored
  have whole := kept.wnear w.call.targetId
  rw [w.heldAt_self] at part
  show w.held w.stage ≤ b.wnear w.call.targetId adapter
  omega

/-- A receipt of a call executes. -/
theorem Kept.advance (kept : Kept adapter b₀ b) {id : Nat} {w : Wrapping}
    (stored : b.wraps.get id = some w) : Kept adapter b₀ (b.advance adapter id w) := by
  obtain ⟨other, enough, sound⟩ := kept.admitted id w stored
  -- What the call holds is part of the adapter's wNEAR, so its `ft_transfer` finds it there.
  have moves := sound.advances other (kept.held_le stored)
  generalize flow : Flow.step adapter w.answers ⟨b.ledger w.call.targetId, w.stage⟩ = next at moves
  have after : b.advance adapter id w = { b.write w.call.targetId next.ledger with
      wraps := b.wraps.update id { w with stage := next.stage }
      transfers := b.transfers ++ ((transferred w.stage next.stage).map (id, ·)).toList } := by
    rw [Books.advance, flow]
  rw [after]
  refine ⟨fun id' w' among => ?_, ?_, fun targetId => ?_, fun id' => ?_⟩
  · replace among : (b.wraps.update id { w with stage := next.stage }).get id' = some w' := among
    by_cases same : id' = id
    · subst same
      rw [Pool.get_update_self stored] at among
      cases among
      exact ⟨other, enough, moves.sound⟩
    · rw [Pool.get_update_of_ne _ _ same] at among
      exact kept.admitted id' w' among
  · have before := kept.near
    have near : next.ledger.near adapter + w.toWrap.spent next.stage =
      b.near adapter + w.spent := moves.near
    have spent : (b.wraps.update id { w with stage := next.stage }).total Wrapping.spent +
        w.spent = b.wraps.total Wrapping.spent + w.toWrap.spent next.stage :=
      Pool.total_update stored _
    have paid : ((b.wraps.update id { w with stage := next.stage }).total fun w => w.deposit) +
        w.deposit = (b.wraps.total fun w => w.deposit) + w.deposit :=
      Pool.total_update stored _
    show next.ledger.near adapter +
        (b.wraps.update id { w with stage := next.stage }).total Wrapping.spent =
      b₀.near adapter + b.givenNear +
        (b.wraps.update id { w with stage := next.stage }).total fun w => w.deposit
    omega
  · have before := kept.wnear targetId
    have wnear := b.wnear_write_adapter moves.wnear targetId
    have held : (b.wraps.update id { w with stage := next.stage }).total
          (Wrapping.heldAt targetId) + w.heldAt targetId =
        b.wraps.total (Wrapping.heldAt targetId) +
          Wrapping.heldAt targetId { w with stage := next.stage } :=
      Pool.total_update stored _
    simp only [Wrapping.heldAt] at held
    show (b.write w.call.targetId next.ledger).wnear targetId adapter =
      b₀.wnear targetId adapter + b.givenWnear targetId +
        (b.wraps.update id { w with stage := next.stage }).total (Wrapping.heldAt targetId)
    omega
  · refine (b.transfersOf_append id id' _ rfl).trans ?_
    rw [kept.transfers id']
    show _ = (((b.wraps.update id { w with stage := next.stage }).get id').map
      fun w => w.forwarded w.stage).getD []
    by_cases same : id' = id
    · subst same
      rw [stored, Pool.get_update_self stored, if_pos rfl]
      exact moves.forwarded.symm
    · rw [Pool.get_update_of_ne _ _ same, if_neg same, List.append_nil]

theorem Kept.step (kept : Kept adapter b₀ b) {op : Op} (outside : op.Outside adapter) :
    Kept adapter b₀ (b.step adapter op) := by
  cases op with
  | start caller prepaidGasTgas paid call answers =>
      have other : caller ≠ adapter := fun same => outside (congrArg some same)
      simp only [Books.step]
      split
      · rename_i flow accepted
        exact kept.start other accepted
      · exact kept
  | advance id =>
      simp only [Books.step]
      split
      · rename_i w stored
        exact kept.advance stored
      · exact kept
  | pay sender receiver amount =>
      have other : sender ≠ adapter := fun same => outside (congrArg some same)
      simp only [Books.step]
      split
      · refine kept.of_others rfl rfl ?_ fun _ => rfl
        simp only [moveAmount_of_ne other]
        split <;> omega
      · exact kept
  | send targetId sender receiver amount =>
      have other : sender ≠ adapter := fun same => outside (congrArg some same)
      simp only [Books.step]
      split
      · refine kept.of_others rfl rfl rfl fun targetId' => ?_
        simp only [update_apply]
        by_cases here : targetId' = targetId
        · subst here
          rw [if_pos rfl, moveAmount_of_ne other]
          split
          · rw [update_self]
            omega
          · rw [Nat.add_zero]
        · rw [if_neg here]
          split
          · rw [update_of_ne here]
          · rfl
      · exact kept
  | deposit targetId sender amount =>
      have other : adapter ≠ sender := fun same => outside (congrArg some same.symm)
      simp only [Books.step]
      split
      · exact kept.write (update_of_ne other _ _) (update_of_ne other _ _)
      · exact kept
  | withdraw targetId sender amount =>
      have other : adapter ≠ sender := fun same => outside (congrArg some same.symm)
      simp only [Books.step]
      split
      · exact kept.write (update_of_ne other _ _) (update_of_ne other _ _)
      · exact kept

theorem Kept.run (kept : Kept adapter b₀ b) {ops : List Op}
    (outside : ∀ op ∈ ops, op.Outside adapter) : Kept adapter b₀ (b.run adapter ops) := by
  induction ops generalizing b with
  | nil => exact kept
  | cons op ops ih =>
      obtain ⟨first, later⟩ := List.forall_mem_cons.mp outside
      exact ih (kept.step first) later

/-- A step leaves the calls alone, lets one in, or executes a receipt of one. -/
theorem step_cases (b : Books) (op : Op) :
    ((b.step adapter op).wraps = b.wraps ∧
        ∀ id, op.advances id = true → b.wraps.get id = none) ∨
      (∃ caller prepaidGasTgas paid call answers flow,
        op = .start caller prepaidGasTgas paid call answers ∧
          Flow.start (b.ledger call.targetId) adapter caller prepaidGasTgas paid call =
            .ok flow ∧
          (b.step adapter op).wraps = b.wraps.create
            ⟨⟨caller, prepaidGasTgas, paid, call, answers⟩, flow.stage⟩) ∨
      ∃ id w, op = .advance id ∧ b.wraps.get id = some w ∧
        (b.step adapter op).wraps = b.wraps.update id { w with stage :=
          (Flow.step adapter w.answers ⟨b.ledger w.call.targetId, w.stage⟩).stage } := by
  cases op with
  | start caller prepaidGasTgas paid call answers =>
      simp only [step]
      split
      · rename_i flow accepted
        exact .inr (.inl ⟨caller, prepaidGasTgas, paid, call, answers, flow, rfl, accepted, rfl⟩)
      · exact .inl ⟨rfl, fun id own => by cases own⟩
  | advance id =>
      simp only [step]
      split
      · rename_i w stored
        exact .inr (.inr ⟨id, w, rfl, stored, rfl⟩)
      · rename_i absent
        refine .inl ⟨rfl, fun id' own => ?_⟩
        rw [← eq_of_beq own]
        exact absent
  | pay sender receiver amount =>
      refine .inl ⟨?_, fun id own => by cases own⟩
      simp only [step]
      split <;> rfl
  | send targetId sender receiver amount =>
      refine .inl ⟨?_, fun id own => by cases own⟩
      simp only [step]
      split <;> rfl
  | deposit targetId sender amount =>
      refine .inl ⟨?_, fun id own => by cases own⟩
      simp only [step]
      split <;> rfl
  | withdraw targetId sender amount =>
      refine .inl ⟨?_, fun id own => by cases own⟩
      simp only [step]
      split <;> rfl

/-- A call stays in the books, and each of its receipts brings it closer to its end. -/
theorem step_stored (b : Books) (op : Op) {id : Nat} {w : Wrapping}
    (stored : b.wraps.get id = some w) :
    ∃ stage, (b.step adapter op).wraps.get id = some { w with stage := stage } ∧
      Wrap.due stage ≤ Wrap.due w.stage - if op.advances id then 1 else 0 := by
  rcases @step_cases adapter b op with ⟨same, idle⟩ |
    ⟨caller, prepaidGasTgas, paid, call, answers, flow, rfl, -, wraps⟩ |
    ⟨id', w', rfl, stored', wraps⟩
  · have foreign : ¬ op.advances id = true := by
      intro own
      rw [idle id own] at stored
      cases stored
    rw [if_neg foreign, same]
    exact ⟨w.stage, stored, Nat.le_refl _⟩
  · refine ⟨w.stage, ?_, Nat.le_refl _⟩
    rw [wraps]
    exact Pool.get_create_of_get stored
  · rw [wraps]
    by_cases same : id' = id
    · subst same
      cases stored.symm.trans stored'
      simp only [Op.advances, beq_self_eq_true, if_true]
      exact ⟨_, Pool.get_update_self stored, Wrap.due_step adapter w.answers _⟩
    · simp only [Op.advances, beq_eq_false_iff_ne.mpr same, Bool.false_eq_true, if_false]
      rw [Pool.get_update_of_ne _ _ (Ne.symm same)]
      exact ⟨w.stage, stored, Nat.le_refl _⟩

theorem run_stored {ops : List Op} {id : Nat} {w : Wrapping}
    (stored : b.wraps.get id = some w) :
    ∃ stage, (b.run adapter ops).wraps.get id = some { w with stage := stage } ∧
      Wrap.due stage ≤ Wrap.due w.stage - ops.countP (Op.advances id) := by
  induction ops generalizing b w with
  | nil => exact ⟨w.stage, stored, Nat.le_refl _⟩
  | cons op ops ih =>
      obtain ⟨stage, moved, less⟩ := step_stored b op stored
      obtain ⟨stage', ran, fewer⟩ := ih moved
      replace fewer : Wrap.due stage' ≤ Wrap.due stage - ops.countP (Op.advances id) := fewer
      refine ⟨stage', ran, ?_⟩
      rw [List.countP_cons]
      omega

theorem run_append (b : Books) (ops later : List Op) :
    b.run adapter (ops ++ later) = (b.run adapter ops).run adapter later := List.foldl_append

/-! ## Calls that pay for themselves -/

/-- Every call attached what it asked for, and none of them went broke. -/
def Solvent (b : Books) : Prop :=
  ∀ id w, b.wraps.get id = some w → w.deposit = w.call.attachedDepositYocto ∧ w.stage ≠ Wrap.broke

theorem Fresh.solvent (fresh : b.Fresh) : b.Solvent := by
  intro id w stored
  rw [fresh.1] at stored
  cases stored

theorem Kept.spent_le (kept : Kept adapter b₀ b) (solvent : b.Solvent) {id : Nat} {w : Wrapping}
    (stored : b.wraps.get id = some w) : w.spent ≤ w.deposit := by
  have enough := (kept.admitted id w stored).enough
  have paid := (solvent id w stored).1
  have most := w.toWrap.spent_le w.stage
  simp only [Wrap.amount] at most
  rw [Wrapping.spent]
  omega

/-- The adapter has not lost any NEAR. -/
theorem Kept.near_le (kept : Kept adapter b₀ b) (solvent : b.Solvent) :
    b₀.near adapter + b.givenNear ≤ b.near adapter := by
  have whole := kept.near
  have below := @Pool.total_mono _ Wrapping.spent (fun w => w.deposit) b.wraps b.wraps rfl
    (Pool.weigh_mono fun id w stored => kept.spent_le solvent stored)
  omega

/-- While a call has not taken the yocto it reserved, the adapter has it. -/
theorem Kept.yocto (kept : Kept adapter b₀ b) (solvent : b.Solvent) {id : Nat} {w : Wrapping}
    (stored : b.wraps.get id = some w) (reserved : w.spent = w.amount) :
    ftTransferDepositYocto ≤ b.near adapter := by
  have enough := (kept.admitted id w stored).enough
  have paid := (solvent id w stored).1
  have whole := kept.near
  -- No call has spent more than it attached, and this one still less.
  have less : w.spent < w.deposit := by
    rw [reserved, paid, Wrap.amount]
    exact Nat.sub_lt (Nat.zero_lt_of_lt enough) Nat.one_pos
  have below := @Pool.total_lt _ Wrapping.spent (fun w => w.deposit) b.wraps b.wraps rfl
    (Pool.weigh_mono fun id w stored => kept.spent_le solvent stored) id
    (by rwa [Pool.weigh_of_get stored, Pool.weigh_of_get stored])
  rw [ftTransferDepositYocto]
  omega

theorem Kept.solvent_step (kept : Kept adapter b₀ b) (solvent : b.Solvent) {op : Op}
    (paying : op.Paying) : (b.step adapter op).Solvent := by
  intro id w among
  rcases @step_cases adapter b op with ⟨same, -⟩ |
    ⟨caller, prepaidGasTgas, paid, call, answers, flow, rfl, accepted, wraps⟩ |
    ⟨id', w', rfl, stored, wraps⟩
  · rw [same] at among
    exact solvent id w among
  · rw [wraps, Pool.get_create] at among
    split at among
    · obtain ⟨-, -, -, -, rfl⟩ := start_ok accepted
      cases among
      exact ⟨paying, fun same => by cases same⟩
    · exact solvent id w among
  · obtain ⟨other, enough, sound⟩ := kept.admitted id' w' stored
    obtain ⟨paid, fine⟩ := solvent id' w' stored
    rw [wraps, Pool.get_update] at among
    split at among
    · rw [stored] at among
      cases among
      refine ⟨paid, fun went => ?_⟩
      rcases (sound.advances other (kept.held_le stored)).poor went with same | ⟨reserved, poor⟩
      · exact fine same
      · exact absurd (kept.yocto solvent stored reserved) (Nat.not_le_of_lt poor)
    · exact solvent id w among

theorem Kept.solvent_run (kept : Kept adapter b₀ b) (solvent : b.Solvent) {ops : List Op}
    (outside : ∀ op ∈ ops, op.Outside adapter) (paying : ∀ op ∈ ops, op.Paying) :
    (b.run adapter ops).Solvent := by
  induction ops generalizing b with
  | nil => exact solvent
  | cons op ops ih =>
      obtain ⟨first, later⟩ := List.forall_mem_cons.mp outside
      obtain ⟨pays, rest⟩ := List.forall_mem_cons.mp paying
      exact ih (kept.step first) (kept.solvent_step solvent pays) later rest

end Books

/-- In every run, of the adapter's NEAR and wNEAR every call has taken exactly what its stage
says, and has had exactly the transfers its stage says. -/
theorem books_balance {adapter : AccountId} {b : Books} {ops : List Op} (fresh : b.Fresh)
    (outside : ∀ op ∈ ops, op.Outside adapter) :
    (b.run adapter ops).near adapter + (b.run adapter ops).wraps.total Wrapping.spent =
        b.near adapter + (b.run adapter ops).givenNear +
          ((b.run adapter ops).wraps.total fun w => w.deposit) ∧
      (∀ targetId, (b.run adapter ops).wnear targetId adapter =
        b.wnear targetId adapter + (b.run adapter ops).givenWnear targetId +
          (b.run adapter ops).wraps.total (Wrapping.heldAt targetId)) ∧
      ∀ id w, (b.run adapter ops).wraps.get id = some w →
        w.Sound w.stage ∧ (b.run adapter ops).transfersOf id = w.forwarded w.stage := by
  have kept := (@Books.Fresh.kept adapter b fresh).run outside
  refine ⟨kept.near, kept.wnear, fun id w stored => ⟨(kept.admitted id w stored).sound, ?_⟩⟩
  rw [kept.transfers id, stored]
  rfl

/-- Where calls attach what they ask for, the adapter loses nothing.  Once four receipts of a
call have executed, whatever came between them, it has settled as it does on its own: with the
outcome that its arguments and the answers of the wrap contract determine, and with one
`ft_transfer` if it succeeded and none if it failed. -/
theorem wraps_are_independent {adapter : AccountId} {b : Books} {ops later : List Op}
    (fresh : b.Fresh) (outside : ∀ op ∈ ops ++ later, op.Outside adapter)
    (paying : ∀ op ∈ ops ++ later, op.Paying) {id : Nat} {w : Wrapping}
    (stored : (b.run adapter ops).wraps.get id = some w)
    (executed : 4 ≤ later.countP (Op.advances id)) :
    b.near adapter + (b.run adapter (ops ++ later)).givenNear ≤
        (b.run adapter (ops ++ later)).near adapter ∧
      (b.run adapter (ops ++ later)).wraps.get id =
        some { w with stage := .settled w.outcome } ∧
      (b.run adapter (ops ++ later)).transfersOf id =
        (w.outcome.toOption.map fun _ => w.forwarding).toList ∧
      ∀ l flow, Flow.start l adapter w.caller w.prepaidGasTgas w.deposit w.call = .ok flow →
        (flow.settle adapter w.answers).stage = .settled w.outcome := by
  have kept := (@Books.Fresh.kept adapter b fresh).run outside
  have solvent := (@Books.Fresh.kept adapter b fresh).solvent_run fresh.solvent outside paying
  obtain ⟨stage, ran, less⟩ := @Books.run_stored adapter (b.run adapter ops) later id w stored
  rw [← Books.run_append] at ran
  obtain ⟨other, enough, sound⟩ := kept.admitted id _ ran
  obtain ⟨paid, fine⟩ := solvent id _ ran
  have settled : stage = .settled w.outcome := by
    have most : Wrap.due w.stage ≤ 4 := by
      cases w.stage <;> simp [Wrap.due]
    have none : Wrap.due stage = 0 := by omega
    replace sound : w.Sound stage := sound
    cases sound with
    | settled => rfl
    | broke wrapped lasts => exact absurd rfl fine
    | nearDeposit => cases none
    | nearDepositStarted => cases none
    | ftTransfer wrapped lasts => cases none
    | ftTransferFinished wrapped lasts => cases none
  subst settled
  refine ⟨kept.near_le solvent, ran, ?_, fun l flow accepted => ?_⟩
  · rw [kept.transfers id, ran]
    show w.forwarded (.settled w.outcome) = _
    cases w.outcome with
    | ok amount => rfl
    | error message => rfl
  · rw [paid] at accepted
    exact Wrap.settle_outcome other accepted

/-- Nothing is wrapped yet, and Alice has a hundred yocto. -/
def opened : Books := ⟨savings.near, fun _ _ => 0, .empty, [], 0, fun _ => 0⟩

/-- Alice wraps ten yocto twice; the second `ft_transfer` is going to fail. -/
def wrappingTwice : List Op :=
  [.start alice 260 10 wrapTen ⟨true, true⟩, .start alice 260 10 wrapTen ⟨true, false⟩]

/-- The receipts of both, one after the other. -/
def interleaved : List Op :=
  [.advance 1, .advance 0, .advance 0, .advance 1, .advance 1, .advance 0, .advance 0, .advance 1]

theorem opened_fresh : opened.Fresh := ⟨rfl, rfl, rfl, rfl⟩

theorem outside_wrappingTwice :
    ∀ op ∈ wrappingTwice ++ interleaved, op.Outside compatAdapter := by
  simp [wrappingTwice, interleaved, Op.Outside, Op.actor]
  decide

theorem paying_wrappingTwice : ∀ op ∈ wrappingTwice ++ interleaved, op.Paying := by
  simp [wrappingTwice, interleaved, Op.Paying, wrapTen]

/-- Half way, the adapter holds the wNEAR of both. -/
theorem books_balance_half_way :
    (opened.run compatAdapter (wrappingTwice ++ interleaved.take 3)).wnear market
      compatAdapter = 18 := by
  have outside : ∀ op ∈ wrappingTwice ++ interleaved.take 3, op.Outside compatAdapter :=
    fun op among => outside_wrappingTwice op
      (((List.take_sublist 3 interleaved).append_left wrappingTwice).subset among)
  have balance := (books_balance opened_fresh outside).2.1 market
  rw [balance]
  decide

/-- The first call gets its nine yocto of wNEAR out of the adapter's eighteen, and leaves the
second call's. -/
theorem wraps_are_independent_twice :
    (opened.run compatAdapter (wrappingTwice ++ interleaved)).transfersOf 0 =
      [⟨market, alice, 9, some "compat-adapter forward to alice.near", 1, 20⟩] := by
  have independent := @wraps_are_independent compatAdapter opened wrappingTwice interleaved
    opened_fresh outside_wrappingTwice paying_wrappingTwice 0 _ rfl (by decide)
  exact independent.2.2.1

end CompatAdapter

end SmartAccount
