import SmartAccount.Runtime
import Mathlib.Logic.Function.Iterate

/-!
# The wrap adapter

The `compat-adapter` contract wraps the NEAR of a call into wNEAR and forwards it to the
caller: a `near_deposit` on the wrap contract, then an `ft_transfer`, each followed by a
callback.  `Flow` follows the value of one call through its receipts.  The wrap contract is
not part of the repository; what it does with the two calls, and that the deposit of a
failed call goes back to whoever attached it, is `Flow.step`.

The flow leaves the adapter's holdings alone exactly when it either forwards precisely what
was attached, or fails with nothing attached (`wrap_is_neutral_iff`).
-/

namespace SmartAccount

open Foundation Function

namespace CompatAdapter

/-! ## The contract -/

def minCallbackBudgetTgas : Nat := 40
def adapterStartOverheadTgas : Nat := 30
def wrapTransferGasTgas : Nat := 20
def wrapTransferStepOverheadTgas : Nat := 25
def ftTransferDepositYocto : Nat := 1

/-- `ext_wrap::near_deposit`, on the wrap contract `targetId`. -/
structure NearDeposit where
  targetId : AccountId
  attachedDepositYocto : Nat
  gasTgas : Nat
deriving DecidableEq

/-- `ext_wrap::ft_transfer`, on the wrap contract `targetId`. -/
structure FtTransfer where
  targetId : AccountId
  receiverId : AccountId
  amount : Nat
  memo : Option String
  attachedDepositYocto : Nat
  gasTgas : Nat
deriving DecidableEq

/-- The arguments of `on_wrap_near_deposit_started`, and its static gas. -/
structure NearDepositStarted where
  targetId : AccountId
  beneficiaryId : AccountId
  wrappedAmountYocto : Nat
  remainingBudgetTgas : Nat
  gasTgas : Nat
deriving DecidableEq

/-- The arguments of `on_wrap_ft_transfer_finished`, and its static gas. -/
structure FtTransferFinished where
  beneficiaryId : AccountId
  wrappedAmountYocto : Nat
  gasTgas : Nat
deriving DecidableEq

/-- `adapt_wrap_near_deposit_then_transfer`.  Sums of gas are checked `u64` additions. -/
def adaptWrapNearDepositThenTransfer (prepaidGasTgas : Nat) (predecessor : AccountId)
    (call : AdapterDispatchInput) : Except String (NearDeposit × NearDepositStarted) := do
  require (call.methodName = "near_deposit")
    "adapt_wrap_near_deposit_then_transfer only supports near_deposit"
  require (ftTransferDepositYocto < call.attachedDepositYocto)
    "wrap adapter needs more than 1 yocto so it can reserve ft_transfer deposit"
  require (call.gasTgas + adapterStartOverheadTgas < 2 ^ 64) "attempt to add with overflow"
  let wrapAmountYocto := call.attachedDepositYocto - ftTransferDepositYocto
  let callbackBudgetTgas := prepaidGasTgas - (call.gasTgas + adapterStartOverheadTgas)
  require (minCallbackBudgetTgas ≤ callbackBudgetTgas) "adapter callback budget is too small"
  .ok (⟨call.targetId, wrapAmountYocto, call.gasTgas⟩,
    ⟨call.targetId, predecessor, wrapAmountYocto, callbackBudgetTgas, callbackBudgetTgas⟩)

/-- `on_wrap_near_deposit_started`, after a `near_deposit` that succeeded or failed. -/
def onWrapNearDepositStarted (args : NearDepositStarted) (result : Bool) :
    Except String (FtTransfer × FtTransferFinished) := do
  require result "wrap near_deposit failed"
  let transferCallbackBudgetTgas := args.remainingBudgetTgas - wrapTransferStepOverheadTgas
  require (minCallbackBudgetTgas ≤ transferCallbackBudgetTgas)
    "adapter callback budget is too small to confirm wrap transfer"
  .ok (⟨args.targetId, args.beneficiaryId, args.wrappedAmountYocto,
      some ("compat-adapter forward to " ++ args.beneficiaryId.val), ftTransferDepositYocto,
      wrapTransferGasTgas⟩,
    ⟨args.beneficiaryId, args.wrappedAmountYocto, transferCallbackBudgetTgas⟩)

/-- `on_wrap_ft_transfer_finished`, after an `ft_transfer` that succeeded or failed. -/
def onWrapFtTransferFinished (args : FtTransferFinished) (result : Bool) : Except String Nat := do
  require result "wrap ft_transfer failed after near_deposit"
  .ok args.wrappedAmountYocto

/-! ## Value -/

/-- What accounts hold, in yocto: their NEAR, and their wNEAR at the wrap contract. -/
structure Ledger where
  near : AccountId → Nat
  wnear : AccountId → Nat

namespace Ledger

def credit (l : Ledger) (a : AccountId) (amount : Nat) : Ledger :=
  { l with near := update l.near a (l.near a + amount) }

def debit (l : Ledger) (a : AccountId) (amount : Nat) : Ledger :=
  { l with near := update l.near a (l.near a - amount) }

def mint (l : Ledger) (a : AccountId) (amount : Nat) : Ledger :=
  { l with wnear := update l.wnear a (l.wnear a + amount) }

def burn (l : Ledger) (a : AccountId) (amount : Nat) : Ledger :=
  { l with wnear := update l.wnear a (l.wnear a - amount) }

/-- NEAR plus wNEAR. -/
def holdings (l : Ledger) (a : AccountId) : Nat := l.near a + l.wnear a

end Ledger

/-! ## One call's flow -/

/-- What is outstanding of a call. -/
inductive Stage where
  | nearDeposit (call : NearDeposit) (callback : NearDepositStarted)
  | nearDepositStarted (callback : NearDepositStarted) (result : Bool)
  | ftTransfer (call : FtTransfer) (callback : FtTransferFinished)
  | ftTransferFinished (callback : FtTransferFinished) (result : Bool)
  | settled (outcome : Except String Nat)

/-- How the wrap contract answers. -/
structure Answers where
  nearDeposit : Bool
  ftTransfer : Bool

structure Flow where
  ledger : Ledger
  stage : Stage

/-- The adapter's account pays the deposit of a call it makes. -/
def attach (l : Ledger) (adapter : AccountId) (deposit : Nat) : Except String Ledger := do
  require (deposit ≤ l.near adapter) "The account doesn't have enough balance"
  .ok (l.debit adapter deposit)

namespace Flow

/-- `p` calls the adapter with `deposit` attached.  A refused call refunds it. -/
def start (l : Ledger) (adapter p : AccountId) (prepaidGasTgas deposit : Nat)
    (call : AdapterDispatchInput) : Except String Flow := do
  let paid ← attach l p deposit
  let (nearDeposit, callback) ← adaptWrapNearDepositThenTransfer prepaidGasTgas p call
  let sent ← attach (paid.credit adapter deposit) adapter nearDeposit.attachedDepositYocto
  .ok ⟨sent, .nearDeposit nearDeposit callback⟩

/-- The next receipt of the call.  `near_deposit` credits what is attached as wNEAR to its
caller, `ft_transfer` moves its caller's wNEAR, and either refunds its deposit when it fails. -/
def step (adapter : AccountId) (answers : Answers) (flow : Flow) : Flow :=
  match flow.stage with
  | .nearDeposit call callback =>
      if answers.nearDeposit then
        ⟨flow.ledger.mint adapter call.attachedDepositYocto, .nearDepositStarted callback true⟩
      else
        ⟨flow.ledger.credit adapter call.attachedDepositYocto,
          .nearDepositStarted callback false⟩
  | .nearDepositStarted callback result =>
      match onWrapNearDepositStarted callback result with
      | .error message => ⟨flow.ledger, .settled (.error message)⟩
      | .ok (call, callback) =>
          match attach flow.ledger adapter call.attachedDepositYocto with
          | .error message => ⟨flow.ledger, .settled (.error message)⟩
          | .ok sent => ⟨sent, .ftTransfer call callback⟩
  | .ftTransfer call callback =>
      if answers.ftTransfer ∧ call.amount ≤ flow.ledger.wnear adapter then
        ⟨(flow.ledger.burn adapter call.amount).mint call.receiverId call.amount,
          .ftTransferFinished callback true⟩
      else
        ⟨flow.ledger.credit adapter call.attachedDepositYocto,
          .ftTransferFinished callback false⟩
  | .ftTransferFinished callback result =>
      ⟨flow.ledger, .settled (onWrapFtTransferFinished callback result)⟩
  | .settled _ => flow

/-- The flow once nothing of it is outstanding. -/
def settle (adapter : AccountId) (answers : Answers) (flow : Flow) : Flow :=
  (step adapter answers)^[4] flow

/-- The call returned an amount. -/
def Succeeded (flow : Flow) : Prop := ∃ amount, flow.stage = .settled (.ok amount)

end Flow

/-! ## Where the value ends up -/

/-- The wrapped amount reaches the caller: both calls succeed, and the adapter has the gas and
the yocto that the second one takes. -/
def Forwards (l : Ledger) (adapter : AccountId) (prepaidGasTgas deposit : Nat)
    (call : AdapterDispatchInput) (answers : Answers) : Prop :=
  answers.nearDeposit = true ∧ answers.ftTransfer = true ∧
    call.gasTgas + adapterStartOverheadTgas + wrapTransferStepOverheadTgas +
      minCallbackBudgetTgas ≤ prepaidGasTgas ∧
    call.attachedDepositYocto ≤ l.near adapter + deposit

instance (l : Ledger) (adapter : AccountId) (prepaidGasTgas deposit : Nat)
    (call : AdapterDispatchInput) (answers : Answers) :
    Decidable (Forwards l adapter prepaidGasTgas deposit call answers) :=
  inferInstanceAs (Decidable (_ ∧ _ ∧ _ ∧ _))

/-- The first call of an accepted input. -/
abbrev depositing (call : AdapterDispatchInput) : NearDeposit :=
  ⟨call.targetId, call.attachedDepositYocto - ftTransferDepositYocto, call.gasTgas⟩

/-- The callback behind it. -/
abbrev awaiting (prepaidGasTgas : Nat) (p : AccountId) (call : AdapterDispatchInput) :
    NearDepositStarted :=
  ⟨call.targetId, p, call.attachedDepositYocto - ftTransferDepositYocto,
    prepaidGasTgas - (call.gasTgas + adapterStartOverheadTgas),
    prepaidGasTgas - (call.gasTgas + adapterStartOverheadTgas)⟩

/-- The ledger while the first call is outstanding. -/
abbrev sending (l : Ledger) (adapter p : AccountId) (deposit : Nat) (call : AdapterDispatchInput) :
    Ledger :=
  ((l.debit p deposit).credit adapter deposit).debit adapter
    (depositing call).attachedDepositYocto

section Settling

variable {l sent : Ledger} {adapter p : AccountId} {prepaidGasTgas deposit : Nat}
  {call : AdapterDispatchInput} {flow : Flow} {answers : Answers}

theorem attach_of_le (paid : deposit ≤ l.near adapter) : attach l adapter deposit =
    .ok (l.debit adapter deposit) := by
  unfold attach
  rw [require_of (decide_eq_true paid)]
  rfl

/-- What is refunded as it was paid leaves no trace. -/
theorem credit_debit {amount : Nat} (paid : amount ≤ l.near adapter) :
    (l.debit adapter amount).credit adapter amount = l := by
  have near : update (update l.near adapter (l.near adapter - amount)) adapter
      (l.near adapter - amount + amount) = l.near := by
    rw [update_idem, Nat.sub_add_cancel paid, update_eq_self]
  simp only [Ledger.credit, Ledger.debit, update_self, near]

theorem attach_of_lt (short : l.near adapter < deposit) :
    ∃ message, attach l adapter deposit = .error message := by
  unfold attach
  rw [require_of_not (decide_eq_false (Nat.not_le_of_lt short))]
  exact ⟨_, rfl⟩

/-- The second call, with gas for its callback left. -/
theorem onWrapNearDepositStarted_of_le (args : NearDepositStarted)
    (budget : minCallbackBudgetTgas ≤ args.remainingBudgetTgas - wrapTransferStepOverheadTgas) :
    onWrapNearDepositStarted args true =
      .ok (⟨args.targetId, args.beneficiaryId, args.wrappedAmountYocto,
          some ("compat-adapter forward to " ++ args.beneficiaryId.val), ftTransferDepositYocto,
          wrapTransferGasTgas⟩,
        ⟨args.beneficiaryId, args.wrappedAmountYocto,
          args.remainingBudgetTgas - wrapTransferStepOverheadTgas⟩) := by
  simp only [onWrapNearDepositStarted]
  rw [require_of rfl, require_of (decide_eq_true budget)]
  rfl

theorem onWrapNearDepositStarted_of_lt (args : NearDepositStarted)
    (short : args.remainingBudgetTgas - wrapTransferStepOverheadTgas < minCallbackBudgetTgas) :
    ∃ message, onWrapNearDepositStarted args true = .error message := by
  simp only [onWrapNearDepositStarted]
  rw [require_of rfl, require_of_not (decide_eq_false (Nat.not_le_of_lt short))]
  exact ⟨_, rfl⟩

/-- An accepted call: its checks hold, both accounts can pay, and the `near_deposit` is
outstanding. -/
theorem start_ok (accepted : Flow.start l adapter p prepaidGasTgas deposit call = .ok flow) :
    deposit ≤ l.near p ∧ ftTransferDepositYocto < call.attachedDepositYocto ∧
      call.gasTgas + adapterStartOverheadTgas + minCallbackBudgetTgas ≤ prepaidGasTgas ∧
      call.attachedDepositYocto - ftTransferDepositYocto ≤
        ((l.debit p deposit).credit adapter deposit).near adapter ∧
      flow = ⟨sending l adapter p deposit call,
        .nearDeposit (depositing call) (awaiting prepaidGasTgas p call)⟩ := by
  simp only [Flow.start, attach, adaptWrapNearDepositThenTransfer, bind_eq_ok, require_eq_ok,
    Except.ok.injEq, decide_eq_true_eq] at accepted
  obtain ⟨_, ⟨_, paid, rfl⟩, _, ⟨_, method, _, enough, _, word, _, budget, rfl⟩, _,
    ⟨_, funded, rfl⟩, rfl⟩ := accepted
  refine ⟨paid, enough, ?_, funded, rfl⟩
  simp only [minCallbackBudgetTgas, adapterStartOverheadTgas] at budget ⊢
  omega

/-- A `near_deposit` that fails is refunded to the adapter, which keeps the refund. -/
theorem settle_refunded (nearDeposit : NearDeposit) (callback : NearDepositStarted)
    (refused : answers.nearDeposit = false) :
    ∃ message, Flow.settle adapter answers ⟨sent, .nearDeposit nearDeposit callback⟩ =
      ⟨sent.credit adapter nearDeposit.attachedDepositYocto, .settled (.error message)⟩ := by
  refine ⟨"wrap near_deposit failed", ?_⟩
  simp [Flow.settle, Flow.step, refused, onWrapNearDepositStarted, require, bind, Except.bind]

/-- A `near_deposit` that succeeds and is not followed by an `ft_transfer` leaves its wNEAR with
the adapter. -/
theorem settle_stranded (nearDeposit : NearDeposit) (callback : NearDepositStarted)
    (wrapped : answers.nearDeposit = true)
    (short : callback.remainingBudgetTgas - wrapTransferStepOverheadTgas < minCallbackBudgetTgas ∨
      sent.near adapter < ftTransferDepositYocto) :
    ∃ message, Flow.settle adapter answers ⟨sent, .nearDeposit nearDeposit callback⟩ =
      ⟨sent.mint adapter nearDeposit.attachedDepositYocto, .settled (.error message)⟩ := by
  by_cases budget : minCallbackBudgetTgas ≤
      callback.remainingBudgetTgas - wrapTransferStepOverheadTgas
  · have poor : sent.near adapter < ftTransferDepositYocto := by omega
    obtain ⟨message, failed⟩ := @attach_of_lt (sent.mint adapter nearDeposit.attachedDepositYocto)
      adapter ftTransferDepositYocto poor
    refine ⟨message, ?_⟩
    simp [Flow.settle, Flow.step, wrapped, onWrapNearDepositStarted_of_le callback budget, failed]
  · obtain ⟨message, failed⟩ := onWrapNearDepositStarted_of_lt callback (Nat.lt_of_not_le budget)
    refine ⟨message, ?_⟩
    simp [Flow.settle, Flow.step, wrapped, failed]

/-- With gas and a yocto left, an `ft_transfer` follows, and moves the wNEAR or leaves it. -/
theorem settle_transferring (nearDeposit : NearDeposit) (callback : NearDepositStarted)
    (amount : callback.wrappedAmountYocto = nearDeposit.attachedDepositYocto)
    (wrapped : answers.nearDeposit = true)
    (budget : minCallbackBudgetTgas ≤ callback.remainingBudgetTgas - wrapTransferStepOverheadTgas)
    (yocto : ftTransferDepositYocto ≤ sent.near adapter) :
    (answers.ftTransfer = true →
        Flow.settle adapter answers ⟨sent, .nearDeposit nearDeposit callback⟩ =
          ⟨(((sent.mint adapter nearDeposit.attachedDepositYocto).debit adapter
              ftTransferDepositYocto).burn adapter nearDeposit.attachedDepositYocto).mint
                callback.beneficiaryId nearDeposit.attachedDepositYocto,
            .settled (.ok nearDeposit.attachedDepositYocto)⟩) ∧
      (answers.ftTransfer = false → ∃ message,
        Flow.settle adapter answers ⟨sent, .nearDeposit nearDeposit callback⟩ =
          ⟨sent.mint adapter nearDeposit.attachedDepositYocto, .settled (.error message)⟩) := by
  have paid := @attach_of_le (sent.mint adapter nearDeposit.attachedDepositYocto) adapter
    ftTransferDepositYocto yocto
  have covered : nearDeposit.attachedDepositYocto ≤ ((sent.mint adapter
      nearDeposit.attachedDepositYocto).debit adapter ftTransferDepositYocto).wnear adapter := by
    simp [Ledger.mint, Ledger.debit]
  constructor
  · intro moved
    simp [Flow.settle, Flow.step, wrapped, onWrapNearDepositStarted_of_le callback budget, paid,
      moved, amount, covered, onWrapFtTransferFinished, require, bind, Except.bind]
  · intro refused
    refine ⟨"wrap ft_transfer failed after near_deposit", ?_⟩
    rw [← @credit_debit (sent.mint adapter nearDeposit.attachedDepositYocto) adapter
      ftTransferDepositYocto yocto]
    simp [Flow.settle, Flow.step, wrapped, onWrapNearDepositStarted_of_le callback budget, paid,
      refused, onWrapFtTransferFinished, require, bind, Except.bind]

end Settling

/-! ## Neutrality -/

/-- The adapter neither gains nor loses by a call: its holdings are what they were, it has
parted with at most the deposit, the caller of a call that succeeded has the deposit less one
yocto in wNEAR, and the caller of a failed one has it back. -/
structure Neutral (l : Ledger) (adapter p : AccountId) (deposit : Nat) (flow : Flow) : Prop where
  kept : flow.ledger.holdings adapter = l.holdings adapter
  within : l.holdings adapter + deposit - flow.ledger.holdings adapter ≤ deposit
  paid : flow.Succeeded → flow.ledger.wnear p + 1 = l.wnear p + deposit
  returned : ¬ flow.Succeeded → flow.ledger.holdings p = l.holdings p

section Neutrality

variable {l : Ledger} {adapter p : AccountId} {prepaidGasTgas deposit : Nat}
  {call : AdapterDispatchInput} {flow : Flow}

/-- A call that failed and whose deposit stays with the adapter. -/
theorem neutral_of_failed {message : String} (failed : flow.stage = .settled (.error message))
    (stays : flow.ledger.holdings adapter = l.holdings adapter + deposit)
    (gone : flow.ledger.holdings p + deposit = l.holdings p) :
    Neutral l adapter p deposit flow ↔ deposit = 0 := by
  have unsuccessful : ¬ flow.Succeeded := by
    rintro ⟨amount, succeeded⟩
    rw [failed] at succeeded
    cases succeeded
  constructor
  · intro neutral
    have kept := neutral.kept
    omega
  · rintro rfl
    exact ⟨by omega, by omega, fun succeeded => absurd succeeded unsuccessful, fun _ => by omega⟩

/-- A call that forwarded an amount, for a yocto more. -/
theorem neutral_of_forwarded {amount : Nat} (succeeded : flow.stage = .settled (.ok amount))
    (spent : flow.ledger.holdings adapter + (amount + 1) = l.holdings adapter + deposit)
    (received : flow.ledger.wnear p = l.wnear p + amount) :
    Neutral l adapter p deposit flow ↔ deposit = amount + 1 := by
  constructor
  · intro neutral
    have kept := neutral.kept
    omega
  · rintro rfl
    exact ⟨by omega, by omega, fun _ => by omega, fun failed => absurd ⟨amount, succeeded⟩ failed⟩

/-- What the adapter has left when the `near_deposit` is outstanding. -/
theorem sending_near (other : p ≠ adapter) : (sending l adapter p deposit call).near adapter =
    l.near adapter + deposit - (call.attachedDepositYocto - 1) := by
  simp [Ledger.credit, Ledger.debit, other.symm, ftTransferDepositYocto]

/-- A call that is forwarded: the adapter is out of what the call asked for, and its caller has
all of it but a yocto in wNEAR. -/
theorem settled_of_forwards (other : p ≠ adapter)
    (accepted : Flow.start l adapter p prepaidGasTgas deposit call = .ok flow) {answers : Answers}
    (forwards : Forwards l adapter prepaidGasTgas deposit call answers) :
    ∃ amount, call.attachedDepositYocto = amount + 1 ∧
      (flow.settle adapter answers).stage = .settled (.ok amount) ∧
      (flow.settle adapter answers).ledger.holdings adapter + (amount + 1) =
        l.holdings adapter + deposit ∧
      (flow.settle adapter answers).ledger.wnear p = l.wnear p + amount := by
  obtain ⟨paid, enough, budget, funded, rfl⟩ := start_ok accepted
  obtain ⟨wrapped, transferred, gas, yocto⟩ := forwards
  have left : minCallbackBudgetTgas ≤
      (awaiting prepaidGasTgas p call).remainingBudgetTgas - wrapTransferStepOverheadTgas := by
    simp only [adapterStartOverheadTgas, wrapTransferStepOverheadTgas,
      minCallbackBudgetTgas] at gas ⊢
    omega
  simp only [ftTransferDepositYocto] at enough
  have one : ftTransferDepositYocto ≤ (sending l adapter p deposit call).near adapter := by
    rw [sending_near other, ftTransferDepositYocto]
    omega
  have moved := (@settle_transferring _ adapter answers (depositing call)
    (awaiting prepaidGasTgas p call) rfl wrapped left one).1 transferred
  rw [moved]
  refine ⟨_, ?_, rfl, ?_, ?_⟩
  · simp only [ftTransferDepositYocto]
    omega
  · simp [Ledger.holdings, Ledger.credit, Ledger.debit, Ledger.mint, Ledger.burn, other.symm,
      ftTransferDepositYocto]
    omega
  · simp [Ledger.credit, Ledger.debit, Ledger.mint, Ledger.burn]

/-- A call that is not forwarded fails, with its refund or its wNEAR at the adapter. -/
theorem settle_of_not_forwards (other : p ≠ adapter) {answers : Answers}
    (stays : ¬ Forwards l adapter prepaidGasTgas deposit call answers) :
    ∃ message ledger,
      Flow.settle adapter answers ⟨sending l adapter p deposit call,
          .nearDeposit (depositing call) (awaiting prepaidGasTgas p call)⟩ =
        ⟨ledger, .settled (.error message)⟩ ∧
      (ledger = (sending l adapter p deposit call).credit adapter
          (depositing call).attachedDepositYocto ∨
        ledger = (sending l adapter p deposit call).mint adapter
          (depositing call).attachedDepositYocto) := by
  have sent := @sending_near l adapter p deposit call other
  cases wrapped : answers.nearDeposit with
  | false =>
      obtain ⟨message, settled⟩ := @settle_refunded _ adapter _ (depositing call)
        (awaiting prepaidGasTgas p call) wrapped
      exact ⟨message, _, settled, .inl rfl⟩
  | true =>
      by_cases able : minCallbackBudgetTgas ≤ (awaiting prepaidGasTgas p
          call).remainingBudgetTgas - wrapTransferStepOverheadTgas ∧
        ftTransferDepositYocto ≤ (sending l adapter p deposit call).near adapter
      · obtain ⟨left, one⟩ := able
        have refused : answers.ftTransfer = false := by
          refine Bool.eq_false_iff.mpr fun transferred => stays ⟨wrapped, transferred, ?_, ?_⟩
          · simp only [adapterStartOverheadTgas, wrapTransferStepOverheadTgas,
              minCallbackBudgetTgas] at left ⊢
            omega
          · rw [sent, ftTransferDepositYocto] at one
            omega
        obtain ⟨message, settled⟩ := (@settle_transferring _ adapter answers (depositing call)
          (awaiting prepaidGasTgas p call) rfl wrapped left one).2 refused
        exact ⟨message, _, settled, .inr rfl⟩
      · have short : (awaiting prepaidGasTgas p call).remainingBudgetTgas -
            wrapTransferStepOverheadTgas < minCallbackBudgetTgas ∨
              (sending l adapter p deposit call).near adapter < ftTransferDepositYocto := by
          omega
        obtain ⟨message, settled⟩ := @settle_stranded _ adapter answers (depositing call)
          (awaiting prepaidGasTgas p call) wrapped short
        exact ⟨message, _, settled, .inr rfl⟩

/-- A call that is not forwarded: wherever it failed, its deposit is with the adapter. -/
theorem settled_of_not_forwards (other : p ≠ adapter)
    (accepted : Flow.start l adapter p prepaidGasTgas deposit call = .ok flow) {answers : Answers}
    (stays : ¬ Forwards l adapter prepaidGasTgas deposit call answers) :
    ∃ message, (flow.settle adapter answers).stage = .settled (.error message) ∧
      (flow.settle adapter answers).ledger.holdings adapter = l.holdings adapter + deposit ∧
      (flow.settle adapter answers).ledger.holdings p + deposit = l.holdings p := by
  obtain ⟨paid, -, -, funded, rfl⟩ := start_ok accepted
  obtain ⟨message, ledger, settled, kept⟩ := settle_of_not_forwards other stays
  have apart : adapter ≠ p := other.symm
  have funded' : call.attachedDepositYocto - ftTransferDepositYocto ≤
      l.near adapter + deposit := by
    simpa [Ledger.credit, Ledger.debit, apart] using funded
  rw [settled]
  refine ⟨message, rfl, ?_, ?_⟩
  · rcases kept with rfl | rfl <;>
      simp [Ledger.holdings, Ledger.credit, Ledger.debit, Ledger.mint, apart] <;> omega
  · rcases kept with rfl | rfl <;>
      simp [Ledger.holdings, Ledger.credit, Ledger.debit, Ledger.mint, other] <;> omega

/-- An accepted call leaves the adapter neutral exactly when it is forwarded and attached what
it asked for, or it is not forwarded and attached nothing. -/
theorem wrap_is_neutral_iff (other : p ≠ adapter)
    (accepted : Flow.start l adapter p prepaidGasTgas deposit call = .ok flow)
    (answers : Answers) :
    Neutral l adapter p deposit (flow.settle adapter answers) ↔
      if Forwards l adapter prepaidGasTgas deposit call answers then
        deposit = call.attachedDepositYocto
      else deposit = 0 := by
  split
  · rename_i forwards
    obtain ⟨amount, asked, succeeded, spent, received⟩ :=
      settled_of_forwards other accepted forwards
    rw [asked]
    exact neutral_of_forwarded succeeded spent received
  · rename_i stays
    obtain ⟨message, failed, kept, gone⟩ := settled_of_not_forwards other accepted stays
    exact neutral_of_failed failed kept gone

/-- The smart account attaches to an adapter call what the call asks for, so there the adapter
is neutral exactly when it forwards. -/
theorem dispatched_is_neutral_iff {step : Step} {adapterId : AccountId} {adapterMethod ns : String}
    (policy : step.policy = .adapter adapterId adapterMethod) (other : p ≠ adapter)
    (accepted : Flow.start l adapter p prepaidGasTgas
      (dispatchPromiseForCall none ns step).call.depositYocto step.adapterDispatchInput = .ok flow)
    (answers : Answers) :
    Neutral l adapter p (dispatchPromiseForCall none ns step).call.depositYocto
        (flow.settle adapter answers) ↔
      Forwards l adapter prepaidGasTgas (dispatchPromiseForCall none ns step).call.depositYocto
        step.adapterDispatchInput answers := by
  have attached : (dispatchPromiseForCall none ns step).call.depositYocto =
      step.adapterDispatchInput.attachedDepositYocto := by
    unfold dispatchPromiseForCall
    rw [policy]
    rfl
  have enough := (start_ok accepted).2.1
  rw [wrap_is_neutral_iff other accepted answers]
  simp only [ftTransferDepositYocto] at enough
  split
  · rename_i forwards
    exact iff_of_true attached forwards
  · rename_i stays
    refine iff_of_false ?_ stays
    omega

end Neutrality

/-! ## A wrap and a refund -/

/-- The account of the adapter. -/
def compatAdapter : AccountId := ⟨"compat-adapter.near", by decide +kernel⟩

/-- Alice has a hundred yocto, the adapter nothing. -/
def savings : Ledger := ⟨fun a => if a = alice then 100 else 0, fun _ => 0⟩

/-- Ten yocto are to be wrapped at the market. -/
def wrapTen : AdapterDispatchInput := ⟨market, "near_deposit", [], 10, 40⟩

/-- Alice's call with ten yocto attached. -/
def wrappingTen : Flow :=
  ⟨sending savings compatAdapter alice 10 wrapTen,
    .nearDeposit (depositing wrapTen) (awaiting 260 alice wrapTen)⟩

theorem wrap_is_neutral_iff_forwarded :
    Neutral savings compatAdapter alice 10 (wrappingTen.settle compatAdapter ⟨true, true⟩) := by
  refine (@wrap_is_neutral_iff savings compatAdapter alice 260 10 wrapTen wrappingTen
    (by decide) rfl ⟨true, true⟩).mpr ?_
  decide

/-- The wrap contract refuses the deposit of a call that attached what it asked for, and its
caller does not get it back. -/
theorem adapter_keeps_refund : ∃ (l : Ledger) (adapter p : AccountId)
    (prepaidGasTgas deposit : Nat) (call : AdapterDispatchInput) (flow : Flow)
    (answers : Answers), p ≠ adapter ∧
      Flow.start l adapter p prepaidGasTgas deposit call = .ok flow ∧
      deposit = call.attachedDepositYocto ∧
      ¬ Neutral l adapter p deposit (flow.settle adapter answers) := by
  refine ⟨savings, compatAdapter, alice, 260, 10, wrapTen, wrappingTen, ⟨false, true⟩, by decide,
    rfl, rfl, fun neutral => ?_⟩
  have kept := neutral.kept
  revert kept
  decide

end CompatAdapter

end SmartAccount
