import SmartAccount.Events

/-!
# The wild router

The `wild-router` contract starts an echo, detaches it and answers at once.  Its two fields say
what it started last and what finished last; a start clears the second, and so does an echo
that fails.  `WildRouter` is its state, shared by everybody who routes through it.
-/

namespace SmartAccount

/-- `Echo::echo` of the `echo` contract. -/
def echo (n : Nat) : Nat := n

structure WildRouter where
  lastStarted : Option Nat
  lastFinished : Option Nat
deriving DecidableEq

namespace WildRouter

def gasEchoTgas : Nat := 5
def gasCallbackTgas : Nat := 5

def new : WildRouter := ⟨none, none⟩

/-- The detached `ext_echo::echo`, with `on_echo_finished` behind it. -/
structure EchoCall where
  callee : AccountId
  n : Nat
  gasTgas : Nat
  callbackGasTgas : Nat
deriving DecidableEq

def routeEchoFireAndForget (_ : WildRouter) (callee : AccountId) (n : Nat) :
    WildRouter × EchoCall × String :=
  (⟨some n, none⟩, ⟨callee, n, gasEchoTgas, gasCallbackTgas⟩, "started:" ++ toString n)

/-- `on_echo_finished`, with the value it returns. -/
def onEchoFinished (c : WildRouter) (result : Except PromiseError Nat) : WildRouter × Option Nat :=
  match result with
  | .ok n => ({ c with lastFinished := some n }, some n)
  | .error _ => ({ c with lastFinished := none }, none)

def getLastStarted (c : WildRouter) : Option Nat := c.lastStarted

def getLastFinished (c : WildRouter) : Option Nat := c.lastFinished

end WildRouter

end SmartAccount
