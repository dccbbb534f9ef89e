import SmartAccount.Budgets

/-!
# Hygiene of delegated keys

The usability of a grant is written six times: in the checks of `execute_trigger` and
`proxy_call`, in the two pruners, and in the two views.  On a grant under the canonical text of
its key they agree at every time but the instant at which it expires: there the checks still let
it pass, the pruners remove it, and the session view shows it as inactive.  A grant under another
text of its key is not the one that the checks look up (`hygiene_iff`).
-/

namespace SmartAccount

open Foundation

/-! ## Views -/

structure SessionGrantView where
  sessionPublicKey : String
  grantedAtMs : Nat
  expiresAtMs : Nat
  allowedTriggerIds : Option (List String)
  maxFireCount : Nat
  fireCount : Nat
  label : Option String
  active : Bool
deriving DecidableEq

def sessionGrantView (grant : SessionGrant) (now : Nat) : SessionGrantView where
  sessionPublicKey := grant.sessionPublicKey
  grantedAtMs := grant.grantedAtMs
  expiresAtMs := grant.expiresAtMs
  allowedTriggerIds := grant.allowedTriggerIds
  maxFireCount := grant.maxFireCount
  fireCount := grant.fireCount
  label := grant.label
  active := decide (now < grant.expiresAtMs) && decide (grant.fireCount < grant.maxFireCount)

structure ProxyGrantView where
  sessionPublicKey : String
  grantedAtMs : Nat
  expiresAtMs : Nat
  allowedTargets : List AccountId
  allowedMethods : Option (List String)
  attachYocto : Nat
  maxGasTgas : Nat
  maxCallCount : Nat
  callCount : Nat
  label : Option String
  active : Bool
deriving DecidableEq

def proxyGrantView (grant : ProxyGrant) (now : Nat) : ProxyGrantView where
  sessionPublicKey := grant.sessionPublicKey
  grantedAtMs := grant.grantedAtMs
  expiresAtMs := grant.expiresAtMs
  allowedTargets := grant.allowedTargets
  allowedMethods := grant.allowedMethods
  attachYocto := grant.attachYocto
  maxGasTgas := grant.maxGasTgas
  maxCallCount := grant.maxCallCount
  callCount := grant.callCount
  label := grant.label
  active := decide (now ≤ grant.expiresAtMs) && decide (grant.callCount < grant.maxCallCount)

namespace Machine

def getSession (env : Env) (m : Machine) (sessionPublicKey : String) : Option SessionGrantView :=
  (m.contract.sessionGrants.get sessionPublicKey).map fun grant => sessionGrantView grant env.now

def getProxyGrant (env : Env) (m : Machine) (sessionPublicKey : String) :
    Option ProxyGrantView :=
  (m.contract.proxyGrants.get sessionPublicKey).map fun grant => proxyGrantView grant env.now

end Machine

/-! ## Refusals -/

/-- The result is an error with one of these messages. -/
def RefusedFor {α : Type} (reasons : List String) (result : Except String α) : Prop :=
  ∃ reason ∈ reasons, result = .error reason

namespace RefusedFor

variable {α β : Type} {reasons : List String}

@[simp] theorem ok_iff {a : α} : RefusedFor reasons (.ok a) ↔ False := by
  simp [RefusedFor]

@[simp] theorem error_iff {reason : String} :
    RefusedFor reasons (.error reason : Except String α) ↔ reason ∈ reasons := by
  simp [RefusedFor]

@[simp] theorem bind_iff {x : Except String α} {f : α → Except String β} :
    RefusedFor reasons (x >>= f) ↔
      RefusedFor reasons x ∨ ∃ a, x = .ok a ∧ RefusedFor reasons (f a) := by
  cases x with
  | error reason => simp [bind, Except.bind]
  | ok a => simp [bind, Except.bind]

@[simp] theorem require_iff {condition : Bool} {message : String} :
    RefusedFor reasons (require condition message) ↔
      condition = false ∧ message ∈ reasons := by
  cases condition <;> simp [require]

@[simp] theorem expect_iff {value : Option α} {message : String} :
    RefusedFor reasons (expect value message) ↔ value = none ∧ message ∈ reasons := by
  cases value <;> simp [expect]

end RefusedFor

/-- The refusals of `execute_trigger` for the expiry and the count of a session grant. -/
def sessionReasons : List String := ["session expired", "session fire_count cap reached"]

/-- The refusals of `proxy_call` for the expiry and the count of a proxy grant. -/
def proxyReasons : List String := ["proxy grant expired", "proxy grant call cap reached"]

/-- A message with another stem is not among the reasons. -/
theorem stem_append_not_mem {reasons : List String} {stem : String}
    (other : ∀ reason ∈ reasons, startsWith reason stem = false) (rest : String) :
    stem ++ rest ∉ reasons := by
  intro inside
  have stemmed : startsWith (stem ++ rest) stem = true := startsWith_iff.mpr ⟨rest, rfl⟩
  rw [other _ inside] at stemmed
  cases stemmed

theorem notYielded_not_mem (stepId : String) : Machine.notYielded stepId ∉ sessionReasons := by
  rw [Machine.notYielded, String.append_assoc]
  exact stem_append_not_mem (by decide) _

namespace Machine

/-! ## What refuses a fire -/

/-- Registering steps is never refused in the words of the session checks. -/
theorem registerSteps_reasons {env : Env} {ns : String} (calls : List Step) (m : Machine) :
    ¬ RefusedFor sessionReasons (registerSteps env m ns calls) := by
  induction calls generalizing m with
  | nil => simp [registerSteps, pure, Except.pure]
  | cons call calls ih =>
      change ¬ RefusedFor _ (registerStepInNamespace env m ns call >>= fun m' =>
        registerSteps env m' ns calls)
      have one : ¬ RefusedFor sessionReasons (registerStepInNamespace env m ns call) := by
        simp [registerStepInNamespace, sessionReasons]
      rw [RefusedFor.bind_iff]
      rintro (first | ⟨m', -, later⟩)
      · exact one first
      · exact ih m' later

theorem checkOrder_reasons (m : Machine) (ns : String) (order : List String) :
    ¬ RefusedFor sessionReasons (checkOrder m ns order) := by
  induction order with
  | nil => simp [checkOrder]
  | cons stepId rest ih => simp [checkOrder, notYielded_not_mem, ih]

theorem resumeRegisteredStep_reasons (m : Machine) (ns stepId : String) :
    ¬ RefusedFor sessionReasons (resumeRegisteredStep m ns stepId) := by
  unfold resumeRegisteredStep
  split
  · simp [notYielded_not_mem]
  · split
    · rw [RefusedFor.error_iff, String.append_assoc]
      exact stem_append_not_mem (by decide) _
    · simp

/-- Nor is releasing them. -/
theorem startSequenceRelease_reasons (m : Machine) (ns : String) (order : List String) :
    ¬ RefusedFor sessionReasons (startSequenceReleaseInNamespace m ns order) := by
  unfold startSequenceReleaseInNamespace
  rw [RefusedFor.bind_iff]
  rintro (empty | ⟨-, -, queued⟩)
  · simp [sessionReasons] at empty
  rw [RefusedFor.bind_iff] at queued
  rcases queued with inFlight | ⟨-, -, checked⟩
  · simp [sessionReasons] at inFlight
  rw [RefusedFor.bind_iff] at checked
  rcases checked with missing | ⟨-, -, released⟩
  · exact checkOrder_reasons m ns order missing
  cases order with
  | nil => simp [sessionReasons] at released
  | cons first rest =>
      simp [resumeRegisteredStep_reasons] at released

theorem checkTrigger_reasons (env : Env) (m : Machine) (triggerId : String)
    (trigger : BalanceTrigger) (template : SequenceTemplate) :
    ¬ RefusedFor sessionReasons (checkTrigger env m triggerId trigger template) := by
  simp [checkTrigger, sessionReasons]

/-- The session grant that a fire by this key is checked against is expired or used up. -/
def SessionOver (m : Machine) (pk : PublicKey) (now : Nat) : Prop :=
  ∃ grant, m.contract.sessionGrants.get pk = some grant ∧
    (grant.expiresAtMs < now ∨ grant.maxFireCount ≤ grant.fireCount)

/-- A fire is refused for expiry or count exactly when the grant stored under the text of its
signer's key is expired or used up.  Without such a grant these checks do not run. -/
theorem executeTrigger_refused_iff (fire : Env) (m : Machine) (triggerId : String) :
    RefusedFor sessionReasons (executeTrigger fire m triggerId) ↔
      m.SessionOver fire.signerPk fire.now := by
  have authorizing : RefusedFor sessionReasons (authorizeFire fire m triggerId) ↔
      m.SessionOver fire.signerPk fire.now := by
    unfold authorizeFire SessionOver
    cases stored : m.contract.sessionGrants.get fire.signerPk with
    | none => simp [assertExecutor, sessionReasons]
    | some grant =>
        simp only [RefusedFor.bind_iff, RefusedFor.require_iff, RefusedFor.ok_iff,
          require_eq_ok, Option.some.injEq, exists_eq_left']
        simp [sessionReasons]
        omega
  unfold executeTrigger
  rw [RefusedFor.bind_iff, authorizing]
  refine or_iff_left ?_
  rintro ⟨authorized, -, refused⟩
  simp only [RefusedFor.bind_iff, RefusedFor.expect_iff, RefusedFor.ok_iff,
    checkTrigger_reasons, registerSteps_reasons, startSequenceRelease_reasons, and_false,
    exists_false, or_false] at refused
  simp [sessionReasons] at refused

/-! ## What refuses a proxy call -/

/-- The proxy grant that a call by this key is checked against is expired or used up. -/
def ProxyKeyOver (m : Machine) (pk : PublicKey) (now : Nat) : Prop :=
  ∃ grant, m.contract.proxyGrants.get pk = some grant ∧
    (grant.expiresAtMs < now ∨ grant.maxCallCount ≤ grant.callCount)

/-- A call is refused for expiry or count exactly when the grant stored under the text of its
signer's key is expired or used up. -/
theorem proxyCall_refused_iff (call : Env) (m : Machine) (target : AccountId) (method : String)
    (args : Bytes) :
    RefusedFor proxyReasons (proxyCall call m target method args) ↔
      m.ProxyKeyOver call.signerPk call.now := by
  unfold proxyCall ProxyKeyOver
  cases stored : m.contract.proxyGrants.get call.signerPk with
  | none =>
      simp [expect, proxyReasons]
  | some grant =>
      simp only [expect, RefusedFor.bind_iff, RefusedFor.require_iff, RefusedFor.ok_iff,
        require_eq_ok, Option.some.injEq, exists_eq_left']
      simp [proxyReasons]
      omega

/-! ## The pruners -/

/-- Selecting rows of a map selects a key by its one row. -/
theorem mem_selected_iff {V : Type} {map : IterableMap String V} {k : String} {v : V}
    (stored : map.get k = some v) (select : String × V → Bool) :
    k ∈ (map.entries.filter select).map Prod.fst ↔ select (k, v) = true := by
  constructor
  · intro inside
    obtain ⟨⟨k', v'⟩, row, rfl⟩ := List.mem_map.mp inside
    obtain ⟨entry, selected⟩ := List.mem_filter.mp row
    have same := stored.symm.trans (IterableMap.get_eq_some_iff.mpr entry)
    obtain rfl := Option.some.inj same
    exact selected
  · intro selected
    exact List.mem_map_of_mem
      (List.mem_filter.mpr ⟨IterableMap.get_eq_some_iff.mp stored, selected⟩)

/-- The session pruner removes a grant at its last instant already. -/
theorem revokeExpiredSessions_get_iff (env : Env) {m : Machine} {pk : String}
    {grant : SessionGrant} (stored : m.contract.sessionGrants.get pk = some grant) :
    (m.revokeExpiredSessions env).1.contract.sessionGrants.get pk = none ↔
      grant.expiresAtMs ≤ env.now ∨ grant.maxFireCount ≤ grant.fireCount := by
  rw [(revokeExpiredSessions_eq env m).2.1, IterableMap.get_removeAll, stored]
  simp [expiredSessions, mem_selected_iff stored]
  omega

theorem revokeExpiredProxyKeys_get_iff (env : Env) {m : Machine} {pk : String}
    {grant : ProxyGrant} (stored : m.contract.proxyGrants.get pk = some grant) :
    (m.revokeExpiredProxyKeys env).1.contract.proxyGrants.get pk = none ↔
      grant.expiresAtMs ≤ env.now ∨ grant.maxCallCount ≤ grant.callCount := by
  rw [(revokeExpiredProxyKeys_eq env m).2.1, IterableMap.get_removeAll, stored]
  simp [expiredProxyKeys, mem_selected_iff stored]
  omega

/-! ## Hygiene -/

/-- The pruner at `env` removes the session grant under this text exactly when the fire, signed
by its key, is refused for expiry or count, and the view shows it active exactly when it is
not. -/
structure SessionSwept (env fire : Env) (m : Machine) (text triggerId : String) : Prop where
  pruned : (m.revokeExpiredSessions env).1.contract.sessionGrants.get text = none ↔
    RefusedFor sessionReasons (executeTrigger fire m triggerId)
  active : (m.getSession env text).any SessionGrantView.active = true ↔
    ¬ RefusedFor sessionReasons (executeTrigger fire m triggerId)

/-- The same of a proxy grant and a call signed with its key. -/
structure ProxyKeySwept (env call : Env) (m : Machine) (text : String) (target : AccountId)
    (method : String) (args : Bytes) : Prop where
  pruned : (m.revokeExpiredProxyKeys env).1.contract.proxyGrants.get text = none ↔
    RefusedFor proxyReasons (proxyCall call m target method args)
  active : (m.getProxyGrant env text).any ProxyGrantView.active = true ↔
    ¬ RefusedFor proxyReasons (proxyCall call m target method args)

/-- When hygiene holds of a session grant.  Under the canonical text of its key: away from the
instant of its expiry, or once used up.  Under another text the checks know nothing of it: when
it is live and they refuse nothing, or it is dead and so is the grant they look up. -/
structure SessionAligned (m : Machine) (text : String) (pk : PublicKey) (now : Nat)
    (grant : SessionGrant) : Prop where
  canonical : CanonicalText m.host text pk → now = grant.expiresAtMs →
    grant.maxFireCount ≤ grant.fireCount
  other : ¬ CanonicalText m.host text pk →
    (grant.expiresAtMs ≤ now ∨ grant.maxFireCount ≤ grant.fireCount ↔ m.SessionOver pk now)

/-- When hygiene holds of a proxy grant.  Its view follows the check, so the instant of its expiry
counts under every text. -/
structure ProxyKeyAligned (m : Machine) (text : String) (pk : PublicKey) (now : Nat)
    (grant : ProxyGrant) : Prop where
  boundary : now = grant.expiresAtMs → grant.maxCallCount ≤ grant.callCount
  other : ¬ CanonicalText m.host text pk →
    (grant.expiresAtMs ≤ now ∨ grant.maxCallCount ≤ grant.callCount ↔ m.ProxyKeyOver pk now)

/-- A pruner that removes at the expiry and a check that refuses after it part at that instant
only. -/
theorem parted_iff {now expiry cap count : Nat} :
    ((expiry ≤ now ∨ cap ≤ count) ↔ (expiry < now ∨ cap ≤ count)) ↔
      (now = expiry → cap ≤ count) := by
  constructor
  · intro same boundary
    omega
  · intro unexpiring
    omega

section Sweeping

variable {env signed : Env} {m : Machine} {text : String}

/-- The session view shows what the pruner keeps, so hygiene is that pruner and check agree. -/
theorem sessionSwept_iff {grant : SessionGrant}
    (stored : m.contract.sessionGrants.get text = some grant) (triggerId : String) :
    SessionSwept env signed m text triggerId ↔
      ((grant.expiresAtMs ≤ env.now ∨ grant.maxFireCount ≤ grant.fireCount) ↔
        m.SessionOver signed.signerPk signed.now) := by
  have refused := executeTrigger_refused_iff signed m triggerId
  have pruned := revokeExpiredSessions_get_iff env stored
  have active : (m.getSession env text).any SessionGrantView.active = true ↔
      ¬ (grant.expiresAtMs ≤ env.now ∨ grant.maxFireCount ≤ grant.fireCount) := by
    simp [getSession, stored, sessionGrantView]
  constructor
  · intro swept
    rw [← pruned, ← refused]
    exact swept.pruned
  · intro same
    refine ⟨?_, ?_⟩
    · rw [pruned, refused, same]
    · rw [active, refused, same]

/-- The proxy view shows what a check of the same grant would let pass. -/
theorem proxyKeySwept_iff {grant : ProxyGrant}
    (stored : m.contract.proxyGrants.get text = some grant) (target : AccountId)
    (method : String) (args : Bytes) :
    ProxyKeySwept env signed m text target method args ↔
      (env.now = grant.expiresAtMs → grant.maxCallCount ≤ grant.callCount) ∧
        ((grant.expiresAtMs ≤ env.now ∨ grant.maxCallCount ≤ grant.callCount) ↔
          m.ProxyKeyOver signed.signerPk signed.now) := by
  have refused := proxyCall_refused_iff signed m target method args
  have pruned := revokeExpiredProxyKeys_get_iff env stored
  have active : (m.getProxyGrant env text).any ProxyGrantView.active = true ↔
      ¬ (grant.expiresAtMs < env.now ∨ grant.maxCallCount ≤ grant.callCount) := by
    simp [getProxyGrant, stored, proxyGrantView]
  constructor
  · intro swept
    have follows := pruned.symm.trans (swept.pruned.trans refused)
    have shown := active.symm.trans (swept.active.trans (not_congr refused))
    exact ⟨parted_iff.mp (follows.trans (not_iff_not.mp shown).symm), follows⟩
  · rintro ⟨boundary, same⟩
    refine ⟨?_, ?_⟩
    · rw [pruned, refused, same]
    · rw [active, refused, ← same, parted_iff.mpr boundary]

end Sweeping

/-- For a grant stored under any text, above all one that parses to the signing key, pruner, view
and the check of a call by that key agree exactly when the grant is aligned. -/
theorem hygiene_iff {env signed : Env} {m : Machine} {text : String}
    (sameTime : signed.now = env.now) :
    (∀ grant, m.contract.sessionGrants.get text = some grant → ∀ triggerId,
        (SessionSwept env signed m text triggerId ↔
          SessionAligned m text signed.signerPk env.now grant)) ∧
      ∀ grant, m.contract.proxyGrants.get text = some grant → ∀ target method args,
        (ProxyKeySwept env signed m text target method args ↔
          ProxyKeyAligned m text signed.signerPk env.now grant) := by
  constructor
  · intro grant stored triggerId
    rw [sessionSwept_iff stored triggerId, sameTime]
    -- under the canonical text the check looks up this very grant
    have own : CanonicalText m.host text signed.signerPk →
        (m.SessionOver signed.signerPk env.now ↔
          grant.expiresAtMs < env.now ∨ grant.maxFireCount ≤ grant.fireCount) := by
      intro canonical
      rw [SessionOver, ← canonical.same, stored]
      simp
    constructor
    · intro same
      exact ⟨fun canonical => parted_iff.mp (same.trans (own canonical)), fun _ => same⟩
    · intro aligned
      by_cases canonical : CanonicalText m.host text signed.signerPk
      · exact (parted_iff.mpr (aligned.canonical canonical)).trans (own canonical).symm
      · exact aligned.other canonical
  · intro grant stored target method args
    rw [proxyKeySwept_iff stored target method args, sameTime]
    have own : CanonicalText m.host text signed.signerPk →
        (m.ProxyKeyOver signed.signerPk env.now ↔
          grant.expiresAtMs < env.now ∨ grant.maxCallCount ≤ grant.callCount) := by
      intro canonical
      rw [ProxyKeyOver, ← canonical.same, stored]
      simp
    constructor
    · rintro ⟨boundary, same⟩
      exact ⟨boundary, fun _ => same⟩
    · intro aligned
      refine ⟨aligned.boundary, ?_⟩
      by_cases canonical : CanonicalText m.host text signed.signerPk
      · exact (parted_iff.mpr aligned.boundary).trans (own canonical).symm
      · exact aligned.other canonical

end Machine

/-! ## At the instant of expiry -/

/-- Alice's deployment with a session grant and a proxy grant that both expire at time ten. -/
def expiringGrants : Machine :=
  keyed.run [sessionEnrolment prefixedKey, proxyEnrolment prefixedKey]

/-- The delegated key's call, at that time. -/
def expiryEnv : Env := { delegatedEnv with now := 10 }

theorem hygiene_iff_before_expiry :
    Machine.SessionSwept delegatedEnv delegatedEnv expiringGrants prefixedKey "daily" ∧
      Machine.ProxyKeySwept delegatedEnv delegatedEnv expiringGrants prefixedKey market "trade"
        [] := by
  obtain ⟨sessions, proxies⟩ :=
    @Machine.hygiene_iff delegatedEnv delegatedEnv expiringGrants prefixedKey rfl
  have canonical : CanonicalText expiringGrants.host prefixedKey prefixedKey :=
    ⟨by decide, rfl⟩
  refine ⟨(sessions ⟨prefixedKey, 0, 10, none, 3, 0, none⟩ (by decide) "daily").mpr ⟨?_, ?_⟩,
    (proxies ⟨prefixedKey, 0, 10, [market], none, 5, 30, 2, 0, none⟩ (by decide) market
      "trade" []).mpr ⟨?_, ?_⟩⟩
  · intro _ boundary
    cases boundary
  · exact fun other => absurd canonical other
  · intro boundary
    cases boundary
  · exact fun other => absurd canonical other

/-- At that time the fire and the call still go through, the pruners remove both grants, and
the session view shows its grant as inactive.  A session grant under the bare text of the key is
removed at twenty, when the fire of that key still goes through. -/
theorem usable_grants_pruned :
    expiringGrants.Reachable ∧
      (Machine.executeTrigger expiryEnv expiringGrants "daily").toBool = true ∧
      (Machine.proxyCall expiryEnv expiringGrants market "trade" []).toBool = true ∧
      (expiringGrants.getSession expiryEnv prefixedKey).any SessionGrantView.active = false ∧
      ¬ Machine.SessionSwept expiryEnv expiryEnv expiringGrants prefixedKey "daily" ∧
      ¬ Machine.ProxyKeySwept expiryEnv expiryEnv expiringGrants prefixedKey market "trade" [] ∧
      ¬ Machine.SessionSwept { delegatedEnv with now := 20 } { delegatedEnv with now := 20 }
        (keyed.step (sessionEnrolment bareKey)) bareKey "daily" := by
  have reachable : keyed.Reachable := (Machine.Reachable.init keyHost alice none).run _
  have fired : (Machine.executeTrigger expiryEnv expiringGrants "daily").toBool = true := by
    decide
  have called : (Machine.proxyCall expiryEnv expiringGrants market "trade" []).toBool = true := by
    decide
  refine ⟨reachable.run _, fired, called, by decide, fun swept => ?_, fun swept => ?_,
    fun swept => ?_⟩
  · obtain ⟨reason, -, refused⟩ := swept.pruned.mp (by decide)
    rw [refused] at fired
    cases fired
  · obtain ⟨reason, -, refused⟩ := swept.pruned.mp (by decide)
    rw [refused] at called
    cases called
  · have later : (Machine.executeTrigger { delegatedEnv with now := 20 }
        (keyed.step (sessionEnrolment bareKey)) "daily").toBool = true := by
      decide
    obtain ⟨reason, -, refused⟩ := swept.pruned.mp (by decide)
    rw [refused] at later
    cases later

end SmartAccount
