import SmartAccount.Automation

/-!
# Session keys and proxy keys

Enrolment, use and revocation of delegated function-call keys.  The grant is written
or removed at once; the access key itself is added or deleted by a receipt this
contract sends, to the authorizer where one is set and to its own account otherwise.
-/

namespace SmartAccount

open Foundation

namespace Machine

/-! ## Key receipts -/

/-- The receipt that mints an access key for one method of this contract. -/
def addKeyPromise (env : Env) (m : Machine) (methodName : String) (parsedPk : PublicKey)
    (allowanceYocto : Nat) : Except String Machine :=
  match m.contract.authorizerId with
  | some auth =>
      .ok (m.send env auth (.functionCall
        ⟨auth, "add_session_key",
          .addSessionKey parsedPk allowanceYocto m.host.currentAccountId methodName, 0,
          sessionKeyAuthorizerHopGasTgas⟩))
  | none => do
      require (0 < allowanceYocto) "allowance_yocto must be > 0"
      .ok (m.send env m.host.currentAccountId
        (.addKey parsedPk allowanceYocto m.host.currentAccountId methodName))

/-- The receipt that deletes an access key. -/
def deleteKeyPromise (env : Env) (m : Machine) (parsedPk : PublicKey) : Machine :=
  match m.contract.authorizerId with
  | some auth =>
      m.send env auth (.functionCall
        ⟨auth, "delete_session_key", .deleteSessionKey parsedPk, 0,
          sessionKeyAuthorizerHopGasTgas⟩)
  | none => m.send env m.host.currentAccountId (.deleteKey parsedPk)

def buildSessionAddKeyPromise (env : Env) (m : Machine) (parsedPk : PublicKey)
    (allowanceYocto : Nat) : Except String Machine :=
  addKeyPromise env m "execute_trigger" parsedPk allowanceYocto

def buildSessionDeleteKeyPromise (env : Env) (m : Machine) (parsedPk : PublicKey) : Machine :=
  deleteKeyPromise env m parsedPk

def buildProxyAddKeyPromise (env : Env) (m : Machine) (parsedPk : PublicKey)
    (allowanceYocto : Nat) : Except String Machine :=
  addKeyPromise env m "proxy_call" parsedPk allowanceYocto

def buildProxyDeleteKeyPromise (env : Env) (m : Machine) (parsedPk : PublicKey) : Machine :=
  deleteKeyPromise env m parsedPk

/-! ## Session keys -/

def setSessionGrants (m : Machine) (grants : IterableMap String SessionGrant) : Machine :=
  m.withContract { m.contract with sessionGrants := grants }

def enrollSession (env : Env) (m : Machine) (sessionPublicKey : String) (expiresAtMs : Nat)
    (allowedTriggerIds : Option (List String)) (maxFireCount allowanceYocto : Nat)
    (label : Option String) : Except String Machine := do
  require (1 ≤ env.attachedDeposit)
    "enroll_session requires attaching at least 1 yoctoNEAR (proves full-access-key caller)"
  assertOwner env m
  require (env.now < expiresAtMs) "expires_at_ms must be strictly in the future"
  require (0 < maxFireCount) "max_fire_count must be greater than zero"
  let parsedPk ← expect (m.host.parsePublicKey sessionPublicKey) "invalid session_public_key"
  let grant : SessionGrant := {
    sessionPublicKey := sessionPublicKey
    grantedAtMs := env.now
    expiresAtMs := expiresAtMs
    allowedTriggerIds := allowedTriggerIds
    maxFireCount := maxFireCount
    fireCount := 0
    label := label }
  let recorded := (m.setSessionGrants
    (m.contract.sessionGrants.insert sessionPublicKey grant)).emit
      (.sessionEnrolled grant allowanceYocto)
  buildSessionAddKeyPromise env recorded parsedPk allowanceYocto

def revokeSession (env : Env) (m : Machine) (sessionPublicKey : String) :
    Except String Machine := do
  assertOwner env m
  require (m.contract.sessionGrants.get sessionPublicKey).isSome
    "no session grant for that public key"
  let parsedPk ← expect (m.host.parsePublicKey sessionPublicKey) "invalid session_public_key"
  let removed := (m.setSessionGrants (m.contract.sessionGrants.remove sessionPublicKey)).emit
    (.sessionRevoked sessionPublicKey "explicit")
  .ok (buildSessionDeleteKeyPromise env removed parsedPk)

/-- The grants `revoke_expired_sessions` collects. -/
def expiredSessions (env : Env) (c : Contract) : List String :=
  (c.sessionGrants.entries.filter fun e =>
    e.2.expiresAtMs ≤ env.now || e.2.maxFireCount ≤ e.2.fireCount).map Prod.fst

/-- One pass of the loop of `revoke_expired_sessions`. -/
def revokeExpiredSession (env : Env) (m : Machine) (pk : String) : Machine :=
  let removed := m.setSessionGrants (m.contract.sessionGrants.remove pk)
  let sent := match m.host.parsePublicKey pk with
    | some parsed => buildSessionDeleteKeyPromise env removed parsed
    | none => removed
  sent.emit (.sessionRevoked pk "expired_or_exhausted")

def revokeExpiredSessions (env : Env) (m : Machine) : Machine × Nat :=
  let expired := expiredSessions env m.contract
  (expired.foldl (revokeExpiredSession env) m, expired.length)

/-! ## Proxy keys -/

def setProxyGrants (m : Machine) (grants : IterableMap String ProxyGrant) : Machine :=
  m.withContract { m.contract with proxyGrants := grants }

def enrollProxyKey (env : Env) (m : Machine) (sessionPublicKey : String) (expiresAtMs : Nat)
    (allowedTargets : List AccountId) (allowedMethods : Option (List String))
    (attachYocto maxGasTgas maxCallCount allowanceYocto : Nat) (label : Option String) :
    Except String Machine := do
  require (1 ≤ env.attachedDeposit)
    "enroll_proxy_key requires attaching at least 1 yoctoNEAR (proves full-access-key caller)"
  assertOwner env m
  require (env.now < expiresAtMs) "expires_at_ms must be strictly in the future"
  require (0 < maxCallCount) "max_call_count must be greater than zero"
  require (allowedTargets ≠ []) "allowed_targets must be non-empty"
  require (0 < maxGasTgas && maxGasTgas ≤ 200) "max_gas_tgas must be in (0, 200]"
  require (allowedMethods.all fun methods => methods ≠ [])
    "allowed_methods must be `None` or a non-empty Vec"
  let parsedPk ← expect (m.host.parsePublicKey sessionPublicKey) "invalid session_public_key"
  let grant : ProxyGrant := {
    sessionPublicKey := sessionPublicKey
    grantedAtMs := env.now
    expiresAtMs := expiresAtMs
    allowedTargets := allowedTargets
    allowedMethods := allowedMethods
    attachYocto := attachYocto
    maxGasTgas := maxGasTgas
    maxCallCount := maxCallCount
    callCount := 0
    label := label }
  let recorded := (m.setProxyGrants
    (m.contract.proxyGrants.insert sessionPublicKey grant)).emit
      (.proxyKeyEnrolled grant allowanceYocto)
  buildProxyAddKeyPromise env recorded parsedPk allowanceYocto

/-- The proxy grant after one more call. -/
def ProxyGrant.called (grant : ProxyGrant) : ProxyGrant :=
  { grant with callCount := grant.callCount + 1 }

def proxyCall (env : Env) (m : Machine) (target : AccountId) (method : String) (args : Bytes) :
    Except String Machine := do
  let grant ← expect (m.contract.proxyGrants.get env.signerPk) "no proxy grant for signer key"
  require (env.now ≤ grant.expiresAtMs) "proxy grant expired"
  require (grant.callCount < grant.maxCallCount) "proxy grant call cap reached"
  require (target ∈ grant.allowedTargets) "target not in allowed_targets"
  require (grant.allowedMethods.all fun methods => method ∈ methods)
    "method not in allowed_methods"
  let updated := ProxyGrant.called grant
  let recorded := (m.setProxyGrants
    (m.contract.proxyGrants.insert env.signerPk updated)).emit
      (.proxyCallDispatched env.signerPk target method args.length grant.attachYocto
        grant.maxGasTgas updated.callCount grant.maxCallCount grant.label)
  .ok (recorded.send env target
    (.functionCall ⟨target, method, .raw args, grant.attachYocto, grant.maxGasTgas⟩))

def revokeProxyKey (env : Env) (m : Machine) (sessionPublicKey : String) :
    Except String Machine := do
  assertOwner env m
  require (m.contract.proxyGrants.get sessionPublicKey).isSome
    "no proxy grant for that public key"
  let parsedPk ← expect (m.host.parsePublicKey sessionPublicKey) "invalid session_public_key"
  let removed := (m.setProxyGrants (m.contract.proxyGrants.remove sessionPublicKey)).emit
    (.proxyKeyRevoked sessionPublicKey "explicit")
  .ok (buildProxyDeleteKeyPromise env removed parsedPk)

/-- The grants `revoke_expired_proxy_keys` collects. -/
def expiredProxyKeys (env : Env) (c : Contract) : List String :=
  (c.proxyGrants.entries.filter fun e =>
    e.2.expiresAtMs ≤ env.now || e.2.maxCallCount ≤ e.2.callCount).map Prod.fst

/-- One pass of the loop of `revoke_expired_proxy_keys`. -/
def revokeExpiredProxyKey (env : Env) (m : Machine) (pk : String) : Machine :=
  let removed := m.setProxyGrants (m.contract.proxyGrants.remove pk)
  let sent := match m.host.parsePublicKey pk with
    | some parsed => buildProxyDeleteKeyPromise env removed parsed
    | none => removed
  sent.emit (.proxyKeyRevoked pk "expired_or_exhausted")

def revokeExpiredProxyKeys (env : Env) (m : Machine) : Machine × Nat :=
  let expired := expiredProxyKeys env m.contract
  (expired.foldl (revokeExpiredProxyKey env) m, expired.length)

end Machine

end SmartAccount
