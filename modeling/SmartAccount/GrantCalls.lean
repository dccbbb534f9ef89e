import SmartAccount.KeyReceipts

/-!
# What a call makes of the grants

A call that manages keys adds one grant and sends the receipt for its key, or drops some grants
and sends a receipt for each of their keys, or leaves them all as they are (`Managed.of_effect`).
-/

namespace SmartAccount

open Foundation

namespace KeyWorld

/-! ## What a call does to the grants -/

section Grants

variable {c c' : Contract} {pk : PublicKey}

theorem grantedMethod_eq_none : grantedMethod c pk = none ↔
    c.sessionGrants.get pk = none ∧ c.proxyGrants.get pk = none := by
  unfold grantedMethod
  split
  · rename_i session
    exact ⟨fun absent => absurd absent (Option.some_ne_none _), fun both => absurd both.1 session⟩
  · rename_i session
    split
    · rename_i proxy
      exact ⟨fun absent => absurd absent (Option.some_ne_none _), fun both => absurd both.2 proxy⟩
    · rename_i proxy
      exact ⟨fun _ => ⟨not_not.mp session, not_not.mp proxy⟩, fun _ => rfl⟩

theorem grantedMethod_of_session (session : c.sessionGrants.get pk ≠ none) :
    grantedMethod c pk = some "execute_trigger" := if_pos session

theorem grantedMethod_of_proxy (session : c.sessionGrants.get pk = none)
    (proxy : c.proxyGrants.get pk ≠ none) : grantedMethod c pk = some "proxy_call" := by
  rw [grantedMethod, if_neg (not_not.mpr session), if_pos proxy]

theorem sessionGrants_of_grantedMethod (granted : grantedMethod c pk = some "execute_trigger") :
    c.sessionGrants.get pk ≠ none := by
  intro session
  rw [grantedMethod, if_neg (not_not.mpr session)] at granted
  split at granted
  · exact absurd (Option.some.inj granted) (by decide)
  · cases granted

theorem proxyGrants_of_grantedMethod (granted : grantedMethod c pk = some "proxy_call") :
    c.sessionGrants.get pk = none ∧ c.proxyGrants.get pk ≠ none := by
  unfold grantedMethod at granted
  split at granted
  · exact absurd (Option.some.inj granted) (by decide)
  · rename_i session
    split at granted
    · rename_i proxy
      exact ⟨not_not.mp session, proxy⟩
    · cases granted

/-- The same grants, the same methods. -/
theorem grantedMethod_congr
    (sessions : c'.sessionGrants.get pk = none ↔ c.sessionGrants.get pk = none)
    (proxies : c'.proxyGrants.get pk = none ↔ c.proxyGrants.get pk = none) :
    grantedMethod c' pk = grantedMethod c pk := by
  unfold grantedMethod
  simp only [ne_eq, sessions, proxies]

end Grants

/-- An enrolled key is canonical and was not the account's own. -/
theorem Tended.enrolled {original : AccountId → AccessKeys} {w : KeyWorld}
    (tended : Tended original w) {env : Env} {methodName : String} {pk : String}
    {allowanceYocto : Nat} (enrols : Enrols original w env methodName pk allowanceYocto) :
    w.machine.host.parsePublicKey pk = some pk ∧ (original w.holder).get pk = none := by
  rcases enrols with again | ⟨-, canonical, unused, -⟩
  · have granted : grantedMethod w.machine.contract pk ≠ none := by
      rw [again]
      exact Option.some_ne_none _
    exact ⟨tended.canonical pk granted, tended.unused pk granted⟩
  · exact ⟨canonical, unused⟩

/-- What an accepted call leaves of the grants, and the receipts it sends. -/
inductive Managed (original : AccountId → AccessKeys) (w : KeyWorld) (env : Env) (c : Contract) :
    List Receipt → Prop
  | rehold (granted : ∀ pk, grantedMethod c pk = grantedMethod w.machine.contract pk)
      (held : c.authorizerId.getD w.self = w.holder ∨
        ∀ pk, grantedMethod w.machine.contract pk = none) :
      Managed original w env c []
  | enrol {methodName : String} {pk : PublicKey} {allowanceYocto : Nat}
      (single : NamesOneMethod methodName)
      (enrols : Enrols original w env methodName pk allowanceYocto)
      (authorizer : c.authorizerId = w.machine.contract.authorizerId)
      (granted : ∀ pk', grantedMethod c pk' =
        if pk' = pk then some methodName else grantedMethod w.machine.contract pk') :
      Managed original w env c [w.machine.addKeyReceipt env methodName pk allowanceYocto]
  | revoke {pks : List PublicKey} (heard : pks ≠ [] → w.Heard env)
      (stored : ∀ pk ∈ pks, grantedMethod w.machine.contract pk ≠ none)
      (authorizer : c.authorizerId = w.machine.contract.authorizerId)
      (granted : ∀ pk, grantedMethod c pk =
        if pk ∈ pks then none else grantedMethod w.machine.contract pk) :
      Managed original w env c (pks.map (w.machine.deleteKeyReceipt env))

namespace Managed

variable {original : AccountId → AccessKeys} {w : KeyWorld} {env : Env} {c : Contract}

theorem enrolSession (tended : Tended original w) {pk : PublicKey} {allowanceYocto : Nat}
    (enrols : Enrols original w env "execute_trigger" pk allowanceYocto)
    (authorizer : c.authorizerId = w.machine.contract.authorizerId) {grant : SessionGrant}
    (sessions : c.sessionGrants = w.machine.contract.sessionGrants.insert pk grant)
    (proxies : c.proxyGrants = w.machine.contract.proxyGrants) :
    Managed original w env c
        [w.machine.addKeyReceipt env "execute_trigger" pk allowanceYocto] ∧
      ∀ pk', c.sessionGrants.get pk' ≠ none → c.proxyGrants.get pk' = none := by
  have stored : c.sessionGrants.get pk ≠ none := by
    rw [sessions, IterableMap.get_insert_self]
    exact Option.some_ne_none _
  have other : ∀ pk', pk' ≠ pk →
      c.sessionGrants.get pk' = w.machine.contract.sessionGrants.get pk' := by
    intro pk' distinct
    rw [sessions, IterableMap.get_insert_of_ne _ _ distinct]
  refine ⟨.enrol (by decide) enrols authorizer fun pk' => ?_, fun pk' session => ?_⟩
  · by_cases same : pk' = pk
    · rw [if_pos same, same]
      exact grantedMethod_of_session stored
    · rw [if_neg same]
      exact grantedMethod_congr (by rw [other pk' same]) (by rw [proxies])
  · rw [proxies]
    by_cases same : pk' = pk
    · subst same
      rcases enrols with again | ⟨absent, -⟩
      · exact tended.apart _ (sessionGrants_of_grantedMethod again)
      · exact (grantedMethod_eq_none.mp absent).2
    · rw [other pk' same] at session
      exact tended.apart pk' session

theorem enrolProxy (tended : Tended original w) {pk : PublicKey} {allowanceYocto : Nat}
    (enrols : Enrols original w env "proxy_call" pk allowanceYocto)
    (authorizer : c.authorizerId = w.machine.contract.authorizerId) {grant : ProxyGrant}
    (proxies : c.proxyGrants = w.machine.contract.proxyGrants.insert pk grant)
    (sessions : c.sessionGrants = w.machine.contract.sessionGrants) :
    Managed original w env c [w.machine.addKeyReceipt env "proxy_call" pk allowanceYocto] ∧
      ∀ pk', c.sessionGrants.get pk' ≠ none → c.proxyGrants.get pk' = none := by
  have unsessioned : w.machine.contract.sessionGrants.get pk = none := by
    rcases enrols with again | ⟨absent, -⟩
    · exact (proxyGrants_of_grantedMethod again).1
    · exact (grantedMethod_eq_none.mp absent).1
  have stored : c.proxyGrants.get pk ≠ none := by
    rw [proxies, IterableMap.get_insert_self]
    exact Option.some_ne_none _
  have other : ∀ pk', pk' ≠ pk →
      c.proxyGrants.get pk' = w.machine.contract.proxyGrants.get pk' := by
    intro pk' distinct
    rw [proxies, IterableMap.get_insert_of_ne _ _ distinct]
  refine ⟨.enrol (by decide) enrols authorizer fun pk' => ?_, fun pk' session => ?_⟩
  · by_cases same : pk' = pk
    · rw [if_pos same, same]
      exact grantedMethod_of_proxy (sessions ▸ unsessioned) stored
    · rw [if_neg same]
      exact grantedMethod_congr (by rw [sessions]) (by rw [other pk' same])
  · rw [sessions] at session
    have distinct : pk' ≠ pk := by
      rintro rfl
      exact session unsessioned
    rw [other pk' distinct]
    exact tended.apart pk' session

theorem revokeSessions (tended : Tended original w) {pks : List PublicKey}
    (heard : pks ≠ [] → w.Heard env)
    (stored : ∀ pk ∈ pks, w.machine.contract.sessionGrants.get pk ≠ none)
    (authorizer : c.authorizerId = w.machine.contract.authorizerId)
    (sessions : c.sessionGrants = w.machine.contract.sessionGrants.removeAll pks)
    (proxies : c.proxyGrants = w.machine.contract.proxyGrants) :
    Managed original w env c (pks.map (w.machine.deleteKeyReceipt env)) ∧
      ∀ pk', c.sessionGrants.get pk' ≠ none → c.proxyGrants.get pk' = none := by
  have left : ∀ pk, c.sessionGrants.get pk =
      if pk ∈ pks then none else w.machine.contract.sessionGrants.get pk := fun pk => by
    rw [sessions, IterableMap.get_removeAll]
  refine ⟨.revoke heard (fun pk inside absent => stored pk inside
    (grantedMethod_eq_none.mp absent).1) authorizer fun pk => ?_, fun pk session => ?_⟩
  · by_cases inside : pk ∈ pks
    · rw [if_pos inside, grantedMethod_eq_none, left, if_pos inside, proxies]
      exact ⟨rfl, tended.apart pk (stored pk inside)⟩
    · rw [if_neg inside]
      exact grantedMethod_congr (by rw [left, if_neg inside]) (by rw [proxies])
  · rw [left] at session
    split at session
    · exact absurd rfl session
    · rw [proxies]
      exact tended.apart pk session

theorem revokeProxies (tended : Tended original w) {pks : List PublicKey}
    (heard : pks ≠ [] → w.Heard env)
    (stored : ∀ pk ∈ pks, w.machine.contract.proxyGrants.get pk ≠ none)
    (authorizer : c.authorizerId = w.machine.contract.authorizerId)
    (proxies : c.proxyGrants = w.machine.contract.proxyGrants.removeAll pks)
    (sessions : c.sessionGrants = w.machine.contract.sessionGrants) :
    Managed original w env c (pks.map (w.machine.deleteKeyReceipt env)) ∧
      ∀ pk', c.sessionGrants.get pk' ≠ none → c.proxyGrants.get pk' = none := by
  have left : ∀ pk, c.proxyGrants.get pk =
      if pk ∈ pks then none else w.machine.contract.proxyGrants.get pk := fun pk => by
    rw [proxies, IterableMap.get_removeAll]
  refine ⟨.revoke heard (fun pk inside absent => stored pk inside
    (grantedMethod_eq_none.mp absent).2) authorizer fun pk => ?_, fun pk session => ?_⟩
  · by_cases inside : pk ∈ pks
    · rw [if_pos inside, grantedMethod_eq_none, left, if_pos inside, sessions]
      refine ⟨?_, rfl⟩
      by_contra session
      exact stored pk inside (tended.apart pk session)
    · rw [if_neg inside]
      exact grantedMethod_congr (by rw [sessions]) (by rw [left, if_neg inside])
  · rw [left]
    split
    · rfl
    · rw [sessions] at session
      exact tended.apart pk session

theorem stored_of_expired {V : Type} {grants : IterableMap String V} {expired : V → Bool}
    {pk : PublicKey}
    (inside : pk ∈ (grants.entries.filter fun e => expired e.2).map Prod.fst) :
    grants.get pk ≠ none := by
  obtain ⟨⟨pk', grant⟩, kept, rfl⟩ := List.mem_map.mp inside
  rw [IterableMap.get_eq_some_iff.mpr (List.mem_filter.mp kept).1]
  exact Option.some_ne_none _

/-- Granted keys are canonical, so an expiry loop sends a receipt for each. -/
theorem expiryReceipts_eq (tended : Tended original w) (env : Env) {pks : List PublicKey}
    (stored : ∀ pk ∈ pks, grantedMethod w.machine.contract pk ≠ none) :
    w.machine.expiryReceipts env pks = pks.map (w.machine.deleteKeyReceipt env) := by
  unfold Machine.expiryReceipts
  rw [List.filterMap_congr fun pk inside => tended.canonical pk (stored pk inside),
    List.filterMap_some]

/-- Every accepted call of these methods. -/
theorem of_effect (tended : Tended original w) {method : PublicCall} {m' : Machine}
    (manages : method.managesKeys = true) (orderly : OrderlyCall original w env method)
    (effect : Machine.Effect env w.machine method m') :
    m'.host = w.machine.host ∧ ∃ receipts, m'.receipts = w.machine.receipts ++ receipts ∧
      Managed original w env m'.contract receipts ∧
      ∀ pk, m'.contract.sessionGrants.get pk ≠ none → m'.contract.proxyGrants.get pk = none := by
  have single : ∀ {methodName : String} {pk parsed : PublicKey} {allowanceYocto : Nat},
      Enrols original w env methodName pk allowanceYocto →
      w.machine.host.parsePublicKey pk = some parsed → parsed = pk :=
    fun enrols known => Option.some.inj (known.symm.trans (tended.enrolled enrols).1)
  have session : ∀ {pk : PublicKey}, w.machine.contract.sessionGrants.get pk ≠ none →
      grantedMethod w.machine.contract pk ≠ none :=
    fun stored absent => stored (grantedMethod_eq_none.mp absent).1
  have proxy : ∀ {pk : PublicKey}, w.machine.contract.proxyGrants.get pk ≠ none →
      grantedMethod w.machine.contract pk ≠ none :=
    fun stored absent => stored (grantedMethod_eq_none.mp absent).2
  cases effect with
  | setAuthorizer owner =>
      refine ⟨rfl, [], (List.append_nil _).symm, .rehold (fun _ => rfl) ?_, tended.apart⟩
      rcases orderly with kept | ⟨sessions, proxies⟩
      · exact .inl kept
      · refine .inr fun pk => grantedMethod_eq_none.mpr ⟨?_, ?_⟩
        · rw [IterableMap.get, sessions]
          rfl
        · rw [IterableMap.get, proxies]
          rfl
  | enrollSession attached owner known funded =>
      cases single orderly known
      exact ⟨rfl, _, rfl, enrolSession tended orderly rfl rfl rfl⟩
  | revokeSession owner stored known =>
      rename_i pk parsed
      cases Option.some.inj (known.symm.trans (tended.canonical pk (session stored)))
      refine ⟨rfl, [w.machine.deleteKeyReceipt env pk], rfl, ?_⟩
      show Managed original w env _ ([pk].map (w.machine.deleteKeyReceipt env)) ∧ _
      exact revokeSessions tended (fun _ => orderly)
        (fun pk' inside => List.mem_singleton.mp inside ▸ stored) rfl rfl rfl
  | revokeExpiredSessions =>
      obtain ⟨host, contract, receipts⟩ := Machine.revokeExpiredSessions_eq env w.machine
      have stored : ∀ pk ∈ Machine.expiredSessions env w.machine.contract,
          w.machine.contract.sessionGrants.get pk ≠ none := fun pk =>
        @stored_of_expired SessionGrant _ (fun grant =>
          grant.expiresAtMs ≤ env.now || grant.maxFireCount ≤ grant.fireCount) pk
      rw [expiryReceipts_eq tended env fun pk inside => session (stored pk inside)] at receipts
      refine ⟨host, _, receipts, ?_⟩
      rw [contract]
      exact revokeSessions tended orderly stored rfl rfl rfl
  | enrollProxyKey attached owner known funded =>
      cases single orderly known
      exact ⟨rfl, _, rfl, enrolProxy tended orderly rfl rfl rfl⟩
  | revokeProxyKey owner stored known =>
      rename_i pk parsed
      cases Option.some.inj (known.symm.trans (tended.canonical pk (proxy stored)))
      refine ⟨rfl, [w.machine.deleteKeyReceipt env pk], rfl, ?_⟩
      show Managed original w env _ ([pk].map (w.machine.deleteKeyReceipt env)) ∧ _
      exact revokeProxies tended (fun _ => orderly)
        (fun pk' inside => List.mem_singleton.mp inside ▸ stored) rfl rfl rfl
  | revokeExpiredProxyKeys =>
      obtain ⟨host, contract, receipts⟩ := Machine.revokeExpiredProxyKeys_eq env w.machine
      have stored : ∀ pk ∈ Machine.expiredProxyKeys env w.machine.contract,
          w.machine.contract.proxyGrants.get pk ≠ none := fun pk =>
        @stored_of_expired ProxyGrant _ (fun grant =>
          grant.expiresAtMs ≤ env.now || grant.maxCallCount ≤ grant.callCount) pk
      rw [expiryReceipts_eq tended env fun pk inside => proxy (stored pk inside)] at receipts
      refine ⟨host, _, receipts, ?_⟩
      rw [contract]
      exact revokeProxies tended orderly stored rfl rfl rfl
  | setAuthorizedExecutor owner => cases manages
  | executeSteps executor sequencing => cases manages
  | registerStep sequencing => cases manages
  | runSequence executor sequencing => cases manages
  | saveSequenceTemplate template owner => cases manages
  | deleteSequenceTemplate owner => cases manages
  | createBalanceTrigger template owner absent => cases manages
  | deleteBalanceTrigger owner => cases manages
  | executeTrigger authorized stored undisturbed books contexts execution ran about nonce named =>
      cases manages
  | pruneFinishedAutomationRuns => cases manages
  | proxyCall stored inTime left aimed permitted => cases manages

end Managed

end KeyWorld

end SmartAccount
