import SmartAccount.GrantCalls

/-!
# Grants and access keys stay in step

A function-call key of the contract's is there if and only if its grant is, once everything has
settled, as long as every operation of the run is `Orderly` (`grants_match_access_keys`).  Anyone
may drop the expired grants, and in extension mode the authorizer refuses to delete the keys
behind them (`expired_grant_leaves_its_key`).
-/

namespace SmartAccount

open Foundation

namespace KeyWorld

/-! ## Grants and keys stay in step -/

section Calls

variable {original : AccountId → AccessKeys} {w : KeyWorld}

theorem self_withMachine {m' : Machine} (host : m'.host = w.machine.host) :
    ({ w with machine := m' } : KeyWorld).self = w.self :=
  congrArg Host.currentAccountId host

theorem forecast_withMachine {m' : Machine} (host : m'.host = w.machine.host) :
    ({ w with machine := m' } : KeyWorld).forecast = w.forecast := by
  funext account pk
  unfold forecast
  rw [self_withMachine host]
  rfl

theorem Steady.withMachine (steady : Steady original w) {m' : Machine}
    (host : m'.host = w.machine.host) : Steady original { w with machine := m' } where
  account := steady.account
  calls := steady.calls
  pending := by
    rw [self_withMachine host]
    exact steady.pending
  underway := by
    rw [self_withMachine host]
    exact steady.underway
  logged := by
    rw [self_withMachine host]
    exact steady.logged

/-- What is sent to the holding account changes no key of another. -/
theorem replays_away {receipts : List Receipt}
    (sent : ∀ receipt ∈ receipts, receipt.receiverId = w.holder) {account : AccountId}
    (away : account ≠ w.holder) (pk : PublicKey) (permission : Option Permission) :
    receipts.foldl (Receipt.replay w.authorizers w.self account pk) permission = permission := by
  refine foldl_elsewhere Receipt.replay_elsewhere (fun receipt inside target => ?_) permission
  obtain ⟨_, -, same⟩ := Option.map_eq_some_iff.mp target
  obtain ⟨here, -⟩ := Prod.mk.inj same
  exact away (here.symm.trans (sent receipt inside))

/-- Deletions that are heard delete the keys they name and no other. -/
theorem replay_deletions {env : Env} {pks : List PublicKey} (heard : pks ≠ [] → w.Heard env)
    (pk : PublicKey) (permission : Option Permission) :
    (pks.map (w.machine.deleteKeyReceipt env)).foldl
        (Receipt.replay w.authorizers w.self w.holder pk) permission =
      if pk ∈ pks then none else permission := by
  induction pks generalizing permission with
  | nil => exact (if_neg List.not_mem_nil).symm
  | cons pk' pks ih =>
      have heard' := heard (List.cons_ne_nil _ _)
      have first : (w.machine.deleteKeyReceipt env pk').replay w.authorizers w.self w.holder pk
          permission = if pk' = pk then none else permission := by
        rw [Receipt.replay, if_pos (receiver_deleteKeyReceipt w env pk'),
          requested_deleteKeyReceipt heard']
        rfl
      rw [List.map_cons, List.foldl_cons, ih fun _ => heard', first]
      simp only [List.mem_cons]
      by_cases head : pk' = pk
      · rw [if_pos head, if_pos (Or.inl head.symm : pk = pk' ∨ pk ∈ pks)]
        exact ite_self none
      · have other : ¬ pk = pk' := fun same => head same.symm
        simp only [if_neg head, other, false_or]

/-- An enrolment leaves the key with the permission that goes with the method, and every
other key alone. -/
theorem replay_enrolment (tended : Tended original w) {env : Env} {methodName : String}
    (single : NamesOneMethod methodName) {pk : PublicKey} {allowanceYocto : Nat}
    (enrols : Enrols original w env methodName pk allowanceYocto) (pk' : PublicKey) :
    Fits w.self ((original w.holder).get pk')
      ((w.machine.addKeyReceipt env methodName pk allowanceYocto).replay w.authorizers w.self
        w.holder pk' (w.forecast w.holder pk'))
      (if pk' = pk then some methodName else grantedMethod w.machine.contract pk') := by
  have fits := tended.fits pk'
  rw [Receipt.replay, if_pos (receiver_addKeyReceipt ..)]
  by_cases same : pk' = pk
  · subst same
    rw [if_pos rfl]
    rcases enrols with again | ⟨absent, -, unused, positive, heard⟩
    · rw [again] at fits
      obtain ⟨allowance, present⟩ := fits
      rcases requested_addKeyReceipt_cases w env methodName pk' allowanceYocto with
        refused | requested
      · rw [refused]
        exact ⟨allowance, present⟩
      · rw [requested]
        refine ⟨allowance, ?_⟩
        dsimp only [Action.replay]
        rw [if_pos rfl, present, Option.some_or]
    · rw [absent] at fits
      have nothing : w.forecast w.holder pk' = none := fits.trans unused
      rw [requested_addKeyReceipt heard single pk' positive]
      refine ⟨allowanceYocto, ?_⟩
      dsimp only [Action.replay]
      rw [if_pos rfl, nothing, Option.none_or, single.split]
      rfl
  · rw [if_neg same]
    rcases requested_addKeyReceipt_cases w env methodName pk allowanceYocto with
      refused | requested
    · rw [refused]
      exact fits
    · rw [requested]
      dsimp only [Action.replay]
      rw [if_neg fun eq => same eq.symm]
      exact fits

/-- What a call sends concerns no key of the account's own. -/
theorem Managed.posted (tended : Tended original w) {env : Env} {c : Contract}
    {receipts : List Receipt} (managed : Managed original w env c receipts) :
    ∀ receipt ∈ receipts, Posted w.self receipt ∧
      ∀ target ∈ receipt.target w.authorizers w.self,
        (original target.1).get target.2 = none := by
  cases managed with
  | rehold granted held => exact fun receipt inside => absurd inside List.not_mem_nil
  | enrol single enrols authorizer granted =>
      rename_i methodName pk allowanceYocto
      intro receipt inside
      rw [List.mem_singleton.mp inside]
      refine ⟨posted_addKeyReceipt .., fun target about => ?_⟩
      have unused := (tended.enrolled enrols).2
      rw [Receipt.target, receiver_addKeyReceipt] at about
      rcases requested_addKeyReceipt_cases w env methodName pk allowanceYocto with
        refused | requested
      · rw [refused] at about
        cases about
      · rw [requested] at about
        cases about
        exact unused
  | revoke heard stored authorizer granted =>
      intro receipt inside
      obtain ⟨pk, revoked, rfl⟩ := List.mem_map.mp inside
      refine ⟨posted_deleteKeyReceipt .., fun target about => ?_⟩
      rw [Receipt.target, receiver_deleteKeyReceipt,
        requested_deleteKeyReceipt (heard (List.ne_nil_of_mem revoked))] at about
      cases about
      exact tended.unused pk (stored pk revoked)

/-- A call has left this contract, and these receipts are on their way. -/
structure Sent (original : AccountId → AccessKeys) (w w' : KeyWorld) (c : Contract)
    (receipts : List Receipt) : Prop where
  steady : Steady original w'
  host : w'.machine.host = w.machine.host
  contract : w'.machine.contract = c
  forecast : ∀ account pk, w'.forecast account pk =
    receipts.foldl (Receipt.replay w.authorizers w.self account pk) (w.forecast account pk)
  apart : ∀ pk, c.sessionGrants.get pk ≠ none → c.proxyGrants.get pk = none

theorem Sent.self {w' : KeyWorld} {c : Contract} {receipts : List Receipt}
    (sent : Sent original w w' c receipts) : w'.self = w.self :=
  congrArg Host.currentAccountId sent.host

theorem Sent.holder {w' : KeyWorld} {c : Contract} {receipts : List Receipt}
    (sent : Sent original w w' c receipts)
    (authorizer : c.authorizerId = w.machine.contract.authorizerId) : w'.holder = w.holder := by
  unfold KeyWorld.holder
  rw [sent.self, sent.contract, authorizer]

/-- Where no grant changes, neither does the account that holds the keys, unless no key is
granted at all. -/
theorem Tended.rehold (tended : Tended original w) {w' : KeyWorld} {c : Contract}
    (sent : Sent original w w' c [])
    (granted : ∀ pk, grantedMethod c pk = grantedMethod w.machine.contract pk)
    (held : c.authorizerId.getD w.self = w.holder ∨
      ∀ pk, grantedMethod w.machine.contract pk = none) : Tended original w' := by
  have holder : w'.holder = w.holder ∨ ∀ pk, grantedMethod w.machine.contract pk = none := by
    unfold KeyWorld.holder
    rw [sent.self, sent.contract]
    exact held
  have absent : (∀ pk, grantedMethod w.machine.contract pk = none) → ∀ pk,
      w.forecast w.holder pk = (original w.holder).get pk := by
    intro nothing pk
    have fits := tended.fits pk
    rw [nothing pk] at fits
    exact fits
  refine { sent.steady with
    canonical := ?_, unused := ?_, apart := ?_, elsewhere := ?_, fits := ?_ }
  · rw [sent.contract, sent.host]
    simp only [granted]
    exact tended.canonical
  · rw [sent.contract]
    intro pk stored
    rw [granted] at stored
    rcases holder with same | nothing
    · rw [same]
      exact tended.unused pk stored
    · exact absurd (nothing pk) stored
  · rw [sent.contract]
    exact sent.apart
  · intro account away pk
    refine (sent.forecast account pk).trans ?_
    by_cases same : account = w.holder
    · rcases holder with kept | nothing
      · exact absurd (same.trans kept.symm) away
      · rw [same]
        exact absent nothing pk
    · exact tended.elsewhere account same pk
  · intro pk
    rw [sent.forecast, sent.self, sent.contract, granted]
    rcases holder with same | nothing
    · rw [same]
      exact tended.fits pk
    · rw [nothing pk]
      by_cases same : w'.holder = w.holder
      · rw [same]
        exact absent nothing pk
      · exact tended.elsewhere _ same pk

/-- An enrolment grants one key, and its receipt adds that key. -/
theorem Tended.enrol (tended : Tended original w) {w' : KeyWorld} {c : Contract} {env : Env}
    {methodName : String} {pk : PublicKey} {allowanceYocto : Nat}
    (sent : Sent original w w' c [w.machine.addKeyReceipt env methodName pk allowanceYocto])
    (single : NamesOneMethod methodName)
    (enrols : Enrols original w env methodName pk allowanceYocto)
    (authorizer : c.authorizerId = w.machine.contract.authorizerId)
    (granted : ∀ pk', grantedMethod c pk' =
      if pk' = pk then some methodName else grantedMethod w.machine.contract pk') :
    Tended original w' := by
  obtain ⟨canonical, unused⟩ := tended.enrolled enrols
  have holder := sent.holder authorizer
  refine { sent.steady with
    canonical := ?_, unused := ?_, apart := ?_, elsewhere := ?_, fits := ?_ }
  · rw [sent.contract, sent.host]
    intro pk' stored
    rw [granted] at stored
    split at stored
    · rename_i same
      exact same ▸ canonical
    · exact tended.canonical pk' stored
  · rw [sent.contract, holder]
    intro pk' stored
    rw [granted] at stored
    split at stored
    · rename_i same
      exact same ▸ unused
    · exact tended.unused pk' stored
  · rw [sent.contract]
    exact sent.apart
  · intro account away pk'
    rw [holder] at away
    rw [sent.forecast, replays_away (fun receipt inside => ?_) away]
    · exact tended.elsewhere account away pk'
    · rw [List.mem_singleton.mp inside]
      exact receiver_addKeyReceipt ..
  · intro pk'
    rw [sent.forecast, sent.self, sent.contract, holder, granted]
    exact replay_enrolment tended single enrols pk'

/-- A revocation drops grants, and its receipts delete their keys. -/
theorem Tended.revoke (tended : Tended original w) {w' : KeyWorld} {c : Contract} {env : Env}
    {pks : List PublicKey}
    (sent : Sent original w w' c (pks.map (w.machine.deleteKeyReceipt env)))
    (heard : pks ≠ [] → w.Heard env)
    (stored : ∀ pk ∈ pks, grantedMethod w.machine.contract pk ≠ none)
    (authorizer : c.authorizerId = w.machine.contract.authorizerId)
    (granted : ∀ pk, grantedMethod c pk =
      if pk ∈ pks then none else grantedMethod w.machine.contract pk) : Tended original w' := by
  have holder := sent.holder authorizer
  have earlier : ∀ pk, grantedMethod c pk ≠ none →
      grantedMethod w.machine.contract pk ≠ none := by
    intro pk kept
    rw [granted] at kept
    split at kept
    · exact absurd rfl kept
    · exact kept
  refine { sent.steady with
    canonical := ?_, unused := ?_, apart := ?_, elsewhere := ?_, fits := ?_ }
  · rw [sent.contract, sent.host]
    exact fun pk kept => tended.canonical pk (earlier pk kept)
  · rw [sent.contract, holder]
    exact fun pk kept => tended.unused pk (earlier pk kept)
  · rw [sent.contract]
    exact sent.apart
  · intro account away pk
    rw [holder] at away
    rw [sent.forecast, replays_away (fun receipt inside => ?_) away]
    · exact tended.elsewhere account away pk
    · obtain ⟨pk', -, rfl⟩ := List.mem_map.mp inside
      exact receiver_deleteKeyReceipt ..
  · intro pk
    rw [sent.forecast, sent.self, sent.contract, holder, granted, replay_deletions heard]
    by_cases inside : pk ∈ pks
    · rw [if_pos inside, if_pos inside]
      exact (tended.unused pk (stored pk inside)).symm
    · rw [if_neg inside, if_neg inside]
      exact tended.fits pk

/-- A managed call, with what it sends, keeps grants and keys tended. -/
theorem Tended.managed (tended : Tended original w) {env : Env} {m' : Machine}
    {receipts : List Receipt} (host : m'.host = w.machine.host)
    (managed : Managed original w env m'.contract receipts)
    (apart : ∀ pk, m'.contract.sessionGrants.get pk ≠ none →
      m'.contract.proxyGrants.get pk = none) :
    Tended original (receipts.foldl send { w with machine := m' }) := by
  have sent : Sent original w (receipts.foldl send { w with machine := m' }) m'.contract
      receipts := by
    have posted := managed.posted tended
    have self := @self_withMachine w m' host
    rw [← self] at posted
    obtain ⟨steady, machine, forecast⟩ := (tended.toSteady.withMachine host).sends posted
    rw [forecast_withMachine host, self] at forecast
    exact ⟨steady, (congrArg Machine.host machine).trans host, congrArg Machine.contract machine,
      forecast, apart⟩
  cases managed with
  | rehold granted held => exact tended.rehold sent granted held
  | enrol single enrols authorizer granted =>
      exact tended.enrol sent single enrols authorizer granted
  | revoke heard stored authorizer granted =>
      exact tended.revoke sent heard stored authorizer granted

/-- Where only rings and hops change, and the forecast does not, nothing else is needed. -/
theorem Tended.moved (tended : Tended original w) {w' : KeyWorld}
    (machine : w'.machine = w.machine) (forecast : w'.forecast = w.forecast)
    (steady : Steady original w') : Tended original w' := by
  have self : w'.self = w.self := by
    unfold KeyWorld.self
    rw [machine]
  have holder : w'.holder = w.holder := by
    unfold KeyWorld.holder
    rw [machine, self]
  refine { steady with canonical := ?_, unused := ?_, apart := ?_, elsewhere := ?_, fits := ?_ }
  · rw [machine]
    exact tended.canonical
  · rw [machine, holder]
    exact tended.unused
  · rw [machine]
    exact tended.apart
  · rw [forecast, holder]
    exact tended.elsewhere
  · rw [forecast, self, holder, machine]
    exact tended.fits

theorem machine_hop (w : KeyWorld) (n : Nat) : (w.hop n).machine = w.machine := by
  unfold hop
  split
  · rfl
  · dsimp only
    split
    · split <;> rfl
    · rfl

theorem Tended.call (tended : Tended original w) {env : Env} {method : PublicCall}
    (manages : method.managesKeys = true)
    (orderly : (w.machine.call env method).isOk = true → OrderlyCall original w env method) :
    Tended original (w.call env method) := by
  unfold KeyWorld.call
  cases called : w.machine.call env method with
  | error message =>
      rw [Machine.step_refused called]
      dsimp only
      rw [List.drop_length]
      exact tended
  | ok m' =>
      have fine := orderly (by rw [called]; rfl)
      obtain ⟨host, receipts, sent, managed, apart⟩ :=
        Managed.of_effect tended manages fine (Machine.Effect.of_call called)
      rw [Machine.step_transact called]
      dsimp only
      rw [sent, List.drop_left]
      exact tended.managed host managed apart

theorem Tended.step (tended : Tended original w) {op : KeyOp} (orderly : Orderly original w op) :
    Tended original (w.step op) := by
  cases op with
  | call env method => exact tended.call method.property orderly
  | hop n =>
      exact tended.moved (machine_hop w n) (forecast_hop tended.toSteady orderly)
        (tended.toSteady.hop n)
  | settle account n funded =>
      exact tended.moved rfl (forecast_settle orderly) (tended.toSteady.settle orderly)

theorem Tended.run (tended : Tended original w) {ops : List KeyOp}
    (orderly : OrderlyRun original w ops) : Tended original (w.run ops) := by
  induction ops generalizing w with
  | nil => exact tended
  | cons op ops ih =>
      obtain ⟨first, later⟩ := orderly
      exact ih (tended.step first) later

theorem Tended.start (host : Host) (ownerId : AccountId) (authorizerId : Option AccountId)
    (authorizers : AccountId → Authorizer) (original : AccountId → AccessKeys) :
    Tended original (KeyWorld.start host ownerId authorizerId authorizers original) where
  account := fun account => rfl
  calls := fun receipt inside => absurd inside List.not_mem_nil
  pending := fun account request inside => absurd inside List.not_mem_nil
  underway := fun receipt inside => absurd inside List.not_mem_nil
  logged := fun account pk =>
    ⟨fun own => rfl, fun unowned permission present => by
      have absent : (original account).get pk = some permission := present
      rw [unowned] at absent
      cases absent⟩
  canonical := fun pk granted => absurd rfl granted
  unused := fun pk granted => absurd rfl granted
  apart := fun pk session => rfl
  elsewhere := fun account away pk => rfl
  fits := fun pk => rfl

/-- With nothing under way, a key of the contract's is there if its method is granted. -/
theorem Tended.holdsKey_iff (tended : Tended original w) (settled : w.Settled)
    (methodName : String) (pk : PublicKey) :
    w.HoldsKey methodName pk ↔ ∃ granted, grantedMethod w.machine.contract pk = some granted ∧
      utf8Bytes granted = utf8Bytes methodName := by
  obtain ⟨noHops, noPending⟩ := settled
  have fits := tended.fits pk
  have logged := tended.logged w.holder pk
  have present : w.forecast w.holder pk = (w.rings w.holder).keys.get pk := by
    rw [forecast, noHops, noPending w.holder]
    rfl
  rw [present] at fits
  cases method : grantedMethod w.machine.contract pk with
  | none =>
      rw [method] at fits
      constructor
      · rintro ⟨allowanceYocto, there, last⟩
        have own : (original w.holder).get pk ≠ none := by
          rw [← (fits : _ = _), there]
          exact Option.some_ne_none _
        rw [logged.1 own] at last
        cases last
      · rintro ⟨granted, absent, -⟩
        cases absent
  | some granted =>
      rw [method] at fits
      obtain ⟨allowanceYocto, there⟩ := fits
      constructor
      · rintro ⟨allowance, same, -⟩
        rw [there] at same
        simp only [Option.some.injEq, Permission.functionCall.injEq, List.cons.injEq, and_true,
          true_and] at same
        exact ⟨granted, rfl, same.2⟩
      · rintro ⟨granted', eq, bytes⟩
        cases eq
        have unused := tended.unused pk (by rw [method]; exact Option.some_ne_none _)
        rw [bytes] at there
        exact ⟨allowanceYocto, there, logged.2 unused _ there⟩

theorem Tended.inStep (tended : Tended original w) (settled : w.Settled) : w.InStep := by
  intro pk
  rw [tended.holdsKey_iff settled, tended.holdsKey_iff settled]
  unfold grantedMethod
  have apart := tended.apart pk
  split
  · rename_i session
    refine ⟨⟨fun _ => session, fun _ => ⟨_, rfl, rfl⟩⟩, ?_, fun proxy => ?_⟩
    · rintro ⟨granted, eq, bytes⟩
      cases eq
      exact absurd bytes (by decide)
    · exact absurd (apart session) proxy
  · rename_i session
    split
    · rename_i proxy
      refine ⟨⟨?_, fun stored => absurd stored session⟩, fun _ => proxy, fun _ => ⟨_, rfl, rfl⟩⟩
      rintro ⟨granted, eq, bytes⟩
      cases eq
      exact absurd bytes (by decide)
    · rename_i proxy
      refine ⟨⟨?_, fun stored => absurd stored session⟩, ?_, fun stored => absurd stored proxy⟩
      · rintro ⟨granted, eq, -⟩
        cases eq
      · rintro ⟨granted, eq, -⟩
        cases eq

end Calls

end KeyWorld

/-- Over every orderly history of enrolments, revocations, expiry loops and changes of the
authorizer, with every receipt settling in its turn: once nothing is under way, a key of the
contract's for `execute_trigger` (`proxy_call`) is on the account that holds the keys if and
only if its session grant (proxy grant) is stored. -/
theorem grants_match_access_keys (host : Host) (ownerId : AccountId)
    (authorizerId : Option AccountId) (authorizers : AccountId → Authorizer)
    (original : AccountId → AccessKeys) (ops : List KeyOp)
    (orderly : KeyWorld.OrderlyRun original
      (KeyWorld.start host ownerId authorizerId authorizers original) ops)
    (settled : ((KeyWorld.start host ownerId authorizerId authorizers original).run ops).Settled) :
    ((KeyWorld.start host ownerId authorizerId authorizers original).run ops).InStep :=
  ((KeyWorld.Tended.start host ownerId authorizerId authorizers original).run orderly).inStep
    settled

/-! ## An extension of Alice's -/

/-- The market's account as the contract's, where every text is a public key. -/
def extensionHost : Host := ⟨market, some⟩

/-- Alice's key is the only one there is. -/
def accountKeys (account : AccountId) : AccessKeys :=
  if account = alice then aliceKeys else .empty

/-- The market's account as an extension of Alice's, armed by her authorizer. -/
def extensionWorld : KeyWorld :=
  KeyWorld.start extensionHost alice (some alice) (fun _ => Authorizer.armedForMarket) accountKeys

/-- Alice enrols a session key for three fires, up to a time. -/
def enrolSessionKey : KeyOp :=
  .call { aliceEnv with attachedDeposit := 1 }
    ⟨.enrollSession "ed25519:session" 10 none 3 1 none, rfl⟩

def revokeSessionKey : KeyOp := .call aliceEnv ⟨.revokeSession "ed25519:session", rfl⟩

def stranger : AccountId := ⟨"stranger.near", by decide +kernel⟩

/-- A stranger drops the expired sessions when the time has come. -/
def dropExpiredSessions : KeyOp :=
  .call ⟨stranger, stranger, "ed25519:stranger", 10, 0, 1000, 0⟩ ⟨.revokeExpiredSessions, rfl⟩

/-- The call reaches Alice's authorizer, and what it asked for settles. -/
def carriedOut : List KeyOp := [.hop 0, .settle alice 0 true]

/-- The session key, enrolled and revoked by Alice. -/
theorem grants_match_access_keys_session :
    (extensionWorld.run (enrolSessionKey :: carriedOut)).InStep ∧
    (extensionWorld.run (enrolSessionKey :: carriedOut ++ revokeSessionKey :: carriedOut)).InStep :=
  ⟨grants_match_access_keys extensionHost alice (some alice) (fun _ => Authorizer.armedForMarket)
      accountKeys (enrolSessionKey :: carriedOut) (by decide)
      (KeyWorld.settled_of_touched ⟨rfl, fun _ => rfl⟩ (by decide) (by decide)),
    grants_match_access_keys extensionHost alice (some alice) (fun _ => Authorizer.armedForMarket)
      accountKeys (enrolSessionKey :: carriedOut ++ revokeSessionKey :: carriedOut)
      (by decide)
      (KeyWorld.settled_of_touched ⟨rfl, fun _ => rfl⟩ (by decide) (by decide))⟩

/-- A stranger may drop the expired grant; the authorizer refuses to delete the key, for
Alice has not signed. -/
theorem expired_grant_leaves_its_key :
    ¬ ∀ (host : Host) (ownerId : AccountId) (authorizerId : Option AccountId)
        (authorizers : AccountId → Authorizer) (original : AccountId → AccessKeys)
        (ops : List KeyOp),
      ((KeyWorld.start host ownerId authorizerId authorizers original).run ops).Settled →
      ((KeyWorld.start host ownerId authorizerId authorizers original).run ops).InStep := by
  intro claim
  have inStep := claim extensionHost alice (some alice) (fun _ => Authorizer.armedForMarket)
    accountKeys (enrolSessionKey :: carriedOut ++ dropExpiredSessions :: carriedOut)
    (KeyWorld.settled_of_touched ⟨rfl, fun _ => rfl⟩ (by decide) (by decide))
  have holds : (extensionWorld.run
      (enrolSessionKey :: carriedOut ++ dropExpiredSessions :: carriedOut)).HoldsKey
        "execute_trigger" "ed25519:session" :=
    ⟨1, by decide, by decide⟩
  have granted := (inStep "ed25519:session").1.mp holds
  revert granted
  decide

end SmartAccount
