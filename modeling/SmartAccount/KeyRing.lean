import SmartAccount.Authorizer
import SmartAccount.Foundation.History

/-!
# The account's key ring

The access keys of the account an authorizer lives on, the receipts that add and delete
them, and the log of what was added and deleted.  A receipt settles after the call that
sent it, in any order, and may fail.

The authorizer checks who is calling.  The public key, the receiver and the method name it
takes from the caller, so an extension that names another's key, another receiver or a list
of methods gets what it asks for (`armed_extension_deletes_full_access_key`).  Where no call
and no settling receipt does so, an extension only adds keys that call one method of its own,
and only deletes keys that were added for it (`extension_touches_only_its_keys`).
-/

namespace SmartAccount

open Foundation

/-! ## Access keys -/

inductive Permission where
  | fullAccess
  | functionCall (allowanceYocto : Nat) (receiverId : AccountId) (methodNames : List Bytes)
deriving DecidableEq

/-- The receiver a key may call. -/
def Permission.receiver : Permission → Option AccountId
  | fullAccess => none
  | functionCall _ receiverId _ => some receiverId

/-- The method names of a function-call key, as the host reads them: separated by commas,
none of them empty.  The empty text names no method, and then every method may be called. -/
def splitMethodNames (methodName : String) : Option (List Bytes) :=
  if utf8Bytes methodName = [] then some []
  else
    let names := (utf8Bytes methodName).splitOn 0x2C
    if [] ∈ names then none else some names

/-- A text that names one method. -/
def NamesOneMethod (methodName : String) : Prop :=
  utf8Bytes methodName ≠ [] ∧ 0x2C ∉ utf8Bytes methodName

instance (methodName : String) : Decidable (NamesOneMethod methodName) :=
  inferInstanceAs (Decidable (_ ∧ _))

theorem NamesOneMethod.split {methodName : String} (single : NamesOneMethod methodName) :
    splitMethodNames methodName = some [utf8Bytes methodName] := by
  obtain ⟨nonempty, noComma⟩ := single
  have kept : [] ∉ [utf8Bytes methodName] := by
    rw [List.mem_singleton]
    exact fun empty => nonempty empty.symm
  rw [splitMethodNames, if_neg nonempty, List.splitOn_eq_singleton noComma]
  exact if_neg kept

/-- The access keys of an account. -/
abbrev AccessKeys := IterableMap PublicKey Permission

/-- The keys an action leaves, where it does not fail: adding needs an unused public key,
deleting needs a key that is there. -/
def AccessKeys.apply (keys : AccessKeys) : Action → Option AccessKeys
  | .functionCall _ => some keys
  | .addKey publicKey allowanceYocto receiverId methodName =>
      match keys.get publicKey with
      | some _ => none
      | none => (splitMethodNames methodName).map fun methodNames =>
          keys.insert publicKey (.functionCall allowanceYocto receiverId methodNames)
  | .deleteKey publicKey =>
      match keys.get publicKey with
      | some _ => some (keys.remove publicKey)
      | none => none

/-! ## The ring -/

/-- A change of the account's keys, with the extension whose call asked for it. -/
inductive KeyEvent where
  | added (extension : AccountId) (publicKey : PublicKey) (permission : Permission)
  | deleted (extension : AccountId) (publicKey : PublicKey) (permission : Permission)
deriving DecidableEq

def KeyEvent.publicKey : KeyEvent → PublicKey
  | added _ publicKey _ => publicKey
  | deleted _ publicKey _ => publicKey

/-- What an action that went through did to the keys. -/
def keyEvents (extension : AccountId) (before after : AccessKeys) : Action → List KeyEvent
  | .functionCall _ => []
  | .addKey publicKey _ _ _ =>
      (after.get publicKey).toList.map (.added extension publicKey)
  | .deleteKey publicKey =>
      (before.get publicKey).toList.map (.deleted extension publicKey)

structure KeyRing where
  account : AccountId
  authorizer : Authorizer
  keys : AccessKeys
  /-- The receipts that have not settled, with the extension each was sent for. -/
  pending : List (AccountId × Action)
  log : List KeyEvent

inductive RingOp where
  | call (signer predecessor : AccountId) (attachedDeposit prepaidGasTgas : Nat)
      (method : AuthorizerCall)
  /-- A pending receipt settles; it may fail for a reason of the host's own. -/
  | settle (n : Nat) (funded : Bool)

namespace KeyRing

/-- An account with its authorizer, before any call. -/
def start (account : AccountId) (authorizer : Authorizer) (keys : AccessKeys) : KeyRing :=
  ⟨account, authorizer, keys, [], []⟩

/-- Whether the host lets a promise with this action be made. -/
def creatable : Action → Bool
  | .addKey _ _ _ methodName => (splitMethodNames methodName).isSome
  | _ => true

/-- A call of the authorizer; a refused one changes nothing. -/
def call (r : KeyRing) (signer predecessor : AccountId) (attachedDeposit prepaidGasTgas : Nat)
    (method : AuthorizerCall) : KeyRing :=
  match r.authorizer.call ⟨r.account, signer, predecessor, attachedDeposit, prepaidGasTgas⟩
    method with
  | .error _ => r
  | .ok (authorizer, none) => { r with authorizer := authorizer }
  | .ok (authorizer, some action) =>
      if creatable action then
        { r with authorizer := authorizer, pending := r.pending ++ [(predecessor, action)] }
      else r

def settle (r : KeyRing) (n : Nat) (funded : Bool) : KeyRing :=
  match r.pending[n]? with
  | none => r
  | some (extension, action) =>
      let rest := { r with pending := r.pending.eraseIdx n }
      match if funded then r.keys.apply action else none with
      | none => rest
      | some keys =>
          { rest with keys := keys, log := r.log ++ keyEvents extension r.keys keys action }

def step (r : KeyRing) : RingOp → KeyRing
  | .call signer predecessor attachedDeposit prepaidGasTgas method =>
      r.call signer predecessor attachedDeposit prepaidGasTgas method
  | .settle n funded => r.settle n funded

def run (r : KeyRing) (ops : List RingOp) : KeyRing := ops.foldl step r

/-! ## Foreign keys -/

/-- The last thing that happened to a public key. -/
def lastAbout (publicKey : PublicKey) (log : List KeyEvent) : Option KeyEvent :=
  log.reverse.find? fun event => event.publicKey = publicKey

theorem lastAbout_snoc (publicKey : PublicKey) (log : List KeyEvent) (event : KeyEvent) :
    lastAbout publicKey (log ++ [event]) =
      if event.publicKey = publicKey then some event else lastAbout publicKey log := by
  rw [lastAbout, List.reverse_append, List.reverse_singleton, List.singleton_append,
    List.find?_cons]
  by_cases about : event.publicKey = publicKey
  · rw [if_pos about, decide_eq_true about]
  · rw [if_neg about, decide_eq_false about, lastAbout]

theorem lastAbout_snoc_of_ne {publicKey : PublicKey} {event : KeyEvent}
    (other : publicKey ≠ event.publicKey) (log : List KeyEvent) :
    lastAbout publicKey (log ++ [event]) = lastAbout publicKey log := by
  rw [lastAbout_snoc, if_neg other.symm]

/-- An extension adds keys that call one method of its own, and deletes a key only if it is
the one last added for it. -/
def KeyRule : KeyEvent → List KeyEvent → Prop
  | .added extension _ permission, _ =>
      ∃ allowanceYocto methodName,
        permission = .functionCall allowanceYocto extension [methodName]
  | .deleted extension publicKey permission, past =>
      lastAbout publicKey past = some (.added extension publicKey permission)

/-- A receipt that finds no key to delete, or one that calls the extension it was sent for
and was not there to begin with. -/
def ProperReceipt (original keys : AccessKeys) : Option (AccountId × Action) → Prop
  | some (extension, .deleteKey publicKey) =>
      ∀ permission ∈ keys.get publicKey,
        permission.receiver = some extension ∧ original.get publicKey = none
  | _ => True

instance (original keys : AccessKeys) :
    (request : Option (AccountId × Action)) → Decidable (ProperReceipt original keys request)
  | none => .isTrue trivial
  | some (_, .functionCall _) => .isTrue trivial
  | some (_, .addKey _ _ _ _) => .isTrue trivial
  | some (_, .deleteKey publicKey) =>
      inferInstanceAs (Decidable (∀ permission ∈ keys.get publicKey, _))

/-- A step in which no extension reaches for a foreign key: the key it asks for calls one
method of its own, and its receipt finds none but a key of its own to delete. -/
def Proper (original : AccessKeys) (r : KeyRing) : RingOp → Prop
  | .call signer predecessor _ _ (.addSessionKey _ _ receiverId methodName) =>
      signer = r.account → r.authorizer.isExtensionArmed predecessor = true →
        receiverId = predecessor ∧ NamesOneMethod methodName
  | .call _ _ _ _ _ => True
  | .settle n _ => ProperReceipt original r.keys r.pending[n]?

instance (original : AccessKeys) (r : KeyRing) : (op : RingOp) → Decidable (Proper original r op)
  | .call _ _ _ _ (.addSessionKey _ _ _ _) => inferInstanceAs (Decidable (_ → _ → _))
  | .call _ _ _ _ (.addExtension _) => .isTrue trivial
  | .call _ _ _ _ (.removeExtension _) => .isTrue trivial
  | .call _ _ _ _ (.setOwner _) => .isTrue trivial
  | .call _ _ _ _ (.dispatch _ _ _ _) => .isTrue trivial
  | .call _ _ _ _ (.deleteSessionKey _) => .isTrue trivial
  | .settle n _ => inferInstanceAs (Decidable (ProperReceipt original r.keys r.pending[n]?))

/-- A run every step of which is proper. -/
def ProperRun (original : AccessKeys) : KeyRing → List RingOp → Prop
  | _, [] => True
  | r, op :: ops => Proper original r op ∧ ProperRun original (r.step op) ops

instance decidableProperRun (original : AccessKeys) :
    (r : KeyRing) → (ops : List RingOp) → Decidable (ProperRun original r ops)
  | _, [] => .isTrue trivial
  | r, op :: ops =>
      have := decidableProperRun original (r.step op) ops
      inferInstanceAs (Decidable (_ ∧ _))

/-- The keys that are there: the account's own, all of them, and keys added for the
extension they call. -/
structure Minted (original : AccessKeys) (r : KeyRing) : Prop where
  requests : ∀ extension publicKey allowanceYocto receiverId methodName,
    (extension, .addKey publicKey allowanceYocto receiverId methodName) ∈ r.pending →
      receiverId = extension ∧ NamesOneMethod methodName
  logged : Guarded KeyRule r.log
  sources : ∀ publicKey permission, r.keys.get publicKey = some permission →
    original.get publicKey = some permission ∨
      ∃ extension, permission.receiver = some extension ∧
        lastAbout publicKey r.log = some (.added extension publicKey permission)
  kept : ∀ publicKey permission, original.get publicKey = some permission →
    r.keys.get publicKey = some permission

namespace Minted

variable {original : AccessKeys} {r : KeyRing}

theorem start (account : AccountId) (authorizer : Authorizer) (keys : AccessKeys) :
    Minted keys (KeyRing.start account authorizer keys) where
  requests := fun _ _ _ _ _ inside => absurd inside List.not_mem_nil
  logged := .nil
  sources := fun _ _ present => .inl present
  kept := fun _ _ present => present

/-- A settled receipt is pending no more. -/
theorem drop (minted : Minted original r) (n : Nat) :
    Minted original { r with pending := r.pending.eraseIdx n } where
  requests := fun extension publicKey allowanceYocto receiverId methodName inside =>
    minted.requests extension publicKey allowanceYocto receiverId methodName
      (List.mem_of_mem_eraseIdx inside)
  logged := minted.logged
  sources := minted.sources
  kept := minted.kept

/-- A key added under an unused public key for the extension it calls. -/
theorem add (minted : Minted original r) {extension : AccountId} {publicKey : PublicKey}
    (allowanceYocto : Nat) (methodName : Bytes) (unused : r.keys.get publicKey = none) :
    Minted original { r with
      keys := r.keys.insert publicKey (.functionCall allowanceYocto extension [methodName])
      log := r.log ++ [.added extension publicKey
        (.functionCall allowanceYocto extension [methodName])] } where
  requests := minted.requests
  logged := Guarded.snoc.mpr ⟨minted.logged, allowanceYocto, methodName, rfl⟩
  sources := by
    intro pk permission present
    dsimp only at present ⊢
    by_cases same : pk = publicKey
    · subst same
      rw [IterableMap.get_insert_self] at present
      cases present
      exact .inr ⟨extension, rfl, (lastAbout_snoc ..).trans (if_pos rfl)⟩
    · rw [IterableMap.get_insert_of_ne _ _ same] at present
      rw [lastAbout_snoc_of_ne same]
      exact minted.sources pk permission present
  kept := by
    intro pk permission own
    have other : pk ≠ publicKey := by
      rintro rfl
      rw [minted.kept pk permission own] at unused
      cases unused
    dsimp only
    rw [IterableMap.get_insert_of_ne _ _ other]
    exact minted.kept pk permission own

/-- A deleted key that called the extension and was not the account's own. -/
theorem delete (minted : Minted original r) {extension : AccountId} {publicKey : PublicKey}
    {permission : Permission} (present : r.keys.get publicKey = some permission)
    (receiver : permission.receiver = some extension) (foreign : original.get publicKey = none) :
    Minted original { r with
      keys := r.keys.remove publicKey
      log := r.log ++ [.deleted extension publicKey permission] } where
  requests := minted.requests
  logged := by
    rcases minted.sources publicKey permission present with own | ⟨adder, calls, last⟩
    · rw [foreign] at own
      cases own
    · rw [receiver] at calls
      cases calls
      exact Guarded.snoc.mpr ⟨minted.logged, last⟩
  sources := by
    intro pk permission' left
    obtain ⟨other, there⟩ := IterableMap.get_remove_eq_some left
    dsimp only
    rw [lastAbout_snoc_of_ne other]
    exact minted.sources pk permission' there
  kept := by
    intro pk permission' own
    have other : pk ≠ publicKey := by
      rintro rfl
      rw [foreign] at own
      cases own
    dsimp only
    rw [IterableMap.get_remove_of_ne _ other]
    exact minted.kept pk permission' own

/-- A receipt that settles properly. -/
theorem settle (minted : Minted original r) {n : Nat} {funded : Bool}
    (proper : Proper original r (.settle n funded)) : Minted original (r.settle n funded) := by
  unfold KeyRing.settle
  cases sent : r.pending[n]? with
  | none => exact minted
  | some request =>
      obtain ⟨extension, action⟩ := request
      dsimp only
      cases funded with
      | false => exact minted.drop n
      | true =>
          cases action with
          | functionCall fc =>
              dsimp only [AccessKeys.apply, keyEvents]
              rw [List.append_nil]
              exact minted.drop n
          | addKey publicKey allowanceYocto receiverId methodName =>
              obtain ⟨rfl, single⟩ := minted.requests extension publicKey allowanceYocto receiverId
                methodName (List.mem_of_getElem? sent)
              cases unused : r.keys.get publicKey with
              | some permission =>
                  simp only [if_true, AccessKeys.apply, unused]
                  exact minted.drop n
              | none =>
                  simp only [if_true, AccessKeys.apply, unused, single.split, Option.map_some,
                    keyEvents, IterableMap.get_insert_self, Option.toList_some, List.map_cons,
                    List.map_nil]
                  exact (minted.drop n).add allowanceYocto (utf8Bytes methodName) unused
          | deleteKey publicKey =>
              cases present : r.keys.get publicKey with
              | none =>
                  simp only [if_true, AccessKeys.apply, present]
                  exact minted.drop n
              | some permission =>
                  rw [Proper, sent] at proper
                  obtain ⟨receiver, foreign⟩ := proper permission present
                  simp only [if_true, AccessKeys.apply, present, keyEvents, Option.toList_some,
                    List.map_cons, List.map_nil]
                  exact (minted.drop n).delete present receiver foreign

/-- A call whose action, where it asks for a key, asks for one that calls the caller. -/
theorem call (minted : Minted original r) {signer predecessor : AccountId}
    {attachedDeposit prepaidGasTgas : Nat} {method : AuthorizerCall}
    (proper : Proper original r
      (.call signer predecessor attachedDeposit prepaidGasTgas method)) :
    Minted original (r.call signer predecessor attachedDeposit prepaidGasTgas method) := by
  unfold KeyRing.call
  split
  · exact minted
  · exact ⟨minted.requests, minted.logged, minted.sources, minted.kept⟩
  · rename_i authorizer action accepted
    split
    · refine ⟨fun extension publicKey allowanceYocto receiverId methodName inside => ?_,
        minted.logged, minted.sources, minted.kept⟩
      rcases List.mem_append.mp inside with earlier | new
      · exact minted.requests extension publicKey allowanceYocto receiverId methodName earlier
      · rw [List.mem_singleton] at new
        cases new
        obtain ⟨signed, armed⟩ := Authorizer.call_acts accepted
        obtain rfl := Authorizer.call_addKey accepted
        exact proper signed armed
    · exact minted

/-- A proper step keeps the ring minted. -/
theorem step (minted : Minted original r) {op : RingOp} (proper : Proper original r op) :
    Minted original (r.step op) := by
  cases op with
  | call signer predecessor attachedDeposit prepaidGasTgas method => exact minted.call proper
  | settle n funded => exact minted.settle proper

/-- A run of proper steps keeps the ring minted. -/
theorem run (minted : Minted original r) {ops : List RingOp} (proper : ProperRun original r ops) :
    Minted original (r.run ops) := by
  induction ops generalizing r with
  | nil => exact minted
  | cons op ops ih =>
      obtain ⟨first, later⟩ := proper
      exact ih (minted.step first) later

end Minted

end KeyRing

/-- Over every history of calls to the authorizer in which every step is proper: the keys it
adds call one method of the extension they were added for, the keys it deletes are keys it
last added for that extension, and every key the account had to begin with, its full-access
keys among them, is still there. -/
theorem extension_touches_only_its_keys (account : AccountId) (authorizer : Authorizer)
    (keys : AccessKeys) (ops : List RingOp)
    (proper : KeyRing.ProperRun keys (KeyRing.start account authorizer keys) ops) :
    Guarded KeyRing.KeyRule ((KeyRing.start account authorizer keys).run ops).log ∧
    ∀ publicKey permission, keys.get publicKey = some permission →
      ((KeyRing.start account authorizer keys).run ops).keys.get publicKey =
        some permission := by
  have minted := (KeyRing.Minted.start account authorizer keys).run proper
  exact ⟨minted.logged, minted.kept⟩

/-! ## A key of the extension's own, and a full-access key deleted -/

/-- Alice's account with her own full-access key. -/
def aliceKeys : AccessKeys := IterableMap.empty.insert "ed25519:alice" .fullAccess

/-- Alice deploys an authorizer of her own. -/
def aliceRing : KeyRing := KeyRing.start alice (Authorizer.newWithOwner alice) aliceKeys

/-- She arms the market. -/
def armMarket : RingOp := .call alice alice 0 300 (.addExtension market)

/-- The market asks for a key of its own and has it deleted again. -/
def mintAndRevoke : List RingOp :=
  [armMarket,
    .call alice market 0 300 (.addSessionKey "ed25519:session" 5 market "execute_trigger"),
    .settle 0 true,
    .call alice market 0 300 (.deleteSessionKey "ed25519:session"),
    .settle 0 true]

theorem extension_touches_only_its_keys_mint_and_revoke :
    (aliceRing.run mintAndRevoke).log.length = 2 ∧
    Guarded KeyRing.KeyRule (aliceRing.run mintAndRevoke).log ∧
    ∀ publicKey permission, aliceKeys.get publicKey = some permission →
      (aliceRing.run mintAndRevoke).keys.get publicKey = some permission :=
  ⟨by decide, extension_touches_only_its_keys alice (Authorizer.newWithOwner alice)
    aliceKeys mintAndRevoke (by decide)⟩

/-- An armed extension, in a transaction of Alice's, has her full-access key deleted. -/
theorem armed_extension_deletes_full_access_key :
    let r := aliceRing.run [armMarket,
      .call alice market 0 300 (.deleteSessionKey "ed25519:alice"), .settle 0 true]
    r.log = [.deleted market "ed25519:alice" .fullAccess] ∧
    ¬ Guarded KeyRing.KeyRule r.log ∧
    aliceKeys.get "ed25519:alice" = some .fullAccess ∧ r.keys.get "ed25519:alice" = none := by
  intro r
  have log : r.log = [.deleted market "ed25519:alice" .fullAccess] := by decide
  refine ⟨log, fun guarded => ?_, by decide, by decide⟩
  have allowed := guarded [] _ [] log
  cases allowed

end SmartAccount
