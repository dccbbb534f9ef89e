import SmartAccount.State
import SmartAccount.Foundation.Borsh

/-!
# Schema migration

`migrate` reads the stored state as the current contract, then as the version before, then as
the one before that.  Reading state as what it is not does not come back with nothing: it
panics.  Each version is the one before it and one more field, so the first reading of an old
state is always such a panic, and `migrate` gives back a contract exactly when the state is a
current one (`migrate_preserves_iff`).

The collections are kept elsewhere; the root record has their handles, of a type `M`.  How a
handle and an account id are written is the SDK's, and a `Layout` here.
-/

namespace SmartAccount

open Foundation

/-! ## Versions -/

/-- Without `authorizer_id` and `proxy_grants`. -/
structure ContractV4 (M : Type → Type → Type) where
  ownerId : AccountId
  authorizedExecutor : Option AccountId
  registeredSteps : M String RegisteredStep
  sequenceQueue : M String (List String)
  sequenceTemplates : M String SequenceTemplate
  balanceTriggers : M String BalanceTrigger
  automationRuns : M String AutomationRun
  sequenceContexts : M String SequenceContext
  sessionGrants : M String SessionGrant

/-- With `authorizer_id`, without `proxy_grants`. -/
structure ContractV5 (M : Type → Type → Type) extends ContractV4 M where
  authorizerId : Option AccountId

variable {M : Type → Type → Type}

/-- An old contract with the fields it does not have. -/
def ContractV4.promote (legacy : ContractV4 M) (authorizerId : Option AccountId)
    (proxyGrants : M String ProxyGrant) : ContractOf M where
  ownerId := legacy.ownerId
  authorizedExecutor := legacy.authorizedExecutor
  registeredSteps := legacy.registeredSteps
  sequenceQueue := legacy.sequenceQueue
  sequenceTemplates := legacy.sequenceTemplates
  balanceTriggers := legacy.balanceTriggers
  automationRuns := legacy.automationRuns
  sequenceContexts := legacy.sequenceContexts
  sessionGrants := legacy.sessionGrants
  authorizerId := authorizerId
  proxyGrants := proxyGrants

/-- The fields a contract shares with the version before. -/
def ContractOf.toV5 (contract : ContractOf M) : ContractV5 M where
  ownerId := contract.ownerId
  authorizedExecutor := contract.authorizedExecutor
  registeredSteps := contract.registeredSteps
  sequenceQueue := contract.sequenceQueue
  sequenceTemplates := contract.sequenceTemplates
  balanceTriggers := contract.balanceTriggers
  automationRuns := contract.automationRuns
  sequenceContexts := contract.sequenceContexts
  sessionGrants := contract.sessionGrants
  authorizerId := contract.authorizerId

/-! ## Layouts -/

/-- How account ids and the handles of collections are written; a handle takes some bytes. -/
structure Layout (M : Type → Type → Type) where
  accountId : Codec AccountId
  handle : ∀ K V, Codec (M K V)
  handle_ne_nil : ∀ K V (h : M K V), (handle K V).encode h ≠ []

namespace Layout

def contractV4 (layout : Layout M) : Codec (ContractV4 M) :=
  (layout.accountId.pair (layout.accountId.option.pair ((layout.handle _ _).pair
    ((layout.handle _ _).pair ((layout.handle _ _).pair ((layout.handle _ _).pair
      ((layout.handle _ _).pair ((layout.handle _ _).pair (layout.handle _ _))))))))).refine
    (fun (a, b, c, d, e, f, g, h, i) => some ⟨a, b, c, d, e, f, g, h, i⟩)
    (fun v => (v.ownerId, v.authorizedExecutor, v.registeredSteps, v.sequenceQueue,
      v.sequenceTemplates, v.balanceTriggers, v.automationRuns, v.sequenceContexts,
      v.sessionGrants))
    (fun _ => rfl) (fun _ _ read => by cases read; rfl)

def contractV5 (layout : Layout M) : Codec (ContractV5 M) :=
  (layout.contractV4.pair layout.accountId.option).refine
    (fun (legacy, authorizerId) => some ⟨legacy, authorizerId⟩)
    (fun v => (v.toContractV4, v.authorizerId)) (fun _ => rfl)
    (fun _ _ read => by cases read; rfl)

def contract (layout : Layout M) : Codec (ContractOf M) :=
  (layout.contractV5.pair (layout.handle _ _)).refine
    (fun (legacy, proxyGrants) => some (legacy.promote legacy.authorizerId proxyGrants))
    (fun c => (c.toV5, c.proxyGrants)) (fun _ => rfl) (fun _ _ read => by cases read; rfl)

end Layout

/-! ## Migration -/

/-- `env::state_read`. -/
def stateRead {α : Type} (codec : Codec α) : Option Bytes → Except String (Option α)
  | none => .ok none
  | some bytes =>
      match codec.decodeAll bytes with
      | some a => .ok (some a)
      | none => .error "Cannot deserialize the contract state."

/-- `migrate`, over the stored state and with the handle of a new collection of proxy grants. -/
def migrate (layout : Layout M) (newProxyGrants : M String ProxyGrant) (state : Option Bytes) :
    Except String (ContractOf M) := do
  match ← stateRead layout.contract state with
  | some current => .ok current
  | none =>
      match ← stateRead layout.contractV5 state with
      | some legacy => .ok (legacy.promote legacy.authorizerId newProxyGrants)
      | none =>
          match ← stateRead layout.contractV4 state with
          | some legacy => .ok (legacy.promote none newProxyGrants)
          | none => .error "no prior contract state found (neither v4, v5, nor current shape)"

/-- A state that some version of the contract left. -/
inductive Stored (M : Type → Type → Type) where
  | v4 (legacy : ContractV4 M)
  | v5 (legacy : ContractV5 M)
  | current (contract : ContractOf M)

namespace Stored

/-- Its bytes. -/
def bytes (layout : Layout M) : Stored M → Bytes
  | v4 legacy => layout.contractV4.encode legacy
  | v5 legacy => layout.contractV5.encode legacy
  | current contract => layout.contract.encode contract

/-- The current contract with the same fields, and without an authorizer or proxy grants where
the state has none. -/
def promoted (newProxyGrants : M String ProxyGrant) : Stored M → ContractOf M
  | v4 legacy => legacy.promote none newProxyGrants
  | v5 legacy => legacy.promote legacy.authorizerId newProxyGrants
  | current contract => contract

end Stored

/-! ## What each version reads -/

section Reading

variable (layout : Layout M) (newProxyGrants : M String ProxyGrant)

/-- A state that is not a current contract panics `migrate`. -/
theorem migrate_of_unread {bytes : Bytes} (unread : layout.contract.decodeAll bytes = none) :
    migrate layout newProxyGrants (some bytes) =
      .error "Cannot deserialize the contract state." := by
  rw [migrate, stateRead, unread]
  rfl

/-- The current contract reads no state of version 5. -/
theorem contract_not_v5 (legacy : ContractV5 M) :
    layout.contract.decodeAll (layout.contractV5.encode legacy) = none :=
  Codec.decodeAll_refine_of_none (Codec.decodeAll_shorter (layout.handle_ne_nil _ _) legacy)

/-- Nor of version 4. -/
theorem contract_not_v4 (legacy : ContractV4 M) :
    layout.contract.decodeAll (layout.contractV4.encode legacy) = none := by
  refine Codec.decodeAll_refine_of_none ?_
  cases read : (layout.contractV5.pair (layout.handle _ _)).decodeAll
      (layout.contractV4.encode legacy) with
  | none => rfl
  | some fields =>
      have written : layout.contractV4.encode legacy =
          (layout.contractV4.encode fields.1.toContractV4 ++
            layout.accountId.option.encode fields.1.authorizerId) ++
              (layout.handle _ _).encode fields.2 := Codec.decodeAll_eq_some.mp read
      have same : layout.contractV4.encode legacy ++ [] =
          layout.contractV4.encode fields.1.toContractV4 ++
            (layout.accountId.option.encode fields.1.authorizerId ++
              (layout.handle _ _).encode fields.2) := by
        rw [List.append_nil, written, List.append_assoc]
      have nothing := (Codec.encode_append_inj same).2.symm
      exact absurd (List.append_eq_nil_iff.mp nothing).2 (layout.handle_ne_nil _ _ _)

theorem migrate_current (contract : ContractOf M) :
    migrate layout newProxyGrants (some (layout.contract.encode contract)) = .ok contract := by
  rw [migrate, stateRead, Codec.decodeAll_eq_some.mpr rfl]
  rfl

/-- A state comes back as it was, with the fields it did not have, exactly when it is a current
contract. -/
theorem migrate_preserves_iff (stored : Stored M) :
    migrate layout newProxyGrants (some (stored.bytes layout)) =
        .ok (stored.promoted newProxyGrants) ↔
      ∃ contract, stored = .current contract := by
  cases stored with
  | v4 legacy =>
      have panics := migrate_of_unread layout newProxyGrants (contract_not_v4 layout legacy)
      refine iff_of_false ?_ ?_
      · intro preserved
        cases panics.symm.trans preserved
      · rintro ⟨contract, eq⟩
        cases eq
  | v5 legacy =>
      have panics := migrate_of_unread layout newProxyGrants (contract_not_v5 layout legacy)
      refine iff_of_false ?_ ?_
      · intro preserved
        cases panics.symm.trans preserved
      · rintro ⟨contract, eq⟩
        cases eq
  | current contract => exact iff_of_true (migrate_current ..) ⟨contract, rfl⟩

end Reading

/-! ## The layout of the SDK -/

/-- The handle of a collection: how many keys it has, and the two prefixes it keeps them and
their values under. -/
structure MapHandle where
  length : {n : Nat // n < 256 ^ 4}
  keys : {bytes : Bytes // bytes.length < 256 ^ 4}
  values : {bytes : Bytes // bytes.length < 256 ^ 4}

namespace MapHandle

def codec : Codec MapHandle :=
  ((Codec.littleEndian 4).pair (Codec.byteString.pair Codec.byteString)).refine
    (fun (length, keys, values) => some ⟨length, keys, values⟩)
    (fun h => (h.length, h.keys, h.values)) (fun _ => rfl)
    (fun _ _ read => by cases read; rfl)

theorem codec_ne_nil (h : MapHandle) : codec.encode h ≠ [] :=
  List.cons_ne_nil _ _

/-- A collection with nothing in it, under the key of one byte that the contract gives it. -/
def new (storageKey : UInt8) : MapHandle where
  length := ⟨0, by decide⟩
  keys := ⟨[storageKey, 118], by simp⟩
  values := ⟨[storageKey, 109], by simp⟩

end MapHandle

theorem AccountId.length_utf8Bytes_lt (id : AccountId) : (utf8Bytes id.val).length < 256 ^ 4 := by
  have valid := id.valid
  simp only [isValidAccountId, Bool.and_eq_true, decide_eq_true_eq] at valid
  have bytes := Codec.length_utf8Bytes_le id.val
  omega

/-- A text that passes validation. -/
def AccountId.codec : Codec AccountId :=
  Codec.text.refine
    (fun s => if valid : isValidAccountId s.val = true then some ⟨s.val, valid⟩ else none)
    (fun id => ⟨id.val, id.length_utf8Bytes_lt⟩) (fun id => dif_pos id.valid)
    (by
      intro s id read
      split at read
      · cases read
        rfl
      · cases read)

def sdkLayout : Layout (fun _ _ => MapHandle) where
  accountId := AccountId.codec
  handle _ _ := MapHandle.codec
  handle_ne_nil _ _ := MapHandle.codec_ne_nil

/-- What version 4 left for an owner who has done nothing yet. -/
def freshV4 : ContractV4 (fun _ _ => MapHandle) where
  ownerId := ⟨"vault.near", by decide⟩
  authorizedExecutor := none
  registeredSteps := .new 0
  sequenceQueue := .new 1
  sequenceTemplates := .new 2
  balanceTriggers := .new 3
  automationRuns := .new 4
  sequenceContexts := .new 5
  sessionGrants := .new 6

/-- The migration that version 4 is promoted by panics on it. -/
theorem migrate_loses_v4 :
    ¬ ∀ stored : Stored (fun _ _ => MapHandle),
        migrate sdkLayout (.new 7) (some (stored.bytes sdkLayout)) =
          .ok (stored.promoted (.new 7)) := by
  intro preserves
  have promoted := preserves (.v4 freshV4)
  have panics := migrate_of_unread sdkLayout (.new 7) (contract_not_v4 sdkLayout freshV4)
  cases panics.symm.trans promoted

end SmartAccount
