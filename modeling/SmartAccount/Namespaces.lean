import SmartAccount.State

/-!
# Namespaces and registered-step keys

Which keys of `registered_steps` belong to which namespace.  A key is the namespace,
a `#` and the step id, so two namespaces can share keys when one of them contains a
`#` itself.  Account ids contain none, so a manual namespace shares keys with nothing;
trigger ids are free text.
-/

namespace SmartAccount

open Foundation

/-! ## Keys of one namespace -/

theorem registeredStepKey_inj {ns stepId stepId' : String} :
    registeredStepKey ns stepId = registeredStepKey ns stepId' ↔ stepId = stepId' := by
  unfold registeredStepKey
  exact String.append_right_inj _

/-- The prefix test of `clear_registered_namespace` selects the keys of the namespace. -/
theorem startsWith_namespace_iff {key ns : String} :
    startsWith key (ns ++ "#") = true ↔ ∃ stepId, key = registeredStepKey ns stepId :=
  startsWith_iff

/-! ## Namespaces that share no key -/

/-- No registered-step key of one namespace is a key of the other. -/
def Separate (ns ns' : String) : Prop :=
  ∀ stepId stepId', registeredStepKey ns stepId ≠ registeredStepKey ns' stepId'

theorem Separate.symm {ns ns' : String} (separate : Separate ns ns') : Separate ns' ns :=
  fun a b eq => separate b a eq.symm

theorem not_separate_self (ns : String) : ¬ Separate ns ns :=
  fun separate => separate "" "" rfl

/-! ## Manual namespaces -/

theorem hash_notMem_of_accountCharsOk {cs : List Char} :
    ∀ {afterSeparator : Bool}, accountCharsOk afterSeparator cs = true → '#' ∉ cs := by
  induction cs with
  | nil => exact fun _ => List.not_mem_nil
  | cons c cs ih =>
      intro afterSeparator ok member
      rcases List.mem_cons.mp member with rfl | inside
      · have refused : accountCharsOk afterSeparator ('#' :: cs) = false := rfl
        rw [refused] at ok
        cases ok
      · unfold accountCharsOk at ok
        split at ok
        · exact ih ok inside
        · split at ok
          · exact ih (Bool.and_eq_true_iff.mp ok).2 inside
          · cases ok

theorem AccountId.hash_notMem (a : AccountId) : '#' ∉ a.val.toList := by
  have ok := a.valid
  simp only [isValidAccountId, Bool.and_eq_true] at ok
  exact hash_notMem_of_accountCharsOk ok.2

theorem AccountId.ext_val {a b : AccountId} (same : a.val = b.val) : a = b := by
  cases a
  cases b
  cases same
  rfl

def IsManual (ns : String) : Prop := ∃ caller, ns = manualNamespace caller

def IsAutomation (ns : String) : Prop :=
  ∃ triggerId runNonce, ns = automationNamespace triggerId runNonce

theorem manualNamespace_injective {a b : AccountId}
    (same : manualNamespace a = manualNamespace b) : a = b :=
  AccountId.ext_val ((String.append_right_inj _).mp same)

theorem manualNamespace_toList (a : AccountId) :
    (manualNamespace a).toList = "manual:".toList ++ a.val.toList := String.toList_append

theorem hash_notMem_manualNamespace (a : AccountId) : '#' ∉ (manualNamespace a).toList := by
  rw [manualNamespace_toList, List.mem_append]
  rintro (inside | inside)
  · revert inside
    decide
  · exact a.hash_notMem inside

theorem registeredStepKey_toList (ns stepId : String) :
    (registeredStepKey ns stepId).toList = ns.toList ++ '#' :: stepId.toList := by
  simp [registeredStepKey, String.toList_append]

theorem automationNamespace_toList (triggerId : String) (runNonce : Nat) :
    (automationNamespace triggerId runNonce).toList =
      "auto:".toList ++ (triggerId.toList ++ ':' :: Nat.toDigits 10 runNonce) := by
  simp [automationNamespace, String.toList_append, Nat.toString_eq_repr, Nat.toList_repr]

theorem manual_ne_automation (a : AccountId) (triggerId : String) (runNonce : Nat) :
    manualNamespace a ≠ automationNamespace triggerId runNonce := by
  intro same
  have lists := congrArg String.toList same
  rw [manualNamespace_toList, automationNamespace_toList] at lists
  have head := (List.cons.inj lists).1
  revert head
  decide

theorem IsManual.not_automation {ns : String} (manual : IsManual ns) : ¬ IsAutomation ns := by
  obtain ⟨a, rfl⟩ := manual
  rintro ⟨triggerId, runNonce, same⟩
  exact manual_ne_automation a triggerId runNonce same

/-- Distinct manual namespaces share no key. -/
theorem separate_manual {a b : AccountId} (other : a ≠ b) :
    Separate (manualNamespace a) (manualNamespace b) := by
  intro stepId stepId' eq
  have lists := congrArg String.toList eq
  rw [registeredStepKey_toList, registeredStepKey_toList] at lists
  have split := append_cons_inj_of_notMem_left (hash_notMem_manualNamespace a)
    (hash_notMem_manualNamespace b) lists
  exact other (manualNamespace_injective (String.toList_inj.mp split.1))

/-- A manual namespace shares no key with an automation namespace. -/
theorem separate_manual_automation (a : AccountId) (triggerId : String) (runNonce : Nat) :
    Separate (manualNamespace a) (automationNamespace triggerId runNonce) := by
  intro stepId stepId' eq
  have lists := congrArg String.toList eq
  rw [registeredStepKey_toList, registeredStepKey_toList, manualNamespace_toList,
    automationNamespace_toList] at lists
  have head := (List.cons.inj lists).1
  revert head
  decide

/-- A manual namespace is separate from every other namespace the contract creates. -/
theorem IsManual.separate {ns ns' : String} (manual : IsManual ns) (other : ns' ≠ ns)
    (created : IsManual ns' ∨ IsAutomation ns') : Separate ns ns' := by
  obtain ⟨a, rfl⟩ := manual
  rcases created with ⟨b, rfl⟩ | ⟨triggerId, runNonce, rfl⟩
  · exact separate_manual fun same => other (by rw [same])
  · exact separate_manual_automation a triggerId runNonce

/-! ## Automation namespaces -/

theorem colon_notMem_toDigits (n : Nat) : ':' ∉ Nat.toDigits 10 n := by
  intro inside
  have digit := Nat.isDigit_of_mem_toDigits (by decide) (by decide) inside
  revert digit
  decide

/-- A namespace determines the trigger and the nonce it was made from. -/
theorem automationNamespace_injective {triggerId triggerId' : String} {n n' : Nat}
    (same : automationNamespace triggerId n = automationNamespace triggerId' n') :
    triggerId = triggerId' ∧ n = n' := by
  have lists := congrArg String.toList same
  rw [automationNamespace_toList, automationNamespace_toList] at lists
  have split := append_cons_inj_of_notMem_right (colon_notMem_toDigits n)
    (colon_notMem_toDigits n') (List.append_cancel_left lists)
  refine ⟨String.toList_inj.mp split.1, ?_⟩
  rw [← Nat.ofDigitChars_ten_toDigits (n := n), split.2, Nat.ofDigitChars_ten_toDigits]

end SmartAccount
