import SmartAccount.Namespaces

/-!
# Namespaces and keys, told apart

The namespaces of distinct callers and runs are distinct.  Their registered-step keys, and
the entries selected by a namespace's prefix, are told apart exactly while neither
namespace starts with the other and a `#` (`separated_iff`).  A trigger id may contain a
`#`, and then they are not (`hash_in_trigger_id_collides`).
-/

namespace SmartAccount

open Foundation

namespace Contract

/-- The entries that `registered_steps_for_namespace` views. -/
def registeredStepsForNamespace (c : Contract) (sequenceNamespace : String) :
    List (String × RegisteredStep) :=
  c.registeredSteps.entries.filter fun entry => startsWith entry.1 (sequenceNamespace ++ "#")

theorem mem_namespaceKeys {c : Contract} {ns key : String} :
    key ∈ c.namespaceKeys ns ↔
      c.registeredSteps.get key ≠ none ∧ startsWith key (ns ++ "#") = true := by
  rw [namespaceKeys, List.mem_filter, IterableMap.mem_keys_iff]

/-- Clearing a namespace removes the keys with its prefix. -/
theorem get_clearRegisteredNamespace (c : Contract) (ns key : String) :
    (c.clearRegisteredNamespace ns).registeredSteps.get key =
      if startsWith key (ns ++ "#") then none else c.registeredSteps.get key := by
  show (c.registeredSteps.removeAll (c.namespaceKeys ns)).get key = _
  rw [IterableMap.get_removeAll]
  by_cases selected : startsWith key (ns ++ "#") = true
  · rw [if_pos selected]
    split
    · rfl
    · rename_i absent
      exact not_not.mp fun present => absent (mem_namespaceKeys.mpr ⟨present, selected⟩)
  · rw [if_neg selected, if_neg fun inside => selected (mem_namespaceKeys.mp inside).2]

end Contract

/-! ## Separation -/

/-- Two namespaces are told apart: as namespaces, by their keys, and by the entries that
the prefix of the first selects. -/
structure Separated (ns ns' : String) : Prop where
  callers : ∀ a b, ns = manualNamespace a → ns' = manualNamespace b → ns = ns' → a = b
  runs : ∀ triggerId triggerId' n n', ns = automationNamespace triggerId n →
    ns' = automationNamespace triggerId' n' → ns = ns' → triggerId = triggerId' ∧ n = n'
  kinds : ∀ a triggerId n, ns = manualNamespace a → ns' = automationNamespace triggerId n →
    ns ≠ ns'
  keys : ∀ stepId stepId', registeredStepKey ns stepId = registeredStepKey ns' stepId' →
    ns = ns' ∧ stepId = stepId'
  cleared : ∀ (c : Contract) (stepId : String),
    (c.clearRegisteredNamespace ns).registeredSteps.get (registeredStepKey ns' stepId) =
      if ns = ns' then none else c.registeredSteps.get (registeredStepKey ns' stepId)
  listed : ∀ (c : Contract) (stepId : String) (yielded : RegisteredStep),
    c.registeredSteps.get (registeredStepKey ns' stepId) = some yielded →
      ((registeredStepKey ns' stepId, yielded) ∈ c.registeredStepsForNamespace ns ↔ ns = ns')

/-- Equal keys come from one namespace, or one namespace starts with the other and a `#`. -/
theorem registeredStepKey_eq {ns ns' stepId stepId' : String}
    (same : registeredStepKey ns stepId = registeredStepKey ns' stepId') :
    ns = ns' ∨ startsWith ns' (ns ++ "#") = true ∨ startsWith ns (ns' ++ "#") = true := by
  have starts : ∀ {a b : String} {rest : List Char}, b.toList = a.toList ++ '#' :: rest →
      startsWith b (a ++ "#") = true := by
    intro a b rest split
    refine startsWith_iff.mpr ⟨String.ofList rest, String.toList_inj.mp ?_⟩
    simp [String.toList_append, split]
  have lists := congrArg String.toList same
  rw [registeredStepKey_toList, registeredStepKey_toList] at lists
  rcases append_cons_eq_append_cons lists with eq | ⟨rest, split⟩ | ⟨rest, split⟩
  · exact .inl (String.toList_inj.mp eq)
  · exact .inr (.inl (starts split))
  · exact .inr (.inr (starts split))

/-- A namespace that starts with the other and a `#` shares a key with it. -/
theorem registeredStepKey_shared {ns ns' : String} (extends_ : startsWith ns' (ns ++ "#") = true) :
    ∃ stepId, registeredStepKey ns stepId = registeredStepKey ns' "" := by
  obtain ⟨rest, rfl⟩ := startsWith_iff.mp extends_
  exact ⟨rest ++ "#", by simp [registeredStepKey, String.append_assoc]⟩

theorem Separated.self (ns : String) : Separated ns ns where
  callers a b left right same := manualNamespace_injective (left.symm.trans right)
  runs triggerId triggerId' n n' left right same :=
    automationNamespace_injective (left.symm.trans right)
  kinds a triggerId n left right :=
    absurd (left.symm.trans right) (manual_ne_automation a triggerId n)
  keys stepId stepId' same := ⟨rfl, registeredStepKey_inj.mp same⟩
  cleared c stepId := by
    rw [Contract.get_clearRegisteredNamespace,
      if_pos (startsWith_namespace_iff.mpr ⟨stepId, rfl⟩), if_pos rfl]
  listed c stepId yielded stored := by
    refine iff_of_true (List.mem_filter.mpr ⟨IterableMap.get_eq_some_iff.mp stored, ?_⟩) rfl
    exact startsWith_namespace_iff.mpr ⟨stepId, rfl⟩

/-- Two namespaces that share no key. -/
theorem Separated.of_separate {ns ns' : String} (other : ns ≠ ns') (separate : Separate ns ns') :
    Separated ns ns' where
  callers a b left right same := absurd same other
  runs triggerId triggerId' n n' left right same := absurd same other
  kinds a triggerId n left right := other
  keys stepId stepId' same := absurd same (separate stepId stepId')
  cleared c stepId := by
    rw [Contract.get_clearRegisteredNamespace, if_neg other, if_neg]
    intro selected
    obtain ⟨stepId', same⟩ := startsWith_namespace_iff.mp selected
    exact separate stepId' stepId same.symm
  listed c stepId yielded stored := by
    refine iff_of_false (fun inside => ?_) other
    obtain ⟨stepId', same⟩ := startsWith_namespace_iff.mp (List.mem_filter.mp inside).2
    exact separate stepId' stepId same.symm

/-- Two namespaces are told apart, both ways, exactly when they are the same or neither
starts with the other and a `#`. -/
theorem separated_iff (ns ns' : String) :
    Separated ns ns' ∧ Separated ns' ns ↔
      ns = ns' ∨ startsWith ns' (ns ++ "#") = false ∧ startsWith ns (ns' ++ "#") = false := by
  constructor
  · rintro ⟨forth, back⟩
    by_cases same : ns = ns'
    · exact .inl same
    · refine .inr ⟨Bool.eq_false_iff.mpr fun extends_ => ?_,
        Bool.eq_false_iff.mpr fun extends_ => ?_⟩
      · obtain ⟨stepId, shared⟩ := registeredStepKey_shared extends_
        exact same (forth.keys stepId "" shared).1
      · obtain ⟨stepId, shared⟩ := registeredStepKey_shared extends_
        exact same (back.keys stepId "" shared).1.symm
  · rintro (rfl | ⟨left, right⟩)
    · exact ⟨.self ns, .self ns⟩
    · by_cases same : ns = ns'
      · exact same ▸ ⟨.self ns, .self ns⟩
      · have separate : Separate ns ns' := by
          intro stepId stepId' shared
          rcases registeredStepKey_eq shared with eq | extends_ | extends_
          · exact same eq
          · rw [extends_] at left
            cases left
          · rw [extends_] at right
            cases right
        exact ⟨.of_separate same separate, .of_separate (Ne.symm same) separate.symm⟩

/-- A manual namespace is told apart from every namespace the contract creates. -/
theorem IsManual.separated {ns ns' : String} (manual : IsManual ns)
    (created : IsManual ns' ∨ IsAutomation ns') : Separated ns ns' ∧ Separated ns' ns := by
  by_cases same : ns = ns'
  · exact same ▸ ⟨.self ns, .self ns⟩
  · have separate := manual.separate (Ne.symm same) created
    exact ⟨.of_separate same separate, .of_separate (Ne.symm same) separate.symm⟩

/-- The first runs of the triggers `p` and `p:1#a` share a key. -/
theorem hash_in_trigger_id_collides :
    ¬ Separated (automationNamespace "p" 1) (automationNamespace "p:1#a" 1) := by
  intro separated
  have shared : registeredStepKey (automationNamespace "p" 1) "a:1#b" =
      registeredStepKey (automationNamespace "p:1#a" 1) "b" := by
    decide
  have same := (separated.keys _ _ shared).2
  revert same
  decide

end SmartAccount
