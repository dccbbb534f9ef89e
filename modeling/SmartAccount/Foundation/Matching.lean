import Mathlib.Data.List.Induction
import Mathlib.Data.List.Nodup
import Mathlib.Order.Lattice

/-!
# Greedy matchings

Demands come one after the other and each takes the best of the offers that are still free.
`Matching` says that nothing is taken twice, `Settled` that no demand was passed over that still
had an offer; both are kept by a demand that takes an offer (`Matching.snoc`, `Settled.take`) and
by one that finds none (`Settled.pass`).
-/

namespace Foundation

variable {α β γ : Type}

/-! ## The best of a list -/

/-- The first of the allowed elements that have the highest score. -/
def bestOf [LinearOrder γ] (score : β → γ) (allowed : β → Bool) (offers : List β) : Option β :=
  offers.foldl (fun best b =>
    if !allowed b then best
    else if best.all fun top => score top < score b then some b else best) none

section Best

variable [LinearOrder γ] {score : β → γ} {allowed : β → Bool} {offers : List β}

theorem bestOf_snoc (b : β) :
    bestOf score allowed (offers ++ [b]) =
      if !allowed b then bestOf score allowed offers
      else if (bestOf score allowed offers).all fun top => score top < score b then some b
      else bestOf score allowed offers := by
  rw [bestOf, List.foldl_append]
  rfl

/-- The best is an allowed element that no other one surpasses; there is none only where nothing
is allowed. -/
def IsBest (score : β → γ) (allowed : β → Bool) (offers : List β) : Option β → Prop
  | none => ∀ b ∈ offers, allowed b = false
  | some top => top ∈ offers ∧ allowed top = true ∧
      ∀ b ∈ offers, allowed b = true → score b ≤ score top

theorem IsBest.skip {best : Option β} {b : β} (isBest : IsBest score allowed offers best)
    (shut : allowed b = false) : IsBest score allowed (offers ++ [b]) best := by
  cases best with
  | none => exact List.forall_mem_append.mpr ⟨isBest, List.forall_mem_singleton.mpr shut⟩
  | some top =>
      obtain ⟨member, admitted, most⟩ := isBest
      refine ⟨List.mem_append_left _ member, admitted, List.forall_mem_append.mpr ⟨most, ?_⟩⟩
      exact List.forall_mem_singleton.mpr fun admits => absurd admits (by rw [shut]; decide)

theorem IsBest.improve {best : Option β} {b : β} (isBest : IsBest score allowed offers best)
    (admits : allowed b = true) (better : ∀ top ∈ best, score top ≤ score b) :
    IsBest score allowed (offers ++ [b]) (some b) := by
  refine ⟨List.mem_append_right _ List.mem_cons_self, admits, List.forall_mem_append.mpr
    ⟨fun b' inside admits' => ?_, List.forall_mem_singleton.mpr fun _ => le_refl _⟩⟩
  cases best with
  | none => exact absurd admits' (by rw [isBest b' inside]; decide)
  | some top => exact le_trans (isBest.2.2 b' inside admits') (better top rfl)

theorem IsBest.keep {top b : β} (isBest : IsBest score allowed offers (some top))
    (worse : score b ≤ score top) : IsBest score allowed (offers ++ [b]) (some top) := by
  obtain ⟨member, admitted, most⟩ := isBest
  refine ⟨List.mem_append_left _ member, admitted, List.forall_mem_append.mpr ⟨most, ?_⟩⟩
  exact List.forall_mem_singleton.mpr fun _ => worse

theorem bestOf_isBest : IsBest score allowed offers (bestOf score allowed offers) := by
  induction offers using List.reverseRecOn with
  | nil => exact fun _ inside => absurd inside List.not_mem_nil
  | append_singleton offers b ih =>
      rw [bestOf_snoc]
      generalize bestOf score allowed offers = best at ih ⊢
      cases admits : allowed b with
      | false => exact ih.skip admits
      | true =>
          cases best with
          | none => exact ih.improve admits nofun
          | some top =>
              rcases lt_or_ge (score top) (score b) with better | worse
              · simp only [Bool.not_true, Bool.false_eq_true, if_false, Option.all_some,
                  decide_eq_true better, if_true]
                refine ih.improve admits fun top' same => ?_
                rw [← Option.some.inj same]
                exact le_of_lt better
              · simp only [Bool.not_true, Bool.false_eq_true, if_false, Option.all_some,
                  decide_eq_false (not_lt.mpr worse)]
                exact ih.keep worse

end Best

/-! ## Matchings -/

/-- The pairs fit, and neither a demand nor an offer stands in two of them. -/
structure Matching (fits : α → β → Prop) (pairs : List (α × β)) : Prop where
  demands : (pairs.map Prod.fst).Nodup
  offers : (pairs.map Prod.snd).Nodup
  fits : ∀ pair ∈ pairs, fits pair.1 pair.2

/-- Of these demands, none is left that fits an offer which is left too. -/
def Settled (fits : α → β → Prop) (demands : α → Prop) (pairs : List (α × β)) : Prop :=
  ∀ a b, demands a → fits a b → a ∈ pairs.map Prod.fst ∨ b ∈ pairs.map Prod.snd

variable {fits : α → β → Prop} {demands : α → Prop} {pairs : List (α × β)} {a : α} {b : β}

theorem Matching.nil : Matching fits [] := ⟨List.nodup_nil, List.nodup_nil, nofun⟩

theorem Matching.snoc (matching : Matching fits pairs) (new : a ∉ pairs.map Prod.fst)
    (free : b ∉ pairs.map Prod.snd) (fit : fits a b) : Matching fits (pairs ++ [(a, b)]) where
  demands := by
    rw [List.map_append]
    exact List.nodup_append.mpr ⟨matching.demands, List.nodup_singleton a, by
      rintro x inside y (_ | ⟨_, ⟨⟩⟩) rfl
      exact new inside⟩
  offers := by
    rw [List.map_append]
    exact List.nodup_append.mpr ⟨matching.offers, List.nodup_singleton b, by
      rintro x inside y (_ | ⟨_, ⟨⟩⟩) rfl
      exact free inside⟩
  fits := by
    intro pair inside
    rcases List.mem_append.mp inside with before | last
    · exact matching.fits pair before
    · rw [List.mem_singleton.mp last]
      exact fit

/-- A demand has one offer. -/
theorem Matching.unique {b' : β} (matching : Matching fits pairs) (pair : (a, b) ∈ pairs)
    (pair' : (a, b') ∈ pairs) : b = b' :=
  congrArg Prod.snd (List.inj_on_of_nodup_map matching.demands pair pair' rfl)

theorem Settled.take (settled : Settled fits demands pairs) :
    Settled fits (fun x => demands x ∨ x = a) (pairs ++ [(a, b)]) := by
  intro x y demand fit
  rw [List.map_append, List.map_append, List.mem_append, List.mem_append]
  rcases demand with early | rfl
  · exact (settled x y early fit).imp .inl .inl
  · exact .inl (.inr List.mem_cons_self)

theorem Settled.pass (settled : Settled fits demands pairs)
    (none : ∀ b, fits a b → b ∈ pairs.map Prod.snd) :
    Settled fits (fun x => demands x ∨ x = a) pairs := by
  rintro x y (early | rfl) fit
  · exact settled x y early fit
  · exact .inr (none y fit)

end Foundation
