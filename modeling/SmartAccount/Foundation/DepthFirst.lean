import Mathlib.Data.List.Nodup
import Mathlib.Logic.Relation

/-!
# Depth-first walks of a graph

A graph is its lists of successors, `next`.  `Explores` is the depth-first order as a worklist
runs through it, `Walks` the walk that leaves a tree behind: it goes down at the first visit of
a vertex and leaves a stub at every later one.  The trees of a walk hold the depth-first order
(`Walks.explores`), and every first visit in them is the start of a walk of its own
(`Walks.mem_firsts`).
-/

namespace Foundation

variable {α : Type}

/-- With `seen` behind it and `stack` to do, the worklist visits the vertices of `order`. -/
inductive Explores (next : α → List α) : List α → List α → List α → Prop
  | done {seen : List α} : Explores next seen [] []
  | again {seen stack order : List α} {v : α} :
    v ∈ seen → Explores next seen stack order → Explores next seen (v :: stack) order
  | first {seen stack order : List α} {v : α} :
    v ∉ seen → Explores next (seen ++ [v]) (next v ++ stack) order →
    Explores next seen (v :: stack) (v :: order)

/-- What a recursive walk leaves of a vertex: a stub, or the trees of its successors. -/
inductive Visit (α : Type) where
  | again (v : α)
  | first (v : α) (children : List (Visit α))

/-- With `seen` behind it, a walk through these vertices leaves these trees and visits the
vertices of the last list. -/
inductive Walks (next : α → List α) : List α → List α → List (Visit α) → List α → Prop
  | done {seen : List α} : Walks next seen [] [] []
  | again {seen vs visited : List α} {trees : List (Visit α)} {v : α} :
    v ∈ seen → Walks next seen vs trees visited →
    Walks next seen (v :: vs) (.again v :: trees) visited
  | first {seen vs below visited : List α} {children trees : List (Visit α)} {v : α} :
    v ∉ seen → Walks next (seen ++ [v]) (next v) children below →
    Walks next (seen ++ v :: below) vs trees visited →
    Walks next seen (v :: vs) (.first v children :: trees) (v :: (below ++ visited))

/-- The order names `w` after `v`. -/
def Later (order : List α) (v w : α) : Prop :=
  ∃ before after, order = before ++ v :: after ∧ w ∈ after

/-- The vertex can be reached from one of the roots. -/
def Reached (next : α → List α) (roots : List α) (v : α) : Prop :=
  ∃ root ∈ roots, Relation.ReflTransGen (fun u w => w ∈ next u) root v

variable {next : α → List α} {seen stack order : List α}

/-! ## The order -/

theorem Explores.append {stack' order' : List α} (explored : Explores next seen stack order)
    (rest : Explores next (seen ++ order) stack' order') :
    Explores next seen (stack ++ stack') (order ++ order') := by
  induction explored with
  | done => rwa [List.append_nil] at rest
  | again inside _ ih => exact .again inside (ih rest)
  | first fresh _ ih =>
      have below := ih (by rwa [List.append_assoc, List.singleton_append])
      rw [List.append_assoc] at below
      exact .first fresh below

theorem Explores.unique {order' : List α} (explored : Explores next seen stack order)
    (again : Explores next seen stack order') : order = order' := by
  induction explored generalizing order' with
  | done =>
      cases again
      rfl
  | again inside _ ih =>
      rcases again with _ | ⟨_, again⟩ | ⟨fresh, _⟩
      · exact ih again
      · exact absurd inside fresh
  | first fresh _ ih =>
      rcases again with _ | ⟨inside, _⟩ | ⟨_, again⟩
      · exact absurd inside fresh
      · rw [ih again]

/-- No vertex is visited twice, and none that was seen before. -/
theorem Explores.nodup (explored : Explores next seen stack order) :
    order.Nodup ∧ ∀ v ∈ order, v ∉ seen := by
  induction explored with
  | done => exact ⟨List.nodup_nil, fun _ inside => absurd inside List.not_mem_nil⟩
  | again _ _ ih => exact ih
  | @first seen _ order v fresh _ ih =>
      obtain ⟨distinct, unseen⟩ := ih
      refine ⟨List.nodup_cons.mpr ⟨fun inside => ?_, distinct⟩, ?_⟩
      · exact unseen v inside (List.mem_append_right _ List.mem_cons_self)
      · rintro w (_ | ⟨_, inside⟩)
        · exact fresh
        · exact fun before => unseen w inside (List.mem_append_left _ before)

/-- The whole stack is visited, and every successor of what is. -/
theorem Explores.closed (explored : Explores next seen stack order) :
    (∀ v ∈ stack, v ∈ seen ++ order) ∧ ∀ v ∈ order, ∀ w ∈ next v, w ∈ seen ++ order := by
  induction explored with
  | done =>
      exact ⟨fun _ inside => absurd inside List.not_mem_nil,
        fun _ inside => absurd inside List.not_mem_nil⟩
  | again inside _ ih =>
      exact ⟨List.forall_mem_cons.mpr ⟨List.mem_append_left _ inside, ih.1⟩, ih.2⟩
  | @first seen stack order v _ _ ih =>
      rw [List.append_assoc, List.singleton_append] at ih
      obtain ⟨stacked, onwards⟩ := ih
      refine ⟨List.forall_mem_cons.mpr ⟨?_, fun w inside => ?_⟩, ?_⟩
      · exact List.mem_append_right _ List.mem_cons_self
      · exact stacked w (List.mem_append_right _ inside)
      · refine List.forall_mem_cons.mpr ⟨fun w inside => ?_, onwards⟩
        exact stacked w (List.mem_append_left _ inside)

/-- Nothing is visited that the stack does not reach. -/
theorem Explores.sound (explored : Explores next seen stack order) :
    ∀ v ∈ order, Reached next stack v := by
  induction explored with
  | done => exact fun _ inside => absurd inside List.not_mem_nil
  | again _ _ ih =>
      intro v inside
      obtain ⟨root, stacked, path⟩ := ih v inside
      exact ⟨root, List.mem_cons_of_mem _ stacked, path⟩
  | @first _ _ _ u _ _ ih =>
      rintro v (_ | ⟨_, inside⟩)
      · exact ⟨u, List.mem_cons_self, .refl⟩
      · obtain ⟨root, stacked, path⟩ := ih v inside
        rcases List.mem_append.mp stacked with below | waiting
        · exact ⟨u, List.mem_cons_self, .head below path⟩
        · exact ⟨root, List.mem_cons_of_mem _ waiting, path⟩

/-- From nothing, the worklist visits what the roots reach. -/
theorem Explores.mem_iff {roots : List α} (explored : Explores next [] roots order) {v : α} :
    v ∈ order ↔ Reached next roots v := by
  refine ⟨explored.sound v, ?_⟩
  obtain ⟨stacked, onwards⟩ := explored.closed
  rintro ⟨root, start, path⟩
  induction path with
  | refl => exact stacked root start
  | tail _ step ih => exact onwards _ ih _ step

/-! ## The trees -/

variable {vs visited : List α} {trees : List (Visit α)}

/-- The trees of a walk are those of a depth-first order. -/
theorem Walks.explores (walked : Walks next seen vs trees visited) :
    Explores next seen vs visited := by
  induction walked with
  | done => exact .done
  | again inside _ ih => exact .again inside ih
  | first fresh _ _ below beside =>
      refine .first fresh (below.append ?_)
      rwa [List.append_assoc, List.singleton_append]

theorem Walks.unique {trees' : List (Visit α)} {visited' : List α}
    (walked : Walks next seen vs trees visited) (again : Walks next seen vs trees' visited') :
    trees = trees' ∧ visited = visited' := by
  induction walked generalizing trees' visited' with
  | done =>
      cases again
      exact ⟨rfl, rfl⟩
  | again inside _ ih =>
      rcases again with _ | ⟨_, again⟩ | ⟨fresh, _, _⟩
      · obtain ⟨rfl, rfl⟩ := ih again
        exact ⟨rfl, rfl⟩
      · exact absurd inside fresh
  | first fresh _ _ below beside =>
      rcases again with _ | ⟨inside, _⟩ | ⟨_, againBelow, againBeside⟩
      · exact absurd inside fresh
      · obtain ⟨rfl, rfl⟩ := below againBelow
        obtain ⟨rfl, rfl⟩ := beside againBeside
        exact ⟨rfl, rfl⟩

def Visit.isAgain : Visit α → Bool
  | again _ => true
  | first _ _ => false

mutual

/-- The first visits in a tree, with the trees of their successors, in the order of the walk. -/
def Visit.firsts : Visit α → List (α × List (Visit α))
  | .again _ => []
  | .first v children => (v, children) :: Visit.allFirsts children

def Visit.allFirsts : List (Visit α) → List (α × List (Visit α))
  | [] => []
  | tree :: trees => tree.firsts ++ Visit.allFirsts trees

end

theorem Walks.firsts_map (walked : Walks next seen vs trees visited) :
    (Visit.allFirsts trees).map Prod.fst = visited := by
  induction walked with
  | done => rfl
  | again _ _ ih => exact ih
  | first _ _ _ below beside =>
      rw [Visit.allFirsts, Visit.firsts, List.map_append, List.map_cons, below, beside]
      rfl

/-- Every first visit is the start of a walk: what comes before it in the order is behind it. -/
theorem Walks.mem_firsts (walked : Walks next seen vs trees visited) {v : α}
    {children : List (Visit α)} (inside : (v, children) ∈ Visit.allFirsts trees) :
    ∃ before below after, visited = before ++ v :: (below ++ after) ∧
      Walks next (seen ++ before ++ [v]) (next v) children below := by
  induction walked with
  | done => cases inside
  | again _ _ ih => exact ih inside
  | @first seen vs below visited children' trees u fresh walkedBelow _ ihBelow ihBeside =>
      rw [Visit.allFirsts, Visit.firsts, List.mem_append, List.mem_cons] at inside
      rcases inside with (same | inside) | inside
      · obtain ⟨rfl, rfl⟩ := Prod.mk.inj same
        exact ⟨[], below, visited, rfl, by rwa [List.append_nil]⟩
      · obtain ⟨before, under, after, rfl, walked⟩ := ihBelow inside
        refine ⟨u :: before, under, after ++ visited, ?_, ?_⟩
        · simp only [List.cons_append, List.append_assoc]
        · rwa [List.append_assoc seen, List.singleton_append] at walked
      · obtain ⟨before, under, after, rfl, walked⟩ := ihBeside inside
        refine ⟨u :: (below ++ before), under, after, ?_, ?_⟩
        · simp only [List.cons_append, List.append_assoc]
        · rwa [List.append_assoc seen, List.cons_append] at walked

/-- A walk leaves only stubs exactly when it has nothing new to see. -/
theorem Walks.all_again_iff (walked : Walks next seen vs trees visited) :
    (∀ tree ∈ trees, tree.isAgain = true) ↔ ∀ v ∈ vs, v ∈ seen := by
  induction walked with
  | done => simp
  | again inside _ ih =>
      rw [List.forall_mem_cons, List.forall_mem_cons, ih]
      exact ⟨fun all => ⟨inside, all.2⟩, fun all => ⟨rfl, all.2⟩⟩
  | first fresh _ _ _ _ =>
      rw [List.forall_mem_cons, List.forall_mem_cons]
      exact ⟨fun all => (Bool.false_ne_true all.1).elim, fun all => absurd all.1 fresh⟩

/-- A first visit that leaves only stubs goes nowhere: its successors come no later. -/
theorem Walks.stubs_iff {roots : List α} (walked : Walks next [] roots trees visited) {v : α}
    {children : List (Visit α)} (inside : (v, children) ∈ Visit.allFirsts trees) :
    (∀ tree ∈ children, tree.isAgain = true) ↔ ∀ w ∈ next v, ¬ Later visited v w := by
  obtain ⟨before, below, after, rfl, walkedBelow⟩ := walked.mem_firsts inside
  obtain ⟨distinct, -⟩ := walked.explores.nodup
  obtain ⟨-, onwards⟩ := walked.explores.closed
  rw [walkedBelow.all_again_iff]
  refine forall₂_congr fun w child => ?_
  -- the order splits at `v` in one way only
  have split : ∀ before' after', before ++ v :: (below ++ after) = before' ++ v :: after' →
      below ++ after = after' := fun before' after' same => by
    have once : v ∉ before := fun early =>
      List.disjoint_of_nodup_append distinct early List.mem_cons_self
    have last : v ∉ below ++ after := (List.nodup_cons.mp (List.nodup_append.mp distinct).2.1).1
    exact ((List.append_cons_inj_of_notMem once last).mp same).2.2
  constructor
  · rintro early ⟨before', after', same, late⟩
    rw [← split before' after' same] at late
    rw [List.append_cons] at distinct
    exact List.disjoint_of_nodup_append distinct early late
  · intro notLater
    have visitedToo := onwards v (List.mem_append_right _ List.mem_cons_self) w child
    rw [List.nil_append, List.append_cons, List.mem_append] at visitedToo
    refine visitedToo.resolve_right fun late => notLater ?_
    exact ⟨before, _, rfl, late⟩

/-! ## Places in the trees -/

/-- Where a walk visits a vertex first: behind which vertex, and how deep. -/
structure Place (α : Type) where
  vertex : α
  parent : Option α
  depth : Nat

mutual

/-- The first visits in a tree, each with its place, in the order of the walk. -/
def Visit.places (parent : Option α) (depth : Nat) : Visit α → List (Place α)
  | .again _ => []
  | .first v children => ⟨v, parent, depth⟩ :: Visit.allPlaces (some v) (depth + 1) children

def Visit.allPlaces (parent : Option α) (depth : Nat) : List (Visit α) → List (Place α)
  | [] => []
  | tree :: trees => tree.places parent depth ++ Visit.allPlaces parent depth trees

end

variable {parent : Option α} {depth : Nat}

theorem Walks.places_vertex (walked : Walks next seen vs trees visited) :
    (Visit.allPlaces parent depth trees).map Place.vertex = visited := by
  induction walked generalizing parent depth with
  | done => rfl
  | again _ _ ih => exact ih
  | first _ _ _ below beside =>
      rw [Visit.allPlaces, Visit.places, List.map_append, List.map_cons, below, beside]
      rfl

/-- A place is one of the roots', or it is one level below an earlier one that leads to it. -/
def Place.GrowsFrom (next : α → List α) (parent : Option α) (depth : Nat) (roots : List α)
    (before : List (Place α)) (place : Place α) : Prop :=
  (place.parent = parent ∧ place.depth = depth ∧ place.vertex ∈ roots) ∨
    ∃ origin ∈ before, place.parent = some origin.vertex ∧ place.depth = origin.depth + 1 ∧
      place.vertex ∈ next origin.vertex

theorem Place.GrowsFrom.mono {roots roots' : List α} {before before' : List (Place α)}
    {place : Place α} (grows : place.GrowsFrom next parent depth roots before)
    (more : ∀ v ∈ roots, v ∈ roots') (earlier : ∀ origin ∈ before, origin ∈ before') :
    place.GrowsFrom next parent depth roots' before' :=
  grows.imp (fun ⟨up, level, root⟩ => ⟨up, level, more _ root⟩)
    fun ⟨origin, inside, below⟩ => ⟨origin, earlier _ inside, below⟩

/-- Every place of a walk grows from the roots by way of earlier places. -/
theorem Walks.places_grow (walked : Walks next seen vs trees visited)
    {before after : List (Place α)} {place : Place α}
    (split : Visit.allPlaces parent depth trees = before ++ place :: after) :
    place.GrowsFrom next parent depth vs before := by
  induction walked generalizing parent depth before after with
  | done =>
      rw [Visit.allPlaces] at split
      exact absurd split.symm (List.append_ne_nil_of_right_ne_nil _ (List.cons_ne_nil _ _))
  | again _ _ ih => exact (ih split).mono (fun _ => List.mem_cons_of_mem _) fun _ => id
  | @first _ vs below visited children trees v _ _ _ ihBelow ihBeside =>
      rw [Visit.allPlaces, Visit.places, List.cons_append] at split
      rcases List.cons_eq_append_iff.mp split with ⟨rfl, same⟩ | ⟨before', rfl, joined⟩
      · cases same
        exact .inl ⟨rfl, rfl, List.mem_cons_self⟩
      · rcases List.append_eq_append_iff.mp joined with ⟨rest, rfl, inside⟩ | ⟨rest, inside, late⟩
        · -- the place is in the trees beside
          exact (ihBeside inside).mono (fun _ => List.mem_cons_of_mem _)
            fun _ early => List.mem_cons_of_mem _ (List.mem_append_right _ early)
        · cases rest with
          | nil =>
              -- it is the first of them
              refine (@ihBeside _ _ [] after late.symm).mono (fun _ => List.mem_cons_of_mem _) ?_
              exact fun _ none => absurd none List.not_mem_nil
          | cons place' rest =>
              -- it is in the trees below, from which all grows out of `v`
              cases (List.cons.inj late).1
              have start : (⟨v, parent, depth⟩ : Place α) ∈ ⟨v, parent, depth⟩ :: before' :=
                List.mem_cons_self
              rcases ihBelow inside with ⟨up, level, child⟩ | ⟨origin, early, found⟩
              · exact .inr ⟨_, start, up, level, child⟩
              · exact .inr ⟨origin, List.mem_cons_of_mem _ early, found⟩

end Foundation
