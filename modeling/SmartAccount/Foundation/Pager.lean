import Mathlib.Data.List.Basic

/-!
# Paged reading

A reader asks for one page of a list after another, each where the one before it ended, until a
page is not full.  The list may change between the requests.  As long as it only grows at its
end, the pages together are the list as it was at the last request (`readFrom_keys`), in what
identifies its items; their other contents are as old as the requests (`readFrom_mem`).
-/

namespace Foundation

namespace Pager

section Reading

variable {σ α κ : Type} (page : σ → Nat → List α) (limit : Nat)

/-- The pages from `start` on, one state for each request; nothing if the last of them is full. -/
def readFrom : Nat → List σ → Option (List α)
  | _, [] => none
  | start, s :: states =>
      if (page s start).length < limit then some (page s start)
      else (readFrom (start + limit) states).map (page s start ++ ·)

variable {page} {limit} {list : σ → List α} {start : Nat} {states : List σ} {read : List α}

/-- A request answers with at most `limit` items of the list. -/
def Pages (page : σ → Nat → List α) (limit : Nat) (list : σ → List α) : Prop :=
  ∀ s start, page s start = ((list s).drop start).take limit

theorem readFrom_cons {s : σ} (reads : readFrom page limit start (s :: states) = some read) :
    ((page s start).length < limit ∧ read = page s start) ∨
      (limit ≤ (page s start).length ∧ ∃ rest,
        readFrom page limit (start + limit) states = some rest ∧ read = page s start ++ rest) := by
  rw [readFrom] at reads
  split at reads
  · rename_i short
    exact .inl ⟨short, (Option.some.inj reads).symm⟩
  · rename_i full
    obtain ⟨rest, later, same⟩ := Option.map_eq_some_iff.mp reads
    exact .inr ⟨Nat.le_of_not_lt full, rest, later, same.symm⟩

/-- What is read was in the list at one of the requests. -/
theorem readFrom_mem (pages : Pages page limit list)
    (reads : readFrom page limit start states = some read) {a : α} (inside : a ∈ read) :
    ∃ s ∈ states, a ∈ list s := by
  induction states generalizing start read with
  | nil => cases reads
  | cons s states ih =>
      have here : a ∈ page s start → a ∈ list s := by
        intro among
        rw [pages s start] at among
        exact List.mem_of_mem_drop (List.mem_of_mem_take among)
      rcases readFrom_cons reads with ⟨-, rfl⟩ | ⟨-, rest, later, rfl⟩
      · exact ⟨s, List.mem_cons_self, here inside⟩
      · rcases List.mem_append.mp inside with among | among
        · exact ⟨s, List.mem_cons_self, here among⟩
        · obtain ⟨s', member, held⟩ := ih later among
          exact ⟨s', List.mem_cons_of_mem _ member, held⟩

/-- A full page of a list is that page of every list that continues it. -/
theorem take_drop_of_prefix {l l' : List κ} (continues : l <+: l')
    (full : start + limit ≤ l.length) :
    (l'.drop start).take limit = (l.drop start).take limit := by
  obtain ⟨more, rfl⟩ := continues
  rw [List.drop_append_of_le_length (by omega), List.take_append_of_le_length]
  rw [List.length_drop]
  omega

/-- The keys that are read are those that the list has, from the start on, at the request whose
page was not full. -/
theorem readFrom_keys (key : α → κ) (pages : Pages page limit list) (positive : 0 < limit)
    (grows : states.Pairwise fun s s' => (list s).map key <+: (list s').map key)
    (reads : readFrom page limit start states = some read) :
    ∃ s ∈ states, read.map key = ((list s).map key).drop start := by
  induction states generalizing start read with
  | nil => cases reads
  | cons s states ih =>
      obtain ⟨first, later⟩ := List.pairwise_cons.mp grows
      rcases readFrom_cons reads with ⟨short, rfl⟩ | ⟨full, rest, reads', rfl⟩
      · refine ⟨s, List.mem_cons_self, ?_⟩
        rw [pages, List.length_take, List.length_drop] at short
        rw [pages, List.take_of_length_le (by rw [List.length_drop]; omega), List.map_drop]
      · obtain ⟨s', member, tail⟩ := ih later reads'
        refine ⟨s', List.mem_cons_of_mem _ member, ?_⟩
        rw [pages, List.length_take, List.length_drop] at full
        have whole : start + limit ≤ ((list s).map key).length := by
          rw [List.length_map]
          omega
        rw [List.map_append, tail, pages, List.map_take, List.map_drop,
          ← take_drop_of_prefix (first s' member) whole, ← List.drop_drop]
        exact List.take_append_drop limit _

/-- Enough requests reach the end. -/
theorem exists_readFrom (pages : Pages page limit list) (positive : 0 < limit)
    (enough : ∀ s ∈ states, (list s).length < start + limit * states.length)
    (asked : states ≠ []) : ∃ read, readFrom page limit start states = some read := by
  induction states generalizing start with
  | nil => exact absurd rfl asked
  | cons s states ih =>
      rw [readFrom]
      split
      · exact ⟨_, rfl⟩
      · rename_i full
        rw [pages, List.length_take, List.length_drop] at full
        have here := enough s List.mem_cons_self
        rw [List.length_cons, Nat.mul_succ] at here
        have more : states ≠ [] := by
          rintro rfl
          rw [List.length_nil] at here
          omega
        obtain ⟨rest, reads⟩ := @ih (start + limit) (fun s' member => by
          have there := enough s' (List.mem_cons_of_mem _ member)
          rw [List.length_cons, Nat.mul_succ] at there
          omega) more
        exact ⟨_, congrArg (Option.map _) reads⟩

end Reading

end Pager

end Foundation
