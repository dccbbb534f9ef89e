import SmartAccount.Foundation.Matching
import SmartAccount.Foundation.Text
import Mathlib.Data.Prod.Lex

/-!
# Callbacks and the data that resumed them

`correlate_resumes` of the observer pairs each callback among the rows of a trace with the data
receipt that triggered it, as far as receivers and blocks tell: row by row it claims the latest
data row that is still free.  The pairs are a matching, and no callback goes without a data row
that it could have had and that nobody claimed (`correlateResumes_matching`).

Of a row there stands what the function reads and writes.
-/

namespace SmartAccount

open Foundation

/-! ## Rows -/

inductive RowKind where
  | action (method : Option String) (receiverId : String)
  | data (dataId : String) (isPromiseResume : Bool) (dataUtf8 : Option String)
      (receiverId : String)

structure Row where
  blockHeight : Nat
  kind : RowKind
  resumedByDataId : Option String
  resumedByDataUtf8 : Option String
  isYieldResume : Bool

/-- An entry of `data_catalog`. -/
structure DataEntry where
  idx : Nat
  dataId : String
  isPromiseResume : Bool
  receiverId : String
  blockHeight : Nat
  dataUtf8 : Option String

/-- The entry of a data row, which stands at this index. -/
def Row.dataEntry (row : Row) (idx : Nat) : Option DataEntry :=
  match row.kind with
  | .data dataId isPromiseResume dataUtf8 receiverId =>
      some ⟨idx, dataId, isPromiseResume, receiverId, row.blockHeight, dataUtf8⟩
  | .action _ _ => none

def dataCatalog (rows : List Row) : List DataEntry :=
  rows.zipIdx.filterMap fun place => place.1.dataEntry place.2

/-- What a row asks for that is a callback. -/
structure Callee where
  method : String
  receiverId : String
  consumingBlock : Nat

/-- The callback of an action row whose method starts with `on_`. -/
def Row.callee (row : Row) : Option Callee :=
  match row.kind with
  | .action (some method) receiverId =>
      if startsWith method "on_" then some ⟨method, receiverId, row.blockHeight⟩ else none
  | _ => none

/-! ## The loop -/

/-- `this_score`: the block, then whether the flag is the one to expect. -/
def DataEntry.score (expectedResume : Bool) (entry : DataEntry) : Nat ×ₗ Bool :=
  toLex (entry.blockHeight, entry.isPromiseResume == expectedResume)

/-- The entries that the inner loop does not skip. -/
def Callee.admits (callee : Callee) (claimed : List Nat) (entry : DataEntry) : Bool :=
  !claimed.contains entry.idx && entry.receiverId == callee.receiverId &&
    decide (entry.blockHeight ≤ callee.consumingBlock)

/-- The inner loop. -/
def bestEntry (catalog : List DataEntry) (claimed : List Nat) (callee : Callee) :
    Option DataEntry :=
  bestOf (DataEntry.score (callee.method == "on_step_resumed")) (callee.admits claimed) catalog

/-- The write to the claimed data row. -/
def Row.claimedFor (best : DataEntry) (row : Row) : Row :=
  { row with resumedByDataId := some best.dataId }

/-- The writes to the row of the callback. -/
def Row.resumedBy (callee : Callee) (best : DataEntry) (row : Row) : Row :=
  { row with
    resumedByDataId := some best.dataId
    resumedByDataUtf8 := best.dataUtf8
    isYieldResume :=
      if callee.method == "on_step_resumed" && best.isPromiseResume then true
      else row.isYieldResume }

/-- The rows, and the claimed indices, each behind the index of the row that claimed it. -/
structure Correlation where
  rows : List Row
  claims : List (Nat × Nat)

namespace Correlation

def claimed (s : Correlation) : List Nat := s.claims.map Prod.snd

def claim (s : Correlation) (i : Nat) (callee : Callee) (best : DataEntry) : Correlation where
  rows := (s.rows.modify best.idx (Row.claimedFor best)).modify i (Row.resumedBy callee best)
  claims := s.claims ++ [(i, best.idx)]

/-- The turn of the row at `i`. -/
def turn (catalog : List DataEntry) (s : Correlation) (i : Nat) : Correlation :=
  match s.rows[i]?.bind Row.callee with
  | none => s
  | some callee =>
      match bestEntry catalog s.claimed callee with
      | none => s
      | some best => s.claim i callee best

end Correlation

/-- The whole loop over the rows. -/
def correlate (rows : List Row) : Correlation :=
  (List.range rows.length).foldl (Correlation.turn (dataCatalog rows)) ⟨rows, []⟩

def correlateResumes (rows : List Row) : List Row := (correlate rows).rows

/-- Which row claimed which. -/
def resumePairs (rows : List Row) : List (Nat × Nat) := (correlate rows).claims

/-! ## Who can have resumed whom -/

/-- The data row can have resumed the callback: it has the same receiver and is not later. -/
def Row.CanResume (data action : Row) : Prop :=
  ∃ method dataId isPromiseResume dataUtf8 receiverId,
    action.kind = .action (some method) receiverId ∧ startsWith method "on_" = true ∧
      data.kind = .data dataId isPromiseResume dataUtf8 receiverId ∧
      data.blockHeight ≤ action.blockHeight

/-- The rows at `i` and `j` are a callback and data that can have resumed it. -/
def Eligible (rows : List Row) (i j : Nat) : Prop :=
  ∃ action data, rows[i]? = some action ∧ rows[j]? = some data ∧ data.CanResume action

theorem Row.dataEntry_eq_some {row : Row} {idx : Nat} {entry : DataEntry} :
    row.dataEntry idx = some entry ↔
      row.kind = .data entry.dataId entry.isPromiseResume entry.dataUtf8 entry.receiverId ∧
        row.blockHeight = entry.blockHeight ∧ idx = entry.idx := by
  unfold Row.dataEntry
  cases row.kind with
  | action method receiverId => exact iff_of_false nofun nofun
  | data dataId isPromiseResume dataUtf8 receiverId =>
      constructor
      · rintro ⟨⟩
        exact ⟨rfl, rfl, rfl⟩
      · rintro ⟨kind, height, rfl⟩
        cases kind
        rw [height]

theorem Row.callee_eq_some {row : Row} {callee : Callee} :
    row.callee = some callee ↔ row.kind = .action (some callee.method) callee.receiverId ∧
      startsWith callee.method "on_" = true ∧ row.blockHeight = callee.consumingBlock := by
  unfold Row.callee
  cases row.kind with
  | data dataId isPromiseResume dataUtf8 receiverId => exact iff_of_false nofun nofun
  | action method receiverId =>
      cases method with
      | none => exact iff_of_false nofun nofun
      | some method =>
          dsimp only
          split
          · rename_i named
            constructor
            · rintro ⟨⟩
              exact ⟨rfl, named, rfl⟩
            · rintro ⟨kind, -, height⟩
              cases kind
              rw [height]
          · rename_i unnamed
            refine iff_of_false nofun ?_
            rintro ⟨kind, named, -⟩
            cases kind
            exact unnamed named

theorem mem_dataCatalog {rows : List Row} {entry : DataEntry} :
    entry ∈ dataCatalog rows ↔
      ∃ data, rows[entry.idx]? = some data ∧ data.dataEntry entry.idx = some entry := by
  rw [dataCatalog, List.mem_filterMap]
  constructor
  · rintro ⟨⟨data, idx⟩, inside, read⟩
    obtain ⟨-, -, rfl⟩ := Row.dataEntry_eq_some.mp read
    exact ⟨data, List.mem_zipIdx_iff_getElem?.mp inside, read⟩
  · rintro ⟨data, stored, read⟩
    exact ⟨(data, entry.idx), List.mem_zipIdx_iff_getElem?.mpr stored, read⟩

/-- A data row is no callback. -/
theorem Row.callee_of_dataEntry {data : Row} {idx : Nat} {entry : DataEntry}
    (read : data.dataEntry idx = some entry) : data.callee = none := by
  obtain ⟨kind, -⟩ := Row.dataEntry_eq_some.mp read
  rw [Row.callee, kind]

/-- What a data row and a callback have to share, as the loop sees it. -/
theorem Row.canResume_iff {data action : Row} {idx : Nat} :
    data.CanResume action ↔ ∃ callee entry, action.callee = some callee ∧
      data.dataEntry idx = some entry ∧ entry.receiverId = callee.receiverId ∧
      entry.blockHeight ≤ callee.consumingBlock := by
  simp only [Row.callee_eq_some, Row.dataEntry_eq_some]
  constructor
  · rintro ⟨method, dataId, isPromiseResume, dataUtf8, receiverId, acts, named, holds, late⟩
    exact ⟨⟨method, receiverId, action.blockHeight⟩,
      ⟨idx, dataId, isPromiseResume, receiverId, data.blockHeight, dataUtf8⟩,
      ⟨acts, named, rfl⟩, ⟨holds, rfl, rfl⟩, rfl, late⟩
  · rintro ⟨callee, entry, ⟨acts, named, consumes⟩, ⟨holds, height, -⟩, receiver, late⟩
    rw [receiver] at holds
    rw [← height, ← consumes] at late
    exact ⟨_, _, _, _, _, acts, named, holds, late⟩

/-! ## The best entry -/

section BestEntry

variable {catalog : List DataEntry} {claimed : List Nat} {callee : Callee}

/-- The entry is free, for the same receiver and not later. -/
def DataEntry.Free (claimed : List Nat) (callee : Callee) (entry : DataEntry) : Prop :=
  entry.idx ∉ claimed ∧ entry.receiverId = callee.receiverId ∧
    entry.blockHeight ≤ callee.consumingBlock

theorem admits_iff {entry : DataEntry} :
    callee.admits claimed entry = true ↔ entry.Free claimed callee := by
  simp [Callee.admits, DataEntry.Free, and_assoc]

theorem bestEntry_isBest :
    IsBest (DataEntry.score (callee.method == "on_step_resumed")) (callee.admits claimed) catalog
      (bestEntry catalog claimed callee) := bestOf_isBest

theorem bestEntry_none (found : bestEntry catalog claimed callee = none) {entry : DataEntry}
    (listed : entry ∈ catalog) : ¬ entry.Free claimed callee := by
  have isBest := @bestEntry_isBest catalog claimed callee
  rw [found] at isBest
  rw [← admits_iff, isBest entry listed]
  exact Bool.false_ne_true

/-- The entry found is free, and no free entry is later, nor as late and the only one of the two
with the flag to expect. -/
theorem bestEntry_some {best : DataEntry} (found : bestEntry catalog claimed callee = some best) :
    best ∈ catalog ∧ best.Free claimed callee ∧
      ∀ entry ∈ catalog, entry.Free claimed callee →
        entry.score (callee.method == "on_step_resumed") ≤
          best.score (callee.method == "on_step_resumed") := by
  have isBest := @bestEntry_isBest catalog claimed callee
  rw [found] at isBest
  obtain ⟨listed, admitted, most⟩ := isBest
  exact ⟨listed, admits_iff.mp admitted,
    fun entry inside free => most entry inside (admits_iff.mpr free)⟩

end BestEntry

/-! ## A claim -/

section Claim

variable {s : Correlation} {i : Nat} {callee : Callee} {best : DataEntry}

theorem claim_callback (apart : i ≠ best.idx) :
    (s.claim i callee best).rows[i]? = s.rows[i]?.map (Row.resumedBy callee best) := by
  rw [Correlation.claim, List.getElem?_modify_eq, List.getElem?_modify_ne _ _ apart.symm]
  rfl

theorem claim_data (apart : i ≠ best.idx) :
    (s.claim i callee best).rows[best.idx]? = s.rows[best.idx]?.map (Row.claimedFor best) := by
  rw [Correlation.claim, List.getElem?_modify_ne _ _ apart, List.getElem?_modify_eq]
  rfl

theorem claim_other {k : Nat} (notCallback : k ≠ i) (notData : k ≠ best.idx) :
    (s.claim i callee best).rows[k]? = s.rows[k]? := by
  rw [Correlation.claim, List.getElem?_modify_ne _ _ notCallback.symm,
    List.getElem?_modify_ne _ _ notData.symm]

end Claim

/-- A callback and a data row are not the same row. -/
theorem callback_ne_data {rows : List Row} {i j idx : Nat} {action data : Row} {callee : Callee}
    {entry : DataEntry} (stored : rows[i]? = some action) (called : action.callee = some callee)
    (held : rows[j]? = some data) (read : data.dataEntry idx = some entry) : i ≠ j := by
  rintro rfl
  rw [stored] at held
  cases held
  rw [Row.callee_of_dataEntry read] at called
  cases called

/-! ## The loop's invariant -/

/-- What holds once the rows before `m` had their turn. -/
structure Correlated (rows : List Row) (m : Nat) (s : Correlation) : Prop where
  matching : Matching (Eligible rows) s.claims
  reached : ∀ pair ∈ s.claims, pair.1 < m
  settled : Settled (Eligible rows) (· < m) s.claims
  unpaired : ∀ k, k ∉ s.claims.map Prod.fst → k ∉ s.claims.map Prod.snd → s.rows[k]? = rows[k]?
  paired : ∀ pair ∈ s.claims, ∃ action data callee best,
    rows[pair.1]? = some action ∧ action.callee = some callee ∧
      rows[pair.2]? = some data ∧ data.dataEntry pair.2 = some best ∧
      s.rows[pair.1]? = some (action.resumedBy callee best) ∧
      s.rows[pair.2]? = some (data.claimedFor best)

namespace Correlated

variable {rows : List Row} {m : Nat} {s : Correlation}

theorem start : Correlated rows 0 ⟨rows, []⟩ where
  matching := .nil
  reached := nofun
  settled := fun _ _ before => absurd before (Nat.not_lt_zero _)
  unpaired := fun _ _ _ => rfl
  paired := nofun

/-- The row whose turn it is has claimed nothing yet. -/
theorem fresh (correlated : Correlated rows m s) : m ∉ s.claims.map Prod.fst := fun inside => by
  obtain ⟨pair, member, rfl⟩ := List.mem_map.mp inside
  exact Nat.lt_irrefl _ (correlated.reached pair member)

/-- The row whose turn it is asks for what it asked for at the start. -/
theorem callee (correlated : Correlated rows m s) :
    s.rows[m]?.bind Row.callee = rows[m]?.bind Row.callee := by
  by_cases claimed : m ∈ s.claims.map Prod.snd
  · obtain ⟨pair, member, rfl⟩ := List.mem_map.mp claimed
    obtain ⟨action, data, callee, best, -, -, stored, -, -, marked⟩ :=
      correlated.paired pair member
    rw [marked, stored]
    rfl
  · rw [correlated.unpaired m correlated.fresh claimed]

/-- A row that finds nothing to claim changes nothing. -/
theorem pass (correlated : Correlated rows m s)
    (none : ∀ j, Eligible rows m j → j ∈ s.claims.map Prod.snd) : Correlated rows (m + 1) s where
  matching := correlated.matching
  reached := fun pair member => Nat.lt_succ_of_lt (correlated.reached pair member)
  settled := by
    intro i j before eligible
    exact correlated.settled.pass none i j (Nat.lt_succ_iff_lt_or_eq.mp before) eligible
  unpaired := correlated.unpaired
  paired := correlated.paired

/-- A callback claims a data row that is free and that can have resumed it. -/
theorem claim (correlated : Correlated rows m s) {action data : Row} {callee : Callee}
    {best : DataEntry} (stored : rows[m]? = some action) (called : action.callee = some callee)
    (held : rows[best.idx]? = some data) (read : data.dataEntry best.idx = some best)
    (free : best.idx ∉ s.claims.map Prod.snd) (eligible : Eligible rows m best.idx) :
    Correlated rows (m + 1) (s.claim m callee best) := by
  have apart : m ≠ best.idx := callback_ne_data stored called held read
  have fresh := correlated.fresh
  have caller : m ∉ s.claims.map Prod.snd := fun inside => by
    obtain ⟨pair, member, same⟩ := List.mem_map.mp inside
    obtain ⟨_, _, _, _, -, -, held', read', -⟩ := correlated.paired pair member
    exact callback_ne_data stored called held' read' same.symm
  have holder : best.idx ∉ s.claims.map Prod.fst := fun inside => by
    obtain ⟨pair, member, same⟩ := List.mem_map.mp inside
    obtain ⟨_, _, _, _, stored', called', -⟩ := correlated.paired pair member
    exact callback_ne_data stored' called' held read same
  refine ⟨correlated.matching.snoc fresh free eligible, ?_, ?_, ?_, ?_⟩
  · intro pair member
    rcases List.mem_append.mp member with early | last
    · exact Nat.lt_succ_of_lt (correlated.reached pair early)
    · rw [List.mem_singleton.mp last]
      exact Nat.lt_succ_self m
  · intro i j before fits
    exact correlated.settled.take i j (Nat.lt_succ_iff_lt_or_eq.mp before) fits
  · intro k notCallback notData
    rw [Correlation.claim, List.map_append, List.mem_append, not_or] at notCallback notData
    obtain ⟨notCallback, other⟩ := notCallback
    obtain ⟨notData, other'⟩ := notData
    rw [claim_other (List.ne_of_not_mem_cons other) (List.ne_of_not_mem_cons other')]
    exact correlated.unpaired k notCallback notData
  · intro pair member
    rcases List.mem_append.mp member with early | last
    · obtain ⟨action', data', callee', best', stored', called', held', read', resumed, marked⟩ :=
        correlated.paired pair early
      have callback : pair.1 ∈ s.claims.map Prod.fst := List.mem_map_of_mem early
      have data_ : pair.2 ∈ s.claims.map Prod.snd := List.mem_map_of_mem early
      refine ⟨action', data', callee', best', stored', called', held', read', ?_, ?_⟩
      · rw [claim_other (ne_of_mem_of_not_mem callback fresh)
          (ne_of_mem_of_not_mem callback holder)]
        exact resumed
      · rw [claim_other (ne_of_mem_of_not_mem data_ caller) (ne_of_mem_of_not_mem data_ free)]
        exact marked
    · rw [List.mem_singleton.mp last]
      refine ⟨action, data, callee, best, stored, called, held, read, ?_, ?_⟩
      · rw [claim_callback apart, correlated.unpaired m fresh caller, stored]
        rfl
      · rw [claim_data apart, correlated.unpaired best.idx holder free, held]
        rfl

/-- One turn of the loop. -/
theorem turn (correlated : Correlated rows m s) :
    Correlated rows (m + 1) (s.turn (dataCatalog rows) m) := by
  unfold Correlation.turn
  rw [correlated.callee]
  cases stored : rows[m]? with
  | none =>
      refine correlated.pass fun j eligible => ?_
      obtain ⟨action, data, present, -⟩ := eligible
      rw [stored] at present
      cases present
  | some action =>
      rw [Option.bind_some]
      cases called : action.callee with
      | none =>
          refine correlated.pass fun j eligible => ?_
          obtain ⟨action', data, present, -, resumes⟩ := eligible
          obtain ⟨callee, entry, called', -⟩ := (@Row.canResume_iff _ _ j).mp resumes
          rw [stored] at present
          cases present
          rw [called] at called'
          cases called'
      | some callee =>
          dsimp only
          cases found : bestEntry (dataCatalog rows) s.claimed callee with
          | none =>
              refine correlated.pass fun j eligible => ?_
              obtain ⟨action', data, present, held, resumes⟩ := eligible
              obtain ⟨callee', entry, called', read, receiver, late⟩ :=
                (@Row.canResume_iff _ _ j).mp resumes
              rw [stored] at present
              cases present
              rw [called] at called'
              cases called'
              obtain ⟨-, -, rfl⟩ := Row.dataEntry_eq_some.mp read
              by_contra free
              exact bestEntry_none found (mem_dataCatalog.mpr ⟨data, held, read⟩)
                ⟨free, receiver, late⟩
          | some best =>
              obtain ⟨listed, ⟨free, receiver, late⟩, -⟩ := bestEntry_some found
              obtain ⟨data, held, read⟩ := mem_dataCatalog.mp listed
              refine correlated.claim stored called held read free ⟨action, data, stored, held, ?_⟩
              exact Row.canResume_iff.mpr ⟨callee, best, called, read, receiver, late⟩

theorem done (rows : List Row) : Correlated rows rows.length (correlate rows) := by
  suffices ∀ m, Correlated rows m ((List.range m).foldl (Correlation.turn (dataCatalog rows))
      ⟨rows, []⟩) from this rows.length
  intro m
  induction m with
  | zero => exact start
  | succ m ih =>
      rw [List.range_succ, List.foldl_append]
      exact ih.turn

end Correlated

/-! ## The pairs -/

def Row.dataId (row : Row) : Option String := (row.dataEntry 0).map DataEntry.dataId

/-- The row is a callback `on_step_resumed`. -/
def Row.IsStepResumed (row : Row) : Prop :=
  ∃ receiverId, row.kind = .action (some "on_step_resumed") receiverId

/-- The row is data with the flag of a resume. -/
def Row.IsPromiseResume (row : Row) : Prop :=
  ∃ dataId dataUtf8 receiverId, row.kind = .data dataId true dataUtf8 receiverId

/-- The row at `i` is paired with data that resumes a promise. -/
def PairedWithResume (rows : List Row) (i : Nat) : Prop :=
  ∃ j data, (i, j) ∈ resumePairs rows ∧ rows[j]? = some data ∧ data.IsPromiseResume

theorem resumedBy_flagged {action data : Row} {callee : Callee} {best : DataEntry} {idx : Nat}
    (called : action.callee = some callee) (read : data.dataEntry idx = some best) :
    (action.resumedBy callee best).isYieldResume = true ↔
      action.isYieldResume = true ∨ action.IsStepResumed ∧ data.IsPromiseResume := by
  obtain ⟨acts, -⟩ := Row.callee_eq_some.mp called
  obtain ⟨holds, -⟩ := Row.dataEntry_eq_some.mp read
  have stepResumed : action.IsStepResumed ↔ callee.method = "on_step_resumed" := by
    simp [Row.IsStepResumed, acts]
  have resumes : data.IsPromiseResume ↔ best.isPromiseResume = true := by
    simp [Row.IsPromiseResume, holds]
  rw [stepResumed, resumes, Row.resumedBy]
  dsimp only
  split
  · rename_i both
    simp only [Bool.and_eq_true, beq_iff_eq] at both
    exact iff_of_true rfl (.inr both)
  · rename_i notBoth
    simp only [Bool.and_eq_true, beq_iff_eq] at notBoth
    exact (or_iff_left notBoth).symm

theorem dataId_of_dataEntry {data : Row} {idx : Nat} {entry : DataEntry}
    (read : data.dataEntry idx = some entry) : data.dataId = some entry.dataId := by
  obtain ⟨holds, -⟩ := Row.dataEntry_eq_some.mp read
  rw [Row.dataId, Row.dataEntry, holds]
  rfl

/-- What the flags of the rows tell in the end. -/
theorem Correlated.flagged {rows : List Row} (correlated : Correlated rows rows.length
    (correlate rows)) {i : Nat} {row : Row} (stored : rows[i]? = some row) :
    ∃ row', (correlateResumes rows)[i]? = some row' ∧ (row'.isYieldResume = true ↔
      row.isYieldResume = true ∨ row.IsStepResumed ∧ PairedWithResume rows i) := by
  by_cases callback : i ∈ (resumePairs rows).map Prod.fst
  · obtain ⟨pair, member, rfl⟩ := List.mem_map.mp callback
    obtain ⟨action, data, callee, best, stored', called, held, read, resumed, -⟩ :=
      correlated.paired pair member
    rw [stored] at stored'
    cases stored'
    have partner : PairedWithResume rows pair.1 ↔ data.IsPromiseResume := by
      constructor
      · rintro ⟨j, data', member', held', resumes⟩
        obtain rfl := correlated.matching.unique member member'
        rw [held] at held'
        cases held'
        exact resumes
      · exact fun resumes => ⟨pair.2, data, member, held, resumes⟩
    refine ⟨_, resumed, ?_⟩
    rw [partner]
    exact resumedBy_flagged called read
  · have alone : ¬ PairedWithResume rows i := fun ⟨j, _, member, _⟩ =>
      callback (List.mem_map_of_mem member)
    have kept : ∃ row', (correlateResumes rows)[i]? = some row' ∧
        row'.isYieldResume = row.isYieldResume := by
      by_cases claimed : i ∈ (resumePairs rows).map Prod.snd
      · obtain ⟨pair, member, rfl⟩ := List.mem_map.mp claimed
        obtain ⟨_, data, _, best, -, -, held, -, -, marked⟩ := correlated.paired pair member
        rw [stored] at held
        cases held
        exact ⟨_, marked, rfl⟩
      · exact ⟨row, (correlated.unpaired i callback claimed).trans stored, rfl⟩
    obtain ⟨row', final, same⟩ := kept
    refine ⟨row', final, ?_⟩
    rw [same]
    exact (or_iff_left fun ⟨_, paired⟩ => alone paired).symm

/-- Each callback is paired with at most one data row and each data row with at most one
callback, with the same receiver and in a block not later, and the data's id is left in both.  A
flag is set on exactly the callbacks `on_step_resumed` whose data resumes a promise.  And no
callback is left without data while data that can have resumed it is left over. -/
theorem correlateResumes_matching (rows : List Row) :
    Matching (Eligible rows) (resumePairs rows) ∧
      (∀ pair ∈ resumePairs rows, ∃ action data dataId,
        (correlateResumes rows)[pair.1]? = some action ∧
          (correlateResumes rows)[pair.2]? = some data ∧ data.dataId = some dataId ∧
          action.resumedByDataId = some dataId ∧ data.resumedByDataId = some dataId) ∧
      (∀ i row, rows[i]? = some row → ∃ row', (correlateResumes rows)[i]? = some row' ∧
        (row'.isYieldResume = true ↔
          row.isYieldResume = true ∨ row.IsStepResumed ∧ PairedWithResume rows i)) ∧
      ∀ i j, Eligible rows i j →
        i ∈ (resumePairs rows).map Prod.fst ∨ j ∈ (resumePairs rows).map Prod.snd := by
  have correlated := Correlated.done rows
  refine ⟨correlated.matching, ?_, ?_, ?_⟩
  · intro pair member
    obtain ⟨action, data, callee, best, -, -, -, read, resumed, marked⟩ :=
      correlated.paired pair member
    exact ⟨_, _, best.dataId, resumed, marked, dataId_of_dataEntry read, rfl, rfl⟩
  · exact fun i row stored => correlated.flagged stored
  · intro i j eligible
    have ⟨_, _, stored, _⟩ := eligible
    exact correlated.settled i j (List.getElem?_eq_some_iff.mp stored).1 eligible

end SmartAccount
