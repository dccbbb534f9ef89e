import SmartAccount.TraceTrees

/-!
# Flattened traces

`flattenReceiptTree` of `scripts/lib/trace-rpc.mjs` turns the tree of a trace into rows.  The
tree holds a stub for every later visit of a receipt, and the rows leave the stubs out: what
stays is each receipt that the transaction leads to, once, in the depth-first order
(`flattenReceiptTree_preorder`).

As in the trees, what is printed only is left out of the rows.
-/

namespace SmartAccount

open Foundation

/-! ## Rows -/

/-- The text of a tag. -/
def StatusTag.text : StatusTag → String
  | unknown => "Unknown"
  | successValue => "SuccessValue"
  | successReceiptId => "SuccessReceiptId"
  | failure => "Failure"
  | pendingYield => "pending_yield"

def renderStatusTag (tag : StatusTag) : String :=
  if tag = .pendingYield then "waiting_for_resume" else tag.text

/-- A row of the flattened tree.  What a receipt without an outcome does not have is none. -/
structure FlatReceipt where
  ordinal : Nat
  id : String
  parentId : Option String
  depth : Nat
  executor : Option String
  predecessor : Option String
  isRefund : Option Bool
  isPromiseYield : Option Bool
  logs : List String
  gasBurnt : Nat
  tokensBurnt : Nat
  statusTag : Option StatusTag
  status : Option String

namespace TraceNode

def id : TraceNode → String
  | dedupe id => id
  | missing id => id
  | receipt id _ _ => id

def row : TraceNode → Option ReceiptRow
  | receipt _ row _ => some row
  | _ => none

def flatten (ordinal : Nat) (parentId : Option String) (depth : Nat) (node : TraceNode) :
    FlatReceipt where
  ordinal := ordinal
  id := node.id
  parentId := parentId
  depth := depth
  executor := node.row.map ReceiptRow.executor
  predecessor := node.row.map ReceiptRow.predecessor
  isRefund := node.row.map ReceiptRow.isRefund
  isPromiseYield := node.row.map ReceiptRow.isPromiseYield
  logs := (node.row.map ReceiptRow.logs).getD []
  gasBurnt := (node.row.map ReceiptRow.gasBurnt).getD 0
  tokensBurnt := (node.row.map ReceiptRow.tokensBurnt).getD 0
  statusTag := node.row.map ReceiptRow.statusTag
  status := node.row.map fun row => renderStatusTag row.statusTag

end TraceNode

/-! ## The walk through a tree -/

section Walk

variable {σ : Type}

mutual

/-- `walk` of `walkReceipts`, with the state that the visitor keeps. -/
def TraceNode.walk (visit : σ → TraceNode → Option String → Nat → σ) (parentId : Option String)
    (depth : Nat) (state : σ) : TraceNode → σ
  | .receipt id row children =>
      TraceNode.walkAll visit (some id) (depth + 1)
        (visit state (.receipt id row children) parentId depth) children
  | .dedupe id => visit state (.dedupe id) parentId depth
  | .missing id => visit state (.missing id) parentId depth

def TraceNode.walkAll (visit : σ → TraceNode → Option String → Nat → σ)
    (parentId : Option String) (depth : Nat) (state : σ) : List TraceNode → σ
  | [] => state
  | node :: nodes =>
      TraceNode.walkAll visit parentId depth (node.walk visit parentId depth state) nodes

end

def walkReceipts (visit : σ → TraceNode → Option String → Nat → σ) (state : σ) :
    TraceTree → σ
  | .error _ => state
  | .tx _ children => TraceNode.walkAll visit none 0 state children

end Walk

/-- What `flattenReceiptTree` keeps along the walk. -/
structure Flattening where
  flat : List FlatReceipt
  ordinal : Nat

def Flattening.visit (s : Flattening) (node : TraceNode) (parentId : Option String)
    (depth : Nat) : Flattening :=
  if node.isDedupe then s
  else ⟨s.flat ++ [node.flatten s.ordinal parentId depth], s.ordinal + 1⟩

def flattenReceiptTree (tree : TraceTree) : List FlatReceipt :=
  match tree with
  | .error _ => []
  | .tx _ _ => (walkReceipts Flattening.visit ⟨[], 0⟩ tree).flat

/-! ## The rows of a walk -/

/-- The place of a row in the tree. -/
def FlatReceipt.place (row : FlatReceipt) : Place String := ⟨row.id, row.parentId, row.depth⟩

namespace TxStatus

variable {predecessor : Option ReceiptView → String} {r : TxStatus}

/-- The row of a receipt at its place. -/
def flatRow (predecessor : Option ReceiptView → String) (r : TxStatus)
    (numbered : Place String × Nat) : FlatReceipt :=
  (r.node predecessor (.first numbered.1.vertex [])).flatten numbered.2 numbered.1.parent
    numbered.1.depth

/-- The rows of these places, numbered from `ordinal` on. -/
def flatRows (predecessor : Option ReceiptView → String) (r : TxStatus) (ordinal : Nat)
    (places : List (Place String)) : List FlatReceipt :=
  (places.zipIdx ordinal).map (r.flatRow predecessor)

theorem flatRows_append (ordinal : Nat) (places places' : List (Place String)) :
    r.flatRows predecessor ordinal (places ++ places') =
      r.flatRows predecessor ordinal places ++
        r.flatRows predecessor (ordinal + places.length) places' := by
  rw [flatRows, List.zipIdx_append, List.map_append]
  rfl

theorem flatRow_place (numbered : Place String × Nat) :
    (r.flatRow predecessor numbered).place = numbered.1 := by
  rw [flatRow, node]
  cases r.outById numbered.1.vertex <;> rfl

theorem flatRow_ordinal (numbered : Place String × Nat) :
    (r.flatRow predecessor numbered).ordinal = numbered.2 := by
  rw [flatRow, node]
  cases r.outById numbered.1.vertex <;> rfl

theorem visit_first (s : Flattening) (parentId : Option String) (depth : Nat) (id : String)
    (children : List (Visit String)) :
    s.visit (r.node predecessor (.first id children)) parentId depth =
      ⟨s.flat ++ [r.flatRow predecessor (⟨id, parentId, depth⟩, s.ordinal)], s.ordinal + 1⟩ := by
  rw [flatRow, node, node]
  cases r.outById id <;> rfl

/-- The walk through a tree adds one row for each first visit. -/
theorem walkAll_nodes {seen ids visited : List String} {trees : List (Visit String)}
    (walked : Walks r.next seen ids trees visited) (parentId : Option String) (depth : Nat)
    (s : Flattening) :
    TraceNode.walkAll Flattening.visit parentId depth s (r.nodes predecessor trees) =
      ⟨s.flat ++ r.flatRows predecessor s.ordinal (Visit.allPlaces parentId depth trees),
        s.ordinal + (Visit.allPlaces parentId depth trees).length⟩ := by
  induction walked generalizing parentId depth s with
  | done => exact congrArg (Flattening.mk · s.ordinal) (List.append_nil s.flat).symm
  | again _ _ ih =>
      rw [nodes, node, TraceNode.walkAll]
      exact ih parentId depth s
  | @first _ _ _ _ children trees id _ walkedBelow _ below beside =>
      have one : (r.node predecessor (.first id children)).walk Flattening.visit parentId depth
          s = ⟨s.flat ++ r.flatRows predecessor s.ordinal
              ((Visit.first id children).places parentId depth),
            s.ordinal + ((Visit.first id children).places parentId depth).length⟩ := by
        have entered := @visit_first predecessor r s parentId depth id children
        rw [Visit.places]
        cases found : r.outById id with
        | none =>
            rw [next, found] at walkedBelow
            cases walkedBelow
            rw [node, found] at entered ⊢
            exact entered
        | some out =>
            rw [node, found] at entered ⊢
            rw [TraceNode.walk, entered, below, List.append_assoc, Nat.add_assoc, List.length_cons,
              Nat.add_comm 1]
            rfl
      rw [nodes, TraceNode.walkAll, one, beside, Visit.allPlaces, flatRows_append,
        List.length_append, List.append_assoc, Nat.add_assoc]

/-- A tree is flattened to the rows of its first visits. -/
theorem flattenReceiptTree_nodes {top : FinalExecutionStatus} {ids visited : List String}
    {trees : List (Visit String)} (walked : Walks r.next [] ids trees visited) :
    flattenReceiptTree (.tx top (r.nodes predecessor trees)) =
      r.flatRows predecessor 0 (Visit.allPlaces none 0 trees) := by
  rw [flattenReceiptTree, walkReceipts, walkAll_nodes walked]
  exact List.nil_append _

theorem flatRows_place (ordinal : Nat) (places : List (Place String)) :
    (r.flatRows predecessor ordinal places).map FlatReceipt.place = places := by
  have unnumbered : FlatReceipt.place ∘ r.flatRow predecessor = Prod.fst := funext flatRow_place
  rw [flatRows, List.map_map, unnumbered, List.zipIdx_map_fst]

theorem flatRows_ordinal (ordinal : Nat) (places : List (Place String)) :
    (r.flatRows predecessor ordinal places).map FlatReceipt.ordinal =
      List.range' ordinal places.length := by
  have numbers : FlatReceipt.ordinal ∘ r.flatRow predecessor = Prod.snd := funext flatRow_ordinal
  rw [flatRows, List.map_map, numbers, List.zipIdx_map_snd]

end TxStatus

/-! ## Every receipt once -/

namespace RpcResult

/-- The receipts that the transaction's own outcome lists. -/
def rootIds (rpcResult : RpcResult) : List String :=
  (rpcResult.result.map TxStatus.rootIds).getD []

/-- The receipts that a receipt's outcome lists. -/
def next (rpcResult : RpcResult) (id : String) : List String :=
  (rpcResult.result.map fun r => r.next id).getD []

end RpcResult

/-- A row is below an earlier one that lists it, or the transaction lists it. -/
def FlatReceipt.HangsFrom (rpcResult : RpcResult) (before : List FlatReceipt)
    (row : FlatReceipt) : Prop :=
  (row.parentId = none ∧ row.depth = 0 ∧ row.id ∈ rpcResult.rootIds) ∨
    ∃ parent ∈ before, row.parentId = some parent.id ∧ row.depth = parent.depth + 1 ∧
      row.id ∈ rpcResult.next parent.id

/-- The walk ends, and its rows are the receipts that the transaction leads to: each once, in
the depth-first order, below a row that lists it, and numbered. -/
theorem flattenReceiptTree_preorder (rpcResult : RpcResult) :
    ∃ tree, TraceRpc.buildTree rpcResult = some tree ∧
      ((flattenReceiptTree tree).map FlatReceipt.id).Nodup ∧
      (∀ id, id ∈ (flattenReceiptTree tree).map FlatReceipt.id ↔
        Foundation.Reached rpcResult.next rpcResult.rootIds id) ∧
      (∀ before row after, flattenReceiptTree tree = before ++ row :: after →
        row.HangsFrom rpcResult before) ∧
      Explores rpcResult.next [] rpcResult.rootIds
        ((flattenReceiptTree tree).map FlatReceipt.id) ∧
      (flattenReceiptTree tree).map FlatReceipt.ordinal =
        List.range (flattenReceiptTree tree).length := by
  obtain ⟨result, error⟩ := rpcResult
  cases result with
  | none =>
      refine ⟨_, rfl, List.nodup_nil, fun id => ?_, fun before row after split => ?_, .done, rfl⟩
      · refine iff_of_false List.not_mem_nil ?_
        rintro ⟨root, start, -⟩
        exact List.not_mem_nil start
      · exact absurd split.symm (List.append_ne_nil_of_right_ne_nil _ (List.cons_ne_nil _ _))
  | some r =>
      obtain ⟨trees, visited, walked, built⟩ := r.buildTreeWith_some TraceRpc.predecessor error
      refine ⟨_, built, ?_⟩
      rw [TxStatus.flattenReceiptTree_nodes walked]
      have places := @TxStatus.flatRows_place TraceRpc.predecessor r 0
        (Visit.allPlaces none 0 trees)
      have ids : (r.flatRows TraceRpc.predecessor 0 (Visit.allPlaces none 0 trees)).map
          FlatReceipt.id = visited := by
        calc _ = ((r.flatRows TraceRpc.predecessor 0 (Visit.allPlaces none 0 trees)).map
              FlatReceipt.place).map Place.vertex := by rw [List.map_map]; rfl
          _ = visited := by rw [places, walked.places_vertex]
      rw [ids]
      refine ⟨walked.explores.nodup.1, fun id => walked.explores.mem_iff,
        fun before row after split => ?_, walked.explores, ?_⟩
      · rw [split, List.map_append, List.map_cons] at places
        rcases walked.places_grow places.symm with root | ⟨origin, early, below⟩
        · exact .inl root
        · obtain ⟨parent, inside, rfl⟩ := List.mem_map.mp early
          exact .inr ⟨parent, inside, below⟩
      · have size := congrArg List.length places
        rw [List.length_map] at size
        rw [TxStatus.flatRows_ordinal, size, List.range_eq_range']

end SmartAccount
