import SmartAccount.Foundation.DepthFirst

/-!
# The two trace classifiers

`buildTree` and `classify` of `web/trace.js` and of `scripts/lib/trace-rpc.mjs`.  Both turn the
result of `EXPERIMENTAL_tx_status` into a tree by the same walk over the receipts, with one
`seen` set shared by all branches; they differ in what they count as pending.  The page counts
every yield whose outcome is chained to a callback, the script only one that leads nowhere new,
and receipts without an outcome besides.

Printed only, and left out: summaries of actions, data ids, decoded return values and block
hashes.
-/

namespace SmartAccount

open Foundation

/-! ## The RPC result -/

/-- The `status` of an execution outcome. -/
inductive ExecutionStatus where
  | unknown
  | failure (error : String)
  | successValue (value : String)
  | successReceiptId (receiptId : String)

/-- The `status` of the whole transaction. -/
inductive FinalExecutionStatus where
  | notStarted
  | started
  | failure (error : String)
  | successValue (value : String)

/-- An entry of `receipts_outcome`. -/
structure ReceiptOutcome where
  id : String
  executorId : String
  status : ExecutionStatus
  receiptIds : List String
  logs : List String
  gasBurnt : Nat
  tokensBurnt : Nat

/-- An entry of `receipts`; `receipt.Action`, where it has one, by its `is_promise_yield`. -/
structure ReceiptView where
  receiptId : String
  predecessorId : String
  action : Option Bool

structure TxStatus where
  status : FinalExecutionStatus
  /-- `transaction_outcome.outcome.receipt_ids`. -/
  rootIds : List String
  receiptsOutcome : List ReceiptOutcome
  receipts : List ReceiptView

structure RpcResult where
  result : Option TxStatus
  error : Option String

/-! ## Trees -/

inductive StatusTag where
  | unknown
  | successValue
  | successReceiptId
  | failure
  | pendingYield
  deriving DecidableEq

def statusTag : ExecutionStatus → StatusTag
  | .unknown => .unknown
  | .successValue _ => .successValue
  | .successReceiptId _ => .successReceiptId
  | .failure _ => .failure

/-- What a tree says of a receipt with an outcome. -/
structure ReceiptRow where
  executor : String
  predecessor : String
  isRefund : Bool
  isPromiseYield : Bool
  logs : List String
  gasBurnt : Nat
  tokensBurnt : Nat
  statusTag : StatusTag

/-- A node of `kind: "receipt"`. -/
inductive TraceNode where
  | dedupe (id : String)
  | missing (id : String)
  | receipt (id : String) (row : ReceiptRow) (children : List TraceNode)

inductive TraceTree where
  | error (error : String)
  | tx (finalStatus : FinalExecutionStatus) (children : List TraceNode)

namespace TxStatus

/-- `outById.get`: of two outcomes with one id a `Map` keeps the later. -/
def outById (r : TxStatus) (id : String) : Option ReceiptOutcome :=
  r.receiptsOutcome.reverse.find? fun out => out.id = id

/-- `receiptById.get`. -/
def receiptById (r : TxStatus) (id : String) : Option ReceiptView :=
  r.receipts.reverse.find? fun receipt => receipt.receiptId = id

def isPromiseYield (r : TxStatus) (id : String) : Bool :=
  (r.receiptById id).bind ReceiptView.action == some true

/-- The tag of an outcome: a yield still chained to its callback waits for it. -/
def tag (r : TxStatus) (id : String) (out : ReceiptOutcome) : StatusTag :=
  if r.isPromiseYield id ∧ statusTag out.status = .successReceiptId then .pendingYield
  else statusTag out.status

def row (predecessor : Option ReceiptView → String) (r : TxStatus) (id : String)
    (out : ReceiptOutcome) : ReceiptRow where
  executor := out.executorId
  predecessor := predecessor (r.receiptById id)
  isRefund := (r.receiptById id).map ReceiptView.predecessorId == some "system"
  isPromiseYield := r.isPromiseYield id
  logs := out.logs
  gasBurnt := out.gasBurnt
  tokensBurnt := out.tokensBurnt
  statusTag := r.tag id out

/-- `walkReceipt`, which goes down at most `depth` receipts. -/
def walkReceipt (predecessor : Option ReceiptView → String) (r : TxStatus) :
    Nat → String → StateT (List String) Option TraceNode
  | 0, _ => failure
  | depth + 1, id => do
      let seen ← get
      if id ∈ seen then
        return .dedupe id
      set (seen ++ [id])
      match r.outById id with
      | none => return .missing id
      | some out =>
          let children ← out.receiptIds.mapM (walkReceipt predecessor r depth)
          return .receipt id (r.row predecessor id out) children

end TxStatus

/-- The walk goes down at most once for each outcome, and to one receipt without. -/
def buildTreeWith (predecessor : Option ReceiptView → String) (rpcResult : RpcResult) :
    Option TraceTree :=
  match rpcResult.result with
  | none => some (.error (rpcResult.error.getD "missing result"))
  | some r => do
      let (children, _) ←
        (r.rootIds.mapM (r.walkReceipt predecessor (r.receiptsOutcome.length + 1))).run []
      return .tx r.status children

/-! ## Classification -/

inductive Classification where
  | unknown
  | hardFail
  | pending
  | partialFail
  | fullSuccess
  deriving DecidableEq

structure Flags where
  anyFail : Bool
  anyPending : Bool

def TraceNode.fails : TraceNode → Bool
  | receipt _ row _ => row.statusTag = .failure && !row.isRefund
  | _ => false

def TraceNode.isDedupe : TraceNode → Bool
  | dedupe _ => true
  | _ => false

def Flags.note (pends : TraceNode → Bool) (flags : Flags) (node : TraceNode) : Flags :=
  ⟨flags.anyFail || node.fails, flags.anyPending || pends node⟩

mutual

/-- `walk` of `classify`. -/
@[simp] def TraceNode.scan (pends : TraceNode → Bool) (flags : Flags) : TraceNode → Flags
  | .receipt id row children =>
      TraceNode.scanAll pends (flags.note pends (.receipt id row children)) children
  | .dedupe id => flags.note pends (.dedupe id)
  | .missing id => flags.note pends (.missing id)

@[simp] def TraceNode.scanAll (pends : TraceNode → Bool) (flags : Flags) : List TraceNode → Flags
  | [] => flags
  | node :: nodes => TraceNode.scanAll pends (node.scan pends flags) nodes

end

def FinalExecutionStatus.isFailure : FinalExecutionStatus → Bool
  | failure _ => true
  | _ => false

/-- `classify`, by what it takes for pending. -/
def classifyWith (pends : TraceNode → Bool) : TraceTree → Classification
  | .error _ => .unknown
  | .tx finalStatus children =>
      let flags := TraceNode.scanAll pends ⟨false, false⟩ children
      if finalStatus.isFailure then .hardFail
      else if flags.anyPending then .pending
      else if flags.anyFail then .partialFail
      else .fullSuccess

/-! ### `web/trace.js` -/

namespace WebTrace

/-- `raw?.predecessor_id ?? "?"`. -/
def predecessor (raw : Option ReceiptView) : String :=
  (raw.map ReceiptView.predecessorId).getD "?"

def buildTree : RpcResult → Option TraceTree := buildTreeWith predecessor

def pends : TraceNode → Bool
  | .receipt _ row _ => row.statusTag = .pendingYield || row.statusTag = .unknown
  | _ => false

def classify : TraceTree → Classification := classifyWith pends

end WebTrace

/-! ### `scripts/lib/trace-rpc.mjs` -/

namespace TraceRpc

/-- `raw?.predecessor_id || "?"`. -/
def predecessor (raw : Option ReceiptView) : String :=
  match raw.map ReceiptView.predecessorId with
  | some "" | none => "?"
  | some predecessorId => predecessorId

def buildTree : RpcResult → Option TraceTree := buildTreeWith predecessor

def pends : TraceNode → Bool
  | .missing _ => true
  | .receipt _ row children => row.statusTag = .unknown ||
      row.statusTag = .pendingYield && (children.filter (!·.isDedupe)).isEmpty
  | .dedupe _ => false

def classify : TraceTree → Classification := classifyWith pends

end TraceRpc

/-! ## The walk -/

namespace TxStatus

variable {predecessor : Option ReceiptView → String} {r : TxStatus}

/-- The receipts that an outcome leads to. -/
def next (r : TxStatus) (id : String) : List String :=
  ((r.outById id).map ReceiptOutcome.receiptIds).getD []

/-- The outcomes of receipts not seen yet. -/
def unseen (r : TxStatus) (seen : List String) : List ReceiptOutcome :=
  r.receiptsOutcome.filter fun out => out.id ∉ seen

theorem outById_some {id : String} {out : ReceiptOutcome} (found : r.outById id = some out) :
    out ∈ r.receiptsOutcome ∧ out.id = id := by
  unfold outById at found
  have named := List.find?_some found
  rw [decide_eq_true_eq] at named
  exact ⟨List.mem_reverse.mp (List.mem_of_find?_eq_some found), named⟩

theorem unseen_mono {seen seen' : List String} (more : ∀ id ∈ seen, id ∈ seen') :
    (r.unseen seen').length ≤ (r.unseen seen).length := by
  refine (List.monotone_filter_right r.receiptsOutcome fun out fresh => ?_).length_le
  rw [decide_eq_true_eq] at fresh ⊢
  exact fun early => fresh (more _ early)

/-- A receipt with an outcome that is seen is one less to see. -/
theorem unseen_lt {seen : List String} {id : String} {out : ReceiptOutcome}
    (found : r.outById id = some out) (fresh : id ∉ seen) :
    (r.unseen (seen ++ [id])).length < (r.unseen seen).length := by
  obtain ⟨inside, rfl⟩ := outById_some found
  have split : r.unseen (seen ++ [out.id]) =
      (r.unseen seen).filter fun out' => out'.id ≠ out.id := by
    rw [unseen, unseen, List.filter_filter]
    refine List.filter_congr fun out' _ => ?_
    rw [← Bool.decide_and, decide_eq_decide, List.mem_append, List.mem_singleton, not_or]
    exact And.comm
  rw [split]
  refine List.length_filter_lt_length_iff_exists.mpr ⟨out, ?_, by simp⟩
  exact List.mem_filter.mpr ⟨inside, decide_eq_true fresh⟩

mutual

/-- The node of a visit. -/
@[simp] def node (predecessor : Option ReceiptView → String) (r : TxStatus) :
    Visit String → TraceNode
  | .again id => .dedupe id
  | .first id children =>
      match r.outById id with
      | none => .missing id
      | some out => .receipt id (r.row predecessor id out) (nodes predecessor r children)

@[simp] def nodes (predecessor : Option ReceiptView → String) (r : TxStatus) :
    List (Visit String) → List TraceNode
  | [] => []
  | tree :: trees => node predecessor r tree :: nodes predecessor r trees

end

theorem walkReceipt_again {depth : Nat} {id : String} {seen : List String} (early : id ∈ seen) :
    (r.walkReceipt predecessor (depth + 1) id).run seen = some (.dedupe id, seen) := by
  simp [walkReceipt, early]

theorem walkReceipt_missing {depth : Nat} {id : String} {seen : List String}
    (fresh : id ∉ seen) (missing : r.outById id = none) :
    (r.walkReceipt predecessor (depth + 1) id).run seen = some (.missing id, seen ++ [id]) := by
  simp [walkReceipt, fresh, missing]

theorem walkReceipt_found {depth : Nat} {id : String} {seen seen' : List String}
    {out : ReceiptOutcome} {children : List TraceNode} (fresh : id ∉ seen)
    (found : r.outById id = some out)
    (below : (out.receiptIds.mapM (r.walkReceipt predecessor depth)).run (seen ++ [id]) =
      some (children, seen')) :
    (r.walkReceipt predecessor (depth + 1) id).run seen =
      some (.receipt id (r.row predecessor id out) children, seen') := by
  simp [walkReceipt, fresh, found, below]

theorem mapM_cons_run {walk : String → StateT (List String) Option TraceNode} {id : String}
    {ids seen seen' seen'' : List String} {tree : TraceNode} {trees : List TraceNode}
    (head : (walk id).run seen = some (tree, seen'))
    (tail : (ids.mapM walk).run seen' = some (trees, seen'')) :
    ((id :: ids).mapM walk).run seen = some (tree :: trees, seen'') := by
  simp [List.mapM_cons, head, tail]

/-- The walk ends, and it is a depth-first walk of the receipts. -/
theorem walkReceipt_walks {depth : Nat} {ids seen : List String}
    (enough : (r.unseen seen).length < depth) :
    ∃ trees visited, Walks r.next seen ids trees visited ∧
      (ids.mapM (r.walkReceipt predecessor depth)).run seen =
        some (r.nodes predecessor trees, seen ++ visited) := by
  induction depth generalizing ids seen with
  | zero => exact absurd enough (Nat.not_lt_zero _)
  | succ depth deeper =>
      induction ids generalizing seen with
      | nil => exact ⟨[], [], .done, by simp [nodes]⟩
      | cons id ids beside =>
          by_cases early : id ∈ seen
          · obtain ⟨trees, visited, walked, run⟩ := beside enough
            refine ⟨_, visited, .again early walked, ?_⟩
            exact mapM_cons_run (walkReceipt_again early) run
          · cases found : r.outById id with
            | none =>
                obtain ⟨trees, visited, walked, run⟩ := @beside (seen ++ [id])
                  (Nat.lt_of_le_of_lt (unseen_mono fun _ => List.mem_append_left _) enough)
                have nowhere : r.next id = [] := by rw [next, found]; rfl
                refine ⟨.first id [] :: trees, id :: ([] ++ visited), .first early ?_ walked, ?_⟩
                · rw [nowhere]
                  exact .done
                · rw [nodes, node, found]
                  rw [List.append_assoc] at run
                  exact mapM_cons_run (walkReceipt_missing early found) run
            | some out =>
                have onwards : r.next id = out.receiptIds := by rw [next, found]; rfl
                obtain ⟨children, below, walkedBelow, runBelow⟩ :=
                  @deeper out.receiptIds (seen ++ [id])
                    (Nat.lt_of_lt_of_le (unseen_lt found early) (Nat.le_of_lt_succ enough))
                rw [List.append_assoc, List.singleton_append] at runBelow
                obtain ⟨trees, visited, walked, run⟩ := @beside (seen ++ id :: below)
                  (Nat.lt_of_le_of_lt (unseen_mono fun _ => List.mem_append_left _) enough)
                refine ⟨.first id children :: trees, id :: (below ++ visited),
                  .first early (onwards ▸ walkedBelow) walked, ?_⟩
                rw [nodes, node, found]
                rw [List.append_assoc, List.cons_append] at run
                exact mapM_cons_run (walkReceipt_found early found runBelow) run

/-! ## What the classifiers see -/

/-- The tag of a receipt with an outcome. -/
def tagOf (r : TxStatus) (id : String) : Option StatusTag := (r.outById id).map (r.tag id)

/-- A yield whose outcome is still chained to its callback. -/
def Waits (r : TxStatus) (id : String) : Prop := r.tagOf id = some .pendingYield

/-- The node of a first visit. -/
def seenNode (predecessor : Option ReceiptView → String) (r : TxStatus)
    (visit : String × List (Visit String)) : TraceNode :=
  r.node predecessor (.first visit.1 visit.2)

/-- The flags of a scan are those of the first visits. -/
theorem scanAll_nodes {pends : TraceNode → Bool} (stub : ∀ id, pends (.dedupe id) = false)
    {seen ids visited : List String} {trees : List (Visit String)}
    (walked : Walks r.next seen ids trees visited) (flags : Flags) :
    TraceNode.scanAll pends flags (r.nodes predecessor trees) =
      ⟨flags.anyFail ||
          (Visit.allFirsts trees).any fun visit => (r.seenNode predecessor visit).fails,
        flags.anyPending ||
          (Visit.allFirsts trees).any fun visit => pends (r.seenNode predecessor visit)⟩ := by
  induction walked generalizing flags with
  | done => simp [Visit.allFirsts]
  | again _ _ ih =>
      rw [nodes, node, TraceNode.scanAll, TraceNode.scan, ih]
      simp [Flags.note, TraceNode.fails, stub, Visit.allFirsts, Visit.firsts]
  | @first _ _ _ _ _ _ id _ walkedBelow _ below beside =>
      rw [nodes, node, TraceNode.scanAll, beside, Visit.allFirsts, Visit.firsts]
      cases found : r.outById id with
      | none =>
          rw [next, found] at walkedBelow
          cases walkedBelow
          simp [Flags.note, Visit.allFirsts, seenNode, found, Bool.or_assoc]
      | some out =>
          simp only [TraceNode.scan, below, Flags.note, List.any_append, List.any_cons, seenNode,
            node, found, Bool.or_assoc]

theorem nodes_dedupe_iff (trees : List (Visit String)) :
    ((r.nodes predecessor trees).filter (!·.isDedupe)).isEmpty = true ↔
      ∀ tree ∈ trees, tree.isAgain = true := by
  rw [List.isEmpty_iff, List.filter_eq_nil_iff]
  induction trees with
  | nil => exact ⟨fun _ _ inside => (List.not_mem_nil inside).elim,
      fun _ _ inside => (List.not_mem_nil inside).elim⟩
  | cons tree trees ih =>
      rw [nodes, List.forall_mem_cons, List.forall_mem_cons, ih]
      refine and_congr_left fun _ => ?_
      cases tree with
      | again id => simp [TraceNode.isDedupe, Visit.isAgain]
      | first id children =>
          rw [node]
          cases r.outById id <;> simp [TraceNode.isDedupe, Visit.isAgain]

/-- What the page takes for pending. -/
theorem webTrace_pends {visit : String × List (Visit String)} :
    WebTrace.pends (r.seenNode predecessor visit) = true ↔
      r.tagOf visit.1 = some .unknown ∨ r.Waits visit.1 := by
  rw [seenNode, node, Waits, tagOf]
  cases r.outById visit.1 with
  | none => simp [WebTrace.pends]
  | some out =>
      simp only [WebTrace.pends, Bool.or_eq_true, decide_eq_true_eq, Option.map_some,
        Option.some.injEq]
      exact or_comm

/-- What the script takes for pending. -/
theorem traceRpc_pends {visit : String × List (Visit String)} :
    TraceRpc.pends (r.seenNode predecessor visit) = true ↔
      r.tagOf visit.1 = some .unknown ∨ r.outById visit.1 = none ∨
        r.Waits visit.1 ∧ ∀ tree ∈ visit.2, tree.isAgain = true := by
  rw [seenNode, node, Waits, tagOf]
  cases r.outById visit.1 with
  | none => simp [TraceRpc.pends]
  | some out =>
      simp only [TraceRpc.pends, Bool.or_eq_true, Bool.and_eq_true, decide_eq_true_eq,
        nodes_dedupe_iff, Option.map_some, Option.some.injEq, reduceCtorEq, false_or]
      exact Iff.rfl

/-- Failures are told apart by neither. -/
theorem seenNode_fails (predecessor' : Option ReceiptView → String)
    (visit : String × List (Visit String)) :
    (r.seenNode predecessor visit).fails = (r.seenNode predecessor' visit).fails := by
  rw [seenNode, seenNode, node, node]
  cases r.outById visit.1 <;> rfl

/-! ## Agreement -/

/-- Some receipt that the transaction leads to is such. -/
def Leads (r : TxStatus) (p : String → Prop) : Prop :=
  ∃ id, Reached r.next r.rootIds id ∧ p id

/-- All that the receipt leads to comes before it in the depth-first order. -/
def NowhereNew (r : TxStatus) (id : String) : Prop :=
  ∀ order, Explores r.next [] r.rootIds order → ∀ child ∈ r.next id, ¬ Later order id child

/-- A receipt without a status counts for both classifiers.  Without one, the page finds a
yield that waits exactly when the script finds a missing outcome or a yield that waits and
leads nowhere new. -/
def PendingAlike (r : TxStatus) : Prop :=
  r.Leads (fun id => r.tagOf id = some .unknown) ∨
    (r.Leads r.Waits ↔ r.Leads (fun id => r.outById id = none) ∨
      r.Leads fun id => r.Waits id ∧ r.NowhereNew id)

section Walked

variable {trees : List (Visit String)} {visited : List String}

theorem any_visit_iff (walked : Walks r.next [] r.rootIds trees visited) {p : String → Prop} :
    (∃ visit ∈ Visit.allFirsts trees, p visit.1) ↔ r.Leads p := by
  have order := walked.firsts_map
  constructor
  · rintro ⟨visit, inside, holds⟩
    refine ⟨visit.1, walked.explores.mem_iff.mp ?_, holds⟩
    rw [← order]
    exact List.mem_map_of_mem inside
  · rintro ⟨id, reached, holds⟩
    have named := walked.explores.mem_iff.mpr reached
    rw [← order] at named
    obtain ⟨visit, inside, rfl⟩ := List.mem_map.mp named
    exact ⟨visit, inside, holds⟩

theorem stubs_iff_nowhereNew (walked : Walks r.next [] r.rootIds trees visited)
    {visit : String × List (Visit String)} (inside : visit ∈ Visit.allFirsts trees) :
    (∀ tree ∈ visit.2, tree.isAgain = true) ↔ r.NowhereNew visit.1 := by
  rw [walked.stubs_iff (v := visit.1) inside]
  constructor
  · intro early order explored
    rwa [explored.unique walked.explores]
  · exact fun nowhere => nowhere visited walked.explores

/-- The page finds something pending. -/
theorem webTrace_anyPending (walked : Walks r.next [] r.rootIds trees visited) :
    ((Visit.allFirsts trees).any fun visit =>
        WebTrace.pends (r.seenNode predecessor visit)) = true ↔
      r.Leads (fun id => r.tagOf id = some .unknown) ∨ r.Leads r.Waits := by
  simp only [List.any_eq_true, webTrace_pends, ← any_visit_iff walked]
  constructor
  · rintro ⟨visit, inside, unknown | waits⟩
    · exact .inl ⟨visit, inside, unknown⟩
    · exact .inr ⟨visit, inside, waits⟩
  · rintro (⟨visit, inside, unknown⟩ | ⟨visit, inside, waits⟩)
    · exact ⟨visit, inside, .inl unknown⟩
    · exact ⟨visit, inside, .inr waits⟩

/-- The script finds something pending. -/
theorem traceRpc_anyPending (walked : Walks r.next [] r.rootIds trees visited) :
    ((Visit.allFirsts trees).any fun visit =>
        TraceRpc.pends (r.seenNode predecessor visit)) = true ↔
      r.Leads (fun id => r.tagOf id = some .unknown) ∨
        r.Leads (fun id => r.outById id = none) ∨
          r.Leads fun id => r.Waits id ∧ r.NowhereNew id := by
  simp only [List.any_eq_true, traceRpc_pends, ← any_visit_iff walked]
  constructor
  · rintro ⟨visit, inside, unknown | missing | ⟨waits, stubs⟩⟩
    · exact .inl ⟨visit, inside, unknown⟩
    · exact .inr (.inl ⟨visit, inside, missing⟩)
    · exact .inr (.inr ⟨visit, inside, waits, (stubs_iff_nowhereNew walked inside).mp stubs⟩)
  · rintro (⟨visit, inside, unknown⟩ | ⟨visit, inside, missing⟩ | ⟨visit, inside, waits, nowhere⟩)
    · exact ⟨visit, inside, .inl unknown⟩
    · exact ⟨visit, inside, .inr (.inl missing)⟩
    · exact ⟨visit, inside,
        .inr (.inr ⟨waits, (stubs_iff_nowhereNew walked inside).mpr nowhere⟩)⟩

end Walked

theorem pendingAlike_iff :
    (r.Leads (fun id => r.tagOf id = some .unknown) ∨ r.Leads r.Waits ↔
      r.Leads (fun id => r.tagOf id = some .unknown) ∨ r.Leads (fun id => r.outById id = none) ∨
        r.Leads fun id => r.Waits id ∧ r.NowhereNew id) ↔ r.PendingAlike := by
  by_cases unknown : r.Leads fun id => r.tagOf id = some .unknown
  · exact iff_of_true (iff_of_true (.inl unknown) (.inl unknown)) (.inl unknown)
  · rw [PendingAlike, or_iff_right unknown, or_iff_right unknown, or_iff_right unknown]

/-- The tree of a result. -/
theorem buildTreeWith_some (predecessor : Option ReceiptView → String) (r : TxStatus)
    (error : Option String) :
    ∃ trees visited, Walks r.next [] r.rootIds trees visited ∧
      buildTreeWith predecessor ⟨some r, error⟩ =
        some (.tx r.status (r.nodes predecessor trees)) := by
  have enough : (r.unseen []).length < r.receiptsOutcome.length + 1 :=
    Nat.lt_succ_of_le (List.length_filter_le _ _)
  obtain ⟨trees, visited, walked, run⟩ :=
    @walkReceipt_walks predecessor r _ r.rootIds [] enough
  refine ⟨trees, visited, walked, ?_⟩
  simp only [buildTreeWith, run]
  rfl

end TxStatus

/-- The transaction failed as a whole, or both classifiers find something pending if one does. -/
def RpcResult.ClassifiedAlike (rpcResult : RpcResult) : Prop :=
  ∀ r ∈ rpcResult.result, r.status.isFailure = true ∨ r.PendingAlike

/-- A classification tells what is pending, unless the whole transaction failed. -/
theorem classifyWith_eq_iff {webPends rpcPends : TraceNode → Bool} {top : FinalExecutionStatus}
    {webNodes rpcNodes : List TraceNode} {anyFail webPending rpcPending : Bool}
    (web : TraceNode.scanAll webPends ⟨false, false⟩ webNodes = ⟨anyFail, webPending⟩)
    (rpc : TraceNode.scanAll rpcPends ⟨false, false⟩ rpcNodes = ⟨anyFail, rpcPending⟩) :
    classifyWith webPends (.tx top webNodes) = classifyWith rpcPends (.tx top rpcNodes) ↔
      top.isFailure = true ∨ (webPending = true ↔ rpcPending = true) := by
  simp only [classifyWith, web, rpc]
  clear web rpc
  generalize top.isFailure = failed
  revert failed anyFail webPending rpcPending
  decide

/-- Both trees are built, and the classifiers agree on them exactly when they find something
pending alike or the transaction failed. -/
theorem classify_agree_iff (rpcResult : RpcResult) :
    ∃ web rpc, WebTrace.buildTree rpcResult = some web ∧ TraceRpc.buildTree rpcResult = some rpc ∧
      (WebTrace.classify web = TraceRpc.classify rpc ↔ rpcResult.ClassifiedAlike) := by
  obtain ⟨result, error⟩ := rpcResult
  cases result with
  | none =>
      refine ⟨_, _, rfl, rfl, iff_of_true rfl ?_⟩
      rintro r ⟨⟩
  | some r =>
      obtain ⟨trees, visited, walked, webTree⟩ :=
        r.buildTreeWith_some WebTrace.predecessor error
      obtain ⟨trees', visited', walked', rpcTree⟩ :=
        r.buildTreeWith_some TraceRpc.predecessor error
      obtain ⟨rfl, rfl⟩ := walked.unique walked'
      refine ⟨_, _, webTree, rpcTree, ?_⟩
      have web := @TxStatus.scanAll_nodes WebTrace.predecessor r WebTrace.pends (fun _ => rfl) _ _ _ _
        walked ⟨false, false⟩
      have rpc := @TxStatus.scanAll_nodes TraceRpc.predecessor r TraceRpc.pends (fun _ => rfl) _ _ _ _
        walked ⟨false, false⟩
      simp only [Bool.false_or, TxStatus.seenNode_fails WebTrace.predecessor] at web rpc
      rw [WebTrace.classify, TraceRpc.classify, classifyWith_eq_iff web rpc,
        TxStatus.webTrace_anyPending walked, TxStatus.traceRpc_anyPending walked]
      constructor
      · rintro meet _ ⟨⟩
        exact meet.imp_right TxStatus.pendingAlike_iff.mp
      · exact fun alike => (alike r rfl).imp_right TxStatus.pendingAlike_iff.mpr

/-! ## A resumed yield -/

/-- A receipt with a value. -/
def doneReceipt (id : String) : ReceiptOutcome :=
  ⟨id, "alice.near", .successValue "", [], [], 0, 0⟩

/-- A yield that was resumed: its callback ran and returned a value. -/
def resumedTrace : RpcResult where
  result := some {
    status := .successValue ""
    rootIds := ["yield"]
    receiptsOutcome :=
      [⟨"yield", "alice.near", .successReceiptId "callback", ["callback"], [], 0, 0⟩,
        doneReceipt "callback"]
    receipts := [⟨"yield", "alice.near", some true⟩, ⟨"callback", "alice.near", some false⟩] }
  error := none

/-- The page still takes the resumed yield for pending, the script does not. -/
theorem resumedTrace_told_apart : ¬ ∀ rpcResult web rpc,
    WebTrace.buildTree rpcResult = some web → TraceRpc.buildTree rpcResult = some rpc →
      WebTrace.classify web = TraceRpc.classify rpc := by
  intro agree
  have web : (WebTrace.buildTree resumedTrace).map WebTrace.classify = some .pending := by
    decide
  have rpc : (TraceRpc.buildTree resumedTrace).map TraceRpc.classify = some .fullSuccess := by
    decide
  obtain ⟨webTree, built, pending⟩ := Option.map_eq_some_iff.mp web
  obtain ⟨rpcTree, built', success⟩ := Option.map_eq_some_iff.mp rpc
  have same := agree resumedTrace webTree rpcTree built built'
  rw [pending, success] at same
  cases same

end SmartAccount
