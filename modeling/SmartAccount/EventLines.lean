import SmartAccount.Foundation.JsonReader
import SmartAccount.OutcomeBanner
import SmartAccount.RunSummaries

/-!
# Event lines, read back

The observer (`parse_event_json`) and the scripts (`parseStructuredEvents`) find the contract's
events among the lines of a log.  Both read the line of an event as the event's payload, and
prose lines are passed over, so from the logs of any receipts they recover exactly the emitted
events in their order (`scripts_read_back`, `observer_reads_back`).  A JavaScript number is exact
below `2 ^ 53` only, a number of serde_json below `2 ^ 64`; the nesting serde_json accepts is
bounded.
-/

namespace SmartAccount

open Foundation

/-- `EVENT_JSON_PREFIX`. -/
def eventJsonPrefix : String := "EVENT_JSON:"

/-! ## The observer -/

/-- A natural number that serde_json keeps as it is. -/
def serdeExact : Nat := 2 ^ 64

/-- The nesting that serde_json's recursion limit of 128 leaves. -/
def serdeDepth : Nat := 127

/-- `str::trim`. -/
def trimChars (cs : List Char) : List Char :=
  ((cs.dropWhile fun c => isWhiteSpace c.toNat).reverse.dropWhile
    fun c => isWhiteSpace c.toNat).reverse

/-- `parse_event_json`. -/
def parseEventJson (log : String) : Option JsonValue :=
  if startsWith log eventJsonPrefix then
    JsonText.read serdeExact serdeDepth (trimChars (log.toList.drop eventJsonPrefix.length))
  else none

/-- A `ParsedEvent` of the observer, with its receipt. -/
structure ObservedEvent where
  blockHeight : Nat
  blockTimestampNs : Nat
  receiptId : String
  standard : String
  version : String
  event : String
  data : JsonValue

/-- What `parse_trace` reads of an action receipt for its events. -/
structure ReceiptLogs where
  blockHeight : Nat
  blockTimestampNs : Nat
  receiptId : String
  logs : List String

namespace ReceiptLogs

/-- A line of the receipt that is an event. -/
def observe (receipt : ReceiptLogs) (log : String) : Option ObservedEvent :=
  (parseEventJson log).map fun eventJson =>
    { blockHeight := receipt.blockHeight
      blockTimestampNs := receipt.blockTimestampNs
      receiptId := receipt.receiptId
      standard := ((eventJson.field? "standard").bind JsonValue.asStr).getD ""
      version := ((eventJson.field? "version").bind JsonValue.asStr).getD ""
      event := ((eventJson.field? "event").bind JsonValue.asStr).getD ""
      data := (eventJson.field? "data").getD .null }

/-- The events of the receipt. -/
def events (receipt : ReceiptLogs) : List ObservedEvent := receipt.logs.filterMap receipt.observe

end ReceiptLogs

/-! ## The scripts -/

/-- A natural number below `Number.MAX_SAFE_INTEGER` and one. -/
def scriptExact : Nat := 2 ^ 53

/-- The fields of a flattened receipt that an event carries on. -/
structure ReceiptInfo where
  id : Option String
  blockHeight : Option Nat
  blockTimestamp : Option Nat
  blockHash : Option String
  receiptIndex : Option Nat
  ordinal : Option Nat
  executor : Option String
  predecessor : Option String
  transactionHash : Option String

structure LoggedReceipt where
  info : ReceiptInfo
  logs : List String

/-- An event as `parseStructuredEvents` returns it. -/
structure EventRecord where
  standard : Option JsonValue
  version : Option JsonValue
  event : String
  data : JsonValue
  receipt : ReceiptInfo
  logIndex : Nat
  raw : String

/-- `JSON.parse`, which bounds no nesting: a text is not nested deeper than it is long. -/
def jsonParse (body : List Char) : Option JsonValue :=
  JsonText.read scriptExact body.length body

/-- Whether the `standard` of an event is the one asked for. -/
def standardMatches (standard : Option String) (found : Option JsonValue) : Bool :=
  match standard, found with
  | none, _ => true
  | some wanted, some (.str s) => s = wanted
  | some _, _ => false

/-- A line of a receipt, at its place in the log. -/
def LoggedReceipt.parseLine (receipt : LoggedReceipt) (standard transactionHash : Option String)
    (line : String) (i : Nat) : Option EventRecord :=
  if startsWith line eventJsonPrefix then
    (jsonParse (line.toList.drop eventJsonPrefix.length)).bind fun parsed =>
      match parsed.field? "event" with
      | some (.str event) =>
          if standardMatches standard (parsed.field? "standard") then
            some {
              standard := parsed.field? "standard"
              version := parsed.field? "version"
              event := event
              data := (parsed.field? "data").getD .null
              receipt := { receipt.info with
                transactionHash := transactionHash.or receipt.info.transactionHash }
              logIndex := i
              raw := line }
          else none
      | _ => none
  else none

/-- `parseStructuredEvents`. -/
def parseStructuredEvents (receipts : List LoggedReceipt) (standard : Option String)
    (transactionHash : Option String) : List EventRecord :=
  receipts.flatMap fun receipt =>
    receipt.logs.zipIdx.filterMap fun entry =>
      receipt.parseLine standard transactionHash entry.1 entry.2

/-! ## The nesting of an event -/

theorem Json.depth_ofOption {α : Type} {toJson : α → Json} {d : Nat}
    (inner : ∀ a, (toJson a).depth ≤ d) (o : Option α) : (Json.ofOption toJson o).depth ≤ d := by
  cases o with
  | none => exact Nat.zero_le _
  | some a => exact inner a

theorem Json.depth_obj {fields : List (String × Json)} {d : Nat}
    (inner : ∀ field ∈ fields, field.2.depth ≤ d) : (Json.obj fields).depth ≤ d + 1 :=
  Nat.succ_le_succ (Json.fieldDepths_le_iff.mpr inner)

theorem Json.account_depth (id : AccountId) : (Json.account id).depth = 0 := rfl

/-- A list of scalars has no depth of its own. -/
theorem Json.depths_map {α : Type} {toJson : α → Json} (flat : ∀ a, (toJson a).depth = 0)
    (as : List α) : Json.depths (as.map toJson) = 0 := by
  refine Nat.le_zero.mp (Json.depths_le_iff.mpr fun item inside => ?_)
  obtain ⟨a, -, rfl⟩ := List.mem_map.mp inside
  exact Nat.le_of_eq (flat a)

theorem AssertionMetadata.fields_depth (assertion : AssertionMetadata) :
    ∀ field ∈ assertion.fields, field.2.depth ≤ 0 := by
  unfold fields
  rw [List.forall_mem_append]
  refine ⟨by simp [Json.account], ?_⟩
  split <;> simp [Json.base64]

theorem CallMetadata.json_depth (call : CallMetadata) : call.json.depth ≤ 1 := by
  refine Json.depth_obj ?_
  rw [List.forall_mem_append, List.forall_mem_append]
  refine ⟨⟨by simp [Json.account, Json.yocto], ?_⟩, ?_⟩
  · split <;> simp [Json.account]
  · split
    · simp
    · exact AssertionMetadata.fields_depth _

theorem AutomationContext.json_depth (run : AutomationContext) : run.json.depth ≤ 1 :=
  Json.depth_obj (by simp [Json.account])

theorem PromiseError.fields_depth (error : PromiseError) :
    ∀ field ∈ error.fields, field.2.depth ≤ 1 := by
  simp [fields]

theorem HaltData.fields_depth (data : HaltData) : ∀ field ∈ data.fields, field.2.depth ≤ 1 := by
  have nat := fun o => @Json.depth_ofOption Nat .num 1 (fun _ => Nat.zero_le _) o
  unfold fields
  rw [List.forall_mem_append]
  refine ⟨by simp, ?_⟩
  split
  · simp
  · simp [nat, Json.depth_ofOption CallMetadata.json_depth]

theorem PreGateChecked.fields_depth (data : PreGateChecked) :
    ∀ field ∈ data.fields, field.2.depth ≤ 1 := by
  have nat := fun o => @Json.depth_ofOption Nat .num 1 (fun _ => Nat.zero_le _) o
  unfold fields
  simp only [List.forall_mem_append]
  refine ⟨⟨⟨⟨by simp [nat], ?_⟩, by simp⟩, ?_⟩,
    by simp [data.call.json_depth]⟩
  · split <;> simp [Json.base64]
  · split
    · simp
    · exact PromiseError.fields_depth _

theorem AssertionChecked.fields_depth (data : AssertionChecked) :
    ∀ field ∈ data.fields, field.2.depth ≤ 1 := by
  have text := fun o => @Json.depth_ofOption Bytes .base64 1 (fun _ => Nat.zero_le _) o
  unfold fields
  simp only [List.forall_mem_append]
  refine ⟨⟨by simp [Json.base64, text], ?_⟩,
    by simp [Json.depth_ofOption CallMetadata.json_depth]⟩
  split
  · simp
  · exact PromiseError.fields_depth _

theorem Event.fields_depth (event : Event) : ∀ field ∈ event.fields, field.2.depth ≤ 1 := by
  have nat := fun o => @Json.depth_ofOption Nat .num 1 (fun _ => Nat.zero_le _) o
  have yocto := fun o => @Json.depth_ofOption Nat Json.yocto 1 (fun _ => Nat.zero_le _) o
  have text := fun o => @Json.depth_ofOption String .str 1 (fun _ => Nat.zero_le _) o
  have names := @Json.depths_map String .str (fun _ => rfl)
  have listed := fun o => @Json.depth_ofOption (List String) (fun ids => .arr (ids.map .str)) 1
    (fun ids => Nat.succ_le_succ (Nat.le_of_eq (names ids))) o
  have accounts := @Json.depths_map AccountId Json.account (fun _ => rfl)
  have calls := Json.depth_ofOption CallMetadata.json_depth
  have runs := Json.depth_ofOption AutomationContext.json_depth
  have calls' := CallMetadata.json_depth
  cases event with
  | sequenceHalted data => exact data.fields_depth
  | preGateChecked data => exact data.fields_depth
  | assertionChecked data => exact data.fields_depth
  | stepResolvedErr stepId ns error registeredAtMs latencyMs call =>
      simp only [fields, List.forall_mem_append]
      exact ⟨⟨by simp, error.fields_depth⟩, by simp [nat, calls]⟩
  | triggerFired data => simp [fields, TriggerFired.fields, Json.account, Json.yocto]
  | runFinished data => simp [fields, RunFinished.fields, Json.account, nat, text]
  | sessionRevoked pk reason => simp [fields, revokedFields]
  | proxyKeyRevoked pk reason => simp [fields, revokedFields]
  | automationRunsPruned count namespaces => simp [fields, names]
  | _ =>
      simp [fields, Json.account_depth, Json.yocto, nat, yocto, text, listed, accounts,
        calls, runs, calls']

/-- The payload of an event is nested three deep. -/
theorem Event.payload_depth (event : Event) (runtime : RuntimeSnapshot) :
    (event.payload runtime).depth ≤ 3 := by
  have snapshot : runtime.json.depth ≤ 1 :=
    Json.depth_obj (by simp [Json.account, Json.yocto])
  have data : (event.data runtime).depth ≤ 2 := by
    refine Json.depth_obj ?_
    rw [List.forall_mem_append]
    exact ⟨event.fields_depth, by simpa using snapshot⟩
  exact Json.depth_obj (by simp [data])

/-! ## Reading one line -/

theorem Event.payload_fits {event : Event} {runtime : RuntimeSnapshot} {exact depth : Nat}
    (small : ∀ n ∈ (event.payload runtime).numbers, n < exact) (deep : 3 ≤ depth) :
    (event.payload runtime).Fits exact depth :=
  ⟨Nat.le_trans (event.payload_depth runtime) deep, small⟩

/-- The text of an event's payload stands between braces. -/
theorem Event.payload_text (event : Event) (runtime : RuntimeSnapshot) :
    ∃ inner, inner ≠ [] ∧ (event.payload runtime).render.toList =
      JsonText.openBrace :: (inner ++ [JsonText.closeBrace]) := by
  refine ⟨(Json.renderFields [("standard", .str "sa-automation"), ("version", .str "1.1.0"),
    ("event", .str event.name), ("data", event.data runtime)]).toList, ?_, ?_⟩
  · rw [Json.renderFields, String.toList_append, String.toList_append]
    · simp
    · exact List.cons_ne_nil _ _
  · rw [payload, Json.render, String.toList_append, String.toList_append]
    rfl

theorem Event.line_startsWith (event : Event) (runtime : RuntimeSnapshot) :
    startsWith (event.line runtime) eventJsonPrefix = true :=
  startsWith_iff.mpr ⟨_, rfl⟩

theorem Event.line_body (event : Event) (runtime : RuntimeSnapshot) :
    (event.line runtime).toList.drop eventJsonPrefix.length =
      (event.payload runtime).render.toList := by
  rw [line, String.toList_append]
  rfl

theorem trimChars_between {c d : Char} (inner : List Char) (left : isWhiteSpace c.toNat = false)
    (right : isWhiteSpace d.toNat = false) :
    trimChars (c :: (inner ++ [d])) = c :: (inner ++ [d]) := by
  unfold trimChars
  rw [List.dropWhile_cons, if_neg (by simp [left]), List.reverse_cons, List.reverse_append,
    List.reverse_singleton, List.singleton_append, List.cons_append, List.dropWhile_cons,
    if_neg (by simp [right])]
  simp

/-- The observer reads the line of an event as its payload. -/
theorem parseEventJson_line {event : Event} {runtime : RuntimeSnapshot}
    (small : ∀ n ∈ (event.payload runtime).numbers, n < serdeExact) :
    parseEventJson (event.line runtime) = some (event.payload runtime).value := by
  obtain ⟨inner, -, text⟩ := event.payload_text runtime
  have trimmed : trimChars (event.payload runtime).render.toList =
      (event.payload runtime).render.toList := by
    rw [text]
    exact trimChars_between inner (by decide) (by decide)
  have read := @JsonText.read_render _ _ _
    (Event.payload_fits small (by decide : 3 ≤ serdeDepth)) [] [] nofun nofun
  rw [List.append_nil, List.nil_append] at read
  rw [parseEventJson, if_pos (event.line_startsWith runtime), event.line_body, trimmed, read]

/-- The scripts read it as the same payload. -/
theorem jsonParse_line {event : Event} {runtime : RuntimeSnapshot}
    (small : ∀ n ∈ (event.payload runtime).numbers, n < scriptExact) :
    jsonParse ((event.line runtime).toList.drop eventJsonPrefix.length) =
      some (event.payload runtime).value := by
  obtain ⟨inner, some_, text⟩ := event.payload_text runtime
  have deep : 3 ≤ (event.payload runtime).render.toList.length := by
    have long := List.length_pos_of_ne_nil some_
    rw [text, List.length_cons, List.length_append, List.length_singleton]
    omega
  have read := @JsonText.read_render _ _ _ (Event.payload_fits small deep) [] [] nofun nofun
  rw [List.append_nil, List.nil_append] at read
  rw [event.line_body]
  exact read

/-- The envelope of an event's payload. -/
theorem Event.payload_fields (event : Event) (runtime : RuntimeSnapshot) :
    (event.payload runtime).value.field? "standard" = some (.str "sa-automation") ∧
      (event.payload runtime).value.field? "version" = some (.str "1.1.0") ∧
      (event.payload runtime).value.field? "event" = some (.str event.name) ∧
      (event.payload runtime).value.field? "data" = some (event.data runtime).value := by
  simp [payload, Json.value, Json.fieldValues, JsonValue.field?]

/-! ## Reading logs -/

/-- An event as it was emitted, with the runtime snapshot of its emission. -/
abbrev Emission := Event × RuntimeSnapshot

/-- All numbers of the event's line are below `exact`. -/
def Emission.Small (exact : Nat) (emission : Emission) : Prop :=
  ∀ n ∈ (emission.1.payload emission.2).numbers, n < exact

/-- A receipt's log: the lines of these events in their order, with prose lines anywhere. -/
inductive LogsOf : List String → List Emission → Prop
  | nil : LogsOf [] []
  | prose {line : String} {lines : List String} {emissions : List Emission}
      (plain : startsWith line eventJsonPrefix = false) (rest : LogsOf lines emissions) :
      LogsOf (line :: lines) emissions
  | event {lines : List String} {emissions : List Emission} (emission : Emission)
      (rest : LogsOf lines emissions) :
      LogsOf (emission.1.line emission.2 :: lines) (emission :: emissions)

/-- The observer's record of an event, and what the banner reads of it. -/
structure ObservedEvent.Records (observed : ObservedEvent) (emission : Emission) : Prop where
  standard : observed.standard = "sa-automation"
  version : observed.version = "1.1.0"
  event : observed.event = emission.1.name
  data : observed.data = (emission.1.data emission.2).value

theorem ReceiptLogs.observe_line (receipt : ReceiptLogs) {emission : Emission}
    (small : emission.Small serdeExact) :
    ∃ observed, receipt.observe (emission.1.line emission.2) = some observed ∧
      observed.Records emission := by
  obtain ⟨standard, version, event, data⟩ := emission.1.payload_fields emission.2
  rw [observe, parseEventJson_line small]
  refine ⟨_, rfl, ?_, ?_, ?_, ?_⟩
  · simp [standard, JsonValue.asStr]
  · simp [version, JsonValue.asStr]
  · simp [event, JsonValue.asStr]
  · simp [data]

theorem ReceiptLogs.observe_prose (receipt : ReceiptLogs) {line : String}
    (plain : startsWith line eventJsonPrefix = false) : receipt.observe line = none := by
  rw [observe, parseEventJson, if_neg (by simp [plain])]
  rfl

theorem ReceiptLogs.filterMap_logs (receipt : ReceiptLogs) {lines : List String}
    {emissions : List Emission} (logs : LogsOf lines emissions)
    (small : ∀ emission ∈ emissions, emission.Small serdeExact) :
    List.Forall₂ ObservedEvent.Records (lines.filterMap receipt.observe) emissions := by
  induction logs with
  | nil => exact .nil
  | prose plain rest ih =>
      rw [List.filterMap_cons_none (receipt.observe_prose plain)]
      exact ih small
  | event emission rest ih =>
      obtain ⟨first, others⟩ := List.forall_mem_cons.mp small
      obtain ⟨observed, read, records⟩ := receipt.observe_line first
      rw [List.filterMap_cons_some read]
      exact .cons records (ih others)

/-- A script's record of an event. -/
structure EventRecord.Records (record : EventRecord) (emission : Emission) : Prop where
  standard : record.standard = some (.str "sa-automation")
  version : record.version = some (.str "1.1.0")
  event : record.event = emission.1.name
  data : record.data = (emission.1.data emission.2).value
  raw : record.raw = emission.1.line emission.2

/-- The record stands at its place in the log of one of the receipts. -/
def EventRecord.Placed (record : EventRecord) (receipts : List LoggedReceipt)
    (transactionHash : Option String) : Prop :=
  ∃ receipt ∈ receipts, receipt.logs[record.logIndex]? = some record.raw ∧
    record.receipt = { receipt.info with
      transactionHash := transactionHash.or receipt.info.transactionHash }

section Scripts

variable (receipt : LoggedReceipt) (transactionHash : Option String)

theorem LoggedReceipt.parseLine_line {emission : Emission} (small : emission.Small scriptExact)
    (i : Nat) : ∃ record,
      receipt.parseLine (some "sa-automation") transactionHash (emission.1.line emission.2) i =
        some record ∧ record.Records emission := by
  obtain ⟨standard, version, event, data⟩ := emission.1.payload_fields emission.2
  rw [parseLine, if_pos (emission.1.line_startsWith emission.2), jsonParse_line small,
    Option.bind_some]
  simp only [event, standard, standardMatches, decide_true, ↓reduceIte]
  exact ⟨_, rfl, standard, version, rfl, by simp [data], rfl⟩

theorem LoggedReceipt.parseLine_some {standard : Option String} {line : String} {i : Nat}
    {record : EventRecord}
    (read : receipt.parseLine standard transactionHash line i = some record) :
    record.raw = line ∧ record.logIndex = i ∧ record.receipt = { receipt.info with
      transactionHash := transactionHash.or receipt.info.transactionHash } := by
  unfold parseLine at read
  split at read
  · obtain ⟨parsed, -, read⟩ := Option.bind_eq_some_iff.mp read
    split at read
    · split at read
      · cases read
        exact ⟨rfl, rfl, rfl⟩
      · cases read
    · cases read
  · cases read

theorem LoggedReceipt.filterMap_logs {lines : List String} {emissions : List Emission}
    (logs : LogsOf lines emissions) (small : ∀ emission ∈ emissions, emission.Small scriptExact)
    (k : Nat) : List.Forall₂ EventRecord.Records
      ((lines.zipIdx k).filterMap fun entry =>
        receipt.parseLine (some "sa-automation") transactionHash entry.1 entry.2) emissions := by
  induction logs generalizing k with
  | nil => exact .nil
  | prose plain rest ih =>
      rw [List.zipIdx_cons, List.filterMap_cons_none]
      · exact ih small (k + 1)
      · exact if_neg (by simp [plain])
  | event emission rest ih =>
      obtain ⟨first, others⟩ := List.forall_mem_cons.mp small
      obtain ⟨record, read, records⟩ := receipt.parseLine_line transactionHash first k
      have here : (fun entry : String × Nat => receipt.parseLine (some "sa-automation")
          transactionHash entry.1 entry.2) (emission.1.line emission.2, k) = some record := read
      rw [List.zipIdx_cons, @List.filterMap_cons_some _ _ (fun entry : String × Nat =>
        receipt.parseLine (some "sa-automation") transactionHash entry.1 entry.2) _ _ _ here]
      exact .cons records (ih others (k + 1))

end Scripts

/-- Every record tells the place of its line. -/
theorem parseStructuredEvents_placed {receipts : List LoggedReceipt}
    {standard transactionHash : Option String} {record : EventRecord}
    (inside : record ∈ parseStructuredEvents receipts standard transactionHash) :
    record.Placed receipts transactionHash := by
  obtain ⟨receipt, member, read⟩ := List.mem_flatMap.mp inside
  obtain ⟨⟨line, i⟩, here, read⟩ := List.mem_filterMap.mp read
  obtain ⟨raw, index, info⟩ := receipt.parseLine_some transactionHash read
  refine ⟨receipt, member, ?_, info⟩
  rw [index, raw]
  exact List.mk_mem_zipIdx_iff_getElem?.mp here

theorem forall₂_flatten {α β γ : Type} {read : γ → List α} {related : α → β → Prop}
    {inputs : List γ} {outputs : List (List β)}
    (each : List.Forall₂ (fun input output => List.Forall₂ related (read input) output) inputs
      outputs) : List.Forall₂ related (inputs.flatMap read) outputs.flatten := by
  induction each with
  | nil => exact .nil
  | cons first _ ih =>
      rw [List.flatMap_cons, List.flatten_cons]
      exact List.rel_append first ih

/-- The receipts whose logs hold the lines of these events. -/
theorem LogsOf.each {α : Type} {logs : α → List String} {kept : Emission → Prop}
    {receipts : List α} {emissions : List (List Emission)}
    (logged : List.Forall₂ (fun receipt emitted => LogsOf (logs receipt) emitted) receipts
      emissions) (all : ∀ emission ∈ emissions.flatten, kept emission) :
    List.Forall₂ (fun receipt emitted => LogsOf (logs receipt) emitted ∧
      ∀ emission ∈ emitted, kept emission) receipts emissions := by
  induction logged with
  | nil => exact .nil
  | cons first _ ih =>
      rw [List.flatten_cons, List.forall_mem_append] at all
      exact .cons ⟨first, all.1⟩ (ih all.2)

/-- What the summaries take of a script's record is the emitted event. -/
theorem structured_of_records {records : List EventRecord} {emissions : List Emission}
    (read : List.Forall₂ EventRecord.Records records emissions) :
    ∃ parsed : List StructuredEvent, List.Forall₂ Event.Structured (emissions.map Prod.fst) parsed ∧
      List.Forall₂ (fun record event => record.event = event.event ∧
        record.data = event.data.value ∧ event.blockHeight = record.receipt.blockHeight ∧
          event.blockTimestamp = record.receipt.blockTimestamp) records parsed := by
  induction read with
  | nil => exact ⟨[], .nil, .nil⟩
  | @cons record emission _ _ first _ ih =>
      obtain ⟨parsed, structured, same⟩ := ih
      refine ⟨⟨emission.1.name, emission.1.data emission.2, record.receipt.blockHeight,
        record.receipt.blockTimestamp⟩ :: parsed, .cons ⟨rfl, emission.2, rfl⟩ structured,
          .cons ⟨first.event, first.data, rfl, rfl⟩ same⟩

/-- What the banner takes of an observer's record is the emitted event. -/
theorem parsed_of_records {records : List ObservedEvent} {emissions : List Emission}
    (read : List.Forall₂ ObservedEvent.Records records emissions) :
    ∃ parsed : List ParsedEvent, List.Forall₂ Event.Parsed (emissions.map Prod.fst) parsed ∧
      List.Forall₂ (fun record event => record.event = event.event ∧
        record.data = event.data.value) records parsed := by
  induction read with
  | nil => exact ⟨[], .nil, .nil⟩
  | @cons record emission _ _ first _ ih =>
      obtain ⟨parsed, same, data⟩ := ih
      exact ⟨emission.1.parse emission.2 :: parsed, .cons ⟨emission.2, rfl⟩ same,
        .cons ⟨first.event, first.data⟩ data⟩

/-- The scripts recover the emitted events from the logs of any receipts: one record for each, in
the order of the receipts and of their lines, with the place of its line, whatever prose the
contract logs between them. -/
theorem scripts_read_back (receipts : List LoggedReceipt) (transactionHash : Option String)
    (emissions : List (List Emission))
    (logged : List.Forall₂ (fun receipt emitted => LogsOf receipt.logs emitted) receipts emissions)
    (small : ∀ emission ∈ emissions.flatten, emission.Small scriptExact) :
    let records := parseStructuredEvents receipts (some "sa-automation") transactionHash
    List.Forall₂ EventRecord.Records records emissions.flatten ∧
      (∀ record ∈ records, record.Placed receipts transactionHash) ∧
      ∃ parsed : List StructuredEvent,
        List.Forall₂ Event.Structured (emissions.flatten.map Prod.fst) parsed ∧
        List.Forall₂ (fun record event => record.event = event.event ∧
          record.data = event.data.value ∧ event.blockHeight = record.receipt.blockHeight ∧
            event.blockTimestamp = record.receipt.blockTimestamp) records parsed := by
  have read : List.Forall₂ EventRecord.Records
      (parseStructuredEvents receipts (some "sa-automation") transactionHash)
      emissions.flatten :=
    forall₂_flatten ((LogsOf.each logged small).imp fun receipt _ each =>
      receipt.filterMap_logs transactionHash each.1 each.2 0)
  exact ⟨read, fun record => parseStructuredEvents_placed, structured_of_records read⟩

/-- A run of one step that is done. -/
def doneEvent : Event := .sequenceCompleted "auto:daily:1" "a" 2

theorem doneEvent_small {exact : Nat} (large : 2 ^ 53 ≤ exact) :
    ∀ emission ∈ [[(doneEvent, aliceRuntime)], []].flatten, Emission.Small exact emission := by
  have small : ∀ n ∈ (doneEvent.payload aliceRuntime).numbers, n < 2 ^ 53 := by decide
  intro emission inside
  cases List.mem_singleton.mp inside
  exact fun n here => Nat.lt_of_lt_of_le (small n here) large

def doneLogs : List String := ["Sequence auto:daily:1 completed", doneEvent.line aliceRuntime]

theorem doneLogs_logs : LogsOf doneLogs [(doneEvent, aliceRuntime)] :=
  .prose (by decide) (.event (doneEvent, aliceRuntime) .nil)

def doneInfo : ReceiptInfo where
  id := some "receipt-1"
  blockHeight := some 5
  blockTimestamp := some 1000
  blockHash := none
  receiptIndex := some 0
  ordinal := some 0
  executor := some "sa.near"
  predecessor := some "alice.near"
  transactionHash := none

theorem scripts_read_back_done :
    let receipts : List LoggedReceipt := [⟨doneInfo, doneLogs⟩, ⟨doneInfo, []⟩]
    let records := parseStructuredEvents receipts (some "sa-automation") (some "tx")
    let emissions : List Emission := [[(doneEvent, aliceRuntime)], []].flatten
    List.Forall₂ EventRecord.Records records emissions ∧
      (∀ record ∈ records, record.Placed receipts (some "tx")) ∧
      ∃ parsed : List StructuredEvent,
        List.Forall₂ Event.Structured (emissions.map Prod.fst) parsed ∧
        List.Forall₂ (fun record event => record.event = event.event ∧
          record.data = event.data.value ∧ event.blockHeight = record.receipt.blockHeight ∧
            event.blockTimestamp = record.receipt.blockTimestamp) records parsed :=
  scripts_read_back _ _ _ (.cons doneLogs_logs (.cons .nil .nil))
    (doneEvent_small (Nat.le_refl _))

/-- The observer recovers them too, in the order of the receipts. -/
theorem observer_reads_back (receipts : List ReceiptLogs) (emissions : List (List Emission))
    (logged : List.Forall₂ (fun receipt emitted => LogsOf receipt.logs emitted) receipts emissions)
    (small : ∀ emission ∈ emissions.flatten, emission.Small serdeExact) :
    let records := receipts.flatMap ReceiptLogs.events
    List.Forall₂ ObservedEvent.Records records emissions.flatten ∧
      ∃ parsed : List ParsedEvent,
        List.Forall₂ Event.Parsed (emissions.flatten.map Prod.fst) parsed ∧
        List.Forall₂ (fun record event => record.event = event.event ∧
          record.data = event.data.value) records parsed := by
  have read : List.Forall₂ ObservedEvent.Records (receipts.flatMap ReceiptLogs.events)
      emissions.flatten :=
    forall₂_flatten ((LogsOf.each logged small).imp fun receipt _ each =>
      receipt.filterMap_logs each.1 each.2)
  exact ⟨read, parsed_of_records read⟩

theorem observer_reads_back_done :
    let receipts : List ReceiptLogs :=
      [⟨5, 1000, "receipt-1", doneLogs⟩, ⟨6, 2000, "receipt-2", []⟩]
    let records := receipts.flatMap ReceiptLogs.events
    let emissions : List Emission := [[(doneEvent, aliceRuntime)], []].flatten
    List.Forall₂ ObservedEvent.Records records emissions ∧
      ∃ parsed : List ParsedEvent,
        List.Forall₂ Event.Parsed (emissions.map Prod.fst) parsed ∧
        List.Forall₂ (fun record event => record.event = event.event ∧
          record.data = event.data.value) records parsed :=
  observer_reads_back _ _ (.cons doneLogs_logs (.cons .nil .nil))
    (doneEvent_small (by decide : 2 ^ 53 ≤ serdeExact))

end SmartAccount
