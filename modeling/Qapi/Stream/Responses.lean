import Mathlib.Data.List.Sort
import Qapi.Stream.Chat

/-!
# From a responses stream to a chat stream

`ResponsesStreamEventToChatChunks` (`service/relayconvert/responses_to_chat.go`). A tool
call is known by a key that is made of the output index of an event, or of the ids of its
item. The items of the terminal response come without an output index, so that they are
taken for other calls than those that have been streamed.
-/

namespace Qapi.Stream

open Qapi.Core

/-! ## Events -/

inductive ItemType
  | functionCall
  | customToolCall
  | message
  | reasoning
  | other (text : String)
deriving DecidableEq, Repr

/-- `isResponsesToolOutputType`. -/
def ItemType.isTool : ItemType → Bool
  | .functionCall | .customToolCall => true
  | _ => false

structure OutputContent where
  isOutputText : Bool
  text : Bytes
deriving DecidableEq, Repr

/-- `ResponsesOutput`; the arguments are those of `ArgumentsString`. -/
structure Output where
  type : ItemType
  id : String
  callId : String
  name : String
  arguments : Bytes
  content : List OutputContent
deriving DecidableEq, Repr

/-- `OpenAIResponsesResponse`. -/
structure Response where
  id : String
  model : String
  createdAt : Int
  status : Option String
  incompleteReason : Option String
  output : List Output
  usage : Option Usage
deriving DecidableEq, Repr

inductive EventType
  | created
  | completed
  | done
  | incomplete
  | failed
  | error
  | outputTextDelta
  | outputItemAdded
  | outputItemDone
  | functionArgsDelta
  | functionArgsDone
  | customToolInputDelta
  | customToolInputDone
  | reasoningSummaryDelta
  | reasoningSummaryDone
  | reasoningTextDelta
  | reasoningTextDone
  | other (text : String)
deriving DecidableEq, Repr

/-- `ResponsesStreamResponse`. -/
structure Event where
  type : EventType
  response : Option Response := none
  delta : Bytes := []
  item : Option Output := none
  outputIndex : Option Int := none
  itemID : String := ""
deriving DecidableEq, Repr

/-! ## The state of the conversion -/

/-- `responsesStreamTool`. -/
structure Tool where
  key : String
  callID : String
  name : String
  arguments : Bytes
  index : Nat
  sent : Bool
  nameSent : Bool
  argsSentAt : Nat
deriving DecidableEq, Repr

/-- `ResponsesToChatStreamState`. -/
structure State where
  id : String
  model : String
  created : Int
  includeUsage : Bool
  usage : Usage
  sentStart : Bool
  finalized : Bool
  hasSentText : Bool
  sawToolCall : Bool
  hasSentReasoning : Bool
  needsReasoningSummaryBreak : Bool
  nextToolIndex : Nat
  toolByKey : Map String Tool
  outputIndexToKey : Map Int String
  itemIDToKey : Map String String
  pendingArgsByOutputIndex : Map Int Bytes
  pendingArgsByItemID : Map String Bytes

/-- `NewResponsesToChatStreamState`, with the time. -/
def State.new (model : String) (created : Int) (includeUsage : Bool) : State where
  id := ""
  model := model
  created := created
  includeUsage := includeUsage
  usage := {}
  sentStart := false
  finalized := false
  hasSentText := false
  sawToolCall := false
  hasSentReasoning := false
  needsReasoningSummaryBreak := false
  nextToolIndex := 0
  toolByKey := ∅
  outputIndexToKey := ∅
  itemIDToKey := ∅
  pendingArgsByOutputIndex := ∅
  pendingArgsByItemID := ∅

def State.makeChunk (s : State) (delta : Delta) (finishReason : Option String) : Chunk where
  id := s.id
  created := s.created
  model := s.model
  choices := [⟨delta, finishReason⟩]
  usage := none

/-- `UsageFromResponsesUsage`. -/
def usageFromResponsesUsage (src : Option Usage) : Usage :=
  match src with
  | none => {}
  | some src =>
    { promptTokens := src.inputTokens
      inputTokens := src.inputTokens
      completionTokens := src.outputTokens
      outputTokens := src.outputTokens
      totalTokens := if src.totalTokens ≠ 0 then src.totalTokens
        else src.inputTokens + src.outputTokens
      promptTokensDetails :=
        match src.inputTokensDetails with
        | none => {}
        | some d =>
          { cachedTokens := d.cachedTokens, cachedCreationTokens := d.cacheWriteTokenCount } }

def State.applyResponseMetadata (s : State) (response : Option Response) : State :=
  match response with
  | none => s
  | some r =>
    { s with
      id := if r.id ≠ "" && s.id = "" then r.id else s.id
      model := if r.model ≠ "" then r.model else s.model
      created := if r.createdAt ≠ 0 then r.createdAt else s.created
      usage := if r.usage.isSome then usageFromResponsesUsage r.usage else s.usage }

/-! ## Deltas -/

def ensureStart (s : State) : List Chunk × State :=
  if s.sentStart then ([], s)
  else
    let s := { s with sentStart := true }
    ([s.makeChunk { role := "assistant", content := some [] } none], s)

def textDelta (delta : Bytes) (s : State) : List Chunk × State :=
  if delta = [] then ([], s)
  else
    let (chunks, s) := ensureStart { s with hasSentText := true }
    (chunks ++ [s.makeChunk { content := some delta } none], s)

def newline : UInt8 := 10

def reasoningDelta (delta : Bytes) (s : State) : List Chunk × State :=
  if delta = [] then ([], s)
  else
    let delta :=
      if s.needsReasoningSummaryBreak then
        if [newline, newline].isPrefixOf delta then delta
        else if [newline].isPrefixOf delta then newline :: delta
        else newline :: newline :: delta
      else delta
    let (chunks, s) := ensureStart { s with needsReasoningSummaryBreak := false }
    (chunks ++ [s.makeChunk { reasoningContent := some delta } none],
      { s with hasSentReasoning := true })

/-! ## Tool calls -/

def State.putTool (s : State) (tool : Tool) : State :=
  { s with toolByKey := s.toolByKey.insert tool.key tool }

/-- The tool with the key, which is made if there is none. -/
def State.getTool (s : State) (key callID : String) : Tool × State :=
  match s.toolByKey.lookup key with
  | some tool => (tool, s)
  | none =>
    let tool : Tool := ⟨key, callID, "", [], s.nextToolIndex, false, false, 0⟩
    (tool,
      { s with
        nextToolIndex := s.nextToolIndex + 1
        toolByKey := s.toolByKey.insert key tool })

def keyForEvent (e : Event) : String :=
  let byItemID := if trimSpace e.itemID ≠ "" then "item:" ++ trimSpace e.itemID else ""
  match e.outputIndex, e.item with
  | some i, _ => "output:" ++ toString i
  | none, some item =>
    if trimSpace item.id ≠ "" then "item:" ++ trimSpace item.id
    else if trimSpace item.callId ≠ "" then "call:" ++ trimSpace item.callId
    else byItemID
  | none, none => byItemID

def fallbackToolKey (itemID callID : String) (outputIndex : Option Int) : String :=
  match outputIndex with
  | some i => "output:" ++ toString i
  | none =>
    if trimSpace itemID ≠ "" then "item:" ++ trimSpace itemID
    else if trimSpace callID ≠ "" then "call:" ++ trimSpace callID
    else ""

/-- `responseStreamEventItemID`. -/
def Event.streamItemID (e : Event) : String :=
  match e.item with
  | some item => if trimSpace item.id ≠ "" then trimSpace item.id else trimSpace e.itemID
  | none => trimSpace e.itemID

/-- The output index of the event is the tool's; what was pending under it is appended. -/
def adoptOutputIndex (e : Event) (tool : Tool) (s : State) : Tool × State :=
  match e.outputIndex with
  | none => (tool, s)
  | some i =>
    let pending := (s.pendingArgsByOutputIndex.lookup i).getD []
    let s := { s with outputIndexToKey := s.outputIndexToKey.insert i tool.key }
    if pending = [] then (tool, s)
    else
      ({ tool with arguments := tool.arguments ++ pending },
        { s with pendingArgsByOutputIndex := s.pendingArgsByOutputIndex.erase i })

/-- The same for the item id. -/
def adoptItemID (e : Event) (tool : Tool) (s : State) : Tool × State :=
  let itemID := e.streamItemID
  if itemID = "" then (tool, s)
  else
    let pending := (s.pendingArgsByItemID.lookup itemID).getD []
    let s := { s with itemIDToKey := s.itemIDToKey.insert itemID tool.key }
    if pending = [] then (tool, s)
    else
      ({ tool with arguments := tool.arguments ++ pending },
        { s with pendingArgsByItemID := s.pendingArgsByItemID.erase itemID })

def Tool.describe (tool : Tool) (item : Output) : Tool :=
  { tool with
    callID :=
      if trimSpace item.callId ≠ "" then trimSpace item.callId
      else if tool.callID = "" then trimSpace item.id
      else tool.callID
    name := if trimSpace item.name ≠ "" then trimSpace item.name else tool.name }

def ensureToolForEvent (e : Event) (item : Output) (s : State) : Option (Tool × State) :=
  let key :=
    if keyForEvent e ≠ "" then keyForEvent e
    else fallbackToolKey item.id item.callId e.outputIndex
  if key = "" then none
  else
    let (tool, s) := s.getTool key ""
    let (tool, s) := adoptOutputIndex e tool s
    let (tool, s) := adoptItemID e tool s
    some (tool.describe item, s)

/-- The tool that a key of one of the maps stands for; the empty text is no key. -/
def State.toolOf (s : State) (key : Option String) : Option (Option Tool) :=
  match key with
  | none | some "" => none
  | some key => some (s.toolByKey.lookup key)

def findToolForEvent (e : Event) (s : State) : Option Tool :=
  let byOutputIndex := s.toolOf (e.outputIndex.bind fun i => s.outputIndexToKey.lookup i)
  let byItemID :=
    if trimSpace e.itemID ≠ "" then s.toolOf (s.itemIDToKey.lookup (trimSpace e.itemID)) else none
  let byItem := if e.item.isSome then s.toolOf (some (keyForEvent e)) else none
  ((byOutputIndex.or byItemID).or byItem).join

def fallbackCallID (e : Event) : String :=
  if trimSpace e.itemID ≠ "" then trimSpace e.itemID
  else
    match e.outputIndex with
    | some i => "call_output_" ++ toString i
    | none => ""

def ensureFallbackToolForEvent (e : Event) (s : State) : Option (Tool × State) :=
  let key :=
    match e.outputIndex with
    | some i => "output:" ++ toString i
    | none => if trimSpace e.itemID ≠ "" then "item:" ++ trimSpace e.itemID else ""
  if key = "" then none
  else
    let (tool, s) := s.getTool key (fallbackCallID e)
    let (tool, s) := adoptOutputIndex e tool s
    some (adoptItemID e tool s)

def Tool.argsDelta (tool : Tool) (explicitDelta : Bytes) : Bytes :=
  if explicitDelta = [] ∧ tool.arguments.length > tool.argsSentAt then
    tool.arguments.drop tool.argsSentAt
  else explicitDelta

def Tool.markSent (tool : Tool) (argsDelta : Bytes) : Tool :=
  { tool with
    nameSent := tool.nameSent || tool.name ≠ ""
    sent := true
    argsSentAt := tool.argsSentAt + argsDelta.length }

/-- `toolDelta`, for a tool that is stored. -/
def toolDelta (tool : Tool) (explicitDelta : Bytes) (s : State) : List Chunk × State :=
  let argsDelta := tool.argsDelta explicitDelta
  if tool.sent && argsDelta.isEmpty && (tool.name = "" || tool.nameSent) then ([], s)
  else
    let (chunks, s) := ensureStart s
    let callID := if trimSpace tool.callID = "" then tool.key else trimSpace tool.callID
    let name := if tool.nameSent then "" else tool.name
    let s := { s.putTool (tool.markSent argsDelta) with sawToolCall := true }
    (chunks ++ [s.makeChunk { toolCalls := [⟨some tool.index, callID, name, argsDelta⟩] } none], s)

/-- `toolDelta` for a tool that has been written. -/
def sendTool (explicitDelta : Bytes) (written : Tool × State) : List Chunk × State :=
  toolDelta written.1 explicitDelta (written.2.putTool written.1)

def toolItem (e : Event) (item : Output) (s : State) : List Chunk × State :=
  match ensureToolForEvent e item s with
  | none => ([], s)
  | some (tool, s) =>
    sendTool []
      ({ tool with arguments := if item.arguments ≠ [] then item.arguments else tool.arguments }, s)

/-- `m[k] += b`. -/
def appendAt {K : Type} [DecidableEq K] (m : Map K Bytes) (k : K) (b : Bytes) : Map K Bytes :=
  m.insert k ((m.lookup k).getD [] ++ b)

def toolArgumentsDelta (e : Event) (s : State) : List Chunk × State :=
  if e.delta = [] then ([], s)
  else
    match findToolForEvent e s with
    | some tool => sendTool e.delta ({ tool with arguments := tool.arguments ++ e.delta }, s)
    | none =>
      match e.outputIndex with
      | some i =>
        ([], { s with pendingArgsByOutputIndex := appendAt s.pendingArgsByOutputIndex i e.delta })
      | none =>
        if trimSpace e.itemID = "" then ([], s)
        else
          ([], { s with
            pendingArgsByItemID := appendAt s.pendingArgsByItemID (trimSpace e.itemID) e.delta })

def flushPendingTool (e : Event) (s : State) : List Chunk × State :=
  match findToolForEvent e s with
  | some tool => sendTool [] (tool, s)
  | none =>
    match ensureFallbackToolForEvent e s with
    | some written => sendTool [] written
    | none => ([], s)

/-! ## The end of the stream -/

def emitAll {α : Type} (f : α → State → List Chunk × State) : List α → State → List Chunk × State
  | [], s => ([], s)
  | a :: l, s =>
    let (chunks, s) := f a s
    let (rest, s) := emitAll f l s
    (chunks ++ rest, s)

/-- The body of the loop of `terminalOutputChunks`. -/
def terminalOutput (out : Output) (s : State) : List Chunk × State :=
  if out.type = .message && !s.hasSentText then
    textDelta ((out.content.filter fun c => c.isOutputText).flatMap fun c => c.text) s
  else if out.type = .reasoning && !s.hasSentReasoning then
    reasoningDelta (out.content.flatMap fun c => c.text) s
  else if out.type.isTool then toolItem { type := .other "", item := some out } out s
  else ([], s)

def terminalOutputChunks (response : Option Response) (s : State) : List Chunk × State :=
  match response with
  | none => ([], s)
  | some r => emitAll terminalOutput r.output s

/-- The pending arguments of the key of an output index or an item are appended to its tool. -/
def drainPending (key : String) (tool : Tool) (s : State) : Tool × State :=
  let byIndex := s.pendingArgsByOutputIndex.entries.find? fun p => "output:" ++ toString p.1 = key
  let (tool, s) : Tool × State :=
    match byIndex with
    | some p =>
      ({ tool with arguments := tool.arguments ++ p.2 },
        { s with pendingArgsByOutputIndex := s.pendingArgsByOutputIndex.erase p.1 })
    | none => (tool, s)
  if startsWith key "item:" then
    let itemID := trimStart key "item:"
    ({ tool with arguments := tool.arguments ++ (s.pendingArgsByItemID.lookup itemID).getD [] },
      { s with pendingArgsByItemID := s.pendingArgsByItemID.erase itemID })
  else (tool, s)

/-- The body of the loop of `flushAllPendingTools`. -/
def flushKey (key : String) (s : State) : List Chunk × State :=
  let callID :=
    if startsWith key "output:" then "call_output_" ++ trimStart key "output:"
    else trimStart key "item:"
  let (tool, s) := s.getTool key callID
  sendTool [] (drainPending key tool s)

/-- The keys of `flushAllPendingTools`, in order. -/
def State.flushKeys (s : State) : List String :=
  (s.toolByKey.keys ++ s.pendingArgsByOutputIndex.keys.map (fun i => "output:" ++ toString i) ++
    s.pendingArgsByItemID.keys.map (fun itemID => "item:" ++ itemID)).dedup.insertionSort
      fun a b => a ≤ b

def flushAllPendingTools (s : State) : List Chunk × State := emitAll flushKey s.flushKeys s

/-- `ResponsesFinishReasonFromStatus`. -/
def responsesFinishReasonFromStatus (response : Option Response) : Option String :=
  match response with
  | none => none
  | some r =>
    if trimSpace (r.status.getD "") ≠ "incomplete" then none
    else if trimSpace (r.incompleteReason.getD "") = "content_filter" then some "content_filter"
    else some "length"

def finalize (response : Option Response) (s : State) : List Chunk × State :=
  if s.finalized then ([], s)
  else
    let (flushed, s) := flushAllPendingTools { s with finalized := true }
    let (started, s) := ensureStart s
    let finishReason :=
      (responsesFinishReasonFromStatus response).getD
        (if s.sawToolCall then "tool_calls" else "stop")
    let usageChunk : List Chunk :=
      if s.includeUsage then [⟨s.id, s.created, s.model, [], some s.usage⟩] else []
    (flushed ++ started ++ [s.makeChunk {} (some finishReason)] ++ usageChunk, s)

/-- `ensureIncompleteResponse`. -/
def ensureIncompleteResponse (response : Option Response) : Option Response :=
  let r := response.getD ⟨"", "", 0, none, none, [], none⟩
  some { r with status := r.status.or (some "incomplete") }

def terminate (response : Option Response) (s : State) : List Chunk × State :=
  let (output, s) := terminalOutputChunks response (s.applyResponseMetadata response)
  let (final, s) := finalize response s
  (output ++ final, s)

/-- `ResponsesStreamEventToChatChunks`. -/
def responsesStreamEventToChatChunks (e : Event) (s : State) : Except String (List Chunk × State) :=
  match e.type with
  | .created => .ok (ensureStart (s.applyResponseMetadata e.response))
  | .reasoningSummaryDelta | .reasoningTextDelta => .ok (reasoningDelta e.delta s)
  | .reasoningSummaryDone | .reasoningTextDone =>
    .ok ([], if s.hasSentReasoning then { s with needsReasoningSummaryBreak := true } else s)
  | .outputTextDelta => .ok (textDelta e.delta s)
  | .outputItemAdded | .outputItemDone =>
    match e.item with
    | some item => .ok (if item.type.isTool then toolItem e item s else ([], s))
    | none => .ok ([], s)
  | .functionArgsDelta | .customToolInputDelta => .ok (toolArgumentsDelta e s)
  | .functionArgsDone | .customToolInputDone => .ok (flushPendingTool e s)
  | .completed | .done => .ok (terminate e.response s)
  | .incomplete => .ok (terminate (ensureIncompleteResponse e.response) s)
  | .failed => .error "responses stream error: response.failed"
  | .error => .error "responses stream error: response.error"
  | .other _ => .ok ([], s)

def chunksOf : List Event → State → Except String (List Chunk × State)
  | [], s => .ok ([], s)
  | e :: l, s => do
    let (chunks, s) ← responsesStreamEventToChatChunks e s
    let (rest, s) ← chunksOf l s
    return (chunks ++ rest, s)

end Qapi.Stream
