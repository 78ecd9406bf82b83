import Qapi.Stream.Responses

/-!
# From a chat stream to a Claude stream

`StreamResponseOpenAI2Claude` (`service/convert.go`), which turns each chunk of a chat
stream into the events of a Claude stream, and the two handlers that feed it: one hands on
the chunks of an upstream (`relay/channel/openai/relay-openai.go`), the other those that a
responses stream is converted to (`relay/channel/openai/chat_via_responses.go`).
-/

namespace Qapi.Stream

open Qapi.Core

/-! ## Events -/

structure ClaudeUsage where
  inputTokens : Int
  outputTokens : Int
  cacheCreationInputTokens : Int := 0
  cacheReadInputTokens : Int := 0
  /-- The tokens that are cached for five minutes and for an hour. -/
  cacheCreation : Option (Int × Int) := none
deriving DecidableEq, Repr

/-- The block of a `content_block_start`. -/
inductive Block
  | toolUse (id name : String)
  | thinking
  | text
deriving DecidableEq, Repr

inductive BlockDelta
  | inputJson (partialJson : Bytes)
  | thinking (thinking : Bytes)
  | text (text : Bytes)
deriving DecidableEq, Repr

/-- `ClaudeResponse`, as the stream uses it. -/
inductive ClaudeEvent
  | messageStart (id model : String) (usage : ClaudeUsage)
  | blockStart (index : Nat) (block : Block)
  | blockDelta (index : Nat) (delta : BlockDelta)
  | blockStop (index : Nat)
  | messageDelta (usage : ClaudeUsage) (stopReason : String)
  | messageStop
deriving DecidableEq, Repr

/-! ## The state of the conversion -/

inductive LastMessageType
  | none
  | text
  | tools
  | thinking
deriving DecidableEq, Repr

/-- `RelayInfo` with its `ClaudeConvertInfo`. -/
structure RelayInfo where
  estimatePromptTokens : Int
  sendResponseCount : Nat
  finishReason : String
  lastMessagesType : LastMessageType
  index : Nat
  usage : Option Usage
  done : Bool
  toolCallBaseIndex : Nat
  toolCallMaxIndexOffset : Nat
deriving DecidableEq, Repr

def RelayInfo.new (estimatePromptTokens : Int) : RelayInfo where
  estimatePromptTokens := estimatePromptTokens
  sendResponseCount := 0
  finishReason := ""
  lastMessagesType := .none
  index := 0
  usage := none
  done := false
  toolCallBaseIndex := 0
  toolCallMaxIndexOffset := 0

/-- `NormalizeCacheCreationSplit`. -/
def normalizeCacheCreationSplit (totalTokens tokens5m tokens1h : Int) : Int × Int :=
  (tokens5m + max (totalTokens - tokens5m - tokens1h) 0, tokens1h)

def buildClaudeUsageFromOpenAIUsage (u : Usage) : ClaudeUsage :=
  let split := normalizeCacheCreationSplit u.promptTokensDetails.cachedCreationTokens
    u.claudeCacheCreation5mTokens u.claudeCacheCreation1hTokens
  { inputTokens := u.promptTokens
    outputTokens := u.completionTokens
    cacheCreationInputTokens := u.promptTokensDetails.cachedCreationTokens
    cacheReadInputTokens := u.promptTokensDetails.cachedTokens
    cacheCreation := if 0 < split.1 ∨ 0 < split.2 then some split else none }

/-- `OpenAIFinishReasonToClaudeStopReason`. -/
def stopReasonOpenAI2Claude (reason : String) : String :=
  match toLower reason with
  | "stop" => "end_turn"
  | "stop_sequence" => "stop_sequence"
  | "length" | "max_tokens" => "max_tokens"
  | "content_filter" => "refusal"
  | "tool_calls" => "tool_use"
  | _ => reason

/-! ## Blocks -/

def stopOpenBlocks (info : RelayInfo) : List ClaudeEvent :=
  match info.lastMessagesType with
  | .none => []
  | .text | .thinking => [.blockStop info.index]
  | .tools =>
    (List.range (info.toolCallMaxIndexOffset + 1)).map fun offset =>
      .blockStop (info.toolCallBaseIndex + offset)

def stopOpenBlocksAndAdvance (info : RelayInfo) : List ClaudeEvent × RelayInfo :=
  match info.lastMessagesType with
  | .none => ([], info)
  | .tools =>
    (stopOpenBlocks info,
      { info with
        index := info.toolCallBaseIndex + info.toolCallMaxIndexOffset + 1
        toolCallBaseIndex := 0
        toolCallMaxIndexOffset := 0
        lastMessagesType := .none })
  | .text | .thinking =>
    (stopOpenBlocks info, { info with index := info.index + 1, lastMessagesType := .none })

/-- `message_delta`, if there is a usage, and `message_stop`. -/
def messageEnd (usage : Option Usage) (stopReason : String) : List ClaudeEvent :=
  (match usage with
    | some u => [.messageDelta (buildClaudeUsageFromOpenAIUsage u) stopReason]
    | none => []) ++ [.messageStop]

def close (c : Chunk) (stopReason : String) (info : RelayInfo) : List ClaudeEvent × RelayInfo :=
  (stopOpenBlocks info ++ messageEnd (c.usage.or info.usage) stopReason, { info with done := true })

def endWith (c : Chunk) (reason : String) (body : List ClaudeEvent × RelayInfo) :
    List ClaudeEvent × RelayInfo :=
  let (last, info) := close c (stopReasonOpenAI2Claude reason) body.2
  (body.1 ++ last, info)

/-! ## The first chunk -/

def RelayInfo.messageStart (info : RelayInfo) (c : Chunk) : ClaudeEvent :=
  .messageStart c.id c.model ⟨info.estimatePromptTokens, 0, 0, 0, none⟩

def argumentsDelta (index : Nat) (arguments : Bytes) : List ClaudeEvent :=
  if arguments = [] then [] else [.blockDelta index (.inputJson arguments)]

/-- Only the first tool call of the first chunk becomes a block. -/
def firstToolCall (toolCalls : List ToolCall) (info : RelayInfo) : List ClaudeEvent × RelayInfo :=
  match toolCalls with
  | [] => ([], info)
  | toolCall :: _ =>
    (.blockStart 0 (.toolUse toolCall.id toolCall.name) :: argumentsDelta 0 toolCall.arguments,
      { info with lastMessagesType := .tools, toolCallBaseIndex := 0, toolCallMaxIndexOffset := 0 })

def firstBlock (type : LastMessageType) (block : Block) (delta : BlockDelta) (info : RelayInfo) :
    List ClaudeEvent × RelayInfo :=
  let (stops, info) :=
    if info.lastMessagesType ≠ type then stopOpenBlocksAndAdvance info else ([], info)
  (stops ++ [.blockStart info.index block, .blockDelta info.index delta],
    { info with lastMessagesType := type })

def firstContent (delta : Delta) (info : RelayInfo) : List ClaudeEvent × RelayInfo :=
  if delta.getReasoningContent ≠ [] then
    firstBlock .thinking .thinking (.thinking delta.getReasoningContent) info
  else if delta.getContentString ≠ [] then
    firstBlock .text .text (.text delta.getContentString) info
  else ([], info)

def firstEvents (c : Chunk) (delta : Delta) (info : RelayInfo) : List ClaudeEvent × RelayInfo :=
  let (calls, info₁) := firstToolCall delta.toolCalls info
  let (content, info₂) := firstContent delta info₁
  (info.messageStart c :: calls ++ content, info₂)

def firstChunk (c : Chunk) (info : RelayInfo) : List ClaudeEvent × RelayInfo :=
  match c.choices with
  | [] => ([info.messageStart c], info)
  | choice :: _ =>
    let (events, info) := firstEvents c choice.delta info
    match choice.finish with
    | none => (events, info)
    | some reason => endWith c reason (events, { info with finishReason := reason })

/-! ## Later chunks -/

def usageChunk (c : Chunk) (info : RelayInfo) : List ClaudeEvent × RelayInfo :=
  if (c.usage.or info.usage).isNone then ([], info)
  else
    let stopReason := stopReasonOpenAI2Claude info.finishReason
    close c (if stopReason = "" then "end_turn" else stopReason) info

/-- The events of a fragment of a tool call, whose name starts the block. -/
def toolCallEvents (index : Nat) (toolCall : ToolCall) : List ClaudeEvent :=
  (if toolCall.name = "" then [] else [.blockStart index (.toolUse toolCall.id toolCall.name)]) ++
    argumentsDelta index toolCall.arguments

/-- The loop over the tool calls of a chunk, from position `i`: the events and the greatest
offset. -/
def toolCallLoop (base : Nat) (i : Nat) (maxOffset : Nat) : List ToolCall → List ClaudeEvent × Nat
  | [] => ([], maxOffset)
  | toolCall :: rest =>
    let offset := toolCall.index.getD i
    let (events, maxOffset) := toolCallLoop base (i + 1) (max maxOffset offset) rest
    (toolCallEvents (base + offset) toolCall ++ events, maxOffset)

/-- A group of tool calls is begun, unless one is open. -/
def openToolCalls (info : RelayInfo) : List ClaudeEvent × RelayInfo :=
  if info.lastMessagesType = .tools then ([], info)
  else
    let (stops, info) := stopOpenBlocksAndAdvance info
    (stops, { info with
      lastMessagesType := .tools
      toolCallBaseIndex := info.index
      toolCallMaxIndexOffset := 0 })

def appendToolCalls (toolCalls : List ToolCall) (info : RelayInfo) : List ClaudeEvent × RelayInfo :=
  let (stops, info) := openToolCalls info
  let (events, maxOffset) :=
    toolCallLoop info.toolCallBaseIndex 0 info.toolCallMaxIndexOffset toolCalls
  (stops ++ events, { info with
    toolCallMaxIndexOffset := maxOffset
    index := info.toolCallBaseIndex + maxOffset })

/-- A delta for the open block of the type, which is begun unless it is open. -/
def appendBlock (type : LastMessageType) (block : Block) (delta : BlockDelta) (info : RelayInfo) :
    List ClaudeEvent × RelayInfo :=
  if info.lastMessagesType = type then ([.blockDelta info.index delta], info)
  else
    let (stops, info) := stopOpenBlocksAndAdvance info
    (stops ++ [.blockStart info.index block, .blockDelta info.index delta],
      { info with lastMessagesType := type })

def appendDelta (delta : Delta) (info : RelayInfo) : List ClaudeEvent × RelayInfo :=
  if delta.toolCalls ≠ [] then appendToolCalls delta.toolCalls info
  else if delta.getReasoningContent ≠ [] then
    appendBlock .thinking .thinking (.thinking delta.getReasoningContent) info
  else if delta.getContentString ≠ [] then
    appendBlock .text .text (.text delta.getContentString) info
  else ([], info)

def laterChunk (c : Chunk) (choice : Choice) (info : RelayInfo) : List ClaudeEvent × RelayInfo :=
  match choice.finish, c.usage with
  | some reason, none => ([], { info with finishReason := reason })
  | some reason, some _ =>
    endWith c reason (appendDelta choice.delta { info with finishReason := reason })
  | none, _ => appendDelta choice.delta info

def streamResponseOpenAI2Claude (c : Chunk) (info : RelayInfo) : List ClaudeEvent × RelayInfo :=
  if info.done then ([], info)
  else if info.sendResponseCount = 1 then firstChunk c info
  else
    match c.choices with
    | [] => usageChunk c info
    | choice :: _ => laterChunk c choice info

/-! ## The handlers -/

def RelayInfo.received (info : RelayInfo) (c : Chunk) : RelayInfo :=
  { info with sendResponseCount := info.sendResponseCount + 1, usage := c.usage.or info.usage }

/-- `HandleStreamFormat` for Claude. -/
def handleStreamFormat (c : Chunk) (info : RelayInfo) : List ClaudeEvent × RelayInfo :=
  streamResponseOpenAI2Claude c (info.received c)

def handleStream : List Chunk → RelayInfo → List ClaudeEvent × RelayInfo
  | [], info => ([], info)
  | c :: rest, info =>
    let (events, info) := handleStreamFormat c info
    let (more, info) := handleStream rest info
    (events ++ more, info)

/-- `HandleFinalResponse` for Claude, with the usage of the stream. -/
def handleFinalResponse (c : Chunk) (usage : Usage) (info : RelayInfo) :
    List ClaudeEvent × RelayInfo :=
  let (events, info) := streamResponseOpenAI2Claude c { info with usage := some usage }
  (events, { info with done := true })

/-- `OaiStreamHandler` for Claude: the last chunk is kept for `HandleFinalResponse`. The usage is the
one that the handler has found in the stream or counted. -/
def oaiStreamHandler (chunks : List Chunk) (usage : Usage) (info : RelayInfo) : List ClaudeEvent :=
  match chunks.getLast? with
  | none => []
  | some last =>
    let (events, info) := handleStream chunks.dropLast info
    events ++ (handleFinalResponse last usage info).1

/-- What `OaiResponsesToChatStreamHandler` sends for chunks. -/
def sendChatChunks (chunks : List Chunk) (info : RelayInfo) : List ClaudeEvent × RelayInfo :=
  handleStream (chunks.filter fun c => !(c.choices.isEmpty && c.usage.isNone)) info

/-- Its loop over the events, with whether the stream has ended without an error. -/
def scanResponses : List Event → State → RelayInfo → List ClaudeEvent × State × RelayInfo × Bool
  | [], s, info => ([], s, info, true)
  | e :: l, s, info =>
    match responsesStreamEventToChatChunks e s with
    | .error _ => ([], s, info, false)
    | .ok (chunks, s) =>
      let (events, info) := sendChatChunks chunks info
      let (more, s, info, ok) := scanResponses l s info
      (events ++ more, s, info, ok)

/-- `OaiResponsesToChatStreamHandler` for Claude; `counted` is the usage that is counted where the
stream has none. -/
def oaiResponsesToChatStreamHandler (events : List Event) (responseId model : String)
    (created : Int) (counted : Usage) (info : RelayInfo) : List ClaudeEvent :=
  let (sent, s, info, ok) := scanResponses events
    { State.new model created false with id := responseId } info
  if ok then
    let usage := if s.usage.totalTokens = 0 then counted else s.usage
    sent ++ (sendChatChunks (finalize none { s with usage := usage }).1
      { info with usage := some usage }).1
  else sent

end Qapi.Stream
