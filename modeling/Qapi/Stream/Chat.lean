import Mathlib.Data.List.AList
import Qapi.Core.Text

/-!
# Chat stream chunks

The chunks of a chat completion stream (`dto/openai_response.go`), which the responses
stream is converted to and from which the Claude stream is made. The texts that are
streamed are byte strings, as in Go.
-/

namespace Qapi.Stream

/-- A Go string whose bytes matter. -/
abbrev Bytes := List UInt8

/-- A Go map. -/
abbrev Map (K V : Type) := AList fun _ : K => V

structure InputTokenDetails where
  cachedTokens : Int := 0
  cachedCreationTokens : Int := 0
  cacheWriteTokens : Int := 0
deriving DecidableEq, Repr

/-- `CacheWriteTokenCount`. -/
def InputTokenDetails.cacheWriteTokenCount (d : InputTokenDetails) : Int :=
  if d.cacheWriteTokens ≠ 0 then d.cacheWriteTokens else d.cachedCreationTokens

structure Usage where
  promptTokens : Int := 0
  completionTokens : Int := 0
  totalTokens : Int := 0
  inputTokens : Int := 0
  outputTokens : Int := 0
  promptTokensDetails : InputTokenDetails := {}
  inputTokensDetails : Option InputTokenDetails := none
  claudeCacheCreation5mTokens : Int := 0
  claudeCacheCreation1hTokens : Int := 0
deriving DecidableEq, Repr

/-- `ToolCallResponse`. -/
structure ToolCall where
  index : Option Nat
  id : String
  name : String
  arguments : Bytes
deriving DecidableEq, Repr

/-- `ChatCompletionsStreamResponseChoiceDelta`. -/
structure Delta where
  role : String := ""
  content : Option Bytes := none
  reasoningContent : Option Bytes := none
  reasoning : Option Bytes := none
  toolCalls : List ToolCall := []
deriving DecidableEq, Repr

structure Choice where
  delta : Delta
  finishReason : Option String
deriving DecidableEq, Repr

/-- `ChatCompletionsStreamResponse`. -/
structure Chunk where
  id : String
  created : Int
  model : String
  choices : List Choice
  usage : Option Usage
deriving DecidableEq, Repr

def sampleChunk (delta : Delta) (finishReason : Option String) (usage : Option Usage) : Chunk :=
  ⟨"chatcmpl-1", 1, "gpt-5", [⟨delta, finishReason⟩], usage⟩

def wholeCall (index : Nat) (id name : String) : ToolCall := ⟨some index, id, name, [123, 125]⟩

/-- `GetContentString`. -/
def Delta.getContentString (d : Delta) : Bytes := d.content.getD []

/-- `GetReasoningContent`. -/
def Delta.getReasoningContent (d : Delta) : Bytes :=
  match d.reasoningContent, d.reasoning with
  | some text, _ => text
  | none, some text => text
  | none, none => []

def Choice.finish (c : Choice) : Option String := c.finishReason.filter fun reason => reason ≠ ""

/-- `IsFinished`: the finish reason of the chunk. -/
def Chunk.finish (c : Chunk) : Option String := c.choices.head?.bind Choice.finish

def toolCalls (chunks : List Chunk) : List ToolCall :=
  chunks.flatMap fun c => c.choices.flatMap fun choice => choice.delta.toolCalls

@[simp] theorem toolCalls_nil : toolCalls [] = [] := rfl

@[simp] theorem toolCalls_append (l m : List Chunk) :
    toolCalls (l ++ m) = toolCalls l ++ toolCalls m :=
  List.flatMap_append

end Qapi.Stream
