import Mathlib.Data.Rat.Defs

/-!
# Requests of the chat completions API

`dto.GeneralOpenAIRequest` and its messages, as the converters of `service/convert.go`
build them. A decoded JSON value that is only printed again is given by its text.
-/

namespace Qapi.Convert

/-- `dto.MediaContent`, of the types that the converters emit. -/
inductive MediaContent
  | text (text : String) (cacheControl : Option String)
  | imageUrl (url detail mimeType : String)
deriving DecidableEq, Repr

/-- `Message.Content`. -/
inductive Content
  | null
  | string (text : String)
  | media (parts : List MediaContent)
deriving DecidableEq, Repr

/-- `dto.FunctionRequest`. -/
structure FunctionRequest where
  name : String
  description : String := ""
  parameters : Option String := none
  arguments : String := ""
deriving DecidableEq, Repr

/-- `dto.ToolCallRequest` of the type `function`. -/
structure ToolCallRequest where
  id : String := ""
  function : FunctionRequest
deriving DecidableEq, Repr

/-- `dto.Message`. -/
structure Message where
  role : String
  content : Content := .null
  name : Option String := none
  toolCalls : List ToolCallRequest := []
  toolCallId : String := ""
deriving DecidableEq, Repr

/-- The number of parts of `Message.ParseContent`. -/
def Content.length : Content → Nat
  | .null => 0
  | .string _ => 1
  | .media parts => parts.length

/-- A message with content or tool calls is added, another one is not. -/
def Message.nonempty (m : Message) : Bool :=
  m.content.length > 0 || m.toolCalls.length > 0

theorem Message.empty_of_not_nonempty {m : Message} (h : ¬ m.nonempty = true) :
    m.content.length = 0 ∧ m.toolCalls = [] := by
  unfold Message.nonempty at h
  rw [Bool.or_eq_true, decide_eq_true_eq, decide_eq_true_eq] at h
  refine ⟨?_, List.eq_nil_of_length_eq_zero ?_⟩
  · omega
  · omega

/-- `GeneralOpenAIRequest.Stop`: one sequence or a list of them. -/
inductive Stop
  | absent
  | one (sequence : String)
  | many (sequences : List String)
deriving DecidableEq, Repr

/-- `openrouter.RequestReasoning`. -/
structure RequestReasoning where
  enabled : Bool := false
  maxTokens : Int := 0
deriving DecidableEq, Repr

/-- `dto.GeneralOpenAIRequest`, as far as the converters fill it. -/
structure GeneralOpenAIRequest where
  model : String
  messages : List Message := []
  stream : Option Bool := none
  temperature : Option Rat := none
  topP : Option Rat := none
  topK : Option Int := none
  maxTokens : Option Nat := none
  n : Option Int := none
  stop : Stop := .absent
  tools : List ToolCallRequest := []
  verbosity : Option String := none
  reasoning : Option RequestReasoning := none
deriving DecidableEq, Repr

inductive Failure
  | error (message : String)
  | crash
deriving DecidableEq, Repr

end Qapi.Convert
