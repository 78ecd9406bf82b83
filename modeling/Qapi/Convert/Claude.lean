import Qapi.Convert.OpenAI
import Qapi.Core.Text
import Mathlib.Data.List.Forall2

/-!
# Claude requests as chat completions requests

`ClaudeToOpenAIRequest` of `service/convert.go`. The blocks of a message are spread over
three collections: the parts of its content, its tool calls, and the tool messages, which
come before it. The content is only set where there is no tool call.

`conserved_iff` says for which requests no block is lost on the way.
-/

namespace Qapi.Convert

open Qapi.Core List

/-! ## The model -/

/-- The types of a block that the converter tells apart. -/
inductive BlockType
  | text
  | inputText
  | image
  | toolUse
  | toolResult
  | other (name : String)
deriving DecidableEq, Repr

/-- `dto.ClaudeMessageSource`, with the text that `%s` prints for the data. -/
structure ClaudeMessageSource where
  mediaType : String := ""
  data : String := "%!s(<nil>)"
  url : String := ""
deriving DecidableEq, Repr

/-- The content of a tool result: a string, or the JSON text of its media content. -/
inductive ResultContent
  | string (text : String)
  | encoded (json : String)
deriving DecidableEq, Repr

/-- `dto.ClaudeMediaMessage`; the input is given by its JSON text. -/
structure ClaudeMediaMessage where
  type : BlockType
  text : Option String := none
  source : Option ClaudeMessageSource := none
  cacheControl : Option String := none
  id : String := ""
  name : String := ""
  input : String := "null"
  content : ResultContent := .encoded "null"
  toolUseId : String := ""
deriving DecidableEq, Repr

def ClaudeMediaMessage.getText (b : ClaudeMediaMessage) : String := b.text.getD ""

/-- The content of a message: a string, blocks, or what cannot be parsed as blocks. -/
inductive ClaudeContent
  | string (text : String)
  | blocks (blocks : List ClaudeMediaMessage)
  | invalid (error : String)
deriving DecidableEq, Repr

/-- `dto.ClaudeMessage`. -/
structure ClaudeMessage where
  role : String
  content : ClaudeContent
deriving DecidableEq, Repr

/-- `ParseContent` without its error: a string is not a list of blocks. -/
def ClaudeMessage.parsed (m : ClaudeMessage) : List ClaudeMediaMessage :=
  match m.content with
  | .blocks blocks => blocks
  | .string _ | .invalid _ => []

/-- The system prompt: a string, or the blocks that `ParseSystem` finds. -/
inductive ClaudeSystem
  | string (text : String)
  | blocks (blocks : List ClaudeMediaMessage)
deriving DecidableEq, Repr

/-- `dto.Thinking`. -/
structure Thinking where
  type : String
  budgetTokens : Option Int := none
deriving DecidableEq, Repr

/-- `dto.ClaudeRequest`, as far as the converter reads it; the efforts are those of
`GetEfforts`. -/
structure ClaudeRequest where
  model : String
  system : Option ClaudeSystem := none
  messages : List ClaudeMessage
  maxTokens : Option Nat := none
  stopSequences : List String := []
  temperature : Option Rat := none
  topP : Option Rat := none
  topK : Option Int := none
  stream : Option Bool := none
  tools : List FunctionRequest := []
  thinking : Option Thinking := none
  efforts : String := ""
deriving DecidableEq, Repr

/-- `RelayInfo`, as far as the converters read it. -/
structure RelayInfo where
  isOpenRouter : Bool := false
  originModelName : String := ""
  upstreamModelName : String := ""
  isStream : Bool := false
deriving DecidableEq, Repr

/-- `SearchToolNameByToolCallId`. -/
def ClaudeRequest.searchToolNameByToolCallId (request : ClaudeRequest) (toolCallId : String) :
    String :=
  match (request.messages.flatMap ClaudeMessage.parsed).find? fun b => b.id = toolCallId with
  | some b => b.name
  | none => ""

structure Collected where
  toolMessages : List Message := []
  toolCalls : List ToolCallRequest := []
  mediaMessages : List MediaContent := []
deriving DecidableEq, Repr

def convertToolUse (b : ClaudeMediaMessage) : ToolCallRequest :=
  { id := b.id, function := { name := b.name, arguments := b.input } }

def ResultContent.toContent : ResultContent → Content
  | .string text => .string text
  | .encoded json => .string json

def convertToolResult (request : ClaudeRequest) (b : ClaudeMediaMessage) : Message :=
  let toolName := if b.name = "" then request.searchToolNameByToolCallId b.toolUseId else b.name
  { role := "tool", name := some toolName, toolCallId := b.toolUseId
    content := b.content.toContent }

/-- One turn of the loop. An image without a source is a nil dereference. -/
def convertBlock (request : ClaudeRequest) (b : ClaudeMediaMessage) (c : Collected) :
    Option Collected :=
  match b.type with
  | .text | .inputText =>
    some { c with mediaMessages := c.mediaMessages ++ [.text b.getText b.cacheControl] }
  | .image =>
    b.source.map fun source =>
      { c with mediaMessages := c.mediaMessages ++
          [.imageUrl ("data:" ++ source.mediaType ++ ";base64," ++ source.data) "" ""] }
  | .toolUse => some { c with toolCalls := c.toolCalls ++ [convertToolUse b] }
  | .toolResult => some { c with toolMessages := c.toolMessages ++ [convertToolResult request b] }
  | .other _ => some c

def convertBlocks (request : ClaudeRequest) : List ClaudeMediaMessage → Collected → Option Collected
  | [], c => some c
  | b :: blocks, c => (convertBlock request b c).bind (convertBlocks request blocks)

def convertMessage (request : ClaudeRequest) (m : ClaudeMessage) : Except Failure (List Message) :=
  match m.content with
  | .string text => .ok [{ role := m.role, content := .string text }]
  | .invalid error => .error (.error error)
  | .blocks blocks =>
    match convertBlocks request blocks {} with
    | none => .error .crash
    | some c =>
      let content : Content :=
        if c.mediaMessages.length > 0 && c.toolCalls.length = 0 then .media c.mediaMessages
        else .null
      let message : Message := { role := m.role, content := content, toolCalls := c.toolCalls }
      .ok (c.toolMessages ++ if message.nonempty then [message] else [])

def convertMessages (request : ClaudeRequest) : List ClaudeMessage → Except Failure (List Message)
  | [] => .ok []
  | m :: messages => do
    let produced ← convertMessage request m
    let rest ← convertMessages request messages
    .ok (produced ++ rest)

def convertSystem (request : ClaudeRequest) (info : RelayInfo) : List Message :=
  match request.system with
  | none => []
  | some (.string "") => []
  | some (.string text) => [{ role := "system", content := .string text }]
  | some (.blocks []) => []
  | some (.blocks systems) =>
    if info.isOpenRouter && startsWith info.upstreamModelName "anthropic/claude" then
      [{ role := "system"
         content := .media (systems.map fun b => .text b.getText b.cacheControl) }]
    else [{ role := "system", content := .string (join (systems.map fun b => b.getText) "") }]

def convertReasoning (thinking : Thinking) : RequestReasoning :=
  if thinking.type = "enabled" then { enabled := true, maxTokens := thinking.budgetTokens.getD 0 }
  else if thinking.type = "adaptive" then { enabled := true }
  else {}

def thinkingModel (request : ClaudeRequest) (info : RelayInfo) : String :=
  if !info.isOpenRouter && endsWith info.originModelName "-thinking" &&
      !endsWith request.model "-thinking" then request.model ++ "-thinking"
  else request.model

/-- `ClaudeToOpenAIRequest`. -/
def claudeToOpenAIRequest (request : ClaudeRequest) (info : RelayInfo) :
    Except Failure GeneralOpenAIRequest :=
  (convertMessages request request.messages).map fun messages =>
    { model := thinkingModel request info
      messages := convertSystem request info ++ messages
      stream := request.stream
      temperature := request.temperature
      topP := request.topP
      topK := request.topK
      maxTokens := request.maxTokens
      stop := match request.stopSequences with
        | [] => .absent
        | [sequence] => .one sequence
        | sequences => .many sequences
      tools := request.tools.map fun tool => { function := tool }
      verbosity := if info.isOpenRouter && request.efforts ≠ "" then some request.efforts else none
      reasoning := if info.isOpenRouter then request.thinking.map convertReasoning else none }

/-! ## The blocks by kind -/

/-- The URL that `convertBlock` builds for an image. -/
def ClaudeMessageSource.dataUrl (source : ClaudeMessageSource) : String :=
  "data:" ++ source.mediaType ++ ";base64," ++ source.data

def ClaudeMessageSource.imageUrl (source : ClaudeMessageSource) : String :=
  if source.url ≠ "" then source.url else source.dataUrl

namespace ClaudeMediaMessage

def isText (b : ClaudeMediaMessage) : Bool := b.type = .text || b.type = .inputText

def isImage (b : ClaudeMediaMessage) : Bool := b.type = .image

def isToolUse (b : ClaudeMediaMessage) : Bool := b.type = .toolUse

def isToolResult (b : ClaudeMediaMessage) : Bool := b.type = .toolResult

def textPart (b : ClaudeMediaMessage) : MediaContent := .text b.getText b.cacheControl

def imagePart (b : ClaudeMediaMessage) : MediaContent :=
  .imageUrl ((b.source.map ClaudeMessageSource.imageUrl).getD "") "" ""

def dataPart (b : ClaudeMediaMessage) : MediaContent :=
  .imageUrl ((b.source.map ClaudeMessageSource.dataUrl).getD "") "" ""

end ClaudeMediaMessage

def MediaContent.isText : MediaContent → Bool
  | .text _ _ => true
  | .imageUrl _ _ _ => false

def Content.parts : Content → List MediaContent
  | .media parts => parts
  | .null | .string _ => []

def Message.texts (m : Message) : List MediaContent := m.content.parts.filter MediaContent.isText

def Message.images (m : Message) : List MediaContent :=
  m.content.parts.filter fun part => !part.isText

def Message.isAnswer (m : Message) : Bool :=
  m.role = "tool" && match m.content with
    | .string _ => true
    | .null | .media _ => false

/-- Every block of a message occurs once in the messages produced for it, in its order within
its kind and under the message's role, a tool result as a tool message. -/
structure Conserves (role : String) (blocks : List ClaudeMediaMessage) (produced : List Message) :
    Prop where
  texts : produced.flatMap Message.texts =
    (blocks.filter ClaudeMediaMessage.isText).map ClaudeMediaMessage.textPart
  images : produced.flatMap Message.images =
    (blocks.filter ClaudeMediaMessage.isImage).map ClaudeMediaMessage.imagePart
  toolCalls : produced.flatMap Message.toolCalls =
    (blocks.filter ClaudeMediaMessage.isToolUse).map convertToolUse
  role_eq : ∀ p ∈ produced, p.texts ≠ [] ∨ p.images ≠ [] ∨ p.toolCalls ≠ [] → p.role = role
  results : (produced.filter Message.isAnswer).map (fun p => (p.toolCallId, p.content)) =
    (blocks.filter ClaudeMediaMessage.isToolResult).map
      fun b => (b.toolUseId, b.content.toContent)

def collected (request : ClaudeRequest) (blocks : List ClaudeMediaMessage) : Collected where
  toolMessages := (blocks.filter ClaudeMediaMessage.isToolResult).map (convertToolResult request)
  toolCalls := (blocks.filter ClaudeMediaMessage.isToolUse).map convertToolUse
  mediaMessages := (blocks.filter fun b => b.isText || b.isImage).map fun b =>
    if b.isText then b.textPart else b.dataPart

def Collected.append (c d : Collected) : Collected :=
  ⟨c.toolMessages ++ d.toolMessages, c.toolCalls ++ d.toolCalls,
    c.mediaMessages ++ d.mediaMessages⟩

def Sourced (blocks : List ClaudeMediaMessage) : Prop :=
  ∀ b ∈ blocks, b.isImage = true → b.source.isSome

variable {request : ClaudeRequest} {blocks : List ClaudeMediaMessage}

theorem convertBlock_eq (request : ClaudeRequest) (b : ClaudeMediaMessage) (c : Collected) :
    convertBlock request b c =
      if b.isImage && b.source.isNone then none else some (c.append (collected request [b])) := by
  obtain ⟨type, text, source, cacheControl, id, name, input, content, toolUseId⟩ := b
  cases type with
  | image =>
    cases source with
    | none => rfl
    | some source => simp [convertBlock, Collected.append, collected,
        ClaudeMediaMessage.isToolResult, ClaudeMediaMessage.isToolUse, ClaudeMediaMessage.isText,
        ClaudeMediaMessage.isImage, ClaudeMediaMessage.dataPart, ClaudeMessageSource.dataUrl]
  | _ => simp [convertBlock, Collected.append, collected, ClaudeMediaMessage.isToolResult,
      ClaudeMediaMessage.isToolUse, ClaudeMediaMessage.isText, ClaudeMediaMessage.isImage,
      ClaudeMediaMessage.textPart]

theorem Collected.append_assoc (c d e : Collected) :
    (c.append d).append e = c.append (d.append e) := by
  simp [Collected.append]

theorem collected_append (request : ClaudeRequest) (before after : List ClaudeMediaMessage) :
    collected request (before ++ after) =
      (collected request before).append (collected request after) := by
  simp [collected, Collected.append]

theorem convertBlocks_eq (hSourced : Sourced blocks) (c : Collected) :
    convertBlocks request blocks c = some (c.append (collected request blocks)) := by
  induction blocks generalizing c with
  | nil => simp [convertBlocks, Collected.append, collected]
  | cons b blocks ih =>
    have hFirst : ¬ (b.isImage && b.source.isNone) := by
      intro hNone
      rw [Bool.and_eq_true] at hNone
      have hSome := hSourced b mem_cons_self hNone.1
      rw [Option.isNone_iff_eq_none.mp hNone.2] at hSome
      cases hSome
    have hRest : Sourced blocks := fun d hd => hSourced d (mem_cons_of_mem b hd)
    rw [convertBlocks, convertBlock_eq, if_neg hFirst, Option.bind_some, ih hRest,
      Collected.append_assoc, ← collected_append]
    rfl

theorem sourced_of_convertBlocks {c d : Collected}
    (h : convertBlocks request blocks c = some d) : Sourced blocks := by
  induction blocks generalizing c with
  | nil =>
    intro b hb
    cases hb
  | cons b blocks ih =>
    rw [convertBlocks, convertBlock_eq] at h
    split at h
    · cases h
    · rename_i hFirst
      intro d hd hImage
      rcases mem_cons.mp hd with rfl | hd
      · by_contra hNone
        apply hFirst
        rw [hImage, Bool.true_and, Option.isNone_iff_eq_none]
        simpa using hNone
      · exact ih h d hd hImage

def ownMessage (role : String) (c : Collected) : Message :=
  { role
    content := if c.mediaMessages.length > 0 && c.toolCalls.length = 0 then .media c.mediaMessages
      else .null
    toolCalls := c.toolCalls }

def produced (request : ClaudeRequest) (role : String) (blocks : List ClaudeMediaMessage) :
    List Message :=
  (collected request blocks).toolMessages ++
    if (ownMessage role (collected request blocks)).nonempty then
      [ownMessage role (collected request blocks)]
    else []

theorem convertMessage_blocks_iff {role : String} {messages : List Message} :
    convertMessage request ⟨role, .blocks blocks⟩ = .ok messages ↔
      Sourced blocks ∧ messages = produced request role blocks := by
  constructor
  · intro h
    simp only [convertMessage] at h
    split at h
    · cases h
    · rename_i c hc
      have hSourced := sourced_of_convertBlocks hc
      rw [convertBlocks_eq hSourced] at hc
      cases hc
      cases h
      exact ⟨hSourced, rfl⟩
  · rintro ⟨hSourced, rfl⟩
    simp only [convertMessage]
    rw [convertBlocks_eq hSourced]
    rfl

/-! ## What the messages hold -/

theorem isText_eq_false_of_isImage {b : ClaudeMediaMessage} (h : b.isImage = true) :
    b.isText = false := by
  have hType : b.type = .image := by simpa [ClaudeMediaMessage.isImage] using h
  simp [ClaudeMediaMessage.isText, hType]

theorem mediaMessages_texts (request : ClaudeRequest) (blocks : List ClaudeMediaMessage) :
    (collected request blocks).mediaMessages.filter MediaContent.isText =
      (blocks.filter ClaudeMediaMessage.isText).map ClaudeMediaMessage.textPart := by
  induction blocks with
  | nil => rfl
  | cons b blocks ih =>
    rw [← singleton_append, collected_append, Collected.append, filter_append, ih,
      filter_append, map_append]
    congr 1
    by_cases hText : b.isText = true
    · simp [collected, hText, ClaudeMediaMessage.textPart, MediaContent.isText]
    · by_cases hImage : b.isImage = true
      · simp [collected, hText, hImage, ClaudeMediaMessage.dataPart, MediaContent.isText]
      · simp [collected, hText, hImage]

theorem mediaMessages_images (request : ClaudeRequest) (blocks : List ClaudeMediaMessage) :
    ((collected request blocks).mediaMessages.filter fun part => !part.isText) =
      (blocks.filter ClaudeMediaMessage.isImage).map ClaudeMediaMessage.dataPart := by
  induction blocks with
  | nil => rfl
  | cons b blocks ih =>
    rw [← singleton_append, collected_append, Collected.append, filter_append, ih,
      filter_append, map_append]
    congr 1
    by_cases hImage : b.isImage = true
    · simp [collected, hImage, isText_eq_false_of_isImage hImage, ClaudeMediaMessage.dataPart,
        MediaContent.isText]
    · by_cases hText : b.isText = true
      · simp [collected, hText, hImage, ClaudeMediaMessage.textPart, MediaContent.isText]
      · simp [collected, hText, hImage]

def NoToolUse (blocks : List ClaudeMediaMessage) : Prop := ∀ b ∈ blocks, b.isToolUse = false

theorem toolCalls_eq_nil_iff : (collected request blocks).toolCalls = [] ↔ NoToolUse blocks := by
  simp [collected, NoToolUse, filter_eq_nil_iff]

theorem ownMessage_parts (role : String) (h : NoToolUse blocks) :
    (ownMessage role (collected request blocks)).content.parts =
      (collected request blocks).mediaMessages := by
  have hNone : (collected request blocks).toolCalls = [] := toolCalls_eq_nil_iff.mpr h
  unfold ownMessage
  cases hMedia : (collected request blocks).mediaMessages with
  | nil => simp [Content.parts]
  | cons part parts => simp [hNone, Content.parts]

theorem ownMessage_parts_of_toolUse (role : String) (h : ¬ NoToolUse blocks) :
    (ownMessage role (collected request blocks)).content.parts = [] := by
  have hSome : (collected request blocks).toolCalls ≠ [] := mt toolCalls_eq_nil_iff.mp h
  simp [ownMessage, hSome, Content.parts]

theorem parts_eq_nil_of_length {content : Content} (h : content.length = 0) :
    content.parts = [] := by
  cases content with
  | null => rfl
  | string text => rfl
  | media parts => exact eq_nil_of_length_eq_zero h

theorem flatMap_produced {A : Type} (role : String) (f : Message → List A)
    (hTool : ∀ b, f (convertToolResult request b) = [])
    (hEmpty : ∀ m : Message, m.content.parts = [] → m.toolCalls = [] → f m = []) :
    (produced request role blocks).flatMap f = f (ownMessage role (collected request blocks)) := by
  have hTools : (collected request blocks).toolMessages.flatMap f = [] := by
    rw [flatMap_eq_nil_iff]
    intro m hm
    obtain ⟨b, _, rfl⟩ := mem_map.mp hm
    exact hTool b
  unfold produced
  rw [flatMap_append, hTools, nil_append]
  split
  · simp
  · rename_i hNone
    obtain ⟨hContent, hCalls⟩ := Message.empty_of_not_nonempty hNone
    rw [hEmpty _ (parts_eq_nil_of_length hContent) hCalls]
    rfl

theorem convertToolResult_content (request : ClaudeRequest) (b : ClaudeMediaMessage) :
    ∃ text, (convertToolResult request b).content = .string text := by
  unfold convertToolResult
  cases b.content with
  | string text => exact ⟨text, rfl⟩
  | encoded json => exact ⟨json, rfl⟩

theorem convertToolResult_parts (request : ClaudeRequest) (b : ClaudeMediaMessage) :
    (convertToolResult request b).content.parts = [] := by
  obtain ⟨text, hText⟩ := convertToolResult_content request b
  rw [hText, Content.parts]

theorem produced_texts (role : String) : (produced request role blocks).flatMap Message.texts =
    (ownMessage role (collected request blocks)).texts := by
  apply flatMap_produced
  · intro b
    rw [Message.texts, convertToolResult_parts, filter_nil]
  · intro m hParts _
    rw [Message.texts, hParts, filter_nil]

theorem produced_images (role : String) : (produced request role blocks).flatMap Message.images =
    (ownMessage role (collected request blocks)).images := by
  apply flatMap_produced
  · intro b
    rw [Message.images, convertToolResult_parts, filter_nil]
  · intro m hParts _
    rw [Message.images, hParts, filter_nil]

theorem produced_toolCalls (role : String) :
    (produced request role blocks).flatMap Message.toolCalls =
      (blocks.filter ClaudeMediaMessage.isToolUse).map convertToolUse :=
  flatMap_produced role Message.toolCalls (fun _ => rfl) fun _ _ hCalls => hCalls

theorem isAnswer_ownMessage (role : String) (c : Collected) :
    (ownMessage role c).isAnswer = false := by
  have hContent : (ownMessage role c).content = .media c.mediaMessages ∨
      (ownMessage role c).content = .null := by
    unfold ownMessage
    split
    · exact Or.inl rfl
    · exact Or.inr rfl
  rcases hContent with hMedia | hNull
  · simp [Message.isAnswer, hMedia]
  · simp [Message.isAnswer, hNull]

theorem produced_answers (role : String) : (produced request role blocks).filter Message.isAnswer =
    (blocks.filter ClaudeMediaMessage.isToolResult).map (convertToolResult request) := by
  have hTools : ∀ m ∈ (collected request blocks).toolMessages, m.isAnswer = true := by
    intro m hm
    obtain ⟨b, _, rfl⟩ := mem_map.mp hm
    obtain ⟨text, hText⟩ := convertToolResult_content request b
    rw [Message.isAnswer, hText]
    rfl
  unfold produced
  rw [filter_append, filter_eq_self.mpr hTools]
  have hOwn : (if (ownMessage role (collected request blocks)).nonempty then
      [ownMessage role (collected request blocks)] else []).filter Message.isAnswer = [] := by
    split
    · rw [filter_cons_of_neg (by simp [isAnswer_ownMessage]), filter_nil]
    · rfl
  rw [hOwn, append_nil]
  rfl

/-! ## When every block is kept -/

/-- The URL of an image is the one that is built for it. -/
def ClaudeMediaMessage.Inline (b : ClaudeMediaMessage) : Prop :=
  ∃ source, b.source = some source ∧ (source.url = "" ∨ source.url = source.dataUrl)

/-- No tool call stands beside a text or an image, and images come with their data. -/
structure Kept (blocks : List ClaudeMediaMessage) : Prop where
  inline : ∀ b ∈ blocks, b.isImage = true → b.Inline
  apart : ∀ use ∈ blocks, use.isToolUse = true →
    ∀ b ∈ blocks, b.isText = false ∧ b.isImage = false

theorem imagePart_eq_dataPart_iff {b : ClaudeMediaMessage} (h : b.source.isSome) :
    b.dataPart = b.imagePart ↔ b.Inline := by
  obtain ⟨source, hSource⟩ := Option.isSome_iff_exists.mp h
  have hInline : b.Inline ↔ source.url = "" ∨ source.url = source.dataUrl := by
    unfold ClaudeMediaMessage.Inline
    rw [hSource]
    simp
  rw [hInline]
  simp only [ClaudeMediaMessage.dataPart, ClaudeMediaMessage.imagePart, hSource,
    Option.map_some, Option.getD_some, MediaContent.imageUrl.injEq, and_true,
    ClaudeMessageSource.imageUrl]
  by_cases hUrl : source.url = ""
  · simp [hUrl]
  · simp [hUrl, eq_comm]

theorem ownMessage_role (role : String) (c : Collected) : (ownMessage role c).role = role := rfl

theorem produced_role {role : String} {p : Message} (hp : p ∈ produced request role blocks)
    (h : p.texts ≠ [] ∨ p.images ≠ [] ∨ p.toolCalls ≠ []) : p.role = role := by
  rcases mem_append.mp hp with hTool | hOwn
  · obtain ⟨b, _, rfl⟩ := mem_map.mp hTool
    rw [Message.texts, Message.images, convertToolResult_parts] at h
    simp [convertToolResult] at h
  · split at hOwn
    · rw [mem_singleton.mp hOwn, ownMessage_role]
    · cases hOwn

theorem conserves_iff_kept (role : String) (hSourced : Sourced blocks) :
    Conserves role blocks (produced request role blocks) ↔ Kept blocks := by
  have hImages : (blocks.filter ClaudeMediaMessage.isImage).map ClaudeMediaMessage.dataPart =
        (blocks.filter ClaudeMediaMessage.isImage).map ClaudeMediaMessage.imagePart ↔
      ∀ b ∈ blocks, b.isImage = true → b.Inline := by
    rw [map_inj_left]
    constructor
    · intro h b hb hImage
      exact (imagePart_eq_dataPart_iff (hSourced b hb hImage)).mp
        (h b (mem_filter.mpr ⟨hb, hImage⟩))
    · intro h b hb
      obtain ⟨hb, hImage⟩ := mem_filter.mp hb
      exact (imagePart_eq_dataPart_iff (hSourced b hb hImage)).mpr (h b hb hImage)
  constructor
  · intro h
    have hTexts := h.texts
    have hOwnImages := h.images
    rw [produced_texts, Message.texts] at hTexts
    rw [produced_images, Message.images] at hOwnImages
    by_cases hUse : NoToolUse blocks
    · rw [ownMessage_parts role hUse, mediaMessages_images, hImages] at hOwnImages
      refine ⟨hOwnImages, ?_⟩
      intro use hMem hIs
      rw [hUse use hMem] at hIs
      cases hIs
    · -- the content is not set beside a tool call
      rw [ownMessage_parts_of_toolUse role hUse, filter_nil, eq_comm, map_eq_nil_iff,
        filter_eq_nil_iff] at hTexts hOwnImages
      refine ⟨fun b hb hImage => absurd hImage (hOwnImages b hb), ?_⟩
      intro _ _ _ b hb
      exact ⟨by simpa using hTexts b hb, by simpa using hOwnImages b hb⟩
  · intro h
    refine ⟨?_, ?_, produced_toolCalls role, fun p hp => produced_role hp, ?_⟩
    · rw [produced_texts, Message.texts]
      by_cases hUse : NoToolUse blocks
      · rw [ownMessage_parts role hUse, mediaMessages_texts]
      · obtain ⟨use, hMem, hIs⟩ : ∃ use ∈ blocks, use.isToolUse = true := by
          simpa [NoToolUse] using hUse
        have hNone : blocks.filter ClaudeMediaMessage.isText = [] := by
          rw [filter_eq_nil_iff]
          intro b hb
          simp [(h.apart use hMem hIs b hb).1]
        rw [ownMessage_parts_of_toolUse role hUse, hNone]
        rfl
    · rw [produced_images, Message.images]
      by_cases hUse : NoToolUse blocks
      · rw [ownMessage_parts role hUse, mediaMessages_images]
        exact hImages.mpr h.inline
      · obtain ⟨use, hMem, hIs⟩ : ∃ use ∈ blocks, use.isToolUse = true := by
          simpa [NoToolUse] using hUse
        have hNone : blocks.filter ClaudeMediaMessage.isImage = [] := by
          rw [filter_eq_nil_iff]
          intro b hb
          simp [(h.apart use hMem hIs b hb).2]
        rw [ownMessage_parts_of_toolUse role hUse, hNone]
        rfl
    · rw [produced_answers, map_map]
      rfl

/-! ## Whole requests -/

/-- What a message becomes, if nothing of it is lost. -/
def MessageConserved (m : ClaudeMessage) (messages : List Message) : Prop :=
  match m.content with
  | .string text => messages = [{ role := m.role, content := .string text }]
  | .blocks blocks => Conserves m.role blocks messages
  | .invalid _ => False

/-- The conversion succeeds, and behind the system message the messages are those produced for
the messages of the request, one after the other, with nothing lost. -/
def Conserved (request : ClaudeRequest) (info : RelayInfo) : Prop :=
  ∃ (out : GeneralOpenAIRequest) (segments : List (List Message)),
    claudeToOpenAIRequest request info = .ok out ∧
    out.messages = convertSystem request info ++ segments.flatten ∧
    List.Forall₂ (fun m segment => convertMessage request m = .ok segment ∧
      MessageConserved m segment) request.messages segments

def ClaudeMessage.Kept (m : ClaudeMessage) : Prop := Convert.Kept m.parsed

theorem convertMessages_ok {messages : List ClaudeMessage} {segments : List (List Message)}
    (h : List.Forall₂ (fun m segment => convertMessage request m = .ok segment)
      messages segments) :
    convertMessages request messages = .ok segments.flatten := by
  induction h with
  | nil => rfl
  | cons hFirst _ ih =>
    rw [convertMessages, hFirst, ih]
    rfl

theorem messageConserved_iff {m : ClaudeMessage} (hParsed : ∀ error, m.content ≠ .invalid error) :
    (∃ segment, convertMessage request m = .ok segment ∧ MessageConserved m segment) ↔
      m.Kept := by
  obtain ⟨role, content⟩ := m
  cases content with
  | invalid error => exact absurd rfl (hParsed error)
  | string text =>
    constructor
    · intro _
      constructor
      · intro b hb
        cases hb
      · intro b hb
        cases hb
    · intro _
      exact ⟨_, rfl, rfl⟩
  | blocks blocks =>
    constructor
    · rintro ⟨segment, hConvert, hConserved⟩
      obtain ⟨hSourced, rfl⟩ := convertMessage_blocks_iff.mp hConvert
      exact (conserves_iff_kept role hSourced).mp hConserved
    · intro hKept
      have hSourced : Sourced blocks := by
        intro b hb hImage
        obtain ⟨source, hSource, _⟩ := hKept.inline b hb hImage
        rw [hSource]
        rfl
      exact ⟨_, convertMessage_blocks_iff.mpr ⟨hSourced, rfl⟩,
        (conserves_iff_kept role hSourced).mpr hKept⟩

theorem claudeToOpenAIRequest_messages (info : RelayInfo) {messages : List Message}
    (h : convertMessages request request.messages = .ok messages) :
    ∃ out, claudeToOpenAIRequest request info = .ok out ∧
      out.messages = convertSystem request info ++ messages := by
  unfold claudeToOpenAIRequest
  rw [h]
  exact ⟨_, rfl, rfl⟩

theorem exists_forall₂ {A B : Type*} {R : A → B → Prop} {l : List A} (h : ∀ a ∈ l, ∃ b, R a b) :
    ∃ bs, List.Forall₂ R l bs := by
  induction l with
  | nil => exact ⟨[], List.Forall₂.nil⟩
  | cons a l ih =>
    rw [forall_mem_cons] at h
    obtain ⟨b, hb⟩ := h.1
    obtain ⟨bs, hbs⟩ := ih h.2
    exact ⟨b :: bs, List.Forall₂.cons hb hbs⟩

theorem exists_of_forall₂ {A B : Type*} {R : A → B → Prop} {l : List A} {bs : List B}
    (h : List.Forall₂ R l bs) : ∀ a ∈ l, ∃ b, R a b := by
  induction h with
  | nil =>
    intro a ha
    cases ha
  | cons hb _ ih => exact forall_mem_cons.mpr ⟨⟨_, hb⟩, ih⟩

/-- A request loses none of its blocks if and only if no message has a tool call beside a text
or an image and every image comes with its data. -/
theorem conserved_iff (request : ClaudeRequest) (info : RelayInfo)
    (hParsed : ∀ m ∈ request.messages, ∀ error, m.content ≠ .invalid error) :
    Conserved request info ↔ ∀ m ∈ request.messages, m.Kept := by
  constructor
  · rintro ⟨out, segments, _, _, hSegments⟩ m hm
    exact (messageConserved_iff (hParsed m hm)).mp (exists_of_forall₂ hSegments m hm)
  · intro hKept
    have hEach : ∀ m ∈ request.messages, ∃ segment, convertMessage request m = .ok segment ∧
        MessageConserved m segment :=
      fun m hm => (messageConserved_iff (hParsed m hm)).mpr (hKept m hm)
    obtain ⟨segments, hSegments⟩ := exists_forall₂ hEach
    have hConvert : convertMessages request request.messages = .ok segments.flatten :=
      convertMessages_ok (hSegments.imp fun _ _ h => h.1)
    obtain ⟨out, hOut, hMessages⟩ := claudeToOpenAIRequest_messages info hConvert
    exact ⟨out, segments, hOut, hMessages, hSegments⟩

def sampleTurn : ClaudeMessage where
  role := "assistant"
  content := .blocks
    [{ type := .text, text := some "Let me look." },
     { type := .toolUse, id := "toolu_1", name := "search", input := "\x7b\x7d" }]

def sampleAnswer : ClaudeMessage where
  role := "user"
  content := .blocks
    [{ type := .toolResult, toolUseId := "toolu_1", content := .string "found" },
     { type := .text, text := some "Go on." }]

theorem sampleAnswer_conserved :
    Conserved { model := "claude-sonnet-4", messages := [sampleAnswer] } {} := by
  refine (conserved_iff _ _ ?_).mpr ?_
  · intro m hm error hInvalid
    rw [mem_singleton.mp hm] at hInvalid
    cases hInvalid
  · intro m hm
    rw [mem_singleton.mp hm]
    have hNoImage : ∀ b ∈ sampleAnswer.parsed, b.isImage = false := by decide
    refine ⟨?_, by decide⟩
    intro b hb hImage
    rw [hNoImage b hb] at hImage
    cases hImage

/-- The text beside a tool call is lost. -/
theorem text_beside_toolUse_is_lost :
    convertMessage { model := "claude-sonnet-4", messages := [sampleTurn] } sampleTurn =
        .ok [{ role := "assistant"
               toolCalls := [{ id := "toolu_1"
                               function := { name := "search", arguments := "\x7b\x7d" } }] }] ∧
      ¬ Conserved { model := "claude-sonnet-4", messages := [sampleTurn] } {} := by
  have hConvert : convertMessage { model := "claude-sonnet-4", messages := [sampleTurn] }
      sampleTurn = .ok [{ role := "assistant"
                          toolCalls := [{ id := "toolu_1"
                                          function := { name := "search"
                                                        arguments := "\x7b\x7d" } }] }] := by
    decide
  refine ⟨hConvert, ?_⟩
  rintro ⟨out, segments, _, _, hSegments⟩
  cases hSegments with
  | cons hFirst _ =>
    obtain ⟨hOk, hConserved⟩ := hFirst
    rw [hConvert] at hOk
    cases hOk
    have hTexts := hConserved.texts
    exact absurd hTexts (by decide)

end Qapi.Convert
