import Qapi.Convert.Claude
import Mathlib.Data.List.Nodup
import Mathlib.Data.List.Pairwise
import Mathlib.Data.Rat.Floor

/-!
# Gemini requests as chat completions requests

`GeminiToOpenAIRequest` of `service/convert.go`. Gemini has no ids for tool calls: the
converter numbers the calls of one content item from `call_1` on and gives a response the
number of calls before it in its own item. The tool messages of an item come before the
item's own message.

`linked_iff` says for which requests the result is total, its ids are distinct and its
tool messages name the calls that they answer.
-/

namespace Qapi.Convert

open Qapi.Core List

/-! ## The model -/

/-- `dto.GeminiInlineData`. -/
structure GeminiInlineData where
  mimeType : String
  data : String
deriving DecidableEq, Repr

/-- `dto.GeminiFileData`. -/
structure GeminiFileData where
  mimeType : String
  fileUri : String
deriving DecidableEq, Repr

/-- `dto.FunctionCall` and `dto.GeminiFunctionResponse`, with the JSON text of the arguments or
of the response. -/
structure GeminiFunction where
  name : String
  json : String := "null"
deriving DecidableEq, Repr

/-- `dto.GeminiPart`. -/
structure GeminiPart where
  text : String := ""
  inlineData : Option GeminiInlineData := none
  fileData : Option GeminiFileData := none
  functionCall : Option GeminiFunction := none
  functionResponse : Option GeminiFunction := none
deriving DecidableEq, Repr

/-- `dto.GeminiChatContent`. -/
structure GeminiContent where
  role : String := ""
  parts : List GeminiPart
deriving DecidableEq, Repr

/-- A Go slice: its elements, and what follows them in the array up to the capacity. -/
structure Slice (A : Type) where
  elems : List A
  spare : List A := []
deriving DecidableEq, Repr

/-- `s[:n]` reaches up to the capacity and panics behind it. -/
def Slice.upTo {A : Type} (s : Slice A) (n : Nat) : Option (List A) :=
  if n ≤ s.elems.length + s.spare.length then some ((s.elems ++ s.spare).take n) else none

/-- `dto.GeminiChatRequest`, as far as the converter reads it; a tool is given by the function
declarations that could be parsed. -/
structure GeminiRequest where
  contents : List GeminiContent
  temperature : Option Rat := none
  topP : Option Rat := none
  topK : Option Rat := none
  maxOutputTokens : Option Nat := none
  stopSequences : Slice String := ⟨[], []⟩
  candidateCount : Option Int := none
  tools : List (Option (List FunctionRequest)) := []
  systemInstructions : Option (List GeminiPart) := none
deriving DecidableEq, Repr

def convertGeminiRoleToOpenAI (role : String) : String :=
  if role = "user" then "user"
  else if role = "model" then "assistant"
  else if role = "function" then "function"
  else "user"

inductive PartKind
  | media (content : MediaContent)
  | call (function : GeminiFunction)
  | response (function : GeminiFunction)
  | nothing
deriving DecidableEq, Repr

def GeminiPart.kind (part : GeminiPart) : PartKind :=
  if part.text ≠ "" then .media (.text part.text none)
  else match part.inlineData, part.fileData, part.functionCall, part.functionResponse with
    | some data, _, _, _ =>
      .media (.imageUrl ("data:" ++ data.mimeType ++ ";base64," ++ data.data) "auto" data.mimeType)
    | none, some file, _, _ => .media (.imageUrl file.fileUri "auto" file.mimeType)
    | none, none, some function, _ => .call function
    | none, none, none, some function => .response function
    | none, none, none, none => .nothing

def callId (n : Nat) : String := "call_" ++ toString n

structure Turn where
  message : Message
  answers : Option String := none
deriving DecidableEq, Repr

structure GeminiCollected where
  turns : List Turn := []
  mediaContents : List MediaContent := []
  toolCalls : List ToolCallRequest := []
deriving DecidableEq, Repr

def convertPart (c : GeminiCollected) (part : GeminiPart) : GeminiCollected :=
  match part.kind with
  | .media content => { c with mediaContents := c.mediaContents ++ [content] }
  | .call function =>
    { c with toolCalls := c.toolCalls ++
        [{ id := callId (c.toolCalls.length + 1)
           function := { name := function.name, arguments := function.json } }] }
  | .response function =>
    { c with turns := c.turns ++
        [{ message := { role := "tool", toolCallId := callId c.toolCalls.length
                        content := .string function.json }
           answers := some function.name }] }
  | .nothing => c

def ownContent (c : GeminiCollected) : Content :=
  if c.toolCalls.length > 0 then .null
  else match c.mediaContents with
    | [] => .null
    | [.text text _] => .string text
    | contents => .media contents

def ownTurn (role : String) (c : GeminiCollected) : Turn where
  message :=
    { role := convertGeminiRoleToOpenAI role, content := ownContent c, toolCalls := c.toolCalls }

def convertContent (content : GeminiContent) : List Turn :=
  let c := content.parts.foldl convertPart {}
  c.turns ++ if (ownTurn content.role c).message.nonempty then [ownTurn content.role c] else []

def GeminiRequest.turns (request : GeminiRequest) : List Turn :=
  request.contents.flatMap convertContent

def extractTextFromGeminiParts (parts : List GeminiPart) : String :=
  join ((parts.filter fun part => part.text ≠ "").map GeminiPart.text) "\n"

def convertInstructions (request : GeminiRequest) : List Message :=
  match request.systemInstructions with
  | none => []
  | some parts => [{ role := "system", content := .string (extractTextFromGeminiParts parts) }]

def convertStop (sequences : Slice String) : Option Stop :=
  if sequences.elems.length > 0 then (sequences.upTo 4).map Stop.many else some .absent

/-- `GeminiToOpenAIRequest`; `none` is a panic. -/
def geminiToOpenAIRequest (request : GeminiRequest) (info : RelayInfo) :
    Option GeneralOpenAIRequest :=
  (convertStop request.stopSequences).map fun stop =>
    { model := info.upstreamModelName
      stream := some info.isStream
      messages := convertInstructions request ++ request.turns.map Turn.message
      temperature := request.temperature
      topP := request.topP.filter fun p => p > 0
      topK := (request.topK.filter fun k => k > 0).map fun k => ⌊k⌋
      maxTokens := request.maxOutputTokens.filter fun n => n > 0
      n := request.candidateCount.filter fun n => n > 0
      stop := stop
      tools := (request.tools.filterMap id).flatten.map fun function =>
        { function := { name := function.name, description := function.description
                        parameters := function.parameters } } }

/-! ## Calls and responses of a content item -/

def GeminiContent.callNames (content : GeminiContent) : List String :=
  content.parts.filterMap fun part => match part.kind with
    | .call function => some function.name
    | _ => none

def GeminiContent.responseNames (content : GeminiContent) : List String :=
  content.parts.filterMap fun part => match part.kind with
    | .response function => some function.name
    | _ => none

/-- What the loop has collected of the parts behind it. -/
structure CollectedFrom (callNames responseNames : List String) (c : GeminiCollected) : Prop where
  ids : c.toolCalls.map ToolCallRequest.id =
    (range callNames.length).map fun i => callId (i + 1)
  names : (c.toolCalls.map fun call => call.function.name) = callNames
  answers : c.turns.map Turn.answers = responseNames.map some
  plain : ∀ t ∈ c.turns, t.message.toolCalls = []
  unnumbered : callNames = [] → ∀ t ∈ c.turns, t.message.toolCallId = callId 0

variable {callNames responseNames : List String} {c : GeminiCollected}

theorem CollectedFrom.length (h : CollectedFrom callNames responseNames c) :
    c.toolCalls.length = callNames.length := by
  have hLength := congrArg List.length h.names
  rwa [length_map] at hLength

theorem collectedFrom_convertPart (h : CollectedFrom callNames responseNames c)
    (part : GeminiPart) :
    CollectedFrom
      (callNames ++ match part.kind with
        | .call function => [function.name]
        | _ => [])
      (responseNames ++ match part.kind with
        | .response function => [function.name]
        | _ => [])
      (convertPart c part) := by
  have hLength := h.length
  unfold convertPart
  cases part.kind with
  | media content =>
    simp only [append_nil]
    exact ⟨h.ids, h.names, h.answers, h.plain, h.unnumbered⟩
  | nothing =>
    simp only [append_nil]
    exact h
  | call function =>
    simp only [append_nil]
    refine ⟨?_, ?_, h.answers, h.plain, ?_⟩
    · rw [map_append, h.ids, length_append, length_singleton, range_succ,
        map_append, hLength]
      rfl
    · rw [map_append, h.names]
      rfl
    · intro hNone
      simp at hNone
  | response function =>
    simp only [append_nil]
    refine ⟨h.ids, h.names, ?_, ?_, ?_⟩
    · rw [map_append, h.answers, map_append]
      rfl
    · intro t ht
      rcases mem_append.mp ht with ht | ht
      · exact h.plain t ht
      · rw [mem_singleton.mp ht]
    · intro hNone t ht
      rcases mem_append.mp ht with ht | ht
      · exact h.unnumbered hNone t ht
      · rw [mem_singleton.mp ht]
        simp only [hLength, hNone, length_nil]

theorem collectedFrom_foldl (h : CollectedFrom callNames responseNames c)
    (content : GeminiContent) :
    CollectedFrom (callNames ++ content.callNames) (responseNames ++ content.responseNames)
      (content.parts.foldl convertPart c) := by
  obtain ⟨role, parts⟩ := content
  induction parts generalizing callNames responseNames c with
  | nil => simpa [GeminiContent.callNames, GeminiContent.responseNames] using h
  | cons part parts ih =>
    have hRest := ih (collectedFrom_convertPart h part)
    simp only [GeminiContent.callNames, GeminiContent.responseNames, append_assoc,
      filterMap_cons, foldl_cons] at hRest ⊢
    cases hKind : part.kind with
    | _ => simpa [hKind] using hRest

/-- The turns of a content item: the answers, then the own message with the calls. -/
structure ConvertedFrom (content : GeminiContent) (turns : List Turn) : Prop where
  split : ∃ answering own, turns = answering ++ own ∧
    answering.map Turn.answers = content.responseNames.map some ∧
    (∀ t ∈ answering, t.message.toolCalls = []) ∧
    (content.callNames = [] → ∀ t ∈ answering, t.message.toolCallId = callId 0) ∧
    (∀ t ∈ own, t.answers = none ∧ t.message.role = convertGeminiRoleToOpenAI content.role) ∧
    (own.flatMap fun t => t.message.toolCalls.map ToolCallRequest.id) =
      (range content.callNames.length).map (fun i => callId (i + 1)) ∧
    (own.flatMap fun t => t.message.toolCalls.map fun call => call.function.name) =
      content.callNames

theorem flatMap_own {A : Type} (role : String) (c : GeminiCollected)
    (f : List ToolCallRequest → List A) (hf : f [] = []) :
    ((if (ownTurn role c).message.nonempty then [ownTurn role c] else []).flatMap
      fun t => f t.message.toolCalls) = f c.toolCalls := by
  split
  · simp [ownTurn]
  · rename_i hEmpty
    have hNone : c.toolCalls = [] := (Message.empty_of_not_nonempty hEmpty).2
    rw [hNone, hf]
    rfl

theorem convertContent_spec (content : GeminiContent) :
    ConvertedFrom content (convertContent content) := by
  have hStart : CollectedFrom [] [] {} := by
    refine ⟨rfl, rfl, rfl, ?_, ?_⟩
    · intro t ht
      cases ht
    · intro _ t ht
      cases ht
  have hCollected := collectedFrom_foldl hStart content
  rw [nil_append, nil_append] at hCollected
  refine ⟨_, _, rfl, hCollected.answers, hCollected.plain, hCollected.unnumbered, ?_, ?_, ?_⟩
  · intro t ht
    split at ht
    · rw [mem_singleton.mp ht]
      exact ⟨rfl, rfl⟩
    · cases ht
  · rw [← hCollected.ids]
    exact flatMap_own _ _ (map ToolCallRequest.id) rfl
  · rw [← hCollected.names]
    exact flatMap_own _ _ (map fun call => call.function.name) rfl

/-! ## Links -/

def Turn.calls (t : Turn) : List (String × String) :=
  if t.message.role = "assistant" then
    t.message.toolCalls.map fun call => (call.id, call.function.name)
  else []

/-- Every tool message names an unanswered call of its function, if there is one. The calls
that are unanswered before the turns are given. -/
def Linked : List (String × String) → List Turn → Prop
  | _, [] => True
  | unanswered, t :: turns =>
    match t.answers with
    | some name =>
      ((∃ call ∈ unanswered, call.2 = name) → (t.message.toolCallId, name) ∈ unanswered) ∧
        Linked (unanswered.filter fun call => call.1 ≠ t.message.toolCallId) turns
    | none => Linked (unanswered ++ t.calls) turns

variable {unanswered : List (String × String)}

theorem linked_append_of_unknown {answering rest : List Turn} {names : List String}
    (hNames : answering.map Turn.answers = names.map some)
    (hUnknown : ∀ t ∈ answering, ∀ call ∈ unanswered, call.1 ≠ t.message.toolCallId) :
    Linked unanswered (answering ++ rest) ↔
      (∀ name ∈ names, name ∉ unanswered.map Prod.snd) ∧ Linked unanswered rest := by
  induction answering generalizing names with
  | nil =>
    cases names with
    | nil => simp
    | cons name names => cases hNames
  | cons t answering ih =>
    cases names with
    | nil => cases hNames
    | cons name names =>
      rw [map_cons, map_cons, cons.injEq] at hNames
      rw [forall_mem_cons] at hUnknown
      have hSame : (unanswered.filter fun call => call.1 ≠ t.message.toolCallId) = unanswered := by
        rw [filter_eq_self]
        intro call hCall
        simpa using hUnknown.1 call hCall
      have hNot : (t.message.toolCallId, name) ∉ unanswered := by
        intro hMem
        exact hUnknown.1 _ hMem rfl
      rw [cons_append, Linked, hNames.1]
      simp only [hSame, ih hNames.2 hUnknown.2, hNot, imp_false, ← mem_map,
        forall_mem_cons, and_assoc]

theorem linked_append_own {own rest : List Turn} (hOwn : ∀ t ∈ own, t.answers = none) :
    Linked unanswered (own ++ rest) ↔ Linked (unanswered ++ own.flatMap Turn.calls) rest := by
  induction own generalizing unanswered with
  | nil => simp
  | cons t own ih =>
    rw [forall_mem_cons] at hOwn
    rw [cons_append, Linked, hOwn.1]
    simp only [ih hOwn.2, append_assoc, flatMap_cons]

theorem callId_injective {m n : Nat} (h : callId m = callId n) : m = n := by
  have hList := congrArg String.toList h
  simp only [callId, String.toList_append, toString, Nat.toList_repr] at hList
  exact toDigits_injective (append_cancel_left hList)

/-- The calls that a content item leaves to be answered. -/
def GeminiContent.asked (content : GeminiContent) : List String :=
  if content.role = "model" then content.callNames else []

theorem convertGeminiRoleToOpenAI_eq_assistant {role : String} :
    convertGeminiRoleToOpenAI role = "assistant" ↔ role = "model" := by
  unfold convertGeminiRoleToOpenAI
  by_cases hUser : role = "user"
  · simp [hUser]
  · by_cases hModel : role = "model"
    · simp [hModel]
    · by_cases hFunction : role = "function" <;> simp [hUser, hModel, hFunction]

/-- The calls of the own messages of an item: its names under an assistant role, and no id that
an item without calls gives to its answers. -/
theorem calls_of_own {content : GeminiContent} {own : List Turn}
    (hOwn : ∀ t ∈ own, t.answers = none ∧
      t.message.role = convertGeminiRoleToOpenAI content.role)
    (hIds : (own.flatMap fun t => t.message.toolCalls.map ToolCallRequest.id) =
      (range content.callNames.length).map fun i => callId (i + 1))
    (hNames : (own.flatMap fun t => t.message.toolCalls.map fun call => call.function.name) =
      content.callNames) :
    (own.flatMap Turn.calls).map Prod.snd = content.asked ∧
      ∀ call ∈ own.flatMap Turn.calls, call.1 ≠ callId 0 := by
  have hCalls : own.flatMap Turn.calls =
      if content.role = "model" then own.flatMap fun t =>
        t.message.toolCalls.map fun call => (call.id, call.function.name)
      else [] := by
    by_cases hModel : content.role = "model"
    · rw [if_pos hModel]
      apply flatMap_congr
      intro t ht
      rw [Turn.calls, (hOwn t ht).2,
        if_pos (convertGeminiRoleToOpenAI_eq_assistant.mpr hModel)]
    · rw [if_neg hModel, flatMap_eq_nil_iff]
      intro t ht
      rw [Turn.calls, (hOwn t ht).2,
        if_neg (mt convertGeminiRoleToOpenAI_eq_assistant.mp hModel)]
  rw [hCalls, GeminiContent.asked]
  by_cases hModel : content.role = "model"
  · rw [if_pos hModel, if_pos hModel]
    constructor
    · rw [← hNames, map_flatMap]
      simp only [map_map, Function.comp_def]
    · intro call hCall
      obtain ⟨t, ht, hMem⟩ := mem_flatMap.mp hCall
      obtain ⟨request, hRequest, rfl⟩ := mem_map.mp hMem
      have hId : request.id ∈ own.flatMap fun t => t.message.toolCalls.map ToolCallRequest.id :=
        mem_flatMap.mpr ⟨t, ht, mem_map_of_mem hRequest⟩
      rw [hIds] at hId
      obtain ⟨i, _, hi⟩ := mem_map.mp hId
      rw [← hi]
      intro hZero
      exact absurd (callId_injective hZero) (by omega)
  · rw [if_neg hModel, if_neg hModel]
    refine ⟨rfl, ?_⟩
    intro call hCall
    cases hCall

/-- Without further calls, no response may name a function with an unanswered call. -/
theorem linked_iff_of_no_calls {contents : List GeminiContent}
    (hIds : ∀ call ∈ unanswered, call.1 ≠ callId 0) (hNone : ∀ c ∈ contents, c.callNames = []) :
    Linked unanswered (contents.flatMap convertContent) ↔
      ∀ c ∈ contents, ∀ name ∈ c.responseNames, name ∉ unanswered.map Prod.snd := by
  induction contents with
  | nil => simp [Linked]
  | cons content contents ih =>
    rw [forall_mem_cons] at hNone
    obtain ⟨answering, own, hTurns, hAnswers, _, hIdZero, hOwn, hOwnIds, hOwnNames⟩ :=
      (convertContent_spec content).split
    have hUnknown : ∀ t ∈ answering, ∀ call ∈ unanswered, call.1 ≠ t.message.toolCallId := by
      intro t ht call hCall
      rw [hIdZero hNone.1 t ht]
      exact hIds call hCall
    have hNoCalls : own.flatMap Turn.calls = [] := by
      have hAsked := (calls_of_own hOwn hOwnIds hOwnNames).1
      rw [GeminiContent.asked, hNone.1, ite_self, map_eq_nil_iff] at hAsked
      exact hAsked
    rw [flatMap_cons, hTurns, append_assoc, linked_append_of_unknown hAnswers hUnknown,
      linked_append_own fun t ht => (hOwn t ht).1, hNoCalls, append_nil, ih hNone.2,
      forall_mem_cons]

/-- With calls in one content item at most, the links are right if and only if no later item
responds to a function that it calls. -/
theorem linked_iff_pairwise {contents : List GeminiContent}
    (hOne : contents.Pairwise fun a b => a.callNames = [] ∨ b.callNames = []) :
    Linked [] (contents.flatMap convertContent) ↔
      contents.Pairwise fun earlier later =>
        ∀ name ∈ later.responseNames, name ∉ earlier.asked := by
  induction contents with
  | nil => simp [Linked]
  | cons content contents ih =>
    rw [pairwise_cons] at hOne
    obtain ⟨answering, own, hTurns, hAnswers, _, _, hOwn, hOwnIds, hOwnNames⟩ :=
      (convertContent_spec content).split
    obtain ⟨hAsked, hIds⟩ := calls_of_own hOwn hOwnIds hOwnNames
    have hUnknown : ∀ t ∈ answering, ∀ call ∈ ([] : List (String × String)),
        call.1 ≠ t.message.toolCallId := by
      intro t _ call hCall
      cases hCall
    have hFirst : Linked [] ((content :: contents).flatMap convertContent) ↔
        Linked (own.flatMap Turn.calls) (contents.flatMap convertContent) := by
      rw [flatMap_cons, hTurns, append_assoc,
        linked_append_of_unknown hAnswers hUnknown, linked_append_own fun t ht => (hOwn t ht).1,
        nil_append]
      simp
    rw [hFirst, pairwise_cons]
    by_cases hCalls : content.callNames = []
    · -- nothing is asked here
      have hNone : content.asked = [] := by
        rw [GeminiContent.asked, hCalls, ite_self]
      rw [hNone, map_eq_nil_iff] at hAsked
      rw [hAsked, ih hOne.2, hNone]
      simp
    · have hRest : ∀ c ∈ contents, c.callNames = [] := by
        intro c hc
        exact (hOne.1 c hc).resolve_left hCalls
      rw [linked_iff_of_no_calls hIds hRest, hAsked]
      constructor
      · intro h
        refine ⟨h, ?_⟩
        apply pairwise_of_forall_mem_list
        intro earlier hEarlier later _ name _
        rw [GeminiContent.asked, hRest earlier hEarlier, ite_self]
        exact not_mem_nil
      · intro h
        exact h.1

/-! ## Ids and stop sequences -/

def callIds (messages : List Message) : List String :=
  messages.flatMap fun m => m.toolCalls.map ToolCallRequest.id

theorem callIds_convertContent (content : GeminiContent) :
    callIds ((convertContent content).map Turn.message) =
      (range content.callNames.length).map fun i => callId (i + 1) := by
  obtain ⟨answering, own, hTurns, _, hPlain, _, _, hOwnIds, _⟩ :=
    (convertContent_spec content).split
  have hNone : callIds (answering.map Turn.message) = [] := by
    unfold callIds
    rw [flatMap_eq_nil_iff]
    intro m hm
    obtain ⟨t, ht, rfl⟩ := mem_map.mp hm
    rw [hPlain t ht]
    rfl
  rw [hTurns, map_append, callIds, flatMap_append, ← hOwnIds]
  unfold callIds at hNone
  rw [hNone, nil_append, flatMap_map]

theorem callIds_turns (contents : List GeminiContent) :
    callIds ((contents.flatMap convertContent).map Turn.message) =
      contents.flatMap fun c => (range c.callNames.length).map fun i => callId (i + 1) := by
  induction contents with
  | nil => rfl
  | cons content contents ih =>
    rw [flatMap_cons, map_append, callIds, flatMap_append, flatMap_cons,
      ← ih, ← callIds_convertContent]
    rfl

/-- The ids are distinct if and only if one content item at most has calls. -/
theorem nodup_callIds_iff (contents : List GeminiContent) :
    (callIds ((contents.flatMap convertContent).map Turn.message)).Nodup ↔
      contents.Pairwise fun a b => a.callNames = [] ∨ b.callNames = [] := by
  have hEach : ∀ c : GeminiContent,
      ((range c.callNames.length).map fun i => callId (i + 1)).Nodup := by
    intro c
    apply List.Nodup.map _ nodup_range
    intro i j hij
    exact Nat.succ_injective (callId_injective hij)
  have hFirst : ∀ c : GeminiContent, c.callNames ≠ [] →
      callId 1 ∈ (range c.callNames.length).map fun i => callId (i + 1) := by
    intro c hc
    exact mem_map.mpr ⟨0, mem_range.mpr (length_pos_of_ne_nil hc), rfl⟩
  rw [callIds_turns, nodup_flatMap]
  constructor
  · rintro ⟨_, hDisjoint⟩
    refine hDisjoint.imp ?_
    intro a b hab
    by_contra hBoth
    rw [not_or] at hBoth
    exact hab (hFirst a hBoth.1) (hFirst b hBoth.2)
  · intro hOne
    refine ⟨fun c _ => hEach c, hOne.imp ?_⟩
    rintro a b (hEmpty | hEmpty)
    · simp [Function.onFun, hEmpty]
    · simp [Function.onFun, hEmpty]

def Stop.sequences : Stop → List String
  | .absent => []
  | .one sequence => [sequence]
  | .many sequences => sequences

/-- With one to three sequences, the slice panics or reaches behind them. -/
theorem convertStop_iff (sequences : Slice String) :
    (∃ stop, convertStop sequences = some stop ∧
        stop.sequences = sequences.elems.take (min 4 sequences.elems.length)) ↔
      sequences.elems.length = 0 ∨ 4 ≤ sequences.elems.length := by
  unfold convertStop Slice.upTo
  constructor
  · rintro ⟨stop, hStop, hSequences⟩
    by_contra hFew
    rw [not_or] at hFew
    rw [if_pos (Nat.pos_of_ne_zero hFew.1)] at hStop
    split at hStop
    · cases hStop
      have hLength := congrArg length hSequences
      simp only [Stop.sequences, length_take, length_append] at hLength
      omega
    · cases hStop
  · rintro (hNone | hMany)
    · refine ⟨.absent, ?_, ?_⟩
      · rw [if_neg (by omega)]
      · rw [eq_nil_of_length_eq_zero hNone]
        rfl
    · refine ⟨.many (sequences.elems.take 4), ?_, ?_⟩
      · rw [if_pos (by omega), if_pos (by omega), take_append_of_le_length hMany]
        rfl
      · rw [Nat.min_eq_left hMany]
        rfl

/-! ## Whole requests -/

/-- The conversion succeeds, the stop list has the first four sequences, the ids are distinct,
and the tool messages name the calls that they answer. -/
def TotalAndLinked (request : GeminiRequest) (info : RelayInfo) : Prop :=
  ∃ out, geminiToOpenAIRequest request info = some out ∧
    out.stop.sequences =
      request.stopSequences.elems.take (min 4 request.stopSequences.elems.length) ∧
    out.messages = convertInstructions request ++ request.turns.map Turn.message ∧
    (callIds out.messages).Nodup ∧ Linked [] request.turns

/-- The requests that the converter gets right. -/
structure GeminiRequest.Linkable (request : GeminiRequest) : Prop where
  /-- No stop sequence, or four or more. -/
  stop : request.stopSequences.elems.length = 0 ∨ 4 ≤ request.stopSequences.elems.length
  /-- One content item at most has function calls. -/
  one : request.contents.Pairwise fun a b => a.callNames = [] ∨ b.callNames = []
  /-- No later item responds to a function that a model item calls. -/
  apart : request.contents.Pairwise fun earlier later =>
    ∀ name ∈ later.responseNames, name ∉ earlier.asked

theorem callIds_result (request : GeminiRequest) :
    callIds (convertInstructions request ++ request.turns.map Turn.message) =
      callIds (request.turns.map Turn.message) := by
  have hSystem : callIds (convertInstructions request) = [] := by
    unfold convertInstructions
    split <;> rfl
  unfold callIds at hSystem ⊢
  rw [flatMap_append, hSystem, nil_append]

theorem linked_iff (request : GeminiRequest) (info : RelayInfo) :
    TotalAndLinked request info ↔ request.Linkable := by
  constructor
  · rintro ⟨out, hOut, hStop, hMessages, hNodup, hLinked⟩
    obtain ⟨stop, hConvert, hResult⟩ := Option.map_eq_some_iff.mp hOut
    have hOne : request.contents.Pairwise fun a b => a.callNames = [] ∨ b.callNames = [] := by
      rw [hMessages, callIds_result] at hNodup
      exact (nodup_callIds_iff request.contents).mp hNodup
    rw [← hResult] at hStop
    exact ⟨(convertStop_iff _).mp ⟨stop, hConvert, hStop⟩, hOne,
      (linked_iff_pairwise hOne).mp hLinked⟩
  · rintro ⟨hStop, hOne, hApart⟩
    obtain ⟨stop, hConvert, hSequences⟩ := (convertStop_iff request.stopSequences).mpr hStop
    refine ⟨_, Option.map_eq_some_iff.mpr ⟨stop, hConvert, rfl⟩, hSequences, rfl, ?_, ?_⟩
    · rw [callIds_result]
      exact (nodup_callIds_iff request.contents).mpr hOne
    · exact (linked_iff_pairwise hOne).mpr hApart

def sampleConversation : GeminiRequest where
  contents :=
    [{ role := "user", parts := [{ text := "What time is it?" }] },
     { role := "model", parts := [{ functionCall := some { name := "clock" } }] },
     { role := "function", parts := [{ functionResponse := some { name := "clock" } }] }]

/-- The response names no call, and one stop sequence is too few. -/
theorem response_and_stop_go_wrong :
    (sampleConversation.turns.map fun t => t.message.toolCallId) = ["", "", "call_0"] ∧
      ¬ TotalAndLinked sampleConversation {} ∧
      geminiToOpenAIRequest { contents := [], stopSequences := ⟨["END"], []⟩ } {} = none := by
  refine ⟨by decide, ?_, by decide⟩
  rintro ⟨_, _, _, _, _, hLinked⟩
  have hOne : sampleConversation.contents.Pairwise
      fun a b => a.callNames = [] ∨ b.callNames = [] := by
    decide
  exact absurd ((linked_iff_pairwise hOne).mp hLinked) (by decide)

end Qapi.Convert
