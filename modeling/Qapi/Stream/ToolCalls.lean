import Qapi.Stream.Walk

/-!
# Tool calls of a responses stream

Every tool that the conversion makes gets the next index and is sent at once, and no tool
is forgotten: after a stream, the indexes that have been sent are at least as many as the
keys that its events have named. A call that is streamed under its output index and listed
by the terminal response has two keys.
-/

namespace Qapi.Stream

open Qapi.Core List

/-- The tools are those that have been counted, each under its key. -/
structure Counted (s : State) : Prop where
  count : s.toolByKey.keys.length = s.nextToolIndex
  key : ∀ k t, s.toolByKey.lookup k = some t → t.key = k
  named : ∀ k ∈ s.toolByKey, Named k

/-- No tool is forgotten, each new one is sent, and no call is sent without an id. -/
structure Grows (s : State) (result : List Chunk × State) : Prop where
  keys : ∀ k ∈ s.toolByKey, k ∈ result.2.toolByKey
  counted : Counted result.2
  ids : ∀ call ∈ toolCalls result.1, Named call.id
  sent : ∀ i, s.nextToolIndex ≤ i → i < result.2.nextToolIndex →
    ∃ call ∈ toolCalls result.1, call.index = some i

variable {s : State}

theorem Counted.of_same {s' : State} (hs : Counted s) (hTools : s'.toolByKey = s.toolByKey)
    (hNext : s'.nextToolIndex = s.nextToolIndex) : Counted s' := by
  refine ⟨?_, ?_, ?_⟩
  · rw [hTools, hNext]
    exact hs.count
  · rw [hTools]
    exact hs.key
  · rw [hTools]
    exact hs.named

/-- A step that does not touch the tools and what is pending for them. -/
structure Same (s : State) (result : List Chunk × State) : Prop where
  tools : result.2.toolByKey = s.toolByKey
  next : result.2.nextToolIndex = s.nextToolIndex
  byOutputIndex : result.2.pendingArgsByOutputIndex = s.pendingArgsByOutputIndex
  byItemID : result.2.pendingArgsByItemID = s.pendingArgsByItemID
  sent : toolCalls result.1 = []

theorem Same.refl (s : State) : Same s ([], s) := ⟨rfl, rfl, rfl, rfl, rfl⟩

theorem Same.trans {r₁ r₂ : List Chunk × State} (h₁ : Same s r₁) (h₂ : Same r₁.2 r₂) :
    Same s (r₁.1 ++ r₂.1, r₂.2) where
  tools := h₂.tools.trans h₁.tools
  next := h₂.next.trans h₁.next
  byOutputIndex := h₂.byOutputIndex.trans h₁.byOutputIndex
  byItemID := h₂.byItemID.trans h₁.byItemID
  sent := by rw [toolCalls_append, h₁.sent, h₂.sent, append_nil]

variable {result : List Chunk × State}

theorem Same.grows (h : Same s result) (hs : Counted s) : Grows s result := by
  refine ⟨?_, hs.of_same h.tools h.next, ?_, ?_⟩
  · rw [h.tools]
    exact fun k hk => hk
  · rw [h.sent]
    exact forall_mem_nil _
  · intro i hle hlt
    rw [h.next] at hlt
    omega

theorem Grows.trans {r₁ r₂ : List Chunk × State} (h₁ : Grows s r₁) (h₂ : Grows r₁.2 r₂) :
    Grows s (r₁.1 ++ r₂.1, r₂.2) := by
  refine ⟨fun k hk => h₂.keys k (h₁.keys k hk), h₂.counted, ?_, ?_⟩
  · intro call hCall
    rw [toolCalls_append, mem_append] at hCall
    rcases hCall with hCall | hCall
    · exact h₁.ids call hCall
    · exact h₂.ids call hCall
  · intro i hle hlt
    simp only [toolCalls_append, mem_append]
    by_cases hi : i < r₁.2.nextToolIndex
    · obtain ⟨call, hCall, hIndex⟩ := h₁.sent i hle hi
      exact ⟨call, Or.inl hCall, hIndex⟩
    · obtain ⟨call, hCall, hIndex⟩ := h₂.sent i (by omega) hlt
      exact ⟨call, Or.inr hCall, hIndex⟩

theorem Grows.of_start {s' : State} {r : List Chunk × State} (h : Grows s' r)
    (hTools : s'.toolByKey = s.toolByKey) (hNext : s'.nextToolIndex = s.nextToolIndex) :
    Grows s r := by
  refine ⟨?_, h.counted, h.ids, ?_⟩
  · rw [← hTools]
    exact h.keys
  · rw [← hNext]
    exact h.sent

/-! ## Starting, text and reasoning -/

theorem ensureStart_same (s : State) : Same s (ensureStart s) := by
  unfold ensureStart
  split <;> exact ⟨rfl, rfl, rfl, rfl, rfl⟩

theorem textDelta_same (delta : Bytes) (s : State) : Same s (textDelta delta s) := by
  unfold textDelta
  split
  · exact .refl s
  · have hStart := ensureStart_same { s with hasSentText := true }
    refine ⟨hStart.tools, hStart.next, hStart.byOutputIndex, hStart.byItemID, ?_⟩
    rw [toolCalls_append, hStart.sent]
    rfl

theorem reasoningDelta_same (delta : Bytes) (s : State) : Same s (reasoningDelta delta s) := by
  unfold reasoningDelta
  split
  · exact .refl s
  · have hStart := ensureStart_same { s with needsReasoningSummaryBreak := false }
    refine ⟨hStart.tools, hStart.next, hStart.byOutputIndex, hStart.byItemID, ?_⟩
    rw [toolCalls_append, hStart.sent]
    rfl

theorem applyResponseMetadata_same (s : State) (response : Option Response) :
    Same s ([], s.applyResponseMetadata response) := by
  unfold State.applyResponseMetadata
  split <;> exact ⟨rfl, rfl, rfl, rfl, rfl⟩

/-! ## One tool -/

/-- A tool that has been got by its key and is about to be sent: it is stored, and new only with the
next index and not sent yet. -/
structure Obtained (s : State) (toolKey : String) (written : Tool × State) : Prop where
  key : written.1.key = toolKey
  stored : toolKey ∈ written.2.toolByKey
  keys : ∀ k ∈ s.toolByKey, k ∈ written.2.toolByKey
  counted : Counted written.2
  index : written.2.nextToolIndex = s.nextToolIndex ∨
    (written.2.nextToolIndex = s.nextToolIndex + 1 ∧ written.1.index = s.nextToolIndex ∧
      written.1.sent = false)

theorem getTool_obtained (hs : Counted s) {key : String} (hKey : Named key) (callID : String) :
    Obtained s key (s.getTool key callID) := by
  unfold State.getTool
  cases hLookup : s.toolByKey.lookup key with
  | some tool =>
    refine ⟨hs.key key tool hLookup, ?_, fun k hk => hk, hs, Or.inl rfl⟩
    rw [← AList.lookup_isSome, hLookup]
    rfl
  | none =>
    have hNew : key ∉ s.toolByKey := AList.lookup_eq_none.mp hLookup
    refine ⟨rfl, ?_, ?_, ⟨?_, ?_, ?_⟩, Or.inr ⟨rfl, rfl, rfl⟩⟩
    · simp
    · intro k hk
      simp [hk]
    · have hErase : s.toolByKey.keys.erase key = s.toolByKey.keys :=
        erase_of_not_mem (fun h => hNew (AList.mem_keys.mpr h))
      simp only [AList.keys_insert, length_cons, hErase, hs.count]
    · intro k t ht
      by_cases hk : k = key
      · subst hk
        simp only [AList.lookup_insert, Option.some.injEq] at ht
        rw [← ht]
      · rw [AList.lookup_insert_ne hk] at ht
        exact hs.key k t ht
    · intro k hk
      rw [AList.mem_insert] at hk
      rcases hk with rfl | hk
      · exact hKey
      · exact hs.named k hk

variable {toolKey : String} {written : Tool × State}

theorem Obtained.edit {got : Tool × State} (h : Obtained s toolKey got)
    (hEdited : Edited got written) : Obtained s toolKey written := by
  refine ⟨hEdited.key.trans h.key, ?_, ?_, h.counted.of_same hEdited.tools hEdited.next, ?_⟩
  · rw [hEdited.tools]
    exact h.stored
  · rw [hEdited.tools]
    exact h.keys
  · rw [hEdited.next, hEdited.index, hEdited.sent]
    exact h.index

theorem Counted.putTool (hs : Counted s) (tool : Tool) (hStored : tool.key ∈ s.toolByKey) :
    Counted (s.putTool tool) := by
  refine ⟨?_, ?_, ?_⟩
  · have hMem : tool.key ∈ s.toolByKey.keys := AList.mem_keys.mp hStored
    have hPos : 0 < s.toolByKey.keys.length := length_pos_of_mem hMem
    have hErase := length_erase_of_mem hMem
    have hCount := hs.count
    simp only [State.putTool, AList.keys_insert, length_cons]
    omega
  · intro k t ht
    by_cases hk : k = tool.key
    · subst hk
      simp only [State.putTool, AList.lookup_insert, Option.some.injEq] at ht
      rw [← ht]
    · rw [State.putTool, AList.lookup_insert_ne hk] at ht
      exact hs.key k t ht
  · intro k hk
    rw [State.putTool, AList.mem_insert] at hk
    rcases hk with rfl | hk
    · exact hs.named _ hStored
    · exact hs.named k hk

theorem mem_putTool (tool : Tool) {k : String} (hk : k ∈ s.toolByKey) :
    k ∈ (s.putTool tool).toolByKey := by
  simp [State.putTool, hk]

variable {tool : Tool}

/-- The id under which a tool is sent is never blank. -/
theorem named_callID (hKey : Named tool.key) :
    Named (if trimSpace tool.callID = "" then tool.key else trimSpace tool.callID) := by
  split
  · exact hKey
  · rename_i hCallID
    unfold Named
    rw [trimSpace_trimSpace]
    exact hCallID

/-- Sending a stored tool: unless it has been sent before, a chunk with its index. -/
theorem toolDelta_spec (hs : Counted s) (hStored : tool.key ∈ s.toolByKey)
    (explicitDelta : Bytes) :
    (∀ k ∈ s.toolByKey, k ∈ (toolDelta tool explicitDelta s).2.toolByKey) ∧
      Counted (toolDelta tool explicitDelta s).2 ∧
      (∀ call ∈ toolCalls (toolDelta tool explicitDelta s).1, Named call.id) ∧
      (toolDelta tool explicitDelta s).2.nextToolIndex = s.nextToolIndex ∧
      (tool.sent = false →
        ∃ call ∈ toolCalls (toolDelta tool explicitDelta s).1, call.index = some tool.index) := by
  obtain ⟨hTools, hNext, -, -, hNone⟩ := ensureStart_same s
  have hNamed := named_callID (hs.named _ hStored)
  unfold toolDelta
  dsimp only
  generalize (if trimSpace tool.callID = "" then tool.key else trimSpace tool.callID) = callID
    at hNamed ⊢
  split
  · rename_i hNothing
    refine ⟨fun k hk => hk, hs, forall_mem_nil _, rfl, ?_⟩
    intro hSent
    simp [hSent] at hNothing
  · have hStart : Counted (ensureStart s).2 := hs.of_same hTools hNext
    refine ⟨?_, ?_, ?_, hNext, ?_⟩
    · intro k hk
      exact mem_putTool _ (hTools ▸ hk)
    · exact (hStart.putTool (tool.markSent (tool.argsDelta explicitDelta))
        (hTools ▸ hStored)).of_same rfl rfl
    · intro call hCall
      rw [toolCalls_append, hNone, nil_append] at hCall
      rw [mem_singleton.mp hCall]
      exact hNamed
    · intro _
      simp [toolCalls, State.makeChunk]

theorem Obtained.send (h : Obtained s toolKey written) (explicitDelta : Bytes) :
    Grows s (sendTool explicitDelta written) ∧
      toolKey ∈ (sendTool explicitDelta written).2.toolByKey := by
  have hKeyStored : written.1.key ∈ written.2.toolByKey := by
    rw [h.key]
    exact h.stored
  obtain ⟨hKeys, hCounted, hIds, hNext, hSent⟩ :=
    toolDelta_spec (h.counted.putTool written.1 hKeyStored)
    (mem_putTool written.1 hKeyStored) explicitDelta
  refine ⟨⟨?_, hCounted, hIds, ?_⟩, ?_⟩
  · intro k hk
    exact hKeys k (mem_putTool _ (h.keys k hk))
  · intro i hle hlt
    have hNext' : (sendTool explicitDelta written).2.nextToolIndex = written.2.nextToolIndex :=
      hNext
    rcases h.index with hSame | ⟨hNew, hIndex, hUnsent⟩
    · omega
    · obtain ⟨call, hCall, hCallIndex⟩ := hSent hUnsent
      refine ⟨call, hCall, ?_⟩
      rw [hCallIndex, hIndex]
      congr 1
      omega
  · exact hKeys toolKey (mem_putTool _ h.stored)

theorem toolCalls_usageChunk (s : State) : toolCalls
    (if s.includeUsage then [⟨s.id, s.created, s.model, [], some s.usage⟩] else []) = [] := by
  split <;> rfl

/-- Whatever the conversion does, the tools grow. -/
theorem Walk.grows {text : Bytes} (h : Walk Named text s result) (hs : Counted s) :
    Grows s result := by
  induction h with
  | notes hTools hNext hQuiet =>
    exact ((Same.refl _).grows (hs.of_same hTools hNext)).of_start hTools hNext
  | start s => exact (ensureStart_same s).grows hs
  | text delta s => exact (textDelta_same delta s).grows hs
  | @chunk s hStart d hText hCalls finishReason =>
    have hSame : Same s ([s.makeChunk d finishReason], s) :=
      ⟨rfl, rfl, rfl, rfl, by simp [toolCalls, State.makeChunk, hCalls]⟩
    exact hSame.grows hs
  | @usage s hStart =>
    have hSame : Same s (_, s) := ⟨rfl, rfl, rfl, rfl, toolCalls_usageChunk s⟩
    exact hSame.grows hs
  | tool hKey h explicitDelta =>
    exact (((getTool_obtained hs hKey _).edit h).send explicitDelta).1
  | trans h₁ h₂ ih₁ ih₂ => exact (ih₁ hs).trans (ih₂ (ih₁ hs).counted)

/-! ## Events -/

variable {e : Event}

theorem ensureToolForEvent_ne_none (hKey : keyForEvent e ≠ "") (item : Output) (s : State) :
    ensureToolForEvent e item s ≠ none := by
  unfold ensureToolForEvent
  simp only [ne_eq, hKey, not_false_eq_true, if_true, if_false]
  exact Option.some_ne_none _

/-- An item with a key of its own leaves a tool under it. -/
theorem toolItem_keeps (hs : Counted s) (hKey : keyForEvent e ≠ "") (item : Output) :
    keyForEvent e ∈ (toolItem e item s).2.toolByKey := by
  unfold toolItem
  cases hEnsure : ensureToolForEvent e item s with
  | none => exact absurd hEnsure (ensureToolForEvent_ne_none hKey item s)
  | some written =>
    obtain ⟨key, hNamed, hEdited, hSame⟩ := ensureToolForEvent_edited hEnsure
    rw [← hSame hKey]
    exact (((getTool_obtained hs hNamed "").edit (hEdited.trans (edited_arguments _ _))).send []).2

def EventType.isTerminal : EventType → Bool
  | .completed | .done | .incomplete => true
  | _ => false

def EventType.fails : EventType → Bool
  | .failed | .error => true
  | _ => false

def EventType.isItem : EventType → Bool
  | .outputItemAdded | .outputItemDone => true
  | _ => false

def EventType.isArguments : EventType → Bool
  | .functionArgsDelta | .functionArgsDone | .customToolInputDelta | .customToolInputDone => true
  | _ => false

def Event.ofTool (e : Event) : Bool :=
  e.type.isArguments || (e.type.isItem && e.item.any fun item => item.type.isTool)

theorem event_ok (h : e.type.fails = false) (s : State) :
    ∃ result, responsesStreamEventToChatChunks e s = .ok result := by
  unfold responsesStreamEventToChatChunks
  split
  case h_7 | h_8 => split <;> exact ⟨_, rfl⟩
  case h_16 hType | h_17 hType => rw [hType] at h; cases h
  all_goals exact ⟨_, rfl⟩

/-- An event that neither is about a tool call nor ends the stream does not touch the tools. -/
theorem event_same (hTool : e.ofTool = false) (hOpen : e.type.isTerminal = false)
    (h : responsesStreamEventToChatChunks e s = .ok result) : Same s result := by
  unfold responsesStreamEventToChatChunks at h
  cases hType : e.type with
  | created =>
    simp only [hType] at h
    cases h
    exact (applyResponseMetadata_same s e.response).trans (ensureStart_same _)
  | reasoningSummaryDelta | reasoningTextDelta =>
    simp only [hType] at h
    cases h
    exact reasoningDelta_same _ s
  | reasoningSummaryDone | reasoningTextDone =>
    simp only [hType] at h
    cases h
    split <;> exact ⟨rfl, rfl, rfl, rfl, rfl⟩
  | outputTextDelta =>
    simp only [hType] at h
    cases h
    exact textDelta_same _ s
  | outputItemAdded | outputItemDone =>
    simp only [hType] at h
    split at h
    · rename_i item hItem
      have hOther : item.type.isTool = false := by
        simpa [Event.ofTool, hType, hItem, EventType.isItem, EventType.isArguments] using hTool
      cases h
      rw [hOther]
      exact .refl s
    · cases h
      exact .refl s
  | functionArgsDelta | customToolInputDelta | functionArgsDone | customToolInputDone =>
    simp [Event.ofTool, hType, EventType.isArguments] at hTool
  | completed | done | incomplete =>
    rw [hType] at hOpen
    cases hOpen
  | failed | error =>
    simp only [hType] at h
    cases h
  | other text =>
    simp only [hType] at h
    cases h
    exact .refl s

theorem event_grows (hs : Counted s) (h : responsesStreamEventToChatChunks e s = .ok result) :
    Grows s result :=
  (event_walk (fun _ hNamed => hNamed) (fun hWalk => (hWalk.grows hs).counted.named) h).grows hs

/-! ## Streams -/

variable {l : List Event}

theorem chunksOf_cons (h : chunksOf (e :: l) s = .ok result) :
    ∃ first rest, responsesStreamEventToChatChunks e s = .ok first ∧ chunksOf l first.2 = .ok rest ∧
      result = (first.1 ++ rest.1, rest.2) := by
  unfold chunksOf at h
  cases hFirst : responsesStreamEventToChatChunks e s with
  | error message =>
    rw [hFirst] at h
    cases h
  | ok first =>
    rw [hFirst] at h
    cases hRest : chunksOf l first.2 with
    | error message =>
      simp only [bind, Except.bind, hRest] at h
      cases h
    | ok rest =>
      simp only [bind, Except.bind, hRest] at h
      cases h
      exact ⟨first, rest, rfl, hRest, rfl⟩

theorem chunksOf_ok (h : ∀ e ∈ l, e.type.fails = false) (s : State) :
    ∃ result, chunksOf l s = .ok result := by
  induction l generalizing s with
  | nil => exact ⟨_, rfl⟩
  | cons e l ih =>
    obtain ⟨first, hFirst⟩ := event_ok (h e mem_cons_self) s
    obtain ⟨rest, hRest⟩ := ih (fun d hd => h d (mem_cons_of_mem e hd)) first.2
    refine ⟨(first.1 ++ rest.1, rest.2), ?_⟩
    unfold chunksOf
    simp only [hFirst, bind, Except.bind, hRest]
    rfl

theorem chunksOf_grows (hs : Counted s) (h : chunksOf l s = .ok result) : Grows s result := by
  induction l generalizing s result with
  | nil =>
    cases h
    exact (Same.refl s).grows hs
  | cons e l ih =>
    obtain ⟨first, rest, hFirst, hRest, rfl⟩ := chunksOf_cons h
    have hOne := event_grows hs hFirst
    exact hOne.trans (ih hOne.counted hRest)

theorem chunksOf_same (hTool : ∀ e ∈ l, e.ofTool = false)
    (hOpen : ∀ e ∈ l, e.type.isTerminal = false) (h : chunksOf l s = .ok result) :
    Same s result := by
  induction l generalizing s result with
  | nil =>
    cases h
    exact .refl s
  | cons e l ih =>
    obtain ⟨first, rest, hFirst, hRest, rfl⟩ := chunksOf_cons h
    have hOne := event_same (hTool e mem_cons_self) (hOpen e mem_cons_self) hFirst
    exact hOne.trans (ih (fun d hd => hTool d (mem_cons_of_mem e hd))
      (fun d hd => hOpen d (mem_cons_of_mem e hd)) hRest)

/-- A key that an event leaves behind is there at the end of the stream. -/
theorem chunksOf_keeps (hs : Counted s) (h : chunksOf l s = .ok result) (he : e ∈ l) {k : String}
    (hk : ∀ s result, Counted s → responsesStreamEventToChatChunks e s = .ok result → k ∈
      result.2.toolByKey) : k ∈ result.2.toolByKey := by
  induction l generalizing s result with
  | nil => cases he
  | cons d l ih =>
    obtain ⟨first, rest, hFirst, hRest, rfl⟩ := chunksOf_cons h
    have hOne := event_grows hs hFirst
    rcases mem_cons.mp he with rfl | he
    · exact (chunksOf_grows hOne.counted hRest).keys k (hk s first hs hFirst)
    · have hLast := ih hOne.counted hRest he
      exact hLast

theorem emitAll_terminalOutput_keeps (hs : Counted s) {outs : List Output} {out : Output}
    (hOut : out ∈ outs) {k : String}
    (hk : ∀ s, Counted s → k ∈ (terminalOutput out s).2.toolByKey) :
    k ∈ (emitAll terminalOutput outs s).2.toolByKey := by
  induction outs generalizing s with
  | nil => cases hOut
  | cons d outs ih =>
    have hOne := (terminalOutput_walk (fun _ hNamed => hNamed) d s).grows hs
    rcases mem_cons.mp hOut with rfl | hOut
    · have hRest := emitAll_terminalOutput_walk (fun _ hNamed => hNamed) outs (terminalOutput out s).2
      exact (hRest.grows hOne.counted).keys k (hk s hs)
    · exact ih hOne.counted hOut

/-- An item that a terminal event lists leaves a tool under a key of its own. -/
theorem terminate_keeps (hs : Counted s) {response : Response} {out : Output}
    (hOut : out ∈ response.output) (hTool : out.type.isTool = true)
    (hKey : keyForEvent { type := .other "", item := some out } ≠ "") :
    keyForEvent { type := .other "", item := some out }
      ∈ (terminate (some response) s).2.toolByKey := by
  have hMeta := (applyResponseMetadata_same s (some response)).grows hs
  have hItem : ∀ s, terminalOutput out s =
      toolItem { type := .other "", item := some out } out s := by
    intro s
    unfold terminalOutput
    cases hType : out.type <;> simp_all [ItemType.isTool]
  have hOutput := (terminalOutputChunks_walk (fun _ hNamed => hNamed) (some response) _).grows
    hMeta.counted
  refine ((finalize_walk (fun _ hNamed => hNamed) hOutput.counted.named (some response)).grows
    hOutput.counted).keys _ ?_
  refine emitAll_terminalOutput_keeps hMeta.counted hOut ?_
  intro s hs
  rw [hItem s]
  exact toolItem_keeps hs hKey out

end Qapi.Stream
