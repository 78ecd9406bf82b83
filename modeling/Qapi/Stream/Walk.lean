import Mathlib.Data.List.Dedup
import Qapi.Stream.Responses

/-!
# What the conversion of a responses stream is made of

Every part of the conversion is a sequence of a few moves: notes that send nothing, the
start, a text, a chunk without a text, the usage, and a tool that is got by its key and
sent. `Walk` are these sequences, with the text that they send. What the moves keep holds
of every event, whatever it is that one wants to know of a stream.
-/

namespace Qapi.Stream

open Qapi.Core List

def Named (s : String) : Prop := trimSpace s ≠ ""

/-- A step that sends nothing and leaves the two flags. -/
structure Silent (s s' : State) : Prop where
  includeUsage : s'.includeUsage = s.includeUsage
  sentStart : s'.sentStart = s.sentStart

structure Quiet (s s' : State) : Prop extends Silent s s' where
  told : s'.hasSentText = s.hasSentText

theorem Quiet.refl (s : State) : Quiet s s := ⟨⟨rfl, rfl⟩, rfl⟩

variable {s : State}

theorem Quiet.trans {s' s'' : State} (h : Quiet s s') (h' : Quiet s' s'') : Quiet s s'' :=
  ⟨⟨h'.includeUsage.trans h.includeUsage, h'.sentStart.trans h.sentStart⟩, h'.told.trans h.told⟩

/-- Notes for a tool that has been got: neither its key nor whether it has been sent changes. -/
structure Edited (got written : Tool × State) : Prop where
  key : written.1.key = got.1.key
  index : written.1.index = got.1.index
  sent : written.1.sent = got.1.sent
  tools : written.2.toolByKey = got.2.toolByKey
  next : written.2.nextToolIndex = got.2.nextToolIndex
  quiet : Quiet got.2 written.2

/-- The moves, with the text that they send. The keys of the tools satisfy `K`. -/
inductive Walk (K : String → Prop) : Bytes → State → List Chunk × State → Prop
  | notes {s s' : State} (hTools : s'.toolByKey = s.toolByKey)
      (hNext : s'.nextToolIndex = s.nextToolIndex) (hQuiet : Quiet s s') : Walk K [] s ([], s')
  | start (s : State) : Walk K [] s (ensureStart s)
  | text (delta : Bytes) (s : State) : Walk K delta s (textDelta delta s)
  | chunk {s : State} (hStart : s.sentStart = true) {d : Delta} (hText : d.content = none)
      (hCalls : d.toolCalls = []) (finishReason : Option String) :
      Walk K [] s ([s.makeChunk d finishReason], s)
  | usage {s : State} (hStart : s.sentStart = true) : Walk K [] s
      (if s.includeUsage then [⟨s.id, s.created, s.model, [], some s.usage⟩] else [], s)
  | tool {s : State} {key callID : String} {written : Tool × State} (hKey : K key)
      (h : Edited (s.getTool key callID) written) (explicitDelta : Bytes) :
      Walk K [] s (sendTool explicitDelta written)
  | trans {text more : Bytes} {s : State} {r₁ r₂ : List Chunk × State} (h₁ : Walk K text s r₁)
      (h₂ : Walk K more r₁.2 r₂) : Walk K (text ++ more) s (r₁.1 ++ r₂.1, r₂.2)

variable {K : String → Prop}

theorem Walk.refl (s : State) : Walk K [] s ([], s) := .notes rfl rfl (.refl s)

variable {text : Bytes} {r : List Chunk × State} {s' : State}

theorem Walk.of_notes (h : Walk K [] s ([], s')) (h' : Walk K text s' r) : Walk K text s r :=
  h.trans h'

theorem Walk.then_notes (h : Walk K text s r) (hTools : s'.toolByKey = r.2.toolByKey)
    (hNext : s'.nextToolIndex = r.2.nextToolIndex) (hQuiet : Quiet r.2 s') :
    Walk K text s (r.1, s') := by
  have hBoth := h.trans (.notes hTools hNext hQuiet)
  rw [append_nil, append_nil] at hBoth
  exact hBoth

theorem ensureStart_sentStart (s : State) : (ensureStart s).2.sentStart = true := by
  unfold ensureStart
  split
  · assumption
  · rfl

theorem reasoningDelta_walk (delta : Bytes) (s : State) :
    Walk K [] s (reasoningDelta delta s) := by
  unfold reasoningDelta
  split
  · exact .refl s
  · have hMarked : Walk K [] s ([], { s with needsReasoningSummaryBreak := false }) :=
      .notes rfl rfl ⟨⟨rfl, rfl⟩, rfl⟩
    have hStarted := Walk.start (K := K) { s with needsReasoningSummaryBreak := false }
    exact .of_notes hMarked ((hStarted.trans (.chunk (d := { reasoningContent := some _ })
      (ensureStart_sentStart _) rfl rfl none)).then_notes rfl rfl ⟨⟨rfl, rfl⟩, rfl⟩)

theorem applyResponseMetadata_walk (s : State) (response : Option Response) :
    Walk K [] s ([], s.applyResponseMetadata response) := by
  unfold State.applyResponseMetadata
  split <;> exact .notes rfl rfl ⟨⟨rfl, rfl⟩, rfl⟩

/-! ## What is sent -/

/-- The chunks of a step, and whether the stream has been started. -/
structure Emits (s : State) (result : List Chunk × State) : Prop where
  includeUsage : result.2.includeUsage = s.includeUsage
  plain : s.includeUsage = false → ∀ c ∈ result.1, c.usage = none ∧ c.choices ≠ []
  first : s.sentStart = false → ∀ c ∈ result.1.head?, c.finish = none
  started : result.2.sentStart = (s.sentStart || !result.1.isEmpty)

def contents (chunks : List Chunk) : Bytes :=
  chunks.flatMap fun c => c.choices.flatMap fun choice => choice.delta.getContentString

/-- A step that sends the text, and notes that it has sent one. -/
structure Sends (text : Bytes) (s : State) (result : List Chunk × State) : Prop
    extends Emits s result where
  brings : contents result.1 = text
  told : result.2.hasSentText = (s.hasSentText || !text.isEmpty)

theorem Silent.emits {s' : State} (h : Silent s s') : Emits s ([], s') where
  includeUsage := h.includeUsage
  plain := fun _ => forall_mem_nil _
  first := by
    intro _ c hc
    cases hc
  started := by
    rw [h.sentStart]
    exact (Bool.or_false _).symm

theorem Emits.trans {r₁ r₂ : List Chunk × State} (h₁ : Emits s r₁) (h₂ : Emits r₁.2 r₂) :
    Emits s (r₁.1 ++ r₂.1, r₂.2) := by
  refine ⟨h₂.includeUsage.trans h₁.includeUsage, ?_, ?_, ?_⟩
  · intro hFlag c hc
    rcases mem_append.mp hc with hc | hc
    · exact h₁.plain hFlag c hc
    · exact h₂.plain (h₁.includeUsage.trans hFlag) c hc
  · intro hStart c hc
    cases hFirst : r₁.1 with
    | nil =>
      have hStill : r₁.2.sentStart = false := by
        rw [h₁.started, hStart, hFirst]
        rfl
      rw [hFirst] at hc
      exact h₂.first hStill c hc
    | cons d rest =>
      rw [hFirst] at hc
      refine h₁.first hStart c ?_
      rw [hFirst]
      exact hc
  · rw [h₂.started, h₁.started]
    cases hFirst : r₁.1 <;> simp

theorem Quiet.sends {s' : State} (h : Quiet s s') : Sends [] s ([], s') where
  toEmits := h.emits
  brings := rfl
  told := h.told.trans (Bool.or_false _).symm

variable {more : Bytes}

theorem Sends.trans {r₁ r₂ : List Chunk × State} (h₁ : Sends text s r₁) (h₂ : Sends more r₁.2 r₂) :
    Sends (text ++ more) s (r₁.1 ++ r₂.1, r₂.2) where
  toEmits := h₁.toEmits.trans h₂.toEmits
  brings := by
    rw [contents, flatMap_append, ← h₁.brings, ← h₂.brings]
    rfl
  told := by
    rw [h₂.told, h₁.told, Bool.or_assoc]
    cases text <;> rfl

theorem Sends.of_quiet {s' : State} {r : List Chunk × State} (h : Quiet s s')
    (h' : Sends text s' r) : Sends text s r := h.sends.trans h'

theorem ensureStart_sends (s : State) : Sends [] s (ensureStart s) := by
  unfold ensureStart
  split
  · exact (Quiet.refl s).sends
  · rename_i hStart
    refine ⟨⟨rfl, ?_, ?_, ?_⟩, rfl, (Bool.or_false _).symm⟩
    · intro _ c hc
      rw [mem_singleton.mp hc]
      exact ⟨rfl, cons_ne_nil _ _⟩
    · intro _ c hc
      rw [← Option.some.inj hc]
      rfl
    · exact (Bool.or_true _).symm

theorem Emits.send (hStart : s.sentStart = true) (delta : Delta) (finishReason : Option String) :
    Emits s ([s.makeChunk delta finishReason], s) := by
  refine ⟨rfl, ?_, ?_, ?_⟩
  · intro _ c hc
    rw [mem_singleton.mp hc]
    exact ⟨rfl, cons_ne_nil _ _⟩
  · intro hNot
    rw [hStart] at hNot
    cases hNot
  · rw [hStart]
    rfl

theorem contents_makeChunk (s : State) (delta : Delta) (finishReason : Option String) :
    contents [s.makeChunk delta finishReason] = delta.getContentString := by
  simp [contents, State.makeChunk]

theorem Sends.send (hStart : s.sentStart = true) {delta : Delta} (hNone : delta.content = none)
    (finishReason : Option String) : Sends [] s ([s.makeChunk delta finishReason], s) := by
  refine ⟨.send hStart delta finishReason, ?_, (Bool.or_false _).symm⟩
  rw [contents_makeChunk, Delta.getContentString, hNone]
  rfl

theorem Sends.usage (hStart : s.sentStart = true) : Sends [] s
    (if s.includeUsage then [⟨s.id, s.created, s.model, [], some s.usage⟩] else [], s) := by
  refine ⟨⟨rfl, ?_, ?_, ?_⟩, ?_, (Bool.or_false _).symm⟩
  · intro hFlag c hc
    rw [hFlag] at hc
    cases hc
  · intro hNot
    rw [hStart] at hNot
    cases hNot
  · rw [hStart]
    rfl
  · split <;> rfl

theorem textDelta_sends (delta : Bytes) (s : State) : Sends delta s (textDelta delta s) := by
  unfold textDelta
  split
  · rename_i hNone
    rw [hNone]
    exact (Quiet.refl s).sends
  · rename_i hSome
    have hMarked : Silent s { s with hasSentText := true } := ⟨rfl, rfl⟩
    have hStart := ensureStart_sends { s with hasSentText := true }
    have hSent := Emits.send (ensureStart_sentStart { s with hasSentText := true })
      { content := some delta } none
    refine ⟨hMarked.emits.trans (hStart.toEmits.trans hSent), ?_, ?_⟩
    · rw [contents, flatMap_append, ← contents, ← contents, hStart.brings, contents_makeChunk]
      rfl
    · simp [hStart.told, hSome]

theorem toolDelta_sends (tool : Tool) (explicitDelta : Bytes) (s : State) :
    Sends [] s (toolDelta tool explicitDelta s) := by
  unfold toolDelta
  dsimp only
  split
  · exact (Quiet.refl s).sends
  · have hWritten : Quiet (ensureStart s).2
        { (ensureStart s).2.putTool (tool.markSent
          (tool.argsDelta explicitDelta)) with sawToolCall := true } :=
      ⟨⟨rfl, rfl⟩, rfl⟩
    have hStart : ({ (ensureStart s).2.putTool (tool.markSent (tool.argsDelta explicitDelta)) with
        sawToolCall := true } : State).sentStart = true := ensureStart_sentStart s
    exact (ensureStart_sends s).trans (.of_quiet hWritten (.send hStart rfl none))

theorem getTool_quiet (s : State) (key callID : String) : Quiet s (s.getTool key callID).2 := by
  unfold State.getTool
  split <;> exact ⟨⟨rfl, rfl⟩, rfl⟩

variable {got written : Tool × State}

theorem sendTool_sends (h : Quiet s written.2) (explicitDelta : Bytes) :
    Sends [] s (sendTool explicitDelta written) := by
  have hPut : Quiet written.2 (written.2.putTool written.1) := ⟨⟨rfl, rfl⟩, rfl⟩
  exact .of_quiet (h.trans hPut) (toolDelta_sends _ _ _)

theorem Walk.sends (h : Walk K text s r) : Sends text s r := by
  induction h with
  | notes hTools hNext hQuiet => exact hQuiet.sends
  | start s => exact ensureStart_sends s
  | text delta s => exact textDelta_sends delta s
  | chunk hStart hText hCalls finishReason => exact .send hStart hText finishReason
  | usage hStart => exact .usage hStart
  | tool hKey h explicitDelta =>
    exact sendTool_sends ((getTool_quiet _ _ _).trans h.quiet) explicitDelta
  | trans h₁ h₂ ih₁ ih₂ => exact ih₁.trans ih₂

/-! ## Keys -/

theorem named_output (i : Int) : Named ("output:" ++ toString i) :=
  trimSpace_append_ne_empty (by decide) _

theorem named_item (itemID : String) : Named ("item:" ++ itemID) :=
  trimSpace_append_ne_empty (by decide) _

theorem named_call (callID : String) : Named ("call:" ++ callID) :=
  trimSpace_append_ne_empty (by decide) _

theorem named_keyForEvent (e : Event) : keyForEvent e = "" ∨ Named (keyForEvent e) := by
  unfold keyForEvent
  dsimp only
  split
  · exact Or.inr (named_output _)
  · split
    · exact Or.inr (named_item _)
    · split
      · exact Or.inr (named_call _)
      · split
        · exact Or.inr (named_item _)
        · exact Or.inl rfl
  · split
    · exact Or.inr (named_item _)
    · exact Or.inl rfl

theorem named_fallbackToolKey (itemID callID : String) (outputIndex : Option Int) :
    fallbackToolKey itemID callID outputIndex = "" ∨
      Named (fallbackToolKey itemID callID outputIndex) := by
  unfold fallbackToolKey
  split
  · exact Or.inr (named_output _)
  · split
    · exact Or.inr (named_item _)
    · split
      · exact Or.inr (named_call _)
      · exact Or.inl rfl

/-! ## Tools -/

theorem Edited.refl (got : Tool × State) : Edited got got :=
  ⟨rfl, rfl, rfl, rfl, rfl, .refl _⟩

theorem Edited.trans {more : Tool × State} (h : Edited got written) (h' : Edited written more) :
    Edited got more :=
  ⟨h'.key.trans h.key, h'.index.trans h.index, h'.sent.trans h.sent, h'.tools.trans h.tools,
    h'.next.trans h.next, h.quiet.trans h'.quiet⟩

theorem edited_adoptOutputIndex (e : Event) (got : Tool × State) :
    Edited got (adoptOutputIndex e got.1 got.2) := by
  unfold adoptOutputIndex
  split
  · exact .refl got
  · dsimp only
    split <;> exact ⟨rfl, rfl, rfl, rfl, rfl, ⟨⟨rfl, rfl⟩, rfl⟩⟩

theorem edited_adoptItemID (e : Event) (got : Tool × State) :
    Edited got (adoptItemID e got.1 got.2) := by
  unfold adoptItemID
  dsimp only
  split
  · exact .refl got
  · split <;> exact ⟨rfl, rfl, rfl, rfl, rfl, ⟨⟨rfl, rfl⟩, rfl⟩⟩

/-- The event's index and item are noted. -/
theorem edited_adopt (e : Event) (got : Tool × State) :
    Edited got (adoptItemID e (adoptOutputIndex e got.1 got.2).1
      (adoptOutputIndex e got.1 got.2).2) :=
  (edited_adoptOutputIndex e got).trans (edited_adoptItemID e _)

theorem edited_drainPending (key : String) (got : Tool × State) :
    Edited got (drainPending key got.1 got.2) := by
  unfold drainPending
  dsimp only
  split <;> split <;> exact ⟨rfl, rfl, rfl, rfl, rfl, ⟨⟨rfl, rfl⟩, rfl⟩⟩

theorem edited_describe (item : Output) (got : Tool × State) :
    Edited got (got.1.describe item, got.2) :=
  ⟨rfl, rfl, rfl, rfl, rfl, .refl _⟩

theorem edited_arguments (arguments : Bytes) (got : Tool × State) :
    Edited got ({ got.1 with arguments := arguments }, got.2) :=
  ⟨rfl, rfl, rfl, rfl, rfl, .refl _⟩

variable {e : Event} {tool : Tool}

theorem ensureToolForEvent_edited {item : Output} (h : ensureToolForEvent e item s = some written) :
    ∃ key, Named key ∧ Edited (s.getTool key "") written ∧
      (keyForEvent e ≠ "" → key = keyForEvent e) := by
  unfold ensureToolForEvent at h
  dsimp only at h
  set key := if keyForEvent e ≠ "" then keyForEvent e
    else fallbackToolKey item.id item.callId e.outputIndex with hDef
  have hShape : key = "" ∨ Named key := by
    rw [hDef]
    split
    · exact named_keyForEvent e
    · exact named_fallbackToolKey _ _ _
  split at h
  · cases h
  · rename_i hne
    refine ⟨key, hShape.resolve_left hne, ?_, fun hne => by rw [hDef, if_pos hne]⟩
    rw [← Option.some.inj h]
    exact (edited_adopt e _).trans (edited_describe item _)

theorem ensureFallbackToolForEvent_edited (h : ensureFallbackToolForEvent e s = some written) :
    ∃ key, Named key ∧ Edited (s.getTool key (fallbackCallID e)) written := by
  unfold ensureFallbackToolForEvent at h
  split at h
  · rw [← Option.some.inj h]
    exact ⟨_, named_output _, edited_adopt e _⟩
  · split at h
    · rw [← Option.some.inj h]
      exact ⟨_, named_item _, edited_adopt e _⟩
    · cases h

theorem toolOf_lookup {key : Option String} (h : s.toolOf key = some (some tool)) :
    ∃ k, s.toolByKey.lookup k = some tool := by
  unfold State.toolOf at h
  split at h
  · cases h
  · cases h
  · exact ⟨_, Option.some.inj h⟩

/-- A tool that is found has been got by its key. -/
theorem findToolForEvent_got (h : findToolForEvent e s = some tool) :
    ∃ key ∈ s.toolByKey, Edited (s.getTool key "") (tool, s) := by
  unfold findToolForEvent at h
  rw [Option.join_eq_some_iff, Option.or_eq_some_iff, Option.or_eq_some_iff] at h
  have hLookup : ∃ k, s.toolByKey.lookup k = some tool := by
    rcases h with (hIndex | ⟨-, hItemID⟩) | ⟨-, hItem⟩
    · exact toolOf_lookup hIndex
    · split at hItemID
      · exact toolOf_lookup hItemID
      · cases hItemID
    · split at hItem
      · exact toolOf_lookup hItem
      · cases hItem
  obtain ⟨k, hk⟩ := hLookup
  refine ⟨k, ?_, ?_⟩
  · rw [← AList.lookup_isSome, hk]
    rfl
  · unfold State.getTool
    rw [hk]
    exact .refl (tool, s)

/-! ## Events -/

theorem emitAll_walk {α : Type} {f : α → State → List Chunk × State} {l : List α}
    (hf : ∀ a ∈ l, ∀ s, Walk K [] s (f a s)) (s : State) : Walk K [] s (emitAll f l s) := by
  induction l generalizing s with
  | nil => exact .refl s
  | cons a l ih =>
    exact (hf a mem_cons_self s).trans (ih (fun b hb => hf b (mem_cons_of_mem a hb)) _)

theorem flushKey_walk {key : String} (hKey : K key) (s : State) : Walk K [] s (flushKey key s) :=
  .tool hKey (edited_drainPending key _) []

section

variable (hK : ∀ key, Named key → K key)

include hK

theorem mem_flushKeys (hTools : ∀ k ∈ s.toolByKey, K k) : ∀ key ∈ s.flushKeys, K key := by
  intro key hKey
  unfold State.flushKeys at hKey
  simp only [mem_insertionSort, mem_dedup, mem_append, mem_map] at hKey
  rcases hKey with (hTool | ⟨i, -, rfl⟩) | ⟨itemID, -, rfl⟩
  · exact hTools key (AList.mem_keys.mpr hTool)
  · exact hK _ (named_output i)
  · exact hK _ (named_item itemID)

theorem toolItem_walk (e : Event) (item : Output) (s : State) : Walk K [] s (toolItem e item s) := by
  unfold toolItem
  split
  · exact .refl s
  · rename_i tool s' hEnsure
    obtain ⟨key, hKey, hEdited, -⟩ := ensureToolForEvent_edited hEnsure
    exact .tool (hK key hKey) (hEdited.trans (edited_arguments _ _)) []

def Output.outputText (out : Output) : Bytes :=
  (out.content.filter fun c => c.isOutputText).flatMap fun c => c.text

/-- The text of the first message that has one. -/
def firstText : List Output → Bytes
  | [] => []
  | out :: more =>
    if out.type = .message ∧ out.outputText ≠ [] then out.outputText else firstText more

theorem terminalOutput_walk (out : Output) (s : State) :
    Walk K (if out.type = .message && !s.hasSentText then out.outputText else []) s
      (terminalOutput out s) := by
  unfold terminalOutput
  split
  · exact .text _ s
  · split
    · exact reasoningDelta_walk _ s
    · split
      · exact toolItem_walk hK _ out s
      · exact .refl s

/-- Of the messages of the terminal response, the loop sends the first with a text, and only
where none has been sent. -/
theorem emitAll_terminalOutput_walk (outs : List Output) (s : State) :
    Walk K (if s.hasSentText then [] else firstText outs) s (emitAll terminalOutput outs s) := by
  induction outs generalizing s with
  | nil =>
    rw [firstText, ite_self]
    exact .refl s
  | cons out more ih =>
    have hOut := terminalOutput_walk hK out s
    have hBoth := hOut.trans (ih (terminalOutput out s).2)
    rw [hOut.sends.told] at hBoth
    refine (congrArg (Walk K · s _) ?_).mpr hBoth
    cases s.hasSentText with
    | true => simp
    | false =>
      rw [firstText]
      by_cases hMessage : out.type = .message <;> by_cases hText : out.outputText = [] <;>
        simp [hMessage, hText]

def replayed (response : Option Response) (s : State) : Bytes :=
  if s.hasSentText then [] else firstText (response.elim [] Response.output)

theorem terminalOutputChunks_walk (response : Option Response) (s : State) :
    Walk K (replayed response s) s (terminalOutputChunks response s) := by
  unfold terminalOutputChunks
  split
  · rw [replayed, Option.elim_none, firstText, ite_self]
    exact .refl s
  · exact emitAll_terminalOutput_walk hK _ s

theorem finalize_walk (hTools : ∀ k ∈ s.toolByKey, K k) (response : Option Response) :
    Walk K [] s (finalize response s) := by
  unfold finalize
  split
  · exact .refl s
  · dsimp only
    have hMarked : Walk K [] s ([], { s with finalized := true }) :=
      .notes rfl rfl ⟨⟨rfl, rfl⟩, rfl⟩
    have hFlushed : Walk K [] { s with finalized := true }
        (flushAllPendingTools { s with finalized := true }) :=
      emitAll_walk (fun key hKey => flushKey_walk (mem_flushKeys hK hTools key hKey)) _
    have hStarted := (Walk.of_notes hMarked hFlushed).trans (.start _)
    have hFinish := fun reason =>
      hStarted.trans (.chunk (d := {}) (ensureStart_sentStart _) rfl rfl (some reason))
    exact (hFinish _).trans (.usage (ensureStart_sentStart _))

def Event.brought (e : Event) (s : State) : Bytes :=
  match e.type with
  | .outputTextDelta => e.delta
  | .completed | .done => replayed e.response s
  | .incomplete => replayed (ensureIncompleteResponse e.response) s
  | _ => []

variable (hTools : ∀ {text : Bytes} {r : List Chunk × State}, Walk K text s r →
  ∀ k ∈ r.2.toolByKey, K k)

include hTools

omit hK in
theorem toolArgumentsDelta_walk (e : Event) : Walk K [] s (toolArgumentsDelta e s) := by
  unfold toolArgumentsDelta
  split
  · exact .refl s
  · split
    · rename_i tool hFind
      obtain ⟨key, hMem, hGot⟩ := findToolForEvent_got hFind
      exact .tool (hTools (.refl s) key hMem)
        (hGot.trans (edited_arguments (tool.arguments ++ e.delta) (tool, s))) e.delta
    · split
      · exact .notes rfl rfl ⟨⟨rfl, rfl⟩, rfl⟩
      · split <;> exact .notes rfl rfl ⟨⟨rfl, rfl⟩, rfl⟩

theorem flushPendingTool_walk (e : Event) : Walk K [] s (flushPendingTool e s) := by
  unfold flushPendingTool
  split
  · rename_i tool hFind
    obtain ⟨key, hMem, hGot⟩ := findToolForEvent_got hFind
    exact .tool (hTools (.refl s) key hMem) hGot []
  · split
    · rename_i written hFallback
      obtain ⟨key, hKey, hEdited⟩ := ensureFallbackToolForEvent_edited hFallback
      exact .tool (hK key hKey) hEdited []
    · exact .refl s

theorem terminate_walk (response : Option Response) :
    Walk K (replayed response s) s (terminate response s) := by
  have hMeta := applyResponseMetadata_walk (K := K) s response
  have hOutput := terminalOutputChunks_walk hK response (s.applyResponseMetadata response)
  rw [replayed, hMeta.sends.told.trans (Bool.or_false _)] at hOutput
  have hSent := hOutput.trans (finalize_walk hK (hTools (.of_notes hMeta hOutput)) response)
  rw [append_nil] at hSent
  exact .of_notes hMeta hSent

theorem event_walk (h : responsesStreamEventToChatChunks e s = .ok r) :
    Walk K (e.brought s) s r := by
  unfold responsesStreamEventToChatChunks at h
  unfold Event.brought
  cases hType : e.type with
  | created =>
    simp only [hType] at h ⊢
    cases h
    exact .of_notes (applyResponseMetadata_walk s e.response) (.start _)
  | reasoningSummaryDelta | reasoningTextDelta =>
    simp only [hType] at h ⊢
    cases h
    exact reasoningDelta_walk _ s
  | reasoningSummaryDone | reasoningTextDone =>
    simp only [hType] at h ⊢
    cases h
    split <;> exact .notes rfl rfl ⟨⟨rfl, rfl⟩, rfl⟩
  | outputTextDelta =>
    simp only [hType] at h ⊢
    cases h
    exact .text _ s
  | outputItemAdded | outputItemDone =>
    simp only [hType] at h ⊢
    split at h
    · cases h
      split
      · exact toolItem_walk hK e _ s
      · exact .refl s
    · cases h
      exact .refl s
  | functionArgsDelta | customToolInputDelta =>
    simp only [hType] at h ⊢
    cases h
    exact toolArgumentsDelta_walk hTools e
  | functionArgsDone | customToolInputDone =>
    simp only [hType] at h ⊢
    cases h
    exact flushPendingTool_walk hK hTools e
  | completed | done | incomplete =>
    simp only [hType] at h ⊢
    cases h
    exact terminate_walk hK hTools _
  | failed | error =>
    simp only [hType] at h
    cases h
  | other text =>
    simp only [hType] at h ⊢
    cases h
    exact .refl s

end

theorem event_sends (h : responsesStreamEventToChatChunks e s = .ok r) :
    Sends (e.brought s) s r :=
  (event_walk (K := fun _ => True) (fun _ _ => trivial) (fun _ _ _ => trivial) h).sends

end Qapi.Stream
