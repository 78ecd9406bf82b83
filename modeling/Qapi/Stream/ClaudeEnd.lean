import Qapi.Stream.Claude

/-!
# The end of a Claude stream

A Claude stream has to end with a `message_delta` that has a stop reason and a
`message_stop`. A chunk that finishes the answer without a usage of its own is skipped,
also where the usage is known by then, so that nothing ends the stream if no chunk with a
usage follows; and the first chunk may end it without a `message_delta`.
-/

namespace Qapi.Stream

open List Option

def ClaudeEvent.isEnd : ClaudeEvent → Bool
  | .messageDelta _ _ | .messageStop => true
  | _ => false

/-- The message is ended once, with a reason, and nothing follows. -/
def Terminates (events : List ClaudeEvent) : Prop :=
  (∃ usage reason, reason ≠ "" ∧
    events.filter ClaudeEvent.isEnd = [.messageDelta usage reason, .messageStop]) ∧
  events.getLast? = some .messageStop

/-! ## What a delta shows -/

/-- The content of a block that is not a tool call. -/
inductive Content
  | thinking (shown : Bytes)
  | text (shown : Bytes)

def Content.type : Content → LastMessageType
  | .thinking _ => .thinking
  | .text _ => .text

def Content.block : Content → Block
  | .thinking _ => .thinking
  | .text _ => .text

def Content.delta : Content → BlockDelta
  | .thinking shown => .thinking shown
  | .text shown => .text shown

theorem Content.type_eq (x : Content) : x.type = .text ∨ x.type = .thinking := by
  cases x with
  | thinking => exact Or.inr rfl
  | text => exact Or.inl rfl

/-- The reasoning, or else the text. -/
def Delta.shown (delta : Delta) : Option Content :=
  if delta.getReasoningContent ≠ [] then some (.thinking delta.getReasoningContent)
  else if delta.getContentString ≠ [] then some (.text delta.getContentString)
  else none

theorem Delta.shown_isSome (delta : Delta) : delta.shown.isSome = true ↔
    delta.getReasoningContent ≠ [] ∨ delta.getContentString ≠ [] := by
  unfold Delta.shown
  split
  · simp [*]
  · split <;> simp [*]

theorem firstContent_eq (delta : Delta) (info : RelayInfo) : firstContent delta info =
    delta.shown.elim ([], info) fun x => firstBlock x.type x.block x.delta info := by
  unfold firstContent Delta.shown
  split
  · rfl
  · split <;> rfl

theorem appendDelta_eq (delta : Delta) (info : RelayInfo) : appendDelta delta info =
    if delta.toolCalls ≠ [] then appendToolCalls delta.toolCalls info
    else delta.shown.elim ([], info) fun x => appendBlock x.type x.block x.delta info := by
  unfold appendDelta Delta.shown
  split
  · rfl
  · split
    · rfl
    · split <;> rfl

/-- The open blocks are stopped and a new one is begun. -/
def openBlock (x : Content) (info : RelayInfo) : List ClaudeEvent × RelayInfo :=
  ((stopOpenBlocksAndAdvance info).1 ++
      [.blockStart (stopOpenBlocksAndAdvance info).2.index x.block,
        .blockDelta (stopOpenBlocksAndAdvance info).2.index x.delta],
    { (stopOpenBlocksAndAdvance info).2 with lastMessagesType := x.type })

theorem appendBlock_eq (x : Content) (info : RelayInfo) :
    appendBlock x.type x.block x.delta info =
      if info.lastMessagesType = x.type then ([.blockDelta info.index x.delta], info)
      else openBlock x info := rfl

/-! ## Without an end -/

/-- The stream goes on: no event ends the message, and what decides about its end is unchanged. -/
structure Continues (info : RelayInfo) (result : List ClaudeEvent × RelayInfo) : Prop where
  quiet : result.1.filter ClaudeEvent.isEnd = []
  count : result.2.sendResponseCount = info.sendResponseCount
  usage : result.2.usage = info.usage
  done : result.2.done = info.done

theorem Continues.refl (info : RelayInfo) : Continues info ([], info) := ⟨rfl, rfl, rfl, rfl⟩

variable {info : RelayInfo} {r₁ r₂ : List ClaudeEvent × RelayInfo}

theorem Continues.trans (h₁ : Continues info r₁) (h₂ : Continues r₁.2 r₂) :
    Continues info (r₁.1 ++ r₂.1, r₂.2) where
  quiet := by rw [filter_append, h₁.quiet, h₂.quiet, append_nil]
  count := h₂.count.trans h₁.count
  usage := h₂.usage.trans h₁.usage
  done := h₂.done.trans h₁.done

variable {r : List ClaudeEvent × RelayInfo}

theorem Continues.edit (h : Continues info r) {events : List ClaudeEvent} {info' : RelayInfo}
    (hQuiet : events.filter ClaudeEvent.isEnd = [])
    (hCount : info'.sendResponseCount = r.2.sendResponseCount) (hUsage : info'.usage = r.2.usage)
    (hDone : info'.done = r.2.done) : Continues info (r.1 ++ events, info') := by
  have hMore : Continues r.2 (events, info') := ⟨hQuiet, hCount, hUsage, hDone⟩
  exact h.trans hMore

theorem stopOpenBlocks_quiet (info : RelayInfo) :
    (stopOpenBlocks info).filter ClaudeEvent.isEnd = [] := by
  unfold stopOpenBlocks
  split
  · rfl
  · rfl
  · rfl
  · rw [filter_eq_nil_iff]
    intro e he
    obtain ⟨offset, -, rfl⟩ := mem_map.mp he
    exact Bool.false_ne_true

theorem stopOpenBlocksAndAdvance_continues (info : RelayInfo) :
    Continues info (stopOpenBlocksAndAdvance info) := by
  have hStops := stopOpenBlocks_quiet info
  unfold stopOpenBlocksAndAdvance
  split
  · exact .refl info
  all_goals exact ⟨hStops, rfl, rfl, rfl⟩

theorem argumentsDelta_quiet (index : Nat) (arguments : Bytes) :
    (argumentsDelta index arguments).filter ClaudeEvent.isEnd = [] := by
  unfold argumentsDelta
  split <;> rfl

theorem firstToolCall_continues (calls : List ToolCall) (info : RelayInfo) :
    Continues info (firstToolCall calls info) := by
  unfold firstToolCall
  split
  · exact .refl info
  · exact ⟨argumentsDelta_quiet _ _, rfl, rfl, rfl⟩

theorem firstBlock_continues (type : LastMessageType) (block : Block) (delta : BlockDelta)
    (info : RelayInfo) : Continues info (firstBlock type block delta info) := by
  unfold firstBlock
  dsimp only
  split
  · exact (stopOpenBlocksAndAdvance_continues info).edit rfl rfl rfl rfl
  · exact (Continues.refl info).edit rfl rfl rfl rfl

theorem firstBlock_of_ne {x : Content} (h : info.lastMessagesType ≠ x.type) :
    firstBlock x.type x.block x.delta info = openBlock x info := by
  unfold firstBlock
  rw [if_pos h]
  rfl

/-- A first chunk is not in a block of text or of thinking before its content. -/
theorem firstToolCall_last (calls : List ToolCall) (hLast : info.lastMessagesType = .none)
    (x : Content) : (firstToolCall calls info).2.lastMessagesType ≠ x.type := by
  unfold firstToolCall
  split
  · rw [hLast]
    cases x <;> exact nofun
  · cases x <;> exact nofun

theorem firstContent_continues (delta : Delta) (info : RelayInfo) :
    Continues info (firstContent delta info) := by
  unfold firstContent
  split
  · exact firstBlock_continues _ _ _ info
  · split
    · exact firstBlock_continues _ _ _ info
    · exact .refl info

theorem toolCallLoop_quiet (base i maxOffset : Nat) (calls : List ToolCall) :
    (toolCallLoop base i maxOffset calls).1.filter ClaudeEvent.isEnd = [] := by
  induction calls generalizing i maxOffset with
  | nil => rfl
  | cons call rest ih =>
    unfold toolCallLoop toolCallEvents
    rw [filter_append, filter_append, ih, argumentsDelta_quiet]
    split <;> rfl

theorem openToolCalls_continues (info : RelayInfo) : Continues info (openToolCalls info) := by
  unfold openToolCalls
  split
  · exact .refl info
  · obtain ⟨hQuiet, hCount, hUsage, hDone⟩ := stopOpenBlocksAndAdvance_continues info
    exact ⟨hQuiet, hCount, hUsage, hDone⟩

theorem appendToolCalls_continues (calls : List ToolCall) (info : RelayInfo) :
    Continues info (appendToolCalls calls info) := by
  exact (openToolCalls_continues info).edit (toolCallLoop_quiet _ _ _ _) rfl rfl rfl

theorem appendBlock_continues (type : LastMessageType) (block : Block) (delta : BlockDelta)
    (info : RelayInfo) : Continues info (appendBlock type block delta info) := by
  unfold appendBlock
  split
  · exact ⟨rfl, rfl, rfl, rfl⟩
  · exact (stopOpenBlocksAndAdvance_continues info).edit rfl rfl rfl rfl

theorem appendDelta_continues (delta : Delta) (info : RelayInfo) :
    Continues info (appendDelta delta info) := by
  unfold appendDelta
  split
  · exact appendToolCalls_continues _ info
  · split
    · exact appendBlock_continues _ _ _ info
    · split
      · exact appendBlock_continues _ _ _ info
      · exact .refl info

/-! ## The end of a chunk -/

/-- The message is ended, with a reason if `said`. -/
structure Ends (said : Bool) (result : List ClaudeEvent × RelayInfo) : Prop where
  events : ∃ usage reason, reason ≠ "" ∧ result.1.filter ClaudeEvent.isEnd =
    (if said then [.messageDelta usage reason] else []) ++ [.messageStop]
  last : result.1.getLast? = some .messageStop
  done : result.2.done = true

theorem stopReasonOpenAI2Claude_ne_empty {reason : String} (h : reason ≠ "") :
    stopReasonOpenAI2Claude reason ≠ "" := by
  unfold stopReasonOpenAI2Claude
  split <;> first | exact h | decide

theorem Continues.endWith (h : Continues info r) (c : Chunk) {stopReason : String}
    (hReason : stopReason ≠ "") :
    Ends (c.usage.or info.usage).isSome (r.1 ++ (close c stopReason r.2).1,
      (close c stopReason r.2).2) := by
  refine ⟨?_, ?_, rfl⟩
  · unfold close
    rw [filter_append, h.quiet, filter_append, stopOpenBlocks_quiet, h.usage]
    cases c.usage.or info.usage with
    | none => exact ⟨⟨0, 0, 0, 0, none⟩, stopReason, hReason, rfl⟩
    | some usage => exact ⟨buildClaudeUsageFromOpenAIUsage usage, stopReason, hReason, rfl⟩
  · unfold close messageEnd
    simp [← append_assoc]

theorem Choice.finish_ne_empty {choice : Choice} {reason : String}
    (h : choice.finish = some reason) : reason ≠ "" := by
  have hKept := (filter_eq_some_iff.mp h).2
  exact of_decide_eq_true hKept

theorem firstEvents_continues (c : Chunk) (delta : Delta) (info : RelayInfo) :
    Continues info (firstEvents c delta info) := by
  have hStart : Continues info ([info.messageStart c], info) := ⟨rfl, rfl, rfl, rfl⟩
  exact (hStart.trans (firstToolCall_continues delta.toolCalls info)).trans
    (firstContent_continues delta _)

/-- The first chunk ends the message if it finishes the answer, without a reason if there is no
usage. -/
theorem firstChunk_spec (c : Chunk) (info : RelayInfo) :
    (c.finish = none ∧ Continues info (firstChunk c info)) ∨
      (c.finish ≠ none ∧ Ends (c.usage.or info.usage).isSome (firstChunk c info)) := by
  unfold firstChunk Chunk.finish
  cases hChoices : c.choices with
  | nil => exact Or.inl ⟨rfl, rfl, rfl, rfl, rfl⟩
  | cons choice more =>
    have hEvents := firstEvents_continues c choice.delta info
    dsimp only
    rw [head?_cons, bind_some]
    cases hFinish : choice.finish with
    | none => exact Or.inl ⟨rfl, hEvents⟩
    | some reason =>
      have hMarked : Continues info ((firstEvents c choice.delta info).1,
          { (firstEvents c choice.delta info).2 with finishReason := reason }) :=
        ⟨hEvents.quiet, hEvents.count, hEvents.usage, hEvents.done⟩
      have hReason := stopReasonOpenAI2Claude_ne_empty (Choice.finish_ne_empty hFinish)
      exact Or.inr ⟨some_ne_none reason, hMarked.endWith c hReason⟩

/-- Whether a later chunk ends the message: without choices, if the usage is known by then; with
choices, if it finishes the answer and has a usage of its own. -/
def Chunk.closes (known : Bool) (c : Chunk) : Bool :=
  if c.choices.isEmpty then known else c.finish.isSome && c.usage.isSome

theorem usageChunk_spec (c : Chunk) (info : RelayInfo) :
    ((c.usage.or info.usage).isSome = false ∧ Continues info (usageChunk c info)) ∨
      ((c.usage.or info.usage).isSome = true ∧ Ends true (usageChunk c info)) := by
  unfold usageChunk
  cases hUsage : c.usage.or info.usage with
  | none => exact Or.inl ⟨rfl, .refl info⟩
  | some usage =>
    have hReason : (if stopReasonOpenAI2Claude info.finishReason = "" then "end_turn"
        else stopReasonOpenAI2Claude info.finishReason) ≠ "" := by
      split
      · decide
      · assumption
    have hEnds := (Continues.refl info).endWith c hReason
    rw [hUsage] at hEnds
    exact Or.inr ⟨rfl, hEnds⟩

theorem laterChunk_spec (c : Chunk) {choice : Choice} {more : List Choice}
    (hChoices : c.choices = choice :: more) (info : RelayInfo) :
    ((c.finish.isSome && c.usage.isSome) = false ∧ Continues info (laterChunk c choice info)) ∨
      ((c.finish.isSome && c.usage.isSome) = true ∧ Ends true (laterChunk c choice info)) := by
  have hSame : c.finish = choice.finish := by
    unfold Chunk.finish
    rw [hChoices]
    rfl
  rw [hSame]
  unfold laterChunk
  cases hFinish : choice.finish with
  | none => exact Or.inl ⟨rfl, appendDelta_continues choice.delta info⟩
  | some reason =>
    cases hUsage : c.usage with
    | none => exact Or.inl ⟨rfl, rfl, rfl, rfl, rfl⟩
    | some usage =>
      have hMarked : Continues info ([], { info with finishReason := reason }) :=
        ⟨rfl, rfl, rfl, rfl⟩
      have hEvents := hMarked.trans (appendDelta_continues choice.delta _)
      have hReason := stopReasonOpenAI2Claude_ne_empty (Choice.finish_ne_empty hFinish)
      have hEnds := hEvents.endWith c hReason
      rw [hUsage] at hEnds
      exact Or.inr ⟨rfl, hEnds⟩

theorem laterResponse_spec (c : Chunk) (hDone : info.done = false)
    (hCount : info.sendResponseCount ≠ 1) :
    (c.closes (c.usage.or info.usage).isSome = false ∧
        Continues info (streamResponseOpenAI2Claude c info)) ∨
      (c.closes (c.usage.or info.usage).isSome = true ∧
        Ends true (streamResponseOpenAI2Claude c info)) := by
  unfold streamResponseOpenAI2Claude Chunk.closes
  rw [hDone, if_neg Bool.false_ne_true, if_neg hCount]
  cases hChoices : c.choices with
  | nil => exact usageChunk_spec c info
  | cons choice more => exact laterChunk_spec c hChoices info

/-! ## The chunks of a stream -/

theorem handleStream_done (chunks : List Chunk) (hDone : info.done = true) :
    (handleStream chunks info).1 = [] ∧ (handleStream chunks info).2.done = true := by
  induction chunks generalizing info with
  | nil => exact ⟨rfl, hDone⟩
  | cons c rest ih =>
    have hNext : (info.received c).done = true := hDone
    have hStep : handleStreamFormat c info = ([], info.received c) := by
      exact if_pos hNext
    unfold handleStream
    rw [hStep]
    exact ih hNext

theorem handleStreamFormat_of_later {c : Chunk} {choice : Choice} {more : List Choice}
    (hChoices : c.choices = choice :: more) (hDone : info.done = false)
    (hCount : info.sendResponseCount ≠ 0) :
    handleStreamFormat c info = laterChunk c choice (info.received c) := by
  have hNextDone : (info.received c).done = false := hDone
  have hNotFirst : (info.received c).sendResponseCount ≠ 1 := by
    have hNext : (info.received c).sendResponseCount = info.sendResponseCount + 1 := rfl
    omega
  unfold handleStreamFormat streamResponseOpenAI2Claude
  rw [hNextDone, if_neg Bool.false_ne_true, if_neg hNotFirst, hChoices]

theorem handleStream_cons (c : Chunk) (rest : List Chunk) (info : RelayInfo) :
    (handleStream (c :: rest) info).1 =
      (handleStreamFormat c info).1 ++ (handleStream rest (handleStreamFormat c info).2).1 := rfl

section

variable {c : Chunk} {choice : Choice} {more : List Choice} (hChoices : c.choices = choice :: more)
include hChoices

/-- What becomes of the first chunk: it goes on, or it ends the message. -/
theorem handleStream_first_cases (estimate : Int) (rest : List Chunk) :
    (choice.finish = none ∧
        (firstEvents c choice.delta ((RelayInfo.new estimate).received c)).2.done = false ∧
        (firstEvents c choice.delta ((RelayInfo.new estimate).received c)).2.sendResponseCount ≠ 0 ∧
        (handleStream (c :: rest) (.new estimate)).1 =
          (firstEvents c choice.delta ((RelayInfo.new estimate).received c)).1 ++
            (handleStream rest
              (firstEvents c choice.delta ((RelayInfo.new estimate).received c)).2).1) ∨
      ∃ reason, choice.finish = some reason ∧
        (handleStream (c :: rest) (.new estimate)).1 =
          (firstEvents c choice.delta ((RelayInfo.new estimate).received c)).1 ++
            (close c (stopReasonOpenAI2Claude reason)
              { (firstEvents c choice.delta ((RelayInfo.new estimate).received c)).2 with
                finishReason := reason }).1 := by
  have hFirst : handleStreamFormat c (.new estimate) =
      firstChunk c ((RelayInfo.new estimate).received c) := rfl
  have hContinues := firstEvents_continues c choice.delta ((RelayInfo.new estimate).received c)
  rw [handleStream_cons, hFirst]
  unfold firstChunk
  rw [hChoices]
  dsimp only
  cases hFinish : choice.finish with
  | none =>
    refine Or.inl ⟨rfl, hContinues.done, ?_, rfl⟩
    rw [hContinues.count]
    exact Nat.one_ne_zero
  | some reason =>
    refine Or.inr ⟨reason, rfl, ?_⟩
    rw [(handleStream_done rest rfl).1, append_nil]
    rfl

/-- What becomes of a later chunk: it goes on, it is put off for want of a usage, or it ends the
message. -/
theorem handleStream_later_cases {info : RelayInfo} (hDone : info.done = false)
    (hCount : info.sendResponseCount ≠ 0) (rest : List Chunk) :
    (choice.finish = none ∧
        (appendDelta choice.delta (info.received c)).2.done = false ∧
        (appendDelta choice.delta (info.received c)).2.sendResponseCount ≠ 0 ∧
        (handleStream (c :: rest) info).1 = (appendDelta choice.delta (info.received c)).1 ++
          (handleStream rest (appendDelta choice.delta (info.received c)).2).1) ∨
      (∃ reason, choice.finish = some reason ∧ c.usage = none ∧
        (handleStream (c :: rest) info).1 =
          (handleStream rest { info.received c with finishReason := reason }).1) ∨
      ∃ reason usage, choice.finish = some reason ∧ c.usage = some usage ∧
        (handleStream (c :: rest) info).1 =
          (appendDelta choice.delta { info.received c with finishReason := reason }).1 ++
            (close c (stopReasonOpenAI2Claude reason)
              (appendDelta choice.delta { info.received c with finishReason := reason }).2).1 := by
  rw [handleStream_cons, handleStreamFormat_of_later hChoices hDone hCount]
  unfold laterChunk
  cases hFinish : choice.finish with
  | none =>
    have hContinues := appendDelta_continues choice.delta (info.received c)
    refine Or.inl ⟨rfl, hContinues.done.trans hDone, ?_, rfl⟩
    rw [hContinues.count]
    exact Nat.succ_ne_zero _
  | some reason =>
    cases hUsage : c.usage with
    | none => exact Or.inr (Or.inl ⟨reason, rfl, rfl, rfl⟩)
    | some usage =>
      refine Or.inr (Or.inr ⟨reason, usage, rfl, rfl, ?_⟩)
      rw [(handleStream_done rest rfl).1, append_nil]
      rfl

end

variable {said : Bool}

theorem Ends.handleStream (h : Ends said r) (chunks : List Chunk) :
    Ends said (r.1 ++ (Stream.handleStream chunks r.2).1, (Stream.handleStream chunks r.2).2) := by
  obtain ⟨hNone, hDone⟩ := handleStream_done chunks h.done
  rw [hNone, append_nil]
  exact ⟨h.events, h.last, hDone⟩

/-- Whether a chunk ends the message, among later ones of which none is the last; `known` is whether
a usage has come before them. -/
def closesAmong (known : Bool) : List Chunk → Bool
  | [] => false
  | c :: rest =>
    c.closes (c.usage.isSome || known) || closesAmong (c.usage.isSome || known) rest

structure Proceeds (n : Nat) (result : List ClaudeEvent × RelayInfo) : Prop where
  quiet : result.1.filter ClaudeEvent.isEnd = []
  count : result.2.sendResponseCount = n
  done : result.2.done = false

/-- A chunk that is handled goes on or ends the message; `known` is whether a usage has come up to
it. -/
theorem handleStreamFormat_later (c : Chunk) (hDone : info.done = false)
    (hCount : info.sendResponseCount ≠ 0) :
    (c.closes (c.usage.isSome || info.usage.isSome) = false ∧
        Proceeds (info.sendResponseCount + 1) (handleStreamFormat c info) ∧
        (handleStreamFormat c info).2.usage = c.usage.or info.usage) ∨
      (c.closes (c.usage.isSome || info.usage.isSome) = true ∧
        Ends true (handleStreamFormat c info)) := by
  have hKnown : (c.usage.or (c.usage.or info.usage)).isSome =
      (c.usage.isSome || info.usage.isSome) := by
    cases c.usage with
    | none => rfl
    | some usage => rfl
  have hNextDone : (info.received c).done = false := hDone
  have hNotFirst : (info.received c).sendResponseCount ≠ 1 := by
    have hNext : (info.received c).sendResponseCount = info.sendResponseCount + 1 := rfl
    omega
  rw [← hKnown]
  rcases laterResponse_spec c hNextDone hNotFirst with ⟨hOpen, hContinues⟩ | ⟨hCloses, hEnds⟩
  · exact Or.inl ⟨hOpen, ⟨hContinues.quiet, hContinues.count, hContinues.done.trans hDone⟩,
      hContinues.usage⟩
  · exact Or.inr ⟨hCloses, hEnds⟩

theorem Proceeds.then_ends {n : Nat} (h₁ : Proceeds n r₁) (h₂ : Ends said r₂) :
    Ends said (r₁.1 ++ r₂.1, r₂.2) := by
  refine ⟨?_, ?_, h₂.done⟩
  · rw [filter_append, h₁.quiet]
    exact h₂.events
  · rw [getLast?_append, h₂.last]
    rfl

theorem Proceeds.then_proceeds {m n : Nat} (h₁ : Proceeds m r₁) (h₂ : Proceeds n r₂) :
    Proceeds n (r₁.1 ++ r₂.1, r₂.2) := by
  refine ⟨?_, h₂.count, h₂.done⟩
  rw [filter_append, h₁.quiet, h₂.quiet]
  rfl

theorem handleStream_later (chunks : List Chunk) (hDone : info.done = false)
    (hCount : info.sendResponseCount ≠ 0) :
    (closesAmong info.usage.isSome chunks = false ∧
        Proceeds (info.sendResponseCount + chunks.length) (handleStream chunks info)) ∨
      (closesAmong info.usage.isSome chunks = true ∧ Ends true (handleStream chunks info)) := by
  induction chunks generalizing info with
  | nil => exact Or.inl ⟨rfl, rfl, rfl, hDone⟩
  | cons c rest ih =>
    unfold closesAmong
    rcases handleStreamFormat_later c hDone hCount with ⟨hOpen, hProceeds, hUsage⟩ | ⟨hCloses,
      hEnds⟩
    · have hNext : (handleStreamFormat c info).2.sendResponseCount ≠ 0 := by
        rw [hProceeds.count]
        exact Nat.succ_ne_zero _
      have hRest := ih hProceeds.done hNext
      rw [hUsage, isSome_or, hProceeds.count] at hRest
      rw [hOpen, Bool.false_or, length_cons, Nat.add_comm rest.length 1, ← Nat.add_assoc]
      rcases hRest with ⟨hNo, hMore⟩ | ⟨hYes, hEnds⟩
      · exact Or.inl ⟨hNo, hProceeds.then_proceeds hMore⟩
      · exact Or.inr ⟨hYes, hProceeds.then_ends hEnds⟩
    · rw [hCloses, Bool.true_or]
      exact Or.inr ⟨rfl, hEnds.handleStream rest⟩

/-! ## The handler of a chat stream -/

def finished (chunks : List Chunk) : Bool :=
  ((chunks.filter fun c => !c.choices.isEmpty).getLast?.bind Chunk.finish).isSome

def properlyEnded : List Chunk → Bool
  | [] => false
  | [c] => c.usage.isSome
  | [c, _] => c.finish.isNone || c.usage.isSome
  | c :: rest =>
    if c.finish.isSome then c.usage.isSome
    else closesAmong c.usage.isSome rest.dropLast || rest.getLast?.any (Chunk.closes true)

theorem finished_concat (chunks : List Chunk) (c : Chunk) :
    finished (chunks ++ [c]) = if c.choices.isEmpty then finished chunks else c.finish.isSome := by
  unfold finished
  by_cases h : c.choices.isEmpty
  · simp [h]
  · simp [h]

/-- A stream that its last chunk has finished. -/
theorem last_of_finished (init : List Chunk) {last : Chunk} (hInit : finished init = false)
    (h : finished (init ++ [last]) = true) :
    last.choices.isEmpty = false ∧ last.finish.isSome = true := by
  rw [finished_concat, hInit] at h
  cases hEmpty : last.choices.isEmpty with
  | true =>
    rw [hEmpty] at h
    cases h
  | false =>
    rw [hEmpty] at h
    exact ⟨rfl, h⟩

theorem Ends.terminates_iff (h : Ends said r) : Terminates r.1 ↔ said = true := by
  obtain ⟨usage, reason, hReason, hFilter⟩ := h.events
  constructor
  · rintro ⟨⟨usage', reason', -, hFilter'⟩, -⟩
    by_contra hSaid
    rw [hFilter, Bool.eq_false_iff.mpr hSaid] at hFilter'
    cases hFilter'
  · rintro rfl
    exact ⟨⟨usage, reason, hReason, hFilter⟩, h.last⟩

theorem not_terminates_of_quiet {events : List ClaudeEvent}
    (h : events.filter ClaudeEvent.isEnd = []) : ¬ Terminates events := by
  rintro ⟨⟨usage, reason, -, hFilter⟩, -⟩
  rw [h] at hFilter
  cases hFilter

theorem handleStreamFormat_first (c : Chunk) (estimate : Int) :
    (c.finish = none ∧ Proceeds 1 (handleStreamFormat c (.new estimate)) ∧
        (handleStreamFormat c (.new estimate)).2.usage = c.usage) ∨
      (c.finish ≠ none ∧ Ends c.usage.isSome (handleStreamFormat c (.new estimate))) := by
  have hUsage : c.usage.or ((RelayInfo.new estimate).received c).usage = c.usage := by
    cases hUsage : c.usage with
    | none => simp [RelayInfo.received, RelayInfo.new, hUsage]
    | some usage => rfl
  have hFirst : handleStreamFormat c (.new estimate) =
    firstChunk c ((RelayInfo.new estimate).received c) := rfl
  rw [hFirst]
  rcases firstChunk_spec c ((RelayInfo.new estimate).received c) with ⟨hNone, hContinues⟩ | ⟨hSome,
    hEnds⟩
  · refine Or.inl ⟨hNone, ⟨hContinues.quiet, hContinues.count, hContinues.done⟩, ?_⟩
    rw [hContinues.usage]
    exact or_none
  · rw [hUsage] at hEnds
    exact Or.inr ⟨hSome, hEnds⟩

theorem handleFinalResponse_first (c : Chunk) (usage : Usage) (hDone : info.done = false)
    (hCount : info.sendResponseCount = 1) (hFinish : c.finish.isSome = true) :
    Ends true (handleFinalResponse c usage info) := by
  have hFirst : handleFinalResponse c usage info =
      ((firstChunk c { info with usage := some usage }).1,
        { (firstChunk c { info with usage := some usage }).2 with done := true }) := by
    unfold handleFinalResponse streamResponseOpenAI2Claude
    simp [hDone, hCount]
  rw [hFirst]
  rcases firstChunk_spec c { info with usage := some usage } with ⟨hNone, -⟩ | ⟨-, hEnds⟩
  · rw [hNone] at hFinish
    cases hFinish
  · have hKnown : (c.usage.or (some usage)).isSome = true := by
      cases c.usage <;> rfl
    rw [hKnown] at hEnds
    exact ⟨hEnds.events, hEnds.last, rfl⟩

theorem handleFinalResponse_later (c : Chunk) (usage : Usage) (hDone : info.done = false)
    (hCount : info.sendResponseCount ≠ 1) :
    (c.closes true = false ∧ (handleFinalResponse c usage info).1.filter ClaudeEvent.isEnd = []) ∨
      (c.closes true = true ∧ Ends true (handleFinalResponse c usage info)) := by
  have hNextDone : ({ info with usage := some usage } : RelayInfo).done = false := hDone
  have hNextCount : ({ info with usage := some usage } : RelayInfo).sendResponseCount ≠ 1 := hCount
  have hKnown : (c.usage.or (some usage)).isSome = true := by
    cases c.usage <;> rfl
  have hSpec := laterResponse_spec c hNextDone hNextCount
  rw [hKnown] at hSpec
  rcases hSpec with ⟨hOpen, hContinues⟩ | ⟨hCloses, hEnds⟩
  · exact Or.inl ⟨hOpen, hContinues.quiet⟩
  · exact Or.inr ⟨hCloses, hEnds.events, hEnds.last, rfl⟩

theorem handleFinalResponse_done (c : Chunk) (usage : Usage) (hDone : info.done = true) :
    (handleFinalResponse c usage info).1 = [] := by
  unfold handleFinalResponse streamResponseOpenAI2Claude
  simp [hDone]

theorem Ends.handleFinalResponse (h : Ends said r) (c : Chunk) (usage : Usage) :
    Terminates (r.1 ++ (Stream.handleFinalResponse c usage r.2).1) ↔ said = true := by
  rw [handleFinalResponse_done c usage h.done, append_nil]
  exact h.terminates_iff

theorem handleStream_singleton (c : Chunk) (info : RelayInfo) :
    handleStream [c] info = handleStreamFormat c info := by
  simp [handleStream]

theorem oaiStreamHandler_concat (chunks : List Chunk) (last : Chunk) (usage : Usage)
    (info : RelayInfo) :
    oaiStreamHandler (chunks ++ [last]) usage info = (handleStream chunks info).1 ++
      (handleFinalResponse last usage (handleStream chunks info).2).1 := by
  unfold oaiStreamHandler
  rw [getLast?_concat, dropLast_concat]

theorem properlyEnded_long (first second last : Chunk) (more : List Chunk) :
    properlyEnded (first :: second :: more ++ [last]) =
      if first.finish.isSome then first.usage.isSome
      else closesAmong first.usage.isSome (second :: more) || last.closes true := by
  cases more with
  | nil => rfl
  | cons third more =>
    have hDrop : (second :: third :: more ++ [last]).dropLast = second :: third :: more :=
      dropLast_concat
    have hLast : (second :: third :: more ++ [last]).getLast? = some last := getLast?_concat
    show (if _ then _ else closesAmong first.usage.isSome
      (second :: third :: more ++ [last]).dropLast ||
      (second :: third :: more ++ [last]).getLast?.any (Chunk.closes true)) = _
    rw [hDrop, hLast]
    rfl

theorem oaiStreamHandler_one {last : Chunk} (hFinished : finished [last] = true) (usage : Usage)
    (estimate : Int) :
    Terminates (handleFinalResponse last usage (.new estimate)).1 ↔ last.usage.isSome = true := by
  have hLast := last_of_finished [] rfl hFinished
  have hCloses : last.closes true = last.usage.isSome := by
    simp [Chunk.closes, hLast.1, hLast.2]
  have hDone : (RelayInfo.new estimate).done = false := rfl
  have hCount : (RelayInfo.new estimate).sendResponseCount ≠ 1 := Nat.zero_ne_one
  rw [← hCloses]
  rcases handleFinalResponse_later last usage hDone hCount with ⟨hOpen, hQuiet⟩ | ⟨hClosed, hEnds⟩
  · exact iff_of_false (not_terminates_of_quiet hQuiet) (by rw [hOpen]; exact Bool.false_ne_true)
  · exact iff_of_true (hEnds.terminates_iff.mpr rfl) hClosed

/-- The second of two chunks is taken for the first once more. -/
theorem oaiStreamHandler_two {first last : Chunk} (hFinished : finished [first, last] = true)
    (usage : Usage) (estimate : Int) : Terminates ((handleStreamFormat first (.new estimate)).1 ++
        (handleFinalResponse last usage (handleStreamFormat first (.new estimate)).2).1) ↔
      (first.finish.isNone || first.usage.isSome) = true := by
  rcases handleStreamFormat_first first estimate with ⟨hNone, hProceeds, -⟩ | ⟨hSome, hEnds⟩
  · have hNotBefore : finished [first] = false := by
      by_contra hBefore
      have hFirst := last_of_finished [] rfl (Bool.not_eq_false _ ▸ hBefore)
      rw [hNone] at hFirst
      cases hFirst.2
    have hLast := (last_of_finished [first] hNotBefore hFinished).2
    have hEnds := handleFinalResponse_first last usage hProceeds.done hProceeds.count hLast
    rw [hNone]
    exact iff_of_true ((hProceeds.then_ends hEnds).terminates_iff.mpr rfl) rfl
  · rw [isNone_eq_false_iff.mpr (isSome_iff_ne_none.mpr hSome), Bool.false_or]
    exact hEnds.handleFinalResponse last usage

theorem oaiStreamHandler_many (first second last : Chunk) (more : List Chunk) (usage : Usage)
    (estimate : Int) : Terminates ((handleStream (first :: second :: more) (.new estimate)).1 ++
        (handleFinalResponse last usage (handleStream (first :: second :: more)
          (.new estimate)).2).1) ↔
      properlyEnded (first :: second :: more ++ [last]) = true := by
  rw [properlyEnded_long]
  rcases handleStreamFormat_first first estimate with ⟨hNone, hProceeds, hUsage⟩ | ⟨hSome, hEnds⟩
  · have hCount : (handleStreamFormat first (.new estimate)).2.sendResponseCount ≠ 0 := by
      rw [hProceeds.count]
      exact Nat.one_ne_zero
    have hRest := handleStream_later (second :: more) hProceeds.done hCount
    rw [hUsage, hProceeds.count] at hRest
    have hIf : (if first.finish.isSome then first.usage.isSome
        else closesAmong first.usage.isSome (second :: more) || last.closes true) =
          (closesAmong first.usage.isSome (second :: more) || last.closes true) := by
      rw [hNone]
      rfl
    rw [hIf]
    rcases hRest with ⟨hNo, hMore⟩ | ⟨hYes, hEnds⟩
    · have hAll := hProceeds.then_proceeds hMore
      rw [hNo, Bool.false_or]
      have hNotFirst : (handleStream (second :: more)
          (handleStreamFormat first (.new estimate)).2).2.sendResponseCount ≠ 1 := by
        rw [hMore.count, length_cons]
        omega
      rcases handleFinalResponse_later last usage hMore.done
        hNotFirst with ⟨hOpen, hQuiet⟩ | ⟨hClosed, hEnds⟩
      · have hBefore : (handleStream (first :: second :: more) (.new estimate)).1.filter
            ClaudeEvent.isEnd = [] :=
          hAll.quiet
        rw [hOpen]
        refine iff_of_false (not_terminates_of_quiet ?_) Bool.false_ne_true
        rw [filter_append, hBefore]
        exact hQuiet
      · rw [hClosed]
        exact iff_of_true ((hAll.then_ends hEnds).terminates_iff.mpr rfl) rfl
    · rw [hYes, Bool.true_or]
      exact (hProceeds.then_ends hEnds).handleFinalResponse last usage
  · rw [if_pos (isSome_iff_ne_none.mpr hSome)]
    exact (hEnds.handleStream (second :: more)).handleFinalResponse last usage

/-- The handler of a chat stream ends the message properly if and only if the chunks allow it. -/
theorem oaiStreamHandler_terminates_iff {chunks : List Chunk} (hFinished : finished chunks = true)
    (usage : Usage) (estimate : Int) :
    Terminates (oaiStreamHandler chunks usage (.new estimate)) ↔ properlyEnded chunks = true := by
  rcases eq_nil_or_concat chunks with rfl | ⟨init, last, rfl⟩
  · cases hFinished
  rw [concat_eq_append] at hFinished ⊢
  rw [oaiStreamHandler_concat]
  match init with
  | [] => exact oaiStreamHandler_one hFinished usage estimate
  | [first] =>
    rw [handleStream_singleton]
    exact oaiStreamHandler_two hFinished usage estimate
  | first :: second :: more => exact oaiStreamHandler_many first second last more usage estimate

/-! ## The last chunk -/

/-- What is added to a message does not depend on the count of chunks or on the usage. -/
theorem appendDelta_edit (delta : Delta) (info : RelayInfo) (n : Nat) (usage : Option Usage) :
    appendDelta delta { info with sendResponseCount := n, usage := usage } =
      ((appendDelta delta info).1,
        { (appendDelta delta info).2 with sendResponseCount := n, usage := usage }) := by
  obtain ⟨_, _, _, last, _, _, _, _, _⟩ := info
  unfold appendDelta appendToolCalls openToolCalls appendBlock
  cases last <;> split_ifs <;> rfl

theorem laterChunk_edit (c : Chunk) (choice : Choice) (info : RelayInfo) (n : Nat)
    (usage : Option Usage) :
    (laterChunk c choice { info with sendResponseCount := n, usage := usage }).1 =
      (laterChunk c choice info).1 := by
  unfold laterChunk
  cases choice.finish with
  | none =>
    dsimp only
    rw [appendDelta_edit]
  | some reason =>
    cases hUsage : c.usage with
    | none => rfl
    | some u =>
      have hEdit := appendDelta_edit choice.delta { info with finishReason := reason } n usage
      dsimp only at hEdit ⊢
      unfold endWith close
      rw [hEdit, hUsage]
      rfl

section

variable {last : Chunk} {choice : Choice} {more : List Choice}
  (hChoices : last.choices = choice :: more)
include hChoices

/-- The last chunk of a stream is handled like a later one, unless it is the second. -/
theorem handleFinalResponse_as_later {info : RelayInfo} (hDone : info.done = false)
    (hCount : info.sendResponseCount ≠ 1) {n : Nat} (hn : n ≠ 0) (usage : Usage) :
    (handleFinalResponse last usage info).1 =
      (handleStreamFormat last { info with sendResponseCount := n }).1 := by
  have hLater : handleStreamFormat last { info with sendResponseCount := n } =
      laterChunk last choice _ := handleStreamFormat_of_later hChoices hDone hn
  have hFinal : (handleFinalResponse last usage info).1 =
      (laterChunk last choice { info with usage := some usage }).1 := by
    unfold handleFinalResponse streamResponseOpenAI2Claude
    dsimp only
    rw [hDone, if_neg Bool.false_ne_true, if_neg hCount, hChoices]
  rw [hLater, RelayInfo.received, laterChunk_edit last choice info, hFinal]
  exact laterChunk_edit last choice info info.sendResponseCount (some usage)

theorem oaiStreamHandler_one_chunk (usage : Usage) (estimate : Int) :
    oaiStreamHandler [last] usage (.new estimate) =
      (handleStream [last] { RelayInfo.new estimate with sendResponseCount := 1 }).1 := by
  have hConcat := oaiStreamHandler_concat [] last usage (.new estimate)
  rw [nil_append] at hConcat
  rw [hConcat, handleStream_singleton]
  have hCount : (RelayInfo.new estimate).sendResponseCount ≠ 1 := Nat.zero_ne_one
  exact handleFinalResponse_as_later hChoices rfl hCount Nat.one_ne_zero usage

end

theorem handleStream_append (l m : List Chunk) (info : RelayInfo) :
    (handleStream (l ++ m) info).1 =
      (handleStream l info).1 ++ (handleStream m (handleStream l info).2).1 := by
  induction l generalizing info with
  | nil => rfl
  | cons c rest ih =>
    rw [cons_append, handleStream_cons, ih, ← append_assoc]
    rfl

theorem handleStream_count (c : Chunk) (rest : List Chunk) (estimate : Int) :
    (handleStream (c :: rest) (.new estimate)).2.done = true ∨
      (c.finish = none ∧
        (handleStream (c :: rest) (.new estimate)).2.sendResponseCount = rest.length + 1) := by
  rcases handleStreamFormat_first c estimate with ⟨hNone, hProceeds, -⟩ | ⟨-, hEnds⟩
  · have hCount : (handleStreamFormat c (.new estimate)).2.sendResponseCount ≠ 0 := by
      rw [hProceeds.count]
      exact Nat.one_ne_zero
    rcases handleStream_later rest hProceeds.done hCount with ⟨-, hMore⟩ | ⟨-, hEnds⟩
    · refine Or.inr ⟨hNone, ?_⟩
      rw [Nat.add_comm, ← hProceeds.count]
      exact hMore.count
    · exact Or.inl hEnds.done
  · exact Or.inl (handleStream_done rest hEnds.done).2

/-- From three chunks on, or if the first chunk ends the message, every chunk is handled in its
turn. -/
theorem oaiStreamHandler_in_turn {first last : Chunk} {middle : List Chunk} {choice : Choice}
    {more : List Choice} (hChoices : last.choices = choice :: more)
    (h : first.finish ≠ none ∨ middle ≠ []) (usage : Usage) (estimate : Int) :
    oaiStreamHandler (first :: middle ++ [last]) usage (.new estimate) =
      (handleStream (first :: middle ++ [last]) (.new estimate)).1 := by
  have hCount := handleStream_count first middle estimate
  rw [oaiStreamHandler_concat, handleStream_append, handleStream_singleton]
  generalize (handleStream (first :: middle) (.new estimate)).2 = info at hCount ⊢
  congr 1
  cases hDone : info.done with
  | true =>
    rw [handleFinalResponse_done last usage hDone, ← handleStream_singleton,
      (handleStream_done [last] hDone).1]
  | false =>
    obtain ⟨hNone, hLength⟩ := hCount.resolve_left (by rw [hDone]; exact Bool.false_ne_true)
    have hMiddle := length_pos_of_ne_nil (h.resolve_left (not_not.mpr hNone))
    have hNotFirst : info.sendResponseCount ≠ 1 := by omega
    have hStarted : info.sendResponseCount ≠ 0 := by omega
    exact handleFinalResponse_as_later hChoices hDone hNotFirst hStarted usage

/-- The second of two chunks is taken for the first once more, unless that has ended the message. -/
theorem oaiStreamHandler_two_chunks {first last : Chunk} {choice : Choice} {more : List Choice}
    (hChoices : first.choices = choice :: more) (hFinish : choice.finish = none) (usage : Usage)
    (estimate : Int) :
    ∃ info, oaiStreamHandler [first, last] usage (.new estimate) =
      (firstEvents first choice.delta ((RelayInfo.new estimate).received first)).1 ++
        (firstChunk last info).1 := by
  have hContinues :=
    firstEvents_continues first choice.delta ((RelayInfo.new estimate).received first)
  have hFirst : handleStreamFormat first (.new estimate) =
      firstEvents first choice.delta ((RelayInfo.new estimate).received first) := by
    show firstChunk first ((RelayInfo.new estimate).received first) = _
    unfold firstChunk
    rw [hChoices]
    dsimp only
    rw [hFinish]
  generalize firstEvents first choice.delta ((RelayInfo.new estimate).received first) = result
    at hContinues hFirst
  refine ⟨{ result.2 with usage := some usage }, ?_⟩
  have hConcat := oaiStreamHandler_concat [first] last usage (.new estimate)
  rw [singleton_append, handleStream_singleton, hFirst] at hConcat
  have hDone : ¬ result.2.done = true := by
    rw [hContinues.done]
    exact Bool.false_ne_true
  have hCount : result.2.sendResponseCount = 1 := hContinues.count
  rw [hConcat]
  unfold handleFinalResponse streamResponseOpenAI2Claude
  dsimp only
  rw [if_neg hDone, if_pos hCount]

end Qapi.Stream
