import Qapi.Stream.ClaudeEnd
import Qapi.Stream.Walk

/-!
# A Claude stream made from a responses stream

The chat chunks that a responses stream is converted to have no usage for the handler that
turns them into a Claude stream, and the chunk that finishes the answer never is the first
one. So it is skipped, and nothing ends the message.
-/

namespace Qapi.Stream

open List

/-! ## The handler -/

variable {s : State} {info : RelayInfo}

/-- A chunk without a usage does not end the message, unless it is the first and finishes the
answer. -/
theorem handleStreamFormat_plain {c : Chunk} (hPlain : c.usage = none ∧ c.choices ≠ [])
    (hDone : info.done = false) (hFirst : info.sendResponseCount = 0 → c.finish = none) :
    Proceeds (info.sendResponseCount + 1) (handleStreamFormat c info) := by
  have hNextDone : (info.received c).done = false := hDone
  by_cases hCount : info.sendResponseCount = 0
  · have hOne : (info.received c).sendResponseCount = 1 := by
      show info.sendResponseCount + 1 = 1
      rw [hCount]
    have hStep : handleStreamFormat c info = firstChunk c (info.received c) := by
      unfold handleStreamFormat streamResponseOpenAI2Claude
      rw [hNextDone, if_neg Bool.false_ne_true, if_pos hOne]
    rw [hStep]
    rcases firstChunk_spec c (info.received c) with ⟨-, hContinues⟩ | ⟨hSome, -⟩
    · exact ⟨hContinues.quiet, hContinues.count, hContinues.done.trans hDone⟩
    · exact absurd (hFirst hCount) hSome
  · rcases handleStreamFormat_later c hDone hCount with ⟨-, hProceeds, -⟩ | ⟨hCloses, -⟩
    · exact hProceeds
    · have hNot : c.closes (c.usage.isSome || info.usage.isSome) = false := by
        simp [Chunk.closes, hPlain.1, hPlain.2]
      rw [hNot] at hCloses
      cases hCloses

theorem handleStream_plain {chunks : List Chunk}
    (hPlain : ∀ c ∈ chunks, c.usage = none ∧ c.choices ≠ []) (hDone : info.done = false)
    (hFirst : info.sendResponseCount = 0 → ∀ c ∈ chunks.head?, c.finish = none) :
    Proceeds (info.sendResponseCount + chunks.length) (handleStream chunks info) := by
  induction chunks generalizing info with
  | nil => exact ⟨rfl, rfl, hDone⟩
  | cons c rest ih =>
    have hOne := handleStreamFormat_plain (hPlain c mem_cons_self) hDone
      (fun hCount => hFirst hCount c rfl)
    have hRest := ih (fun d hd => hPlain d (mem_cons_of_mem c hd)) hOne.done (by
      intro hCount
      rw [hOne.count] at hCount
      cases hCount)
    rw [hOne.count] at hRest
    rw [length_cons, Nat.add_comm rest.length 1, ← Nat.add_assoc]
    exact hOne.then_proceeds hRest

/-- The state of the conversion and that of the Claude stream go together. -/
structure Paired (s : State) (info : RelayInfo) : Prop where
  includeUsage : s.includeUsage = false
  done : info.done = false
  started : s.sentStart = false → info.sendResponseCount = 0
  counted : info.sendResponseCount = 0 → s.sentStart = false

theorem Paired.sendChatChunks (h : Paired s info) {result : List Chunk × State}
    (hEmits : Emits s result) :
    (Stream.sendChatChunks result.1 info).1.filter ClaudeEvent.isEnd = [] ∧
      Paired result.2 (Stream.sendChatChunks result.1 info).2 := by
  have hPlain := hEmits.plain h.includeUsage
  have hAll : (result.1.filter fun c => !(c.choices.isEmpty && c.usage.isNone)) = result.1 := by
    rw [filter_eq_self]
    intro c hc
    simp [(hPlain c hc).2]
  have hProceeds := handleStream_plain hPlain h.done (fun hCount => hEmits.first (h.counted hCount))
  unfold Stream.sendChatChunks
  rw [hAll]
  refine ⟨hProceeds.quiet, hEmits.includeUsage.trans h.includeUsage, hProceeds.done, ?_, ?_⟩
  · intro hStart
    rw [hEmits.started, Bool.or_eq_false_iff] at hStart
    have hNone : result.1 = [] := by simpa using hStart.2
    rw [hProceeds.count, h.started hStart.1, hNone]
    rfl
  · intro hCount
    rw [hProceeds.count] at hCount
    have hNone : result.1 = [] := eq_nil_of_length_eq_zero (by omega)
    rw [hEmits.started, h.counted (by omega), hNone]
    rfl

theorem scanResponses_quiet (events : List Event) (h : Paired s info) :
    (scanResponses events s info).1.filter ClaudeEvent.isEnd = [] ∧
      Paired (scanResponses events s info).2.1 (scanResponses events s info).2.2.1 := by
  induction events generalizing s info with
  | nil => exact ⟨rfl, h⟩
  | cons e rest ih =>
    unfold scanResponses
    cases hEvent : responsesStreamEventToChatChunks e s with
    | error message => exact ⟨rfl, h⟩
    | ok result =>
      obtain ⟨hQuiet, hPaired⟩ := h.sendChatChunks (event_sends hEvent).toEmits
      obtain ⟨hMore, hLast⟩ := ih hPaired
      refine ⟨?_, hLast⟩
      rw [filter_append, hQuiet, hMore]
      rfl

theorem oaiResponsesToChatStreamHandler_quiet (events : List Event) (responseId model : String)
    (created : Int) (counted : Usage) (estimate : Int) :
    (oaiResponsesToChatStreamHandler events responseId model created counted (.new estimate)).filter
      ClaudeEvent.isEnd = [] := by
  have hStart : Paired { State.new model created false with id := responseId } (.new estimate) :=
    ⟨rfl, rfl, fun _ => rfl, fun _ => rfl⟩
  obtain ⟨hQuiet, hPaired⟩ := scanResponses_quiet events hStart
  unfold oaiResponsesToChatStreamHandler
  dsimp only
  split
  · rw [filter_append, hQuiet, nil_append]
    have hKnown : ∀ usage : Usage, Paired
        { (scanResponses events { State.new model created false with id := responseId }
          (.new estimate)).2.1 with usage := usage }
        { (scanResponses events { State.new model created false with id := responseId }
          (.new estimate)).2.2.1 with usage := some usage } := fun _ =>
      ⟨hPaired.includeUsage, hPaired.done, hPaired.started, hPaired.counted⟩
    exact ((hKnown _).sendChatChunks
      (finalize_walk (K := fun _ => True) (fun _ _ => trivial) (fun _ _ => trivial)
        none).sends.toEmits).1
  · exact hQuiet

/-! ## Both handlers -/

/-- **When a Claude stream is ended properly.** The handler of a chat stream ends it if the chunks
allow it, the handler of a responses stream never does. -/
theorem terminates_iff_properlyEnded (chunks : List Chunk) (usage : Usage) (events : List Event)
    (responseId model : String) (created : Int) (counted : Usage) (estimate : Int) :
    (finished chunks = true →
      (Terminates (oaiStreamHandler chunks usage (.new estimate)) ↔ properlyEnded chunks = true)) ∧
    ¬ Terminates (oaiResponsesToChatStreamHandler events responseId model created counted
        (.new estimate)) := by
  constructor
  · intro hFinished
    exact oaiStreamHandler_terminates_iff hFinished usage estimate
  · exact not_terminates_of_quiet
      (oaiResponsesToChatStreamHandler_quiet events responseId model created counted estimate)

/-- An answer that is finished without a usage is not ended, although the handler has counted
one. -/
theorem finished_stream_is_not_ended :
    finished [sampleChunk { content := some [] } none none,
      sampleChunk { content := some [72, 105] } none none,
      sampleChunk { content := some [] } (some "stop") none] = true ∧
    ¬ Terminates (oaiStreamHandler
      [sampleChunk { content := some [] } none none,
        sampleChunk { content := some [72, 105] } none none,
        sampleChunk { content := some [] } (some "stop") none]
      { promptTokens := 5, completionTokens := 1, totalTokens := 6 } (.new 5)) :=
  ⟨by decide, not_terminates_of_quiet (by decide)⟩

/-- With a chunk for the usage, it is ended. -/
theorem terminates_iff_properlyEnded_usage :
    Terminates (oaiStreamHandler
      [sampleChunk { content := some [] } none none,
        sampleChunk { content := some [72, 105] } none none,
        sampleChunk { content := some [] } (some "stop") none,
        ⟨"chatcmpl-1", 1, "gpt-5", [],
          some { promptTokens := 5, completionTokens := 1, totalTokens := 6 }⟩]
      { promptTokens := 5, completionTokens := 1, totalTokens := 6 } (.new 5)) :=
  ((terminates_iff_properlyEnded _ _ [] "" "" 0 {} 5).1 (by decide)).mpr (by decide)

end Qapi.Stream
