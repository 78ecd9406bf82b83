import Qapi.Stream.CallStream
import Qapi.Stream.ClaudeResponses
import Mathlib.Data.List.Flatten

/-!
# The text of a responses stream

`ExtractOutputTextFromResponses` (`service/relayconvert/responses_to_chat.go`) takes the text of
all messages of the assistant. A stream that brings its text with the terminal response only is
converted to the text of the first message.
-/

namespace Qapi.Stream

open List

/-- `ResponsesOutput` with the role, which the conversion of a stream does not read. -/
structure RoledOutput extends Output where
  role : String
deriving DecidableEq, Repr

def RoledOutput.isAssistant (out : RoledOutput) : Bool := out.role = "" || out.role = "assistant"

def Output.allText (out : Output) : Bytes := out.content.flatMap fun c => c.text

/-- `ExtractOutputTextFromResponses`. -/
def extractOutputText (outs : List RoledOutput) : Bytes :=
  let text := (outs.filter fun out => out.type = .message && out.isAssistant).flatMap fun out =>
    out.outputText
  if text ≠ [] then text else outs.flatMap fun out => out.allText

def deltaText (events : List Event) : Bytes :=
  events.flatMap fun e => if e.type = .outputTextDelta then e.delta else []

def texted (outs : List RoledOutput) : List RoledOutput :=
  outs.filter fun out => out.type = .message && out.outputText ≠ []

/-- The first message with a text is the only one of the assistant. Without such a message there is
no text at all, and the first one may be of another role if it has all the text there is. -/
def Replayable (outs : List RoledOutput) : Prop :=
  match texted outs with
  | [] => ∀ out ∈ outs, out.allText = []
  | first :: more =>
    if first.isAssistant then more.filter RoledOutput.isAssistant = []
    else if more.filter RoledOutput.isAssistant = [] then
      (outs.flatMap fun out => out.allText).length ≤ first.outputText.length
    else first.outputText = (more.filter RoledOutput.isAssistant).flatMap fun out => out.outputText

instance (outs : List RoledOutput) : Decidable (Replayable outs) := by
  unfold Replayable
  split <;> infer_instance

/-! ## What is replayed and what is extracted -/

variable {outs : List RoledOutput}

theorem firstText_eq (outs : List RoledOutput) :
    firstText (outs.map RoledOutput.toOutput) =
      (texted outs).head?.elim [] fun out => out.outputText := by
  induction outs with
  | nil => rfl
  | cons out outs ih =>
    rw [map_cons, firstText, ih, texted, texted, filter_cons]
    by_cases hText : out.type = .message ∧ out.outputText ≠ []
    · simp [hText.1, hText.2]
    · rw [if_neg hText, if_neg (by simpa using hText)]

theorem assistants_texted (outs : List RoledOutput) :
    ((outs.filter fun out => out.type = .message && out.isAssistant).flatMap
        fun out => out.outputText) =
      ((texted outs).filter RoledOutput.isAssistant).flatMap fun out => out.outputText := by
  induction outs with
  | nil => rfl
  | cons out outs ih =>
    rw [texted] at ih ⊢
    by_cases hMessage : out.type = .message <;> by_cases hRole : out.isAssistant <;>
      by_cases hText : out.outputText = [] <;> simp [hMessage, hRole, hText, ih]

theorem outputText_ne_nil {out : RoledOutput} (h : out ∈ texted outs) : out.outputText ≠ [] := by
  have hBoth := (mem_filter.mp h).2
  simp only [Bool.and_eq_true, decide_eq_true_eq] at hBoth
  exact hBoth.2

theorem outputText_sublist {out : RoledOutput} (h : out ∈ outs) :
    out.outputText.Sublist (outs.flatMap fun out => out.allText) := by
  have hOut : out.outputText.Sublist out.allText := filter_sublist.flatMap _
  have hAll := (singleton_sublist.mpr h).flatMap fun out => out.allText
  rw [flatMap_singleton] at hAll
  exact hOut.trans hAll

theorem firstText_eq_extract_iff (outs : List RoledOutput) :
    firstText (outs.map RoledOutput.toOutput) = extractOutputText outs ↔ Replayable outs := by
  have hSome : ∀ out ∈ texted outs, out.outputText ≠ [] := fun out h => outputText_ne_nil h
  have hMem : ∀ out ∈ texted outs, out ∈ outs := fun out h => (mem_filter.mp h).1
  rw [firstText_eq, extractOutputText, Replayable, assistants_texted]
  cases hTexted : texted outs with
  | nil =>
    rw [← flatMap_eq_nil_iff]
    exact eq_comm
  | cons first more =>
    rw [hTexted] at hSome hMem
    have hFirst := hSome first mem_cons_self
    have hMore : (more.filter RoledOutput.isAssistant).flatMap (fun out => out.outputText) = [] ↔
        more.filter RoledOutput.isAssistant = [] := by
      rw [flatMap_eq_nil_iff, eq_nil_iff_forall_not_mem]
      refine forall_congr' fun out => ⟨fun h hIn => ?_, fun h hIn => absurd hIn h⟩
      exact hSome out (mem_cons_of_mem _ (mem_filter.mp hIn).1) (h hIn)
    by_cases hRole : first.isAssistant
    · simp [hRole, hFirst, ← hMore]
    · by_cases hNone : more.filter RoledOutput.isAssistant = []
      · have hSub := outputText_sublist (hMem first mem_cons_self)
        simp only [hRole, hNone, filter_cons_of_neg, Bool.false_eq_true, not_false_eq_true]
        simp only [head?_cons, Option.elim_some, flatMap_nil, ne_eq, not_true, if_false,
          if_true]
        exact ⟨fun h => (congrArg List.length h).ge, fun h => hSub.eq_of_length_le h⟩
      · simp [hRole, hNone, hMore]

/-! ## The stream -/

variable {s : State} {result : List Chunk × State}

theorem Event.brought_of_open {e : Event} (h : e.type.isTerminal = false) (s : State) :
    e.brought s = if e.type = .outputTextDelta then e.delta else [] := by
  unfold Event.brought
  cases hType : e.type <;> first | rfl | (rw [hType] at h; cases h)

theorem chunksOf_sends {l : List Event} (hOpen : ∀ e ∈ l, e.type.isTerminal = false)
    (h : chunksOf l s = .ok result) : Sends (deltaText l) s result := by
  induction l generalizing s result with
  | nil =>
    cases h
    exact (Quiet.refl s).sends
  | cons e l ih =>
    rw [forall_mem_cons] at hOpen
    obtain ⟨first, rest, hFirst, hRest, rfl⟩ := chunksOf_cons h
    have hEvent := event_sends hFirst
    rw [Event.brought_of_open hOpen.1] at hEvent
    exact hEvent.trans (ih hOpen.2 hRest)

/-- **When the streamed text is the extracted one.** The text came as deltas and these make up the
extracted text, or there were none and the messages of the terminal response are such that replaying
the first is enough. -/
theorem streamed_text_iff (body : List Event) (last : Event) (response : Response)
    (outs : List RoledOutput) (hOuts : response.output = outs.map RoledOutput.toOutput)
    (hBody : ∀ e ∈ body, e.type.isTerminal = false ∧ e.type.fails = false)
    (hLast : last.type = .completed ∧ last.response = some response)
    (id model : String) (created : Int) (includeUsage : Bool) :
    ∃ chunks s, chunksOf (body ++ [last]) { State.new model created includeUsage with id := id } =
        .ok (chunks, s) ∧
      (contents chunks = extractOutputText outs ↔
        (deltaText body ≠ [] ∧ deltaText body = extractOutputText outs) ∨
          (deltaText body = [] ∧ Replayable outs)) := by
  have hOpen : ∀ e ∈ body, e.type.isTerminal = false := fun e he => (hBody e he).1
  have hFine : ∀ e ∈ body ++ [last], e.type.fails = false := by
    rw [forall_mem_append, forall_mem_singleton, hLast.1]
    exact ⟨fun e he => (hBody e he).2, rfl⟩
  obtain ⟨result, hRun⟩ := chunksOf_ok hFine { State.new model created includeUsage with id := id }
  refine ⟨result.1, result.2, hRun, ?_⟩
  obtain ⟨first, rest, hFirst, hRest, rfl⟩ := chunksOf_append hRun
  obtain ⟨final, none, hFinal, hNone, rfl⟩ := chunksOf_cons hRest
  cases hNone
  have hSent := chunksOf_sends hOpen hFirst
  have hAll := hSent.trans (event_sends hFinal)
  have hTold : first.2.hasSentText = !(deltaText body).isEmpty := hSent.told
  rw [Event.brought, hLast.1] at hAll
  rw [replayed, hTold, hLast.2, Option.elim_some, hOuts] at hAll
  rw [append_nil, hAll.brings]
  -- after a delta nothing is replayed, before any the first text is
  by_cases hNil : deltaText body = []
  · simp [hNil, firstText_eq_extract_iff]
  · simp [hNil]

def saying (text : Bytes) : RoledOutput :=
  ⟨⟨.message, "msg", "", "", [], [⟨true, text⟩]⟩, "assistant"⟩

def sayingResponse (outs : List RoledOutput) : Response :=
  ⟨"resp_1", "gpt-5", 1, none, none, outs.map RoledOutput.toOutput, none⟩

def completedWith (outs : List RoledOutput) : Event :=
  { type := .completed, response := some (sayingResponse outs) }

def sayingDelta (text : Bytes) : Event := { type := .outputTextDelta, delta := text }

/-- Two messages in the terminal response, of which the second is lost, whether or not the first
came as a delta before. -/
theorem second_message_is_lost :
    (chunksOf [completedWith [saying [72], saying [105]]] (State.new "gpt-5" 1 false)).map
        (fun result => contents result.1) = .ok [72] ∧
      (chunksOf [sayingDelta [72], completedWith [saying [72], saying [105]]]
        (State.new "gpt-5" 1 false)).map (fun result => contents result.1) = .ok [72] ∧
      extractOutputText [saying [72], saying [105]] = [72, 105] := by
  decide

theorem streamed_text_iff_one :
    ∃ chunks s, chunksOf ([sayingDelta [72]] ++ [completedWith [saying [72]]])
        { State.new "gpt-5" 1 false with id := "" } = .ok (chunks, s) ∧
      (contents chunks = extractOutputText [saying [72]] ↔
        (deltaText [sayingDelta [72]] ≠ [] ∧
            deltaText [sayingDelta [72]] = extractOutputText [saying [72]]) ∨
          (deltaText [sayingDelta [72]] = [] ∧ Replayable [saying [72]])) :=
  streamed_text_iff [sayingDelta [72]] (completedWith [saying [72]])
    (sayingResponse [saying [72]]) [saying [72]] rfl (by decide) ⟨rfl, rfl⟩ "" "gpt-5" 1 false

end Qapi.Stream
