import Qapi.Stream.ToolCalls

/-!
# Streams of function calls

A responses stream in which every function call is announced, streamed and closed, and
then listed by the terminal response. The terminal response lists it once more under
another key, so that the chat stream has more tool-call indexes than there are calls.
-/

namespace Qapi.Stream

open Qapi.Core List

structure Call where
  outputIndex : Int
  itemID : String
  callID : String
  name : String
  arguments : Bytes
deriving DecidableEq, Repr

def Call.item (c : Call) (arguments : Bytes) : Output :=
  ⟨.functionCall, c.itemID, c.callID, c.name, arguments, []⟩

def Call.added (c : Call) : Event :=
  { type := .outputItemAdded, item := some (c.item []), outputIndex := some c.outputIndex }

def Call.delta (c : Call) (piece : Bytes) : Event :=
  { type := .functionArgsDelta, delta := piece, outputIndex := some c.outputIndex,
    itemID := c.itemID }

def Call.argumentsDone (c : Call) : Event :=
  { type := .functionArgsDone, outputIndex := some c.outputIndex, itemID := c.itemID }

def Call.done (c : Call) : Event :=
  { type := .outputItemDone, item := some (c.item c.arguments), outputIndex := some c.outputIndex }

def Call.events (c : Call) (pieces : List Bytes) : List Event :=
  c.added :: pieces.map c.delta ++ [c.argumentsDone, c.done]

def Call.owns (c : Call) (e : Event) : Bool := e.ofTool && e.outputIndex = some c.outputIndex

/-- A stream of function calls, interleaved with each other and with events that are not about
tools, up to the response that completes it. -/
structure CallStream where
  calls : List Call
  body : List Event
  response : Response
  distinct : (calls.map Call.outputIndex).Nodup
  identified : ∀ c ∈ calls, c.callID ≠ "" ∧ c.name ≠ ""
  streamed : ∀ c ∈ calls, ∃ pieces : List Bytes, pieces.flatten = c.arguments ∧
    body.filter c.owns = c.events pieces
  owned : ∀ e ∈ body, e.ofTool = true → ∃ c ∈ calls, c.owns e = true
  running : ∀ e ∈ body, e.type.isTerminal = false ∧ e.type.fails = false
  listed : (response.output.filter fun out => out.type.isTool) =
    calls.map fun c => c.item c.arguments

def CallStream.events (t : CallStream) : List Event :=
  t.body ++ [{ type := .completed, response := some t.response }]

def deltasAt (index : Nat) (deltas : List ToolCall) : List ToolCall :=
  deltas.filter fun d => d.index = some index

/-- The calls can be read from the deltas: there is one index per call, under which its id and its
name are given once and its arguments in pieces. -/
def Survive (calls : List Call) (deltas : List ToolCall) : Prop :=
  ∃ indexes : List Nat, indexes.Nodup ∧ indexes.length = calls.length ∧
    (∀ d ∈ deltas, ∃ i ∈ indexes, d.index = some i) ∧
    ∀ p ∈ calls.zip indexes,
      (((deltasAt p.2 deltas).map ToolCall.id).filter fun id => id ≠ "") = [p.1.callID] ∧
      (((deltasAt p.2 deltas).map ToolCall.name).filter fun name => name ≠ "") = [p.1.name] ∧
      (deltasAt p.2 deltas).flatMap ToolCall.arguments = p.1.arguments

theorem counted_new (id model : String) (created : Int) (includeUsage : Bool) :
    Counted { State.new model created includeUsage with id := id } := by
  refine ⟨rfl, ?_, ?_⟩
  · intro k t ht
    cases ht
  · intro k hk
    cases hk

theorem CallStream.events_ok (t : CallStream) (s : State) :
    ∃ result, chunksOf t.events s = .ok result := by
  refine chunksOf_ok ?_ s
  intro e he
  rcases mem_append.mp he with he | he
  · exact (t.running e he).2
  · rw [mem_singleton.mp he]
    rfl

/-! ## The keys of a stream -/

def Call.terminalKey (c : Call) : String :=
  keyForEvent { type := .other "", item := some (c.item c.arguments) }

def Call.streamKey (c : Call) : String := "output:" ++ toString c.outputIndex

variable {c : Call}

theorem Call.streamKey_injective {d : Call} (h : c.streamKey = d.streamKey) :
    c.outputIndex = d.outputIndex := by
  have hList := congrArg String.toList h
  simp only [Call.streamKey, String.toList_append] at hList
  exact toString_int_injective (String.toList_inj.mp (append_cancel_left hList))

/-- A call that is listed is taken for another one than those that have been streamed. -/
theorem Call.terminalKey_ne_streamKey (c d : Call) : c.terminalKey ≠ d.streamKey := by
  intro h
  have hList := congrArg String.toList h
  unfold Call.terminalKey keyForEvent Call.streamKey at hList
  dsimp only at hList
  split at hList
  · simp at hList
  · split at hList
    · simp at hList
    · split at hList <;> simp at hList

theorem Call.terminalKey_ne_empty (h : Named c.itemID ∨ Named c.callID) : c.terminalKey ≠ "" := by
  unfold Call.terminalKey keyForEvent Call.item
  dsimp only
  split
  · simp
  · rename_i hItem
    rcases h with h | h
    · exact absurd h hItem
    · rw [if_pos (show trimSpace c.callID ≠ "" from h)]
      simp

theorem CallStream.added_mem (t : CallStream) (hc : c ∈ t.calls) : c.added ∈ t.body := by
  obtain ⟨pieces, -, hEvents⟩ := t.streamed c hc
  have hMem : c.added ∈ t.body.filter c.owns := by
    rw [hEvents]
    exact mem_cons_self
  exact (mem_filter.mp hMem).1

theorem CallStream.item_mem (t : CallStream) (hc : c ∈ t.calls) :
    c.item c.arguments ∈ t.response.output := by
  have hMem : c.item c.arguments ∈ t.response.output.filter fun out => out.type.isTool := by
    rw [t.listed]
    exact mem_map.mpr ⟨c, hc, rfl⟩
  exact (mem_filter.mp hMem).1

theorem event_added (c : Call) (s : State) :
    responsesStreamEventToChatChunks c.added s = .ok (toolItem c.added (c.item []) s) := by
  simp [responsesStreamEventToChatChunks, Call.added, Call.item, ItemType.isTool]

theorem event_completed (response : Response) (s : State) :
    responsesStreamEventToChatChunks { type := .completed, response := some response } s =
      .ok (terminate (some response) s) := rfl

variable {s : State} {result : List Chunk × State}

theorem CallStream.streamKey_mem (t : CallStream) (hs : Counted s)
    (h : chunksOf t.events s = .ok result) (hc : c ∈ t.calls) :
    c.streamKey ∈ result.2.toolByKey := by
  refine chunksOf_keeps hs h (mem_append_left _ (t.added_mem hc)) ?_
  intro s result hs hStep
  have hKey : keyForEvent c.added = c.streamKey := rfl
  have hne : keyForEvent c.added ≠ "" := by simp [hKey, Call.streamKey]
  rw [event_added] at hStep
  rw [← Except.ok.inj hStep, ← hKey]
  exact toolItem_keeps hs hne (c.item [])

theorem CallStream.terminalKey_mem (t : CallStream) (hs : Counted s)
    (h : chunksOf t.events s = .ok result) (hc : c ∈ t.calls)
    (hNamed : Named c.itemID ∨ Named c.callID) : c.terminalKey ∈ result.2.toolByKey := by
  refine chunksOf_keeps hs h (mem_append_right _ mem_cons_self) ?_
  intro s result hs hStep
  rw [event_completed] at hStep
  rw [← Except.ok.inj hStep]
  exact terminate_keeps hs (t.item_mem hc) rfl (Call.terminalKey_ne_empty hNamed)

theorem CallStream.calls_lt_next (t : CallStream) (hs : Counted s)
    (h : chunksOf t.events s = .ok result) (hc : c ∈ t.calls)
    (hNamed : Named c.itemID ∨ Named c.callID) : t.calls.length < result.2.nextToolIndex := by
  have hKeys : (c.terminalKey :: t.calls.map Call.streamKey).Nodup := by
    rw [nodup_cons]
    constructor
    · intro hMem
      obtain ⟨d, -, hd⟩ := mem_map.mp hMem
      exact c.terminalKey_ne_streamKey d hd.symm
    · refine List.Nodup.map_on ?_ (List.Nodup.of_map _ t.distinct)
      intro d hd d' hd' hKey
      exact inj_on_of_nodup_map t.distinct hd hd' (Call.streamKey_injective hKey)
  have hSubset : c.terminalKey :: t.calls.map Call.streamKey ⊆ result.2.toolByKey.keys := by
    intro k hk
    rw [← AList.mem_keys]
    rcases mem_cons.mp hk with rfl | hk
    · exact t.terminalKey_mem hs h hc hNamed
    · obtain ⟨d, hd, rfl⟩ := mem_map.mp hk
      exact t.streamKey_mem hs h hd
  have hLength := (subperm_of_subset hKeys hSubset).length_le
  rw [(chunksOf_grows hs h).counted.count, length_cons, length_map] at hLength
  exact hLength

/-! ## A stream without calls -/

structure Idle (s : State) : Prop where
  tools : s.toolByKey = ∅
  byOutputIndex : s.pendingArgsByOutputIndex = ∅
  byItemID : s.pendingArgsByItemID = ∅

theorem Idle.same (hs : Idle s) (h : Same s result) : Idle result.2 :=
  ⟨h.tools.trans hs.tools, h.byOutputIndex.trans hs.byOutputIndex, h.byItemID.trans hs.byItemID⟩

theorem emitAll_same {α : Type} {f : α → State → List Chunk × State} {l : List α}
    (hf : ∀ a ∈ l, ∀ s, Same s (f a s)) (s : State) : Same s (emitAll f l s) := by
  induction l generalizing s with
  | nil => exact .refl s
  | cons a l ih =>
    exact (hf a mem_cons_self s).trans (ih (fun b hb => hf b (mem_cons_of_mem a hb)) _)

theorem terminalOutput_same {out : Output} (h : out.type.isTool = false) (s : State) :
    Same s (terminalOutput out s) := by
  unfold terminalOutput
  split
  · exact textDelta_same _ s
  · split
    · exact reasoningDelta_same _ s
    · rw [h]
      exact .refl s

theorem Idle.flushKeys (hs : Idle s) : s.flushKeys = [] := by
  unfold State.flushKeys
  rw [hs.tools, hs.byOutputIndex, hs.byItemID]
  rfl

theorem Idle.finalize (hs : Idle s) (response : Option Response) :
    toolCalls (finalize response s).1 = [] := by
  unfold Stream.finalize
  split
  · rfl
  · have hMarked : Idle { s with finalized := true } := ⟨hs.tools, hs.byOutputIndex, hs.byItemID⟩
    have hFlushed : flushAllPendingTools { s with finalized := true } =
        ([], { s with finalized := true }) := by
      unfold flushAllPendingTools
      rw [hMarked.flushKeys]
      rfl
    rw [hFlushed, toolCalls_append, toolCalls_append, toolCalls_append, (ensureStart_same _).sent,
      toolCalls_usageChunk]
    rfl

theorem Idle.terminate (hs : Idle s) {response : Response}
    (h : ∀ out ∈ response.output, out.type.isTool = false) :
    toolCalls (terminate (some response) s).1 = [] := by
  have hMeta := applyResponseMetadata_same s (some response)
  have hOutput : Same (s.applyResponseMetadata (some response))
      (terminalOutputChunks (some response) (s.applyResponseMetadata (some response))) :=
    emitAll_same (fun out hOut => terminalOutput_same (h out hOut)) _
  have hFinal := ((hs.same hMeta).same hOutput).finalize (some response)
  unfold Stream.terminate
  rw [toolCalls_append, hOutput.sent, hFinal]
  rfl

theorem chunksOf_append {l m : List Event} (h : chunksOf (l ++ m) s = .ok result) :
    ∃ first rest, chunksOf l s = .ok first ∧ chunksOf m first.2 = .ok rest ∧
      result = (first.1 ++ rest.1, rest.2) := by
  induction l generalizing s result with
  | nil => exact ⟨([], s), result, rfl, h, rfl⟩
  | cons e l ih =>
    obtain ⟨one, more, hOne, hMore, rfl⟩ := chunksOf_cons h
    obtain ⟨first, rest, hFirst, hRest, rfl⟩ := ih hMore
    refine ⟨(one.1 ++ first.1, first.2), rest, ?_, hRest, ?_⟩
    · unfold chunksOf
      simp only [hOne, bind, Except.bind, hFirst]
      rfl
    · rw [append_assoc]

theorem CallStream.toolCalls_of_nil (t : CallStream) (hNil : t.calls = []) (hs : Idle s)
    (h : chunksOf t.events s = .ok result) : toolCalls result.1 = [] := by
  obtain ⟨first, rest, hFirst, hRest, rfl⟩ := chunksOf_append h
  have hPlain : ∀ e ∈ t.body, e.ofTool = false := by
    intro e he
    rw [← Bool.not_eq_true]
    intro hTool
    obtain ⟨c, hc, -⟩ := t.owned e he hTool
    rw [hNil] at hc
    cases hc
  have hBody := chunksOf_same hPlain (fun e he => (t.running e he).1) hFirst
  have hListed : ∀ out ∈ t.response.output, out.type.isTool = false := by
    have hNone := t.listed
    rw [hNil, map_nil, filter_eq_nil_iff] at hNone
    exact fun out hOut => Bool.eq_false_iff.mpr (hNone out hOut)
  obtain ⟨last, none, hLast, hNone, rfl⟩ := chunksOf_cons hRest
  rw [event_completed] at hLast
  cases hNone
  rw [← Except.ok.inj hLast, append_nil, toolCalls_append, hBody.sent,
    (hs.same hBody).terminate hListed]
  rfl

/-! ## What becomes of the calls -/

theorem Survive.exists_id {calls : List Call} {deltas : List ToolCall} (h : Survive calls deltas)
    (hc : c ∈ calls) : ∃ d ∈ deltas, d.id = c.callID := by
  obtain ⟨indexes, -, hLength, -, hCalls⟩ := h
  have hZip : c ∈ (calls.zip indexes).map Prod.fst := by
    rw [map_fst_zip hLength.ge]
    exact hc
  obtain ⟨p, hp, rfl⟩ := mem_map.mp hZip
  have hMem : p.1.callID ∈ (((deltasAt p.2 deltas).map ToolCall.id).filter fun id => id ≠ "") := by
    rw [(hCalls p hp).1]
    exact mem_cons_self
  obtain ⟨d, hd, hId⟩ := mem_map.mp (mem_filter.mp hMem).1
  exact ⟨d, (mem_filter.mp hd).1, hId⟩

theorem Survive.index_count {calls : List Call} {deltas : List ToolCall} (h : Survive calls deltas)
    {n : Nat} (hSent : ∀ i < n, ∃ d ∈ deltas, d.index = some i) : n ≤ calls.length := by
  obtain ⟨indexes, -, hLength, hCover, -⟩ := h
  have hSubset : List.range n ⊆ indexes := by
    intro i hi
    obtain ⟨d, hd, hIndex⟩ := hSent i (mem_range.mp hi)
    obtain ⟨j, hj, hSame⟩ := hCover d hd
    rw [hIndex, Option.some.injEq] at hSame
    rw [hSame]
    exact hj
  have hCount := (subperm_of_subset nodup_range hSubset).length_le
  rw [length_range, hLength] at hCount
  exact hCount

/-- **The calls of a stream survive the conversion only if there are none.** -/
theorem survive_iff_nil (t : CallStream) (id model : String) (created : Int) (includeUsage : Bool) :
    ∃ chunks s, chunksOf t.events { State.new model created includeUsage with id := id } =
      .ok (chunks, s) ∧ (Survive t.calls (toolCalls chunks) ↔ t.calls = []) := by
  obtain ⟨result, hResult⟩ := t.events_ok { State.new model created includeUsage with id := id }
  have hNew := counted_new id model created includeUsage
  refine ⟨result.1, result.2, hResult, ?_, ?_⟩
  · intro hSurvive
    have hGrows := chunksOf_grows hNew hResult
    by_contra hCalls
    obtain ⟨c, hc⟩ := exists_mem_of_ne_nil _ hCalls
    by_cases hNamed : Named c.itemID ∨ Named c.callID
    · have hMore := t.calls_lt_next hNew hResult hc hNamed
      have hCount := hSurvive.index_count fun i hi => hGrows.sent i (Nat.zero_le i) hi
      omega
    · -- a call id of white space is never sent
      obtain ⟨d, hd, hId⟩ := hSurvive.exists_id hc
      have hIdNamed := hGrows.ids d hd
      rw [hId] at hIdNamed
      exact hNamed (Or.inr hIdNamed)
  · intro hNil
    have hNone := t.toolCalls_of_nil hNil ⟨rfl, rfl, rfl⟩ hResult
    rw [hNone, hNil]
    refine ⟨[], nodup_nil, rfl, ?_, ?_⟩
    · exact forall_mem_nil _
    · exact forall_mem_nil _

def weatherCall : Call := ⟨0, "fc_1", "call_1", "get_weather", [123, 125]⟩

def weatherStream : CallStream where
  calls := [weatherCall]
  body := weatherCall.events [[123], [125]]
  response := ⟨"resp_1", "gpt-5", 1, some "completed", none, [weatherCall.item [123, 125]], none⟩
  distinct := by decide
  identified := by decide
  streamed := by
    intro c hc
    rw [List.mem_singleton.mp hc]
    exact ⟨[[123], [125]], by decide, by decide⟩
  owned := by decide
  running := by decide
  listed := by decide

/-- The call is sent a second time, with another index. -/
theorem listed_call_is_repeated :
    ∃ deltas, (chunksOf weatherStream.events (State.new "gpt-5" 1 false)).map
      (fun r => toolCalls r.1) =
        .ok deltas ∧
      deltas = [⟨some 0, "call_1", "get_weather", []⟩, ⟨some 0, "call_1", "", [123]⟩,
        ⟨some 0, "call_1", "", [125]⟩, ⟨some 1, "call_1", "get_weather", [123, 125]⟩] ∧
      ¬ Survive weatherStream.calls deltas := by
  refine ⟨_, rfl, by decide, ?_⟩
  intro hSurvive
  have hCount := hSurvive.index_count (n := 2) (by decide)
  exact absurd hCount (by decide)

/-- The same stream through the theorem. -/
theorem survive_iff_nil_weather :
    ∃ chunks s, chunksOf weatherStream.events { State.new "gpt-5" 1 false with id := "" } =
      .ok (chunks, s) ∧ ¬ Survive weatherStream.calls (toolCalls chunks) := by
  obtain ⟨chunks, s, hChunks, hIff⟩ := survive_iff_nil weatherStream "" "gpt-5" 1 false
  exact ⟨chunks, s, hChunks, fun hSurvive => cons_ne_nil _ _ (hIff.mp hSurvive)⟩

end Qapi.Stream
