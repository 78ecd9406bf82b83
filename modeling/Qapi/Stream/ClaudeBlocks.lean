import Mathlib.Data.Finset.Basic
import Mathlib.Data.Finset.Image
import Mathlib.Data.Finset.Range
import Qapi.Stream.ClaudeEnd

/-!
# The content blocks of a Claude stream

A reader of a Claude stream keeps the blocks that have been started and those that are
open. The converter gives a group of tool calls the blocks from a base index on, one per
tool-call index, and stops all of them up to the greatest index when another kind of
content follows. So the blocks are well bracketed if and only if every group starts its
calls itself, each once, before their fragments, and without a gap.
-/

namespace Qapi.Stream

open List

/-! ## The reader -/

structure Brackets where
  begun : Bool := false
  ended : Bool := false
  started : Finset Nat := ∅
  opened : Finset Nat := ∅
deriving DecidableEq

def Brackets.step (b : Brackets) : ClaudeEvent → Option Brackets
  | .messageStart _ _ _ => if b.begun then none else some { b with begun := true }
  | .blockStart i _ =>
    if b.begun && !b.ended && i ∉ b.started then
      some { b with started := insert i b.started, opened := insert i b.opened }
    else none
  | .blockDelta i _ => if b.begun && i ∈ b.opened then some b else none
  | .blockStop i =>
    if b.begun && i ∈ b.opened then some { b with opened := b.opened.erase i } else none
  | .messageDelta _ _ => if b.begun then some b else none
  | .messageStop => if b.begun && b.opened = ∅ then some { b with ended := true } else none

def Brackets.read (b : Brackets) (events : List ClaudeEvent) :
    Option Brackets := events.foldlM Brackets.step b

/-- There is one `message_start`, first; a block is started under a new index, has its deltas and its
stop while it is open, and all are stopped when the message is. -/
def WellBracketed (events : List ClaudeEvent) : Prop :=
  ∃ b, Brackets.read {} events = some b ∧ b.begun = true

theorem Brackets.read_append (b : Brackets) (l m : List ClaudeEvent) :
    b.read (l ++ m) = (b.read l).bind fun b => b.read m := foldlM_append

theorem Brackets.read_cons (b : Brackets) (e : ClaudeEvent) (l : List ClaudeEvent) :
    b.read (e :: l) = (b.step e).bind fun b => b.read l := foldlM_cons

@[simp] theorem Brackets.read_nil (b : Brackets) : b.read [] = some b := rfl

structure Brackets.Running (b : Brackets) : Prop where
  begun : b.begun = true
  ended : b.ended = false

variable {b : Brackets}

theorem Brackets.step_blockStart (hb : b.Running) {i : Nat} (hi : i ∉ b.started) (block : Block) :
    b.step (.blockStart i block) =
      some { b with started := insert i b.started, opened := insert i b.opened } := by
  simp [Brackets.step, hb.begun, hb.ended, hi]

theorem Brackets.step_blockDelta (hb : b.Running) {i : Nat} (hi : i ∈ b.opened)
    (delta : BlockDelta) : b.step (.blockDelta i delta) = some b := by
  simp [Brackets.step, hb.begun, hi]

theorem Brackets.read_stops (hb : b.Running) (base n : Nat) (h : ∀ o < n, base + o ∈ b.opened) :
    b.read ((range n).map fun o => .blockStop (base + o)) =
      some { b with opened := b.opened \ (Finset.range n).image fun o => base + o } := by
  induction n with
  | zero => simp
  | succ n ih =>
    have hBefore := ih fun o ho => h o (Nat.lt_succ_of_lt ho)
    have hOpen : base + n ∈ b.opened \ (Finset.range n).image fun o => base + o := by
      simp [h n (Nat.lt_succ_self n)]
    rw [range_succ, map_append, Brackets.read_append, hBefore, Option.bind_some]
    simp only [map_cons, map_nil, Brackets.read_cons, Brackets.step, hb.begun, hOpen,
      decide_true, Bool.and_self, if_true, Option.bind_some, Brackets.read_nil]
    congr 2
    ext i
    simp only [Finset.mem_erase, Finset.mem_sdiff, Finset.mem_image, Finset.mem_range]
    constructor
    · rintro ⟨hne, hi, hNot⟩
      refine ⟨hi, ?_⟩
      rintro ⟨o, ho, rfl⟩
      rcases Nat.lt_succ_iff_lt_or_eq.mp ho with hlt | rfl
      · exact hNot ⟨o, hlt, rfl⟩
      · exact hne rfl
    · rintro ⟨hi, hNot⟩
      refine ⟨?_, hi, ?_⟩
      · rintro rfl
        exact hNot ⟨n, Nat.lt_succ_self n, rfl⟩
      · rintro ⟨o, ho, rfl⟩
        exact hNot ⟨o, Nat.lt_succ_of_lt ho, rfl⟩

variable {base : Nat}

theorem Brackets.opened_of_read_stops {b' : Brackets} {l : List Nat}
    (h : b.read (l.map fun o => .blockStop (base + o)) = some b') :
    ∀ o ∈ l, base + o ∈ b.opened := by
  induction l generalizing b with
  | nil => exact forall_mem_nil _
  | cons o l ih =>
    rw [map_cons, Brackets.read_cons, Option.bind_eq_some_iff] at h
    obtain ⟨mid, hStep, hRest⟩ := h
    unfold Brackets.step at hStep
    dsimp only at hStep
    split at hStep
    · rename_i hOpen
      rw [Bool.and_eq_true, decide_eq_true_eq] at hOpen
      cases hStep
      intro o' ho'
      rcases mem_cons.mp ho' with rfl | ho'
      · exact hOpen.2
      · exact Finset.mem_of_mem_erase (ih hRest o' ho')
    · cases hStep

/-! ## Groups of tool calls -/

/-- The calls of a group: the offsets that have been started, and the greatest one that has come. -/
structure Group where
  started : Finset Nat
  maxOffset : Nat
deriving DecidableEq

def Group.complete (g : Group) : Bool := (range (g.maxOffset + 1)).all fun o => o ∈ g.started

/-- A fragment of the call at position `i`: a name starts the call, which may not have been started;
arguments are for a call that has been. -/
def Group.add (g : Group) (i : Nat) (call : ToolCall) : Option Group :=
  let offset := call.index.getD i
  if call.name ≠ "" ∧ offset ∈ g.started then none
  else
    let started := if call.name = "" then g.started else insert offset g.started
    if call.arguments ≠ [] ∧ offset ∉ started then none
    else some ⟨started, max g.maxOffset offset⟩

def Group.addAll (g : Group) (i : Nat) : List ToolCall → Option Group
  | [] => some g
  | call :: rest => (g.add i call).bind fun g => g.addAll (i + 1) rest

/-- The group after a delta: tool calls belong to the open one, other content closes it. -/
def groupAfter (g : Option Group) (delta : Delta) : Option (Option Group) :=
  if delta.toolCalls ≠ [] then ((g.getD ⟨∅, 0⟩).addAll 0 delta.toolCalls).map some
  else if delta.getReasoningContent ≠ [] ∨ delta.getContentString ≠ [] then
    if g.all Group.complete then some none else none
  else some g

/-- Whether the groups of the later chunks are in order, after the given one. -/
def tidyFrom (g : Option Group) : List Chunk → Bool
  | [] => true
  | c :: rest =>
    match c.choices with
    | [] => true
    | choice :: _ =>
      if choice.finish.isSome && c.usage.isNone then tidyFrom g rest
      else
        match groupAfter g choice.delta with
        | none => false
        | some g => if choice.finish.isSome then g.all Group.complete else tidyFrom g rest

/-- The group that the first chunk leaves open; it starts one call at most. -/
def firstGroup (delta : Delta) : Option Group :=
  if delta.toolCalls ≠ [] ∧ delta.getReasoningContent = [] ∧
    delta.getContentString = [] then some ⟨{0}, 0⟩
  else none

def tidy : List Chunk → Bool
  | [] => false
  | c :: rest =>
    match c.choices with
    | [] => true
    | choice :: _ => choice.finish.isSome || tidyFrom (firstGroup choice.delta) rest

/-! ## The converter and the reader -/

/-- The reader knows the blocks of the open group, and all others are before its base. -/
structure InGroup (base : Nat) (g : Group) (b : Brackets) : Prop where
  running : b.Running
  opened : b.opened = g.started.image fun o => base + o
  started : ∀ i ∈ b.started, i < base ∨ i ∈ b.opened
  known : b.opened ⊆ b.started
  bound : ∀ o ∈ g.started, o ≤ g.maxOffset

/-- How the state of the converter and that of the reader go together. -/
inductive Tracks (info : RelayInfo) (b : Brackets) : Option Group → Prop
  | idle (running : b.Running) (last : info.lastMessagesType = .none) (opened : b.opened = ∅)
      (started : ∀ i ∈ b.started, i < info.index) : Tracks info b none
  | single (running : b.Running) (last : info.lastMessagesType = .text ∨
    info.lastMessagesType = .thinking)
      (opened : b.opened = {info.index}) (started : ∀ i ∈ b.started, i ≤ info.index) :
        Tracks info b none
  | calls (g : Group) (last : info.lastMessagesType = .tools)
    (inGroup : InGroup info.toolCallBaseIndex g b)
      (maxOffset : info.toolCallMaxIndexOffset = g.maxOffset) : Tracks info b (some g)

variable {info : RelayInfo} {g : Option Group}

theorem Tracks.running (h : Tracks info b g) : b.Running := by
  cases h with
  | idle running _ _ _ => exact running
  | single running _ _ _ => exact running
  | calls g _ inGroup _ => exact inGroup.running

theorem Group.complete_iff {g : Group} : g.complete = true ↔ ∀ o ≤ g.maxOffset, o ∈ g.started := by
  simp only [Group.complete, all_eq_true, mem_range, decide_eq_true_eq, Nat.lt_succ_iff]

theorem InGroup.mem_opened {g : Group} (h : InGroup base g b) {o : Nat} :
    base + o ∈ b.opened ↔ o ∈ g.started := by
  rw [h.opened, Finset.mem_image]
  constructor
  · rintro ⟨o', ho', hEq⟩
    rw [← Nat.add_left_cancel hEq]
    exact ho'
  · intro ho
    exact ⟨o, ho, rfl⟩

theorem InGroup.read_stops {g : Group} (h : InGroup base g b) :
    b.read ((range (g.maxOffset + 1)).map fun o => .blockStop (base + o)) =
      if g.complete then some { b with opened := ∅ } else none := by
  split
  · rename_i hComplete
    rw [Group.complete_iff] at hComplete
    rw [Brackets.read_stops h.running]
    · congr 2
      rw [Finset.sdiff_eq_empty_iff_subset, h.opened]
      refine Finset.image_subset_image ?_
      intro o ho
      exact Finset.mem_range.mpr (Nat.lt_succ_of_le (h.bound o ho))
    · intro o ho
      exact h.mem_opened.mpr (hComplete o (Nat.le_of_lt_succ ho))
  · rename_i hIncomplete
    rw [Option.eq_none_iff_forall_ne_some]
    intro b' hRead
    refine hIncomplete (Group.complete_iff.mpr ?_)
    intro o ho
    exact h.mem_opened.mp (Brackets.opened_of_read_stops hRead o
      (mem_range.mpr (Nat.lt_succ_of_le ho)))

/-- The open blocks are stopped in order if and only if no call of the group is missing. -/
theorem Tracks.stopOpenBlocks (h : Tracks info b g) : b.read (Stream.stopOpenBlocks info) =
      if g.all Group.complete then some { b with opened := ∅ } else none := by
  cases h with
  | idle running last opened started =>
    simp [Stream.stopOpenBlocks, last, ← opened]
  | single running last opened started =>
    have hStops : Stream.stopOpenBlocks info = [.blockStop info.index] := by
      unfold Stream.stopOpenBlocks
      rcases last with last | last <;> rw [last]
    simp [hStops, Brackets.read_cons, Brackets.step, running.begun, opened, Finset.erase_singleton]
  | calls g last inGroup maxOffset =>
    have hStops : Stream.stopOpenBlocks info = (range (g.maxOffset + 1)).map fun o =>
        .blockStop (info.toolCallBaseIndex + o) := by
      unfold Stream.stopOpenBlocks
      rw [last, maxOffset]
    rw [hStops]
    exact inGroup.read_stops

theorem Tracks.advance (h : Tracks info b g) :
    b.read (stopOpenBlocksAndAdvance info).1 =
        (if g.all Group.complete then some { b with opened := ∅ } else none) ∧
      ∀ i ∈ b.started, i < (stopOpenBlocksAndAdvance info).2.index := by
  have hStops := h.stopOpenBlocks
  cases h with
  | idle running last opened started =>
    have hSame : stopOpenBlocksAndAdvance info = ([], info) := by
      unfold stopOpenBlocksAndAdvance
      rw [last]
    rw [hSame]
    refine ⟨?_, started⟩
    simp [← opened]
  | single running last opened started =>
    have hAdvance : stopOpenBlocksAndAdvance info = (Stream.stopOpenBlocks info,
        { info with index := info.index + 1, lastMessagesType := .none }) := by
      unfold stopOpenBlocksAndAdvance
      rcases last with last | last <;> rw [last]
    rw [hAdvance]
    exact ⟨hStops, fun i hi => Nat.lt_succ_of_le (started i hi)⟩
  | calls g last inGroup maxOffset =>
    have hAdvance : stopOpenBlocksAndAdvance info = (Stream.stopOpenBlocks info,
        { info with
          index := info.toolCallBaseIndex + info.toolCallMaxIndexOffset + 1
          toolCallBaseIndex := 0
          toolCallMaxIndexOffset := 0
          lastMessagesType := .none }) := by
      unfold stopOpenBlocksAndAdvance
      rw [last]
    rw [hAdvance]
    refine ⟨hStops, ?_⟩
    intro i hi
    dsimp only
    rcases inGroup.started i hi with hBefore | hOpen
    · omega
    · rw [inGroup.opened, Finset.mem_image] at hOpen
      obtain ⟨o, ho, rfl⟩ := hOpen
      have hBound := inGroup.bound o ho
      omega

/-! ## One fragment after the other -/

/-- A call is started in order if and only if it has not been. -/
theorem InGroup.start {g : Group} (h : InGroup base g b) (offset : Nat) (block : Block) :
    (offset ∈ g.started → b.step (.blockStart (base + offset) block) = none) ∧
      (offset ∉ g.started → ∃ b', b.step (.blockStart (base + offset) block) = some b' ∧
        InGroup base ⟨insert offset g.started, max g.maxOffset offset⟩ b') := by
  constructor
  · intro hOffset
    have hStarted : base + offset ∈ b.started := h.known (h.mem_opened.mpr hOffset)
    simp [Brackets.step, hStarted]
  · intro hOffset
    have hNew : base + offset ∉ b.started := by
      intro hMem
      rcases h.started _ hMem with hBefore | hOpen
      · omega
      · exact hOffset (h.mem_opened.mp hOpen)
    refine ⟨_, Brackets.step_blockStart h.running hNew block, ⟨h.running.begun, h.running.ended⟩,
      ?_, ?_, ?_, ?_⟩
    · dsimp only
      rw [h.opened, Finset.image_insert]
    · intro i hi
      rcases Finset.mem_insert.mp hi with rfl | hi
      · exact Or.inr (Finset.mem_insert_self _ _)
      · exact (h.started i hi).imp id (Finset.mem_insert_of_mem)
    · exact Finset.insert_subset_insert _ h.known
    · intro o ho
      rcases Finset.mem_insert.mp ho with rfl | ho
      · exact le_max_right _ _
      · exact le_max_of_le_left (h.bound o ho)

/-- A fragment is in order if and only if its call has been started. -/
theorem InGroup.fragment {g : Group} (h : InGroup base g b) (offset : Nat) (arguments : Bytes) :
    b.read (argumentsDelta (base + offset) arguments) =
      if arguments ≠ [] ∧ offset ∉ g.started then none else some b := by
  unfold argumentsDelta
  by_cases hArguments : arguments = []
  · simp [hArguments]
  · by_cases hOffset : offset ∈ g.started
    · simp [hArguments, hOffset, Brackets.read_cons,
        Brackets.step_blockDelta h.running (h.mem_opened.mpr hOffset)]
    · have hClosed : base + offset ∉ b.opened := fun hMem => hOffset (h.mem_opened.mp hMem)
      simp [hArguments, hOffset, Brackets.read_cons, Brackets.step, hClosed]

theorem InGroup.add {g : Group} (h : InGroup base g b) (i : Nat) (call : ToolCall) :
    (g.add i call = none ∧ b.read (toolCallEvents (base + call.index.getD i) call) = none) ∨
      ∃ g' b', g.add i call = some g' ∧ b.read (toolCallEvents (base + call.index.getD i) call) =
        some b' ∧ InGroup base g' b' ∧ g'.maxOffset = max g.maxOffset (call.index.getD i) := by
  unfold Group.add toolCallEvents
  set offset := call.index.getD i
  rw [Brackets.read_append]
  by_cases hName : call.name = ""
  · have hWider : InGroup base ⟨g.started, max g.maxOffset offset⟩ b :=
      ⟨h.running, h.opened, h.started, h.known, fun o ho => le_max_of_le_left (h.bound o ho)⟩
    simp only [hName, ne_eq, not_true_eq_false, false_and, if_false, if_true, Brackets.read_nil,
      Option.bind_some, h.fragment]
    split
    · exact Or.inl ⟨rfl, rfl⟩
    · exact Or.inr ⟨_, _, rfl, rfl, hWider, rfl⟩
  · obtain ⟨hAgain, hFresh⟩ := h.start offset (.toolUse call.id call.name)
    by_cases hOffset : offset ∈ g.started
    · refine Or.inl ⟨?_, ?_⟩
      · simp [hName, hOffset]
      · simp [hName, Brackets.read_cons, hAgain hOffset]
    · obtain ⟨b', hStep, hStarted⟩ := hFresh hOffset
      have hIn : offset ∈ insert offset g.started := Finset.mem_insert_self _ _
      simp only [hName, ne_eq, not_false_eq_true, hOffset, and_false, if_false, Brackets.read_cons,
        hStep, Option.bind_some, Brackets.read_nil, hStarted.fragment, hIn, not_true_eq_false]
      exact Or.inr ⟨_, b', rfl, rfl, hStarted, rfl⟩

theorem InGroup.addAll {g : Group} (h : InGroup base g b) (i : Nat) (calls : List ToolCall) :
    (g.addAll i calls = none ∧ b.read (toolCallLoop base i g.maxOffset calls).1 = none) ∨
      ∃ g' b', g.addAll i calls = some g' ∧ b.read (toolCallLoop base i g.maxOffset calls).1 =
        some b' ∧
        InGroup base g' b' ∧ (toolCallLoop base i g.maxOffset calls).2 = g'.maxOffset := by
  induction calls generalizing g b i with
  | nil => exact Or.inr ⟨g, b, rfl, rfl, h, rfl⟩
  | cons call rest ih =>
    unfold Group.addAll toolCallLoop
    dsimp only
    rw [Brackets.read_append]
    rcases h.add i call with ⟨hAdd, hRead⟩ | ⟨g₁, b₁, hAdd, hRead, hGroup, hMax⟩
    · rw [hAdd, hRead]
      exact Or.inl ⟨rfl, rfl⟩
    · rw [hAdd, hRead, ← hMax]
      exact ih hGroup (i + 1)

theorem Tracks.openToolCalls (h : Tracks info b g) :
    ∃ b', b.read (Stream.openToolCalls info).1 = some b' ∧
      (Stream.openToolCalls info).2.lastMessagesType = .tools ∧
      InGroup (Stream.openToolCalls info).2.toolCallBaseIndex (g.getD ⟨∅, 0⟩) b' ∧
      (Stream.openToolCalls info).2.toolCallMaxIndexOffset = (g.getD ⟨∅, 0⟩).maxOffset := by
  by_cases hLast : info.lastMessagesType = .tools
  · have hSame : Stream.openToolCalls info = ([], info) := by
      exact if_pos hLast
    rw [hSame]
    cases h with
    | idle _ last _ _ =>
      rw [last] at hLast
      cases hLast
    | single _ last _ _ =>
      rcases last with last | last <;> rw [last] at hLast <;> cases hLast
    | calls g _ inGroup maxOffset => exact ⟨b, rfl, hLast, inGroup, maxOffset⟩
  · have hNone : g = none := by
      cases h with
      | idle _ _ _ _ => rfl
      | single _ _ _ _ => rfl
      | calls g last _ _ => exact absurd last hLast
    subst hNone
    have hOpen : Stream.openToolCalls info = ((stopOpenBlocksAndAdvance info).1,
        { (stopOpenBlocksAndAdvance info).2 with
          lastMessagesType := .tools
          toolCallBaseIndex := (stopOpenBlocksAndAdvance info).2.index
          toolCallMaxIndexOffset := 0 }) := by
      exact if_neg hLast
    obtain ⟨hRead, hBefore⟩ := h.advance
    rw [hOpen]
    refine ⟨_, hRead, rfl, ⟨⟨h.running.begun, h.running.ended⟩, rfl, ?_, ?_, ?_⟩, rfl⟩
    · exact fun i hi => Or.inl (hBefore i hi)
    · exact Finset.empty_subset _
    · intro o ho
      cases ho

/-- What the reader makes of the events of a step: the group after it, if they are in order. -/
inductive Reads (b : Brackets) (result : List ClaudeEvent × RelayInfo) :
    Option (Option Group) → Prop
  | fails (read : b.read result.1 = none) : Reads b result none
  | goesOn {b' : Brackets} {g : Option Group} (read : b.read result.1 = some b')
      (tracks : Tracks result.2 b' g) : Reads b result (some g)

theorem Tracks.appendToolCalls (h : Tracks info b g) (calls : List ToolCall) :
    Reads b (Stream.appendToolCalls calls info)
      (((g.getD ⟨∅, 0⟩).addAll 0 calls).map some) := by
  obtain ⟨b₁, hOpen, hLast, hGroup, hMax⟩ := h.openToolCalls
  unfold Stream.appendToolCalls
  dsimp only
  rw [hMax]
  rcases hGroup.addAll 0 calls with ⟨hAdd, hRead⟩ | ⟨g', b', hAdd, hRead, hGroup', hMax'⟩
  · rw [hAdd]
    refine .fails ?_
    rw [Brackets.read_append, hOpen]
    exact hRead
  · rw [hAdd]
    refine .goesOn ?_ (.calls g' hLast hGroup' hMax')
    rw [Brackets.read_append, hOpen]
    exact hRead

theorem Brackets.read_block (hb : b.Running) {i : Nat} (hi : i ∉ b.started) (block : Block)
    (delta : BlockDelta) : b.read [.blockStart i block, .blockDelta i delta] =
      some { b with started := insert i b.started, opened := insert i b.opened } := by
  have hRunning : Brackets.Running
      { b with started := insert i b.started, opened := insert i b.opened } := ⟨hb.begun, hb.ended⟩
  rw [Brackets.read_cons, Brackets.step_blockStart hb hi block, Option.bind_some,
    Brackets.read_cons, Brackets.step_blockDelta hRunning (Finset.mem_insert_self _ _) delta]
  rfl

theorem Tracks.newBlock (h : Tracks info b g) (x : Content) :
    Reads b (openBlock x info) (if g.all Group.complete then some none else none) := by
  obtain ⟨hRead, hBefore⟩ := h.advance
  unfold openBlock
  cases hComplete : g.all Group.complete with
  | false =>
    refine .fails ?_
    rw [Brackets.read_append, hRead, hComplete]
    rfl
  | true =>
    have hRunning : ({ b with opened := ∅ } : Brackets).Running :=
      ⟨h.running.begun, h.running.ended⟩
    have hNew : (stopOpenBlocksAndAdvance info).2.index ∉
        ({ b with opened := ∅ } : Brackets).started :=
      fun hMem => Nat.lt_irrefl _ (hBefore _ hMem)
    apply Reads.goesOn
    · rw [Brackets.read_append, hRead, hComplete]
      exact Brackets.read_block hRunning hNew x.block x.delta
    · refine .single ⟨h.running.begun, h.running.ended⟩ x.type_eq rfl ?_
      intro i hi
      rcases Finset.mem_insert.mp hi with rfl | hi
      · exact Nat.le_refl _
      · exact Nat.le_of_lt (hBefore i hi)

theorem Tracks.appendBlock (h : Tracks info b g) (x : Content) :
    Reads b (Stream.appendBlock x.type x.block x.delta info)
      (if g.all Group.complete then some none else none) := by
  rw [appendBlock_eq]
  split
  · rename_i hLast
    cases h with
    | idle _ last _ _ | calls g last _ _ =>
      rw [hLast] at last
      rcases x.type_eq with hType | hType <;> rw [hType] at last <;> cases last
    | single running last opened started =>
      have hOpen : info.index ∈ b.opened := by
        rw [opened]
        exact Finset.mem_singleton_self _
      refine .goesOn ?_ (.single running last opened started)
      rw [Brackets.read_cons, Brackets.step_blockDelta running hOpen]
      rfl
  · exact h.newBlock x

theorem Tracks.appendDelta (h : Tracks info b g) (delta : Delta) :
    Reads b (Stream.appendDelta delta info) (groupAfter g delta) := by
  unfold groupAfter
  simp only [appendDelta_eq, ← delta.shown_isSome]
  split
  · exact h.appendToolCalls delta.toolCalls
  · cases delta.shown with
    | none => exact .goesOn rfl h
    | some x => exact h.appendBlock x

/-- The message is ended in order if and only if the open blocks can be stopped. -/
theorem Tracks.close (h : Tracks info b g) (c : Chunk) (stopReason : String) :
    b.read (Stream.close c stopReason info).1 =
      if g.all Group.complete then some { b with opened := ∅, ended := true } else none := by
  unfold Stream.close messageEnd
  rw [Brackets.read_append, h.stopOpenBlocks]
  cases g.all Group.complete with
  | false => rfl
  | true =>
    have hBegun := h.running.begun
    cases c.usage.or info.usage <;> simp [Brackets.read_cons, Brackets.step, hBegun]

/-! ## Chunks -/

def oneCall : Group := ⟨{0}, 0⟩

theorem firstToolCall_tracks (calls : List ToolCall) (hLast : info.lastMessagesType = .none) :
    ∃ b, Brackets.read { begun := true } (firstToolCall calls info).1 = some b ∧
      Tracks (firstToolCall calls info).2 b (if calls = [] then none else some oneCall) := by
  have hBegun : ({ begun := true } : Brackets).Running := ⟨rfl, rfl⟩
  cases calls with
  | nil =>
    refine ⟨_, rfl, .idle hBegun hLast rfl ?_⟩
    intro i hi
    cases hi
  | cons call rest =>
    have hStart := Brackets.step_blockStart hBegun (Finset.notMem_empty 0)
      (.toolUse call.id call.name)
    have hGroup : InGroup 0 oneCall
        { begun := true, started := insert 0 ∅, opened := insert 0 ∅ } := by
      refine ⟨⟨rfl, rfl⟩, rfl, ?_, Finset.Subset.refl _, ?_⟩
      · exact fun i hi => Or.inr hi
      · exact fun o ho => Nat.le_of_eq (Finset.mem_singleton.mp ho)
    have hIn : 0 ∈ oneCall.started := Finset.mem_singleton_self 0
    have hFragment := hGroup.fragment 0 call.arguments
    rw [if_neg (fun h => h.2 hIn), Nat.add_zero] at hFragment
    refine ⟨_, ?_, .calls oneCall rfl hGroup rfl⟩
    unfold firstToolCall
    rw [Brackets.read_cons, hStart, Option.bind_some]
    exact hFragment

theorem firstContent_tracks (delta : Delta) (h : Tracks info b g)
    (hComplete : g.all Group.complete = true)
    (hLast : ∀ x : Content, info.lastMessagesType ≠ x.type) :
    Reads b (firstContent delta info) (some (if delta.shown.isSome then none else g)) := by
  rw [firstContent_eq]
  cases delta.shown with
  | none => exact .goesOn rfl h
  | some x =>
    have hNew := h.newBlock x
    rw [hComplete] at hNew
    rw [Option.elim_some, firstBlock_of_ne (hLast x)]
    exact hNew

theorem firstEvents_tracks (c : Chunk) (delta : Delta) (hLast : info.lastMessagesType = .none) :
    ∃ b, Brackets.read {} (firstEvents c delta info).1 = some b ∧
      Tracks (firstEvents c delta info).2 b (firstGroup delta) := by
  obtain ⟨b₁, hRead₁, hTracks₁⟩ := firstToolCall_tracks delta.toolCalls hLast
  have hComplete : (if delta.toolCalls = [] then none else some oneCall).all Group.complete =
      true := by
    split <;> rfl
  have hGroup : firstGroup delta = if delta.shown.isSome then none
      else if delta.toolCalls = [] then none else some oneCall := by
    unfold firstGroup oneCall Delta.shown
    by_cases hCalls : delta.toolCalls = [] <;> by_cases hReasoning : delta.getReasoningContent = []
      <;> by_cases hContent : delta.getContentString = [] <;> simp [hCalls, hReasoning, hContent]
  rw [hGroup]
  cases firstContent_tracks delta hTracks₁ hComplete (firstToolCall_last delta.toolCalls hLast) with
  | goesOn hRead₂ hTracks₂ =>
    refine ⟨_, ?_, hTracks₂⟩
    unfold firstEvents
    dsimp only
    rw [cons_append, Brackets.read_cons]
    show (Brackets.read { begun := true } _) = _
    rw [Brackets.read_append, hRead₁]
    exact hRead₂

theorem Tracks.edit {info' : RelayInfo} (h : Tracks info b g)
    (hLast : info'.lastMessagesType = info.lastMessagesType) (hIndex : info'.index = info.index)
    (hBase : info'.toolCallBaseIndex = info.toolCallBaseIndex)
    (hMax : info'.toolCallMaxIndexOffset = info.toolCallMaxIndexOffset) : Tracks info' b g := by
  cases h with
  | idle running last opened started =>
    refine .idle running (hLast.trans last) opened ?_
    rw [hIndex]
    exact started
  | single running last opened started =>
    refine .single running ?_ ?_ ?_
    · rw [hLast]
      exact last
    · rw [hIndex]
      exact opened
    · rw [hIndex]
      exact started
  | calls g last inGroup maxOffset =>
    refine .calls g (hLast.trans last) ?_ (hMax.trans maxOffset)
    rw [hBase]
    exact inGroup

section

variable {c : Chunk} {choice : Choice} {more : List Choice} (hChoices : c.choices = choice :: more)
include hChoices

theorem tidyFrom_of_running (hFinish : choice.finish = none) (g : Option Group)
    (rest : List Chunk) : tidyFrom g (c :: rest) = match groupAfter g choice.delta with
      | none => false
      | some g => tidyFrom g rest := by
  simp [tidyFrom, hChoices, hFinish]

theorem tidyFrom_of_deferred {reason : String} (hFinish : choice.finish = some reason)
    (hUsage : c.usage = none)
    (g : Option Group) (rest : List Chunk) : tidyFrom g (c :: rest) = tidyFrom g rest := by
  simp [tidyFrom, hChoices, hFinish, hUsage]

theorem tidyFrom_of_last {reason : String} {usage : Usage} (hFinish : choice.finish = some reason)
    (hUsage : c.usage = some usage) (g : Option Group) (rest : List Chunk) :
    tidyFrom g (c :: rest) = match groupAfter g choice.delta with
      | none => false
      | some g => g.all Group.complete := by
  simp [tidyFrom, hChoices, hFinish, hUsage]

theorem tidy_cons (rest : List Chunk) :
    tidy (c :: rest) = (choice.finish.isSome || tidyFrom (firstGroup choice.delta) rest) := by
  simp [tidy, hChoices]

end

theorem handleStream_tracks {chunks : List Chunk}
    (hOne : ∀ c ∈ chunks, ∃ choice, c.choices = [choice]) (h : Tracks info b g)
    (hDone : info.done = false) (hCount : info.sendResponseCount ≠ 0) :
    (b.read (handleStream chunks info).1).isSome = tidyFrom g chunks := by
  induction chunks generalizing info b g with
  | nil => rfl
  | cons c rest ih =>
    obtain ⟨⟨choice, hChoices⟩, hOneRest⟩ := forall_mem_cons.mp hOne
    have hReceived : Tracks (info.received c) b g := h.edit rfl rfl rfl rfl
    rcases handleStream_later_cases hChoices hDone hCount rest with
      ⟨hFinish, hNextDone, hNextCount, hStream⟩ | ⟨reason, hFinish, hUsage, hStream⟩ |
      ⟨reason, usage, hFinish, hUsage, hStream⟩
    · rw [hStream, Brackets.read_append, tidyFrom_of_running hChoices hFinish]
      have hReads := hReceived.appendDelta choice.delta
      generalize groupAfter g choice.delta = after at hReads ⊢
      cases hReads with
      | fails hRead =>
        rw [hRead]
        rfl
      | goesOn hRead hTracks =>
        rw [hRead]
        exact ih hOneRest hTracks hNextDone hNextCount
    · rw [hStream, tidyFrom_of_deferred hChoices hFinish hUsage]
      exact ih hOneRest (hReceived.edit rfl rfl rfl rfl) hDone (Nat.succ_ne_zero _)
    · have hMarked : Tracks { info.received c with finishReason := reason } b g :=
        hReceived.edit rfl rfl rfl rfl
      rw [hStream, Brackets.read_append, tidyFrom_of_last hChoices hFinish hUsage]
      have hReads := hMarked.appendDelta choice.delta
      generalize groupAfter g choice.delta = after at hReads ⊢
      cases hReads with
      | fails hRead =>
        rw [hRead]
        rfl
      | @goesOn b' g' hRead hTracks =>
        rw [hRead, Option.bind_some, hTracks.close]
        dsimp only
        cases g'.all Group.complete <;> rfl

/-! ## Streams -/

theorem Brackets.step_begun {b' : Brackets} {e : ClaudeEvent} (h : b.step e = some b') :
    b'.begun = true := by
  -- every event but the first one asks for a message that has begun
  cases e with
  | messageStart id model usage =>
    obtain ⟨-, hStep⟩ := Option.ite_none_left_eq_some.mp h
    rw [← Option.some.inj hStep]
  | blockStart i block =>
    obtain ⟨hGuard, hStep⟩ := Option.ite_none_right_eq_some.mp h
    rw [Bool.and_eq_true, Bool.and_eq_true] at hGuard
    rw [← Option.some.inj hStep]
    exact hGuard.1.1
  | blockDelta i delta | blockStop i | messageStop =>
    obtain ⟨hGuard, hStep⟩ := Option.ite_none_right_eq_some.mp h
    rw [Bool.and_eq_true] at hGuard
    rw [← Option.some.inj hStep]
    exact hGuard.1
  | messageDelta usage reason =>
    obtain ⟨hBegun, hStep⟩ := Option.ite_none_right_eq_some.mp h
    rw [← Option.some.inj hStep]
    exact hBegun

theorem Brackets.read_begun {b' : Brackets} (hb : b.begun = true) {events : List ClaudeEvent}
    (h : b.read events = some b') : b'.begun = true := by
  induction events generalizing b with
  | nil =>
    rw [← Option.some.inj h]
    exact hb
  | cons e rest ih =>
    rw [Brackets.read_cons, Option.bind_eq_some_iff] at h
    obtain ⟨mid, hStep, hRest⟩ := h
    exact ih (Brackets.step_begun hStep) hRest

theorem wellBracketed_append {first : List ClaudeEvent}
    (hFirst : Brackets.read {} first = some b) (hb : b.begun = true) (rest : List ClaudeEvent) :
    WellBracketed (first ++ rest) ↔ (b.read rest).isSome = true := by
  unfold WellBracketed
  rw [Brackets.read_append, hFirst, Option.bind_some, Option.isSome_iff_exists]
  constructor
  · rintro ⟨b', hRead, -⟩
    exact ⟨b', hRead⟩
  · rintro ⟨b', hRead⟩
    exact ⟨b', hRead, Brackets.read_begun hb hRead⟩

/-- The first chunk leaves no group that cannot be stopped. -/
theorem firstGroup_complete (delta : Delta) : (firstGroup delta).all Group.complete = true := by
  unfold firstGroup
  split <;> rfl

theorem handleStream_wellBracketed_iff {chunks : List Chunk} (hne : chunks ≠ [])
    (hOne : ∀ c ∈ chunks, ∃ choice, c.choices = [choice]) (estimate : Int) :
    WellBracketed (handleStream chunks (.new estimate)).1 ↔ tidy chunks = true := by
  cases chunks with
  | nil => exact absurd rfl hne
  | cons c rest =>
    obtain ⟨⟨choice, hChoices⟩, hOneRest⟩ := forall_mem_cons.mp hOne
    have hLast : ((RelayInfo.new estimate).received c).lastMessagesType = .none := rfl
    obtain ⟨b, hRead, hTracks⟩ := firstEvents_tracks c choice.delta hLast
    have hBegun := hTracks.running.begun
    rw [tidy_cons hChoices]
    rcases handleStream_first_cases hChoices estimate rest with
      ⟨hFinish, hDone, hCount, hStream⟩ | ⟨reason, hFinish, hStream⟩
    · rw [hStream, wellBracketed_append hRead hBegun,
        handleStream_tracks hOneRest hTracks hDone hCount, hFinish, Option.isSome_none, Bool.false_or]
    · have hMarked : Tracks
          { (firstEvents c choice.delta ((RelayInfo.new estimate).received c)).2 with
            finishReason := reason } b (firstGroup choice.delta) := hTracks.edit rfl rfl rfl rfl
      rw [hStream, wellBracketed_append hRead hBegun, hMarked.close, firstGroup_complete, hFinish]
      exact iff_of_true rfl rfl

/-- A stream of one chunk is sent without a `message_start`, and one of two with two of them, unless
the first chunk ends the message. -/
def sentTidy : List Chunk → Bool
  | [] | [_] => false
  | [c, _] => c.finish.isSome
  | chunks => tidy chunks

def ClaudeEvent.isStart : ClaudeEvent → Bool
  | .messageStart _ _ _ => true
  | _ => false

/-- A message that has no start is not in order. -/
theorem not_wellBracketed_of_unbegun {events : List ClaudeEvent}
    (h : ∀ e ∈ events, e.isStart = false) : ¬ WellBracketed events := by
  rintro ⟨b, hRead, hBegun⟩
  cases events with
  | nil =>
    rw [← Option.some.inj hRead] at hBegun
    cases hBegun
  | cons e rest =>
    have hStart := h e mem_cons_self
    rw [Brackets.read_cons] at hRead
    cases e with
    | messageStart => cases hStart
    | _ => cases hRead

theorem toolCallLoop_unbegun (base i maxOffset : Nat) (calls : List ToolCall) :
    ∀ e ∈ (toolCallLoop base i maxOffset calls).1, e.isStart = false := by
  induction calls generalizing i maxOffset with
  | nil => exact forall_mem_nil _
  | cons call rest ih =>
    unfold toolCallLoop toolCallEvents argumentsDelta
    refine forall_mem_append.mpr ⟨?_, ih _ _⟩
    split <;> split <;> simp [ClaudeEvent.isStart]

theorem stopOpenBlocks_unbegun (info : RelayInfo) :
    ∀ e ∈ Stream.stopOpenBlocks info, e.isStart = false := by
  unfold Stream.stopOpenBlocks
  split <;> simp [ClaudeEvent.isStart]

theorem stopOpenBlocksAndAdvance_unbegun (info : RelayInfo) :
    ∀ e ∈ (stopOpenBlocksAndAdvance info).1, e.isStart = false := by
  unfold stopOpenBlocksAndAdvance
  split
  · exact forall_mem_nil _
  all_goals exact stopOpenBlocks_unbegun info

theorem openToolCalls_unbegun (info : RelayInfo) :
    ∀ e ∈ (Stream.openToolCalls info).1, e.isStart = false := by
  unfold Stream.openToolCalls
  split
  · exact forall_mem_nil _
  · exact stopOpenBlocksAndAdvance_unbegun info

theorem appendDelta_unbegun (delta : Delta) (info : RelayInfo) :
    ∀ e ∈ (Stream.appendDelta delta info).1, e.isStart = false := by
  rw [appendDelta_eq]
  split
  · exact forall_mem_append.mpr ⟨openToolCalls_unbegun info, toolCallLoop_unbegun _ _ _ _⟩
  · cases delta.shown with
    | none => exact forall_mem_nil _
    | some x =>
      rw [Option.elim_some, appendBlock_eq]
      split
      · simp [ClaudeEvent.isStart]
      · exact forall_mem_append.mpr
          ⟨stopOpenBlocksAndAdvance_unbegun info, by simp [ClaudeEvent.isStart]⟩

theorem close_unbegun (c : Chunk) (stopReason : String) (info : RelayInfo) :
    ∀ e ∈ (Stream.close c stopReason info).1, e.isStart = false := by
  unfold Stream.close messageEnd
  refine forall_mem_append.mpr ⟨stopOpenBlocks_unbegun info, ?_⟩
  cases c.usage.or info.usage <;> simp [ClaudeEvent.isStart]

/-- The only chunk of a stream is taken for a later one. -/
theorem not_wellBracketed_of_one {c : Chunk} {choice : Choice} {more : List Choice}
    (hChoices : c.choices = choice :: more) (usage : Usage) (estimate : Int) :
    ¬ WellBracketed (oaiStreamHandler [c] usage (.new estimate)) := by
  refine not_wellBracketed_of_unbegun ?_
  have hDone : ({ RelayInfo.new estimate with sendResponseCount := 1 } : RelayInfo).done = false :=
    rfl
  rw [oaiStreamHandler_one_chunk hChoices]
  rcases handleStream_later_cases hChoices hDone Nat.one_ne_zero [] with
    ⟨-, -, -, hStream⟩ | ⟨reason, -, -, hStream⟩ | ⟨reason, usage, -, -, hStream⟩
  · rw [hStream]
    exact forall_mem_append.mpr ⟨appendDelta_unbegun _ _, forall_mem_nil _⟩
  · rw [hStream]
    exact forall_mem_nil _
  · rw [hStream]
    exact forall_mem_append.mpr ⟨appendDelta_unbegun _ _, close_unbegun _ _ _⟩

theorem firstChunk_start (c : Chunk) (info : RelayInfo) :
    ∃ rest, (firstChunk c info).1 = info.messageStart c :: rest := by
  unfold firstChunk
  split
  · exact ⟨[], rfl⟩
  · dsimp only
    split <;> exact ⟨_, rfl⟩

/-- The second of two chunks starts the message again. -/
theorem not_wellBracketed_of_two {first last : Chunk} {choice : Choice} {more : List Choice}
    (hChoices : first.choices = choice :: more) (hFinish : choice.finish = none) (usage : Usage)
    (estimate : Int) : ¬ WellBracketed (oaiStreamHandler [first, last] usage (.new estimate)) := by
  have hLast : ((RelayInfo.new estimate).received first).lastMessagesType = .none := rfl
  obtain ⟨b, hRead, hTracks⟩ := firstEvents_tracks first choice.delta hLast
  obtain ⟨info, hStream⟩ := oaiStreamHandler_two_chunks hChoices hFinish usage estimate
  obtain ⟨rest, hStart⟩ := firstChunk_start last info
  have hAgain : b.read (firstChunk last info).1 = none := by
    rw [hStart, Brackets.read_cons, RelayInfo.messageStart, Brackets.step,
      if_pos hTracks.running.begun]
    rfl
  rw [hStream, wellBracketed_append hRead hTracks.running.begun, hAgain]
  exact Bool.false_ne_true

/-- **The blocks of a Claude stream are well bracketed if and only if the groups of tool calls are
in order**, and the first chunk alone starts the message. -/
theorem wellBracketed_iff_tidy {chunks : List Chunk}
    (hOne : ∀ c ∈ chunks, ∃ choice, c.choices = [choice]) (usage : Usage) (estimate : Int) :
    WellBracketed (oaiStreamHandler chunks usage (.new estimate)) ↔ sentTidy chunks = true := by
  rcases eq_nil_or_concat chunks with rfl | ⟨init, last, rfl⟩
  · exact iff_of_false (not_wellBracketed_of_unbegun (forall_mem_nil _)) Bool.false_ne_true
  rw [concat_eq_append] at hOne ⊢
  obtain ⟨choice, hChoices⟩ := hOne last (mem_append_right _ mem_cons_self)
  have hne : init ++ [last] ≠ [] := append_ne_nil_of_right_ne_nil _ (cons_ne_nil _ _)
  match init with
  | [] => exact iff_of_false (not_wellBracketed_of_one hChoices usage estimate) Bool.false_ne_true
  | [first] =>
    obtain ⟨choice₁, hFirst⟩ := hOne first mem_cons_self
    have hFinish : first.finish = choice₁.finish := by
      rw [Chunk.finish, hFirst]
      rfl
    show _ ↔ first.finish.isSome = true
    cases hNone : choice₁.finish with
    | none =>
      rw [hFinish, hNone]
      exact iff_of_false (not_wellBracketed_of_two hFirst hNone usage estimate) Bool.false_ne_true
    | some reason =>
      have hEnds : first.finish ≠ none := by
        rw [hFinish, hNone]
        exact Option.some_ne_none reason
      rw [oaiStreamHandler_in_turn hChoices (Or.inl hEnds),
        handleStream_wellBracketed_iff hne hOne, cons_append, tidy_cons hFirst, hFinish, hNone]
      exact iff_of_true rfl rfl
  | first :: second :: more =>
    have hTidy : sentTidy (first :: second :: more ++ [last]) =
        tidy (first :: second :: more ++ [last]) := by
      cases more <;> rfl
    rw [oaiStreamHandler_in_turn hChoices (Or.inr (cons_ne_nil _ _)),
      handleStream_wellBracketed_iff hne hOne, hTidy]

/-- Two calls with a text between them: the block of the second is started one too late, and the one
before it, which has not been started, is stopped. -/
theorem second_group_stops_unstarted :
    (∀ c ∈ [sampleChunk { content := some [65] } none none,
        sampleChunk { toolCalls := [wholeCall 0 "call_0" "f"] } none none,
        sampleChunk { content := some [66] } none none,
        sampleChunk { toolCalls := [wholeCall 1 "call_1" "g"] } none none,
        sampleChunk {} (some "tool_calls") (some {})], ∃ choice, c.choices = [choice]) ∧
      ¬ WellBracketed (oaiStreamHandler [sampleChunk { content := some [65] } none none,
        sampleChunk { toolCalls := [wholeCall 0 "call_0" "f"] } none none,
        sampleChunk { content := some [66] } none none,
        sampleChunk { toolCalls := [wholeCall 1 "call_1" "g"] } none none,
        sampleChunk {} (some "tool_calls") (some {})] {} (.new 0)) := by
  constructor
  · intro c hc
    simp only [mem_cons, not_mem_nil, or_false] at hc
    rcases hc with rfl | rfl | rfl | rfl | rfl <;> exact ⟨_, rfl⟩
  · rintro ⟨b, hRead, -⟩
    refine Option.some_ne_none b (hRead.symm.trans ?_)
    decide

/-- Two calls in one chunk after a text. -/
theorem wellBracketed_iff_tidy_parallel :
    WellBracketed (oaiStreamHandler [sampleChunk { content := some [65] } none none,
      sampleChunk { toolCalls := [wholeCall 0 "call_0" "f", wholeCall 1 "call_1" "g"] } none none,
      sampleChunk {} (some "tool_calls") (some {})] {} (.new 0)) := by
  refine (wellBracketed_iff_tidy ?_ {} 0).mpr (by decide)
  intro c hc
  simp only [mem_cons, not_mem_nil, or_false] at hc
  rcases hc with rfl | rfl | rfl <;> exact ⟨_, rfl⟩

end Qapi.Stream
