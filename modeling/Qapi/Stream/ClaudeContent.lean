import Mathlib.Logic.Function.Basic
import Qapi.Core.Routing
import Qapi.Stream.ClaudeEnd

/-!
# The content of a Claude stream

A reader of a Claude stream collects the text, the thinking and, by the id of the block,
the input of each tool call. What arrives is what the converter passes on of each chunk: no
text beside reasoning, neither beside tool calls, nothing of a chunk that finishes the
answer without a usage, and of a tool call only the fragments that come in the same group
as its start. The only chunk of a stream is taken for a later one, and the second of two
for a first one.
-/

namespace Qapi.Stream

open Qapi.Core List Function

/-! ## The reader -/

/-- What a reader has collected; `blocks` are the ids of the tool calls by block. -/
structure Reading where
  blocks : Nat → Option String := fun _ => none
  text : Bytes := []
  thinking : Bytes := []
  json : String → Bytes := fun _ => []

def Reading.step (r : Reading) : ClaudeEvent → Reading
  | .blockStart i (.toolUse id _) => { r with blocks := update r.blocks i (some id) }
  | .blockStart i _ => { r with blocks := update r.blocks i none }
  | .blockDelta _ (.text text) => { r with text := r.text ++ text }
  | .blockDelta _ (.thinking thinking) => { r with thinking := r.thinking ++ thinking }
  | .blockDelta i (.inputJson partialJson) =>
    match r.blocks i with
    | some id => { r with json := update r.json id (r.json id ++ partialJson) }
    | none => r
  | _ => r

def Reading.read (r : Reading) (events : List ClaudeEvent) : Reading := events.foldl Reading.step r

@[simp] theorem Reading.read_nil (r : Reading) : r.read [] = r := rfl

@[simp] theorem Reading.read_cons (r : Reading) (e : ClaudeEvent) (l : List ClaudeEvent) :
    r.read (e :: l) = (r.step e).read l := rfl

theorem Reading.read_append (r : Reading) (l m : List ClaudeEvent) :
    r.read (l ++ m) = (r.read l).read m :=
  foldl_append

/-! ## What comes in -/

/-- The fragments of tool calls with their indexes; without one, the position counts. -/
def Delta.fragments (delta : Delta) : List (Nat × ToolCall) :=
  delta.toolCalls.zipIdx.map fun x => (x.1.index.getD x.2, x.1)

def deltas (chunks : List Chunk) : List Delta := chunks.flatMap fun c => c.choices.map Choice.delta

def fragmentsOf (chunks : List Chunk) : List (Nat × ToolCall) :=
    (deltas chunks).flatMap Delta.fragments

def argumentsOf (k : Nat) (chunks : List Chunk) : Bytes :=
  ((fragmentsOf chunks).filter fun f => f.1 = k).flatMap fun f => f.2.arguments

/-- The calls can be told apart: a call begins with its name and its id, and no two have one id. -/
structure Identified (ids : Nat → String) (chunks : List Chunk) : Prop where
  named : ∀ f ∈ fragmentsOf chunks, f.2.name ≠ "" → f.2.id = ids f.1
  first : ∀ f ∈ (fragmentsOf chunks).head?, f.2.name ≠ ""
  distinct : ∀ f ∈ fragmentsOf chunks, ∀ g ∈ fragmentsOf chunks, ids f.1 = ids g.1 → f.1 = g.1

/-- Nothing is lost, and every call has its own arguments. -/
structure KeepsContent (ids : Nat → String) (chunks : List Chunk) (r : Reading) : Prop where
  text : r.text = (deltas chunks).flatMap Delta.getContentString
  thinking : r.thinking = (deltas chunks).flatMap Delta.getReasoningContent
  json : ∀ f ∈ fragmentsOf chunks, r.json (ids f.1) = argumentsOf f.1 chunks

/-! ## What is passed on -/

/-- A fragment of a call, and the id of the block that it goes to. -/
structure Fragment where
  index : Nat
  owner : Option String
  arguments : Bytes
deriving DecidableEq

/-- The ids of the blocks at the offsets of a group. -/
abbrev Blocks := Nat → Option String

/-- A fragment at position `i` of a chunk: a name gives the call the block at its index. -/
def routeCall (blocks : Blocks) (i : Nat) (call : ToolCall) : Fragment × Blocks :=
  let k := call.index.getD i
  let blocks := if call.name = "" then blocks else update blocks k (some call.id)
  (⟨k, blocks k, call.arguments⟩, blocks)

def routeCalls (blocks : Blocks) (i : Nat) : List ToolCall → List Fragment × Blocks
  | [] => ([], blocks)
  | call :: rest =>
    let (fragment, blocks) := routeCall blocks i call
    let (fragments, blocks) := routeCalls blocks (i + 1) rest
    (fragment :: fragments, blocks)

def lostCalls (fragments : List (Nat × ToolCall)) : List Fragment :=
  fragments.map fun f => ⟨f.1, none, f.2.arguments⟩

/-- What becomes of a delta: whether its text and its reasoning are passed on, and who gets the
fragments. -/
structure Passed where
  delta : Delta
  content : Bool
  reasoning : Bool
  fragments : List Fragment
deriving DecidableEq

def Passed.whole (ids : Nat → String) (p : Passed) : Bool :=
  (p.content || p.delta.getContentString = []) && (p.reasoning || p.delta.getReasoningContent = [])
    && p.fragments.all fun f => f.owner = some (ids f.index) || f.arguments = []

def Passed.text (p : Passed) : Bytes := if p.content then p.delta.getContentString else []

def Passed.thinking (p : Passed) : Bytes := if p.reasoning then p.delta.getReasoningContent else []

def Passed.lost (delta : Delta) : Passed := ⟨delta, false, false, lostCalls delta.fragments⟩

/-- Whether the delta closes a group of tool calls. -/
def Delta.hasContent (delta : Delta) : Bool :=
    delta.getReasoningContent ≠ [] || delta.getContentString ≠ []

/-- The first chunk: one tool call, which gets the block 0, and the reasoning or the text. -/
def passFirst (delta : Delta) : Passed × Blocks :=
  let fragments : List Fragment :=
    match delta.fragments with
    | [] => []
    | f :: rest => ⟨f.1, some f.2.id, f.2.arguments⟩ :: lostCalls rest
  let blocks : Blocks :=
    if delta.hasContent then fun _ => none
    else
      match delta.fragments with
      | [] => fun _ => none
      | f :: _ => update (fun _ => none) 0 (some f.2.id)
  (⟨delta, delta.getReasoningContent = [], true, fragments⟩, blocks)

/-- A later chunk: the tool calls, else the reasoning, else the text. -/
def passLater (blocks : Blocks) (delta : Delta) : Passed × Blocks :=
  if delta.toolCalls ≠ [] then
    let (fragments, blocks) := routeCalls blocks 0 delta.toolCalls
    (⟨delta, false, false, fragments⟩, blocks)
  else
    (⟨delta, delta.getReasoningContent = [], true, []⟩,
      if delta.hasContent then fun _ => none else blocks)

/-- The later chunks; after the end of the message, nothing is passed on. -/
def passFrom (blocks : Blocks) (ended : Bool) : List Chunk → List Passed
  | [] => []
  | c :: rest =>
    match c.choices with
    | [] => passFrom blocks ended rest
    | choice :: _ =>
      if ended || (choice.finish.isSome && c.usage.isNone) then
        .lost choice.delta :: passFrom blocks ended rest
      else
        let (passed, blocks) := passLater blocks choice.delta
        passed :: passFrom blocks choice.finish.isSome rest

def pass : List Chunk → List Passed
  | [] => []
  | c :: rest =>
    match c.choices with
    | [] => passFrom (fun _ => none) false rest
    | choice :: _ =>
      let (passed, blocks) := passFirst choice.delta
      passed :: passFrom blocks choice.finish.isSome rest

/-- What the handler of a chat stream passes on. -/
def passStream : List Chunk → List Passed
  | [c] => passFrom (fun _ => none) false [c]
  | [c, c'] => if c.finish.isSome then pass [c, c'] else pass [c] ++ pass [c']
  | chunks => pass chunks

/-! ## The converter and the reader -/

structure Adds (r r' : Reading) (text thinking : Bytes) (fragments : List Fragment) : Prop where
  text : r'.text = r.text ++ text
  thinking : r'.thinking = r.thinking ++ thinking
  json : ∀ id, r'.json id =
    r.json id ++ (fragments.filter fun f => f.owner = some id).flatMap Fragment.arguments

section

theorem Adds.refl (r : Reading) : Adds r r [] [] [] where
  text := (append_nil _).symm
  thinking := (append_nil _).symm
  json := fun _ => (append_nil _).symm

theorem Adds.trans {r₁ r₂ r₃ : Reading} {text₁ text₂ thinking₁ thinking₂ : Bytes}
    {fragments₁ fragments₂ : List Fragment} (h₁ : Adds r₁ r₂ text₁ thinking₁ fragments₁)
    (h₂ : Adds r₂ r₃ text₂ thinking₂ fragments₂) :
    Adds r₁ r₃ (text₁ ++ text₂) (thinking₁ ++ thinking₂) (fragments₁ ++ fragments₂) where
  text := by rw [h₂.text, h₁.text, append_assoc]
  thinking := by rw [h₂.thinking, h₁.thinking, append_assoc]
  json := by
    intro id
    rw [h₂.json, h₁.json, filter_append, flatMap_append, append_assoc]

theorem Adds.lost (r : Reading) (fragments : List (Nat × ToolCall)) :
    Adds r r [] [] (lostCalls fragments) := by
  refine ⟨(append_nil _).symm, (append_nil _).symm, ?_⟩
  intro id
  have hNone : ((lostCalls fragments).filter fun f => f.owner = some id) = [] := by
    rw [filter_eq_nil_iff]
    intro f hf
    obtain ⟨g, -, rfl⟩ := mem_map.mp hf
    simp
  rw [hNone]
  exact (append_nil _).symm

/-- The blocks of the reader in an open group. -/
structure Routes (base maxOffset : Nat) (m : Nat → Option String) (blocks : Blocks) : Prop where
  route : ∀ o, m (base + o) = blocks o
  bound : ∀ o, maxOffset < o → blocks o = none

/-- How the state of the converter and the blocks of the reader go together. -/
inductive Follows (info : RelayInfo) (m : Nat → Option String) : Blocks → Prop
  | idle (last : info.lastMessagesType = .none) (free : ∀ i, info.index ≤ i → m i = none) :
      Follows info m fun _ => none
  | single (last : info.lastMessagesType = .text ∨ info.lastMessagesType = .thinking)
      (free : ∀ i, info.index < i → m i = none) : Follows info m fun _ => none
  | calls (blocks : Blocks) (last : info.lastMessagesType = .tools)
      (routes : Routes info.toolCallBaseIndex info.toolCallMaxIndexOffset m blocks) :
      Follows info m blocks

variable {info : RelayInfo} {m : Nat → Option String} {blocks : Blocks}

theorem Follows.edit {info' : RelayInfo} (h : Follows info m blocks)
    (hLast : info'.lastMessagesType = info.lastMessagesType) (hIndex : info'.index = info.index)
    (hBase : info'.toolCallBaseIndex = info.toolCallBaseIndex)
    (hMax : info'.toolCallMaxIndexOffset = info.toolCallMaxIndexOffset) :
    Follows info' m blocks := by
  cases h with
  | idle last free =>
    refine .idle (hLast.trans last) ?_
    rw [hIndex]
    exact free
  | single last free =>
    refine .single ?_ ?_
    · rw [hLast]
      exact last
    · rw [hIndex]
      exact free
  | calls _ last routes =>
    refine .calls blocks (hLast.trans last) ?_
    rw [hBase, hMax]
    exact routes

theorem read_stopOpenBlocks (r : Reading) (info : RelayInfo) :
    r.read (stopOpenBlocks info) = r := by
  have hStops : ∀ (l : List Nat) (f : Nat → Nat), r.read (l.map fun o => .blockStop (f o)) = r := by
    intro l f
    induction l with
    | nil => rfl
    | cons o l ih => exact ih
  unfold stopOpenBlocks
  split
  · rfl
  · rfl
  · rfl
  · exact hStops _ _

theorem read_advance (r : Reading) (info : RelayInfo) :
    r.read (stopOpenBlocksAndAdvance info).1 = r := by
  unfold stopOpenBlocksAndAdvance
  split
  · rfl
  all_goals exact read_stopOpenBlocks r info

theorem Follows.advance (h : Follows info m blocks) :
    ∀ i, (stopOpenBlocksAndAdvance info).2.index ≤ i → m i = none := by
  unfold stopOpenBlocksAndAdvance
  cases h with
  | idle last free =>
    rw [last]
    exact free
  | single last free =>
    have hIndex : ∀ i, info.index + 1 ≤ i → m i = none := fun i hi => free i hi
    rcases last with last | last <;> rw [last] <;> exact hIndex
  | calls _ last routes =>
    rw [last]
    intro i hi
    dsimp only at hi
    obtain ⟨o, rfl⟩ : ∃ o, i = info.toolCallBaseIndex + o := ⟨i - info.toolCallBaseIndex, by omega⟩
    rw [routes.route, routes.bound o (by omega)]

/-- What the reader takes of the events of a step, and the ids of the blocks that are open after
it. -/
structure Carries (r : Reading) (result : List ClaudeEvent × RelayInfo) (text thinking : Bytes)
    (fragments : List Fragment) (blocks : Blocks) : Prop where
  adds : Adds r (r.read result.1) text thinking fragments
  follows : Follows result.2 (r.read result.1).blocks blocks

/-! ## Tool calls -/

variable {base maxOffset : Nat}

theorem Routes.mono {maxOffset' : Nat} (h : Routes base maxOffset m blocks)
    (hle : maxOffset ≤ maxOffset') : Routes base maxOffset' m blocks :=
  ⟨h.route, fun o ho => h.bound o (Nat.lt_of_le_of_lt hle ho)⟩

/-- The name of a call gives it the block at its index. -/
theorem Routes.start (h : Routes base maxOffset m blocks) (k : Nat) (id : String) :
    Routes base (max maxOffset k) (update m (base + k) (some id)) (update blocks k (some id)) := by
  constructor
  · intro o
    by_cases ho : o = k
    · subst ho
      simp
    · have hne : base + o ≠ base + k := by omega
      rw [update_of_ne hne, update_of_ne ho]
      exact h.route o
  · intro o ho
    have hne : o ≠ k := by omega
    rw [update_of_ne hne]
    exact h.bound o (by omega)

variable {r : Reading}

/-- A fragment goes to the call whose block it names. -/
theorem read_argumentsDelta {i : Nat} {owner : Option String} (hBlock : r.blocks i = owner)
    (index : Nat) (arguments : Bytes) :
    Adds r (r.read (argumentsDelta i arguments)) [] [] [⟨index, owner, arguments⟩] ∧
      (r.read (argumentsDelta i arguments)).blocks = r.blocks := by
  unfold argumentsDelta
  split
  · rename_i hEmpty
    subst hEmpty
    refine ⟨⟨(append_nil _).symm, (append_nil _).symm, ?_⟩, rfl⟩
    intro id
    simp only [Reading.read_nil, filter_cons, filter_nil]
    split <;> simp
  · rw [Reading.read_cons, Reading.read_nil]
    cases owner with
    | none =>
      have hStep : r.step (.blockDelta i (.inputJson arguments)) = r := by
        simp [Reading.step, hBlock]
      rw [hStep]
      exact ⟨⟨(append_nil _).symm, (append_nil _).symm, fun id => by simp⟩, rfl⟩
    | some owner =>
      have hStep : r.step (.blockDelta i (.inputJson arguments)) =
          { r with json := update r.json owner (r.json owner ++ arguments) } := by
        simp [Reading.step, hBlock]
      rw [hStep]
      refine ⟨⟨(append_nil _).symm, (append_nil _).symm, ?_⟩, rfl⟩
      intro id
      by_cases hId : owner = id
      · subst hId
        simp
      · simp [update_of_ne (Ne.symm hId), hId]

theorem Routes.call (h : Routes base maxOffset r.blocks blocks) (i : Nat) (call : ToolCall) :
    Adds r (r.read (toolCallEvents (base + call.index.getD i) call)) [] []
        [(routeCall blocks i call).1] ∧
      Routes base (max maxOffset (call.index.getD i))
        (r.read (toolCallEvents (base + call.index.getD i) call)).blocks
          (routeCall blocks i call).2 := by
  unfold toolCallEvents routeCall
  dsimp only
  set k := call.index.getD i
  rw [Reading.read_append]
  by_cases hName : call.name = ""
  · rw [if_pos hName, if_pos hName, Reading.read_nil]
    obtain ⟨hAdds, hBlocks⟩ := read_argumentsDelta (h.route k) k call.arguments
    rw [hBlocks]
    exact ⟨hAdds, h.mono (le_max_left _ _)⟩
  · rw [if_neg hName, if_neg hName, Reading.read_cons, Reading.read_nil]
    have hStarted : Routes base (max maxOffset k)
        (r.step (.blockStart (base + k) (.toolUse call.id call.name))).blocks
        (update blocks k (some call.id)) := h.start k call.id
    obtain ⟨hAdds, hBlocks⟩ := read_argumentsDelta (hStarted.route k) k call.arguments
    rw [hBlocks]
    exact ⟨⟨hAdds.text, hAdds.thinking, hAdds.json⟩, hStarted⟩

theorem Routes.calls (h : Routes base maxOffset r.blocks blocks) (i : Nat)
    (calls : List ToolCall) :
    Adds r (r.read (toolCallLoop base i maxOffset calls).1) [] []
      (routeCalls blocks i calls).1 ∧ Routes base (toolCallLoop base i maxOffset calls).2
        (r.read (toolCallLoop base i maxOffset calls).1).blocks (routeCalls blocks i calls).2 := by
  induction calls generalizing r blocks i maxOffset with
  | nil => exact ⟨.refl r, h⟩
  | cons call rest ih =>
    obtain ⟨hAdds, hRoutes⟩ := h.call i call
    obtain ⟨hAdds', hRoutes'⟩ := ih hRoutes (i + 1)
    unfold toolCallLoop routeCalls
    rw [Reading.read_append]
    exact ⟨hAdds.trans hAdds', hRoutes'⟩

theorem Follows.openToolCalls (h : Follows info r.blocks blocks) :
    r.read (Stream.openToolCalls info).1 = r ∧
      (Stream.openToolCalls info).2.lastMessagesType = .tools ∧
      Routes (Stream.openToolCalls info).2.toolCallBaseIndex
        (Stream.openToolCalls info).2.toolCallMaxIndexOffset r.blocks blocks := by
  have hFree := h.advance
  unfold Stream.openToolCalls
  split
  · rename_i hLast
    cases h with
    | idle last _ =>
      rw [last] at hLast
      cases hLast
    | single last _ => rcases last with last | last <;> rw [last] at hLast <;> cases hLast
    | calls _ _ routes => exact ⟨rfl, hLast, routes⟩
  · rename_i hLast
    have hNone : blocks = fun _ => none := by
      cases h with
      | idle _ _ => rfl
      | single _ _ => rfl
      | calls _ last _ => exact absurd last hLast
    subst hNone
    refine ⟨read_advance r info, rfl, ?_, fun _ _ => rfl⟩
    intro o
    exact hFree _ (Nat.le_add_right _ o)

theorem Follows.appendToolCalls (h : Follows info r.blocks blocks) (calls : List ToolCall) :
    Carries r (Stream.appendToolCalls calls info) [] [] (routeCalls blocks 0 calls).1
      (routeCalls blocks 0 calls).2 := by
  obtain ⟨hRead, hLast, hRoutes⟩ := h.openToolCalls
  obtain ⟨hAdds, hRoutes'⟩ := hRoutes.calls 0 calls
  rw [← hRead, ← Reading.read_append] at hAdds hRoutes'
  rw [hRead] at hAdds
  exact ⟨hAdds, .calls _ hLast hRoutes'⟩

/-! ## Text and reasoning -/

/-- A block that is not a tool call and its delta, as the reader takes them. -/
structure Shows (block : Block) (delta : BlockDelta) (text thinking : Bytes) : Prop where
  start : ∀ (r : Reading) i, r.step (.blockStart i block) =
    { r with blocks := update r.blocks i none }
  adds : ∀ (r : Reading) i, Adds r (r.step (.blockDelta i delta)) text thinking []
  blocks : ∀ (r : Reading) i, (r.step (.blockDelta i delta)).blocks = r.blocks

def Content.asText : Content → Bytes
  | .thinking _ => []
  | .text shown => shown

def Content.asThinking : Content → Bytes
  | .thinking shown => shown
  | .text _ => []

theorem Content.shows (x : Content) : Shows x.block x.delta x.asText x.asThinking := by
  have hSame : ∀ l : Bytes, l = l ++ [] := fun l => (append_nil l).symm
  cases x with
  | thinking shown =>
    exact ⟨fun _ _ => rfl, fun _ _ => ⟨hSame _, rfl, fun _ => hSame _⟩, fun _ _ => rfl⟩
  | text shown =>
    exact ⟨fun _ _ => rfl, fun _ _ => ⟨rfl, hSame _, fun _ => hSame _⟩, fun _ _ => rfl⟩

/-- A new block and its delta, wherever they are put. -/
theorem Content.adds_block (x : Content) (r : Reading) (i : Nat) :
    Adds r (r.read [.blockStart i x.block, .blockDelta i x.delta]) x.asText x.asThinking [] ∧
      (r.read [.blockStart i x.block, .blockDelta i x.delta]).blocks = update r.blocks i none := by
  have hAdds := x.shows.adds { r with blocks := update r.blocks i none } i
  rw [Reading.read_cons, Reading.read_cons, Reading.read_nil, x.shows.start, x.shows.blocks]
  exact ⟨⟨hAdds.text, hAdds.thinking, hAdds.json⟩, rfl⟩

theorem Follows.newBlock (h : Follows info r.blocks blocks) (x : Content) :
    Carries r (openBlock x info) x.asText x.asThinking [] fun _ => none := by
  have hFree := h.advance
  obtain ⟨hAdds, hBlocks⟩ := x.adds_block r (stopOpenBlocksAndAdvance info).2.index
  have hRead : r.read (openBlock x info).1 = _ := Reading.read_append _ _ _
  rw [read_advance] at hRead
  constructor
  · rw [hRead]
    exact hAdds
  · rw [hRead, hBlocks]
    refine .single x.type_eq fun i hi => ?_
    have hne : i ≠ (stopOpenBlocksAndAdvance info).2.index := Nat.ne_of_gt hi
    rw [update_of_ne hne]
    exact hFree i (Nat.le_of_lt hi)

theorem Follows.appendBlock (h : Follows info r.blocks blocks) (x : Content) :
    Carries r (Stream.appendBlock x.type x.block x.delta info) x.asText x.asThinking []
      fun _ => none := by
  rw [appendBlock_eq]
  split
  · rename_i hLast
    have hShows := x.shows
    refine ⟨hShows.adds r _, ?_⟩
    rw [Reading.read_cons, Reading.read_nil, hShows.blocks]
    cases h with
    | idle last _ | calls _ last _ =>
      rw [last] at hLast
      cases x <;> cases hLast
    | single last free => exact .single last free
  · exact h.newBlock x

/-- What is passed on of a delta without calls is what it shows. -/
theorem Delta.passed_shown (delta : Delta) (fragments : List Fragment) :
    Passed.text ⟨delta, delta.getReasoningContent = [], true, fragments⟩ =
        delta.shown.elim [] Content.asText ∧
      Passed.thinking ⟨delta, delta.getReasoningContent = [], true, fragments⟩ =
        delta.shown.elim [] Content.asThinking ∧ delta.hasContent = delta.shown.isSome := by
  unfold Passed.text Passed.thinking Delta.hasContent Delta.shown
  by_cases hReasoning : delta.getReasoningContent = [] <;>
    by_cases hContent : delta.getContentString = [] <;>
    simp [hReasoning, hContent, Content.asText, Content.asThinking]

theorem Follows.appendDelta (h : Follows info r.blocks blocks) (delta : Delta) :
    Carries r (Stream.appendDelta delta info) (passLater blocks delta).1.text
      (passLater blocks delta).1.thinking (passLater blocks delta).1.fragments
      (passLater blocks delta).2 := by
  unfold passLater
  rw [appendDelta_eq]
  split
  · exact h.appendToolCalls delta.toolCalls
  · obtain ⟨hText, hThinking, hHas⟩ := delta.passed_shown []
    rw [hText, hThinking, hHas]
    cases delta.shown with
    | none => exact ⟨.refl r, h⟩
    | some x => exact h.appendBlock x

theorem read_close (r : Reading) (c : Chunk) (stopReason : String) (info : RelayInfo) :
    r.read (close c stopReason info).1 = r := by
  unfold close messageEnd
  rw [Reading.read_append, read_stopOpenBlocks]
  cases c.usage.or info.usage <;> rfl

/-! ## Chunks -/

/-- What is passed on of the chunks, for the reader. -/
def AddsAll (r r' : Reading) (passed : List Passed) : Prop :=
  Adds r r' (passed.flatMap Passed.text) (passed.flatMap Passed.thinking)
    (passed.flatMap Passed.fragments)

theorem AddsAll.cons {r₁ r₂ r₃ : Reading} {p : Passed} {rest : List Passed}
    (h : Adds r₁ r₂ p.text p.thinking p.fragments) (hRest : AddsAll r₂ r₃ rest) :
    AddsAll r₁ r₃ (p :: rest) := h.trans hRest

theorem adds_lost (r : Reading) (delta : Delta) :
    Adds r r (Passed.lost delta).text (Passed.lost delta).thinking (Passed.lost delta).fragments :=
  .lost r delta.fragments

section

variable {c : Chunk} {choice : Choice} {more : List Choice} (hChoices : c.choices = choice :: more)
include hChoices

theorem passFrom_of_running (hFinish : choice.finish = none) (blocks : Blocks) (rest : List Chunk) :
    passFrom blocks false (c :: rest) =
      (passLater blocks choice.delta).1 :: passFrom (passLater blocks choice.delta).2 false
        rest := by
  simp [passFrom, hChoices, hFinish]

theorem passFrom_of_deferred {reason : String} (hFinish : choice.finish = some reason)
    (hUsage : c.usage = none) (blocks : Blocks) (rest : List Chunk) :
    passFrom blocks false (c :: rest) = .lost choice.delta :: passFrom blocks false rest := by
  simp [passFrom, hChoices, hFinish, hUsage]

theorem passFrom_of_last {reason : String} {usage : Usage} (hFinish : choice.finish = some reason)
    (hUsage : c.usage = some usage) (blocks : Blocks) (rest : List Chunk) :
    passFrom blocks false (c :: rest) =
      (passLater blocks choice.delta).1 :: passFrom (passLater blocks choice.delta).2 true
        rest := by
  simp [passFrom, hChoices, hFinish, hUsage]

theorem passFrom_of_ended (blocks : Blocks) (rest : List Chunk) :
    passFrom blocks true (c :: rest) = .lost choice.delta :: passFrom blocks true rest := by
  simp [passFrom, hChoices]

theorem pass_cons (rest : List Chunk) :
    pass (c :: rest) =
      (passFirst choice.delta).1 :: passFrom (passFirst choice.delta).2 choice.finish.isSome
        rest := by
  simp [pass, hChoices]

theorem deltas_cons (hMore : more = []) (rest : List Chunk) :
    deltas (c :: rest) = choice.delta :: deltas rest := by
  simp [deltas, hChoices, hMore]

theorem fragmentsOf_cons (hMore : more = []) (rest : List Chunk) :
    fragmentsOf (c :: rest) = choice.delta.fragments ++ fragmentsOf rest := by
  rw [fragmentsOf, deltas_cons hChoices hMore, flatMap_cons]
  rfl

end

variable {chunks : List Chunk}

theorem addsAll_ended (hOne : ∀ c ∈ chunks, ∃ choice, c.choices = [choice]) (r : Reading)
    (blocks : Blocks) : AddsAll r r (passFrom blocks true chunks) := by
  induction chunks with
  | nil => exact .refl r
  | cons c rest ih =>
    obtain ⟨⟨choice, hChoices⟩, hOneRest⟩ := forall_mem_cons.mp hOne
    rw [passFrom_of_ended hChoices]
    exact .cons (adds_lost r choice.delta) (ih hOneRest)

theorem handleStream_follows (hOne : ∀ c ∈ chunks, ∃ choice, c.choices = [choice])
    (h : Follows info r.blocks blocks) (hDone : info.done = false)
    (hCount : info.sendResponseCount ≠ 0) :
    AddsAll r (r.read (handleStream chunks info).1) (passFrom blocks false chunks) := by
  induction chunks generalizing info r blocks with
  | nil => exact .refl r
  | cons c rest ih =>
    obtain ⟨⟨choice, hChoices⟩, hOneRest⟩ := forall_mem_cons.mp hOne
    have hReceived : Follows (info.received c) r.blocks blocks := h.edit rfl rfl rfl rfl
    rcases handleStream_later_cases hChoices hDone hCount rest with
      ⟨hFinish, hNextDone, hNextCount, hStream⟩ | ⟨reason, hFinish, hUsage, hStream⟩ |
      ⟨reason, usage, hFinish, hUsage, hStream⟩
    · obtain ⟨hAdds, hFollows⟩ := hReceived.appendDelta choice.delta
      rw [hStream, Reading.read_append, passFrom_of_running hChoices hFinish]
      exact .cons hAdds (ih hOneRest hFollows hNextDone hNextCount)
    · have hMarked : Follows { info.received c with finishReason := reason } r.blocks blocks :=
        hReceived.edit rfl rfl rfl rfl
      rw [hStream, passFrom_of_deferred hChoices hFinish hUsage]
      exact .cons (adds_lost r choice.delta) (ih hOneRest hMarked hDone (Nat.succ_ne_zero _))
    · have hMarked : Follows { info.received c with finishReason := reason } r.blocks blocks :=
        hReceived.edit rfl rfl rfl rfl
      obtain ⟨hAdds, -⟩ := hMarked.appendDelta choice.delta
      rw [hStream, Reading.read_append, read_close, passFrom_of_last hChoices hFinish hUsage]
      exact .cons hAdds (addsAll_ended hOneRest _ _)

/-! ## The first chunk -/

/-- The first call gets the block 0, whatever its index. -/
theorem firstToolCall_adds (delta : Delta) (info : RelayInfo) (r : Reading) :
    Adds r (r.read (firstToolCall delta.toolCalls info).1) [] [] (passFirst delta).1.fragments := by
  unfold passFirst firstToolCall Delta.fragments
  cases delta.toolCalls with
  | nil => exact .refl r
  | cons call rest =>
    have hBlock : (r.step (.blockStart 0 (.toolUse call.id call.name))).blocks 0 =
        some call.id := by
      simp [Reading.step]
    obtain ⟨hAdds, -⟩ := read_argumentsDelta hBlock (call.index.getD 0) call.arguments
    have hLost := hAdds.trans (Adds.lost _ ((rest.zipIdx 1).map fun x => (x.1.index.getD x.2, x.1)))
    exact ⟨hLost.text, hLost.thinking, hLost.json⟩

theorem firstToolCall_follows (delta : Delta) (hLast : info.lastMessagesType = .none) :
    ∃ blocks : Blocks,
      Follows (firstToolCall delta.toolCalls info).2
        (Reading.read {} (firstToolCall delta.toolCalls info).1).blocks blocks ∧
      (passFirst delta).2 = if delta.hasContent then fun _ => none else blocks := by
  unfold passFirst firstToolCall Delta.fragments
  cases delta.toolCalls with
  | nil => exact ⟨fun _ => none, .idle hLast fun _ _ => rfl, rfl⟩
  | cons call rest =>
    have hRoutes : Routes 0 0 (Reading.step {} (.blockStart 0 (.toolUse call.id call.name))).blocks
        (update (fun _ => none) 0 (some call.id)) := by
      constructor
      · intro o
        rw [Nat.zero_add]
        rfl
      · intro o ho
        rw [update_of_ne (Nat.ne_of_gt ho)]
    obtain ⟨-, hSame⟩ := read_argumentsDelta (hRoutes.route 0) 0 call.arguments
    refine ⟨_, .calls _ rfl ?_, rfl⟩
    rw [Reading.read_cons, hSame]
    exact hRoutes

theorem firstContent_adds (delta : Delta) (info : RelayInfo) (r : Reading) :
    Adds r (r.read (firstContent delta info).1) (passFirst delta).1.text
      (passFirst delta).1.thinking [] := by
  obtain ⟨hText, hThinking, -⟩ := delta.passed_shown (passFirst delta).1.fragments
  have hPassed : (passFirst delta).1 =
    ⟨delta, delta.getReasoningContent = [], true, (passFirst delta).1.fragments⟩ := rfl
  rw [hPassed, hText, hThinking, firstContent_eq]
  cases delta.shown with
  | none => exact .refl r
  | some x =>
    rw [Option.elim_some]
    unfold firstBlock
    dsimp only
    rw [Reading.read_append]
    split
    · rw [read_advance]
      exact (x.adds_block r _).1
    · exact (x.adds_block r _).1

theorem firstContent_follows (delta : Delta) (h : Follows info r.blocks blocks)
    (hLast : ∀ x : Content, info.lastMessagesType ≠ x.type) :
    Follows (firstContent delta info).2 (r.read (firstContent delta info).1).blocks
      (if delta.hasContent then fun _ => none else blocks) := by
  rw [(delta.passed_shown []).2.2, firstContent_eq]
  cases delta.shown with
  | none => exact h
  | some x =>
    rw [Option.elim_some, firstBlock_of_ne (hLast x)]
    exact (h.newBlock x).follows

theorem read_firstEvents (c : Chunk) (delta : Delta) (info : RelayInfo) (r : Reading) :
    r.read (firstEvents c delta info).1 =
      (r.read (firstToolCall delta.toolCalls info).1).read
        (firstContent delta (firstToolCall delta.toolCalls info).2).1 := by
  unfold firstEvents
  dsimp only
  rw [cons_append, Reading.read_cons]
  exact Reading.read_append _ _ _

theorem firstEvents_adds (c : Chunk) (delta : Delta) (info : RelayInfo) (r : Reading) :
    Adds r (r.read (firstEvents c delta info).1) (passFirst delta).1.text
      (passFirst delta).1.thinking (passFirst delta).1.fragments := by
  have hBoth := (firstToolCall_adds delta info r).trans
    (firstContent_adds delta (firstToolCall delta.toolCalls info).2 _)
  rw [nil_append, nil_append, append_nil] at hBoth
  rw [read_firstEvents]
  exact hBoth

theorem firstEvents_follows (c : Chunk) (delta : Delta) (hLast : info.lastMessagesType = .none) :
    Follows (firstEvents c delta info).2 (Reading.read {} (firstEvents c delta info).1).blocks
      (passFirst delta).2 := by
  obtain ⟨blocks, hCalls, hBlocks⟩ := firstToolCall_follows delta hLast
  rw [read_firstEvents, hBlocks]
  exact firstContent_follows delta hCalls (firstToolCall_last delta.toolCalls hLast)

theorem handleStream_addsAll (hOne : ∀ c ∈ chunks, ∃ choice, c.choices = [choice])
    (estimate : Int) :
    AddsAll {} (Reading.read {} (handleStream chunks (.new estimate)).1) (pass chunks) := by
  cases chunks with
  | nil => exact .refl _
  | cons c rest =>
    obtain ⟨⟨choice, hChoices⟩, hOneRest⟩ := forall_mem_cons.mp hOne
    have hLast : ((RelayInfo.new estimate).received c).lastMessagesType = .none := rfl
    have hAdds := firstEvents_adds c choice.delta ((RelayInfo.new estimate).received c) {}
    have hFollows := firstEvents_follows c choice.delta hLast
    rw [pass_cons hChoices]
    rcases handleStream_first_cases hChoices estimate rest with
      ⟨hFinish, hDone, hCount, hStream⟩ | ⟨reason, hFinish, hStream⟩
    · rw [hStream, Reading.read_append, hFinish]
      exact .cons hAdds (handleStream_follows hOneRest hFollows hDone hCount)
    · rw [hStream, Reading.read_append, read_close, hFinish]
      exact .cons hAdds (addsAll_ended hOneRest _ _)

theorem firstChunk_addsAll {c : Chunk} {choice : Choice} {more : List Choice}
    (hChoices : c.choices = choice :: more) (info : RelayInfo) (r : Reading) :
    AddsAll r (r.read (firstChunk c info).1) (pass [c]) := by
  have hAdds := firstEvents_adds c choice.delta info r
  rw [pass_cons hChoices]
  unfold firstChunk
  rw [hChoices]
  dsimp only
  cases choice.finish with
  | none => exact .cons hAdds (.refl _)
  | some reason =>
    unfold endWith
    rw [Reading.read_append, read_close]
    exact .cons hAdds (.refl _)

end

/-! ## The handler -/

/-- The ways of a stream through the handler: every chunk in its turn, the only chunk as a later
one, or both of two as first ones. -/
theorem passStream_cases {chunks : List Chunk}
    (hOne : ∀ c ∈ chunks, ∃ choice, c.choices = [choice]) (usage : Usage) (estimate : Int) :
    (passStream chunks = pass chunks ∧ oaiStreamHandler chunks usage (.new estimate) =
        (handleStream chunks (.new estimate)).1) ∨
      (∃ c, chunks = [c] ∧ passStream chunks = passFrom (fun _ => none) false [c]) ∨
      ∃ c c', chunks = [c, c'] ∧ c.finish = none ∧ passStream chunks = pass [c] ++ pass [c'] := by
  rcases eq_nil_or_concat chunks with rfl | ⟨init, last, rfl⟩
  · exact Or.inl ⟨rfl, rfl⟩
  rw [concat_eq_append] at hOne ⊢
  obtain ⟨choice, hChoices⟩ := hOne last (mem_append_right _ mem_cons_self)
  match init with
  | [] => exact Or.inr (Or.inl ⟨last, rfl, rfl⟩)
  | [first] =>
    have hIf : passStream ([first] ++ [last]) = if first.finish.isSome then pass [first, last]
        else pass [first] ++ pass [last] := rfl
    cases hFinish : first.finish with
    | none =>
      rw [hFinish] at hIf
      exact Or.inr (Or.inr ⟨first, last, rfl, hFinish, hIf⟩)
    | some reason =>
      have hEnds : first.finish ≠ none := by
        rw [hFinish]
        exact Option.some_ne_none reason
      rw [hFinish] at hIf
      exact Or.inl ⟨hIf, oaiStreamHandler_in_turn hChoices (Or.inl hEnds) usage estimate⟩
  | first :: second :: more =>
    have hPass : passStream (first :: second :: more ++ [last]) =
        pass (first :: second :: more ++ [last]) := by
      cases more <;> rfl
    exact Or.inl ⟨hPass, oaiStreamHandler_in_turn hChoices (Or.inr (cons_ne_nil _ _)) usage
      estimate⟩

/-- What a reader collects is what is passed on. -/
theorem oaiStreamHandler_addsAll {chunks : List Chunk}
    (hOne : ∀ c ∈ chunks, ∃ choice, c.choices = [choice]) (usage : Usage) (estimate : Int) :
    AddsAll {} (Reading.read {} (oaiStreamHandler chunks usage (.new estimate)))
      (passStream chunks) := by
  rcases passStream_cases hOne usage estimate with
    ⟨hPass, hStream⟩ | ⟨c, rfl, hPass⟩ | ⟨c, c', rfl, hNone, hPass⟩
  · rw [hPass, hStream]
    exact handleStream_addsAll hOne estimate
  · obtain ⟨choice, hChoices⟩ := hOne c mem_cons_self
    rw [hPass, oaiStreamHandler_one_chunk hChoices]
    exact handleStream_follows hOne (.idle rfl fun _ _ => rfl) rfl Nat.one_ne_zero
  · obtain ⟨choice, hChoices⟩ := hOne c mem_cons_self
    obtain ⟨choice', hChoices'⟩ := hOne c' (mem_cons_of_mem _ mem_cons_self)
    have hFinish : choice.finish = none := by
      rw [← hNone, Chunk.finish, hChoices]
      rfl
    obtain ⟨info, hStream⟩ := oaiStreamHandler_two_chunks hChoices hFinish usage estimate
    rw [hPass, hStream, Reading.read_append, pass_cons hChoices]
    exact .cons (firstEvents_adds c choice.delta _ {}) (firstChunk_addsAll hChoices' info _)

/-! ## What comes in and what is passed on -/

def Fragment.sent (f : Fragment) : Nat × Bytes := (f.index, f.arguments)

theorem lostCalls_sent (fragments : List (Nat × ToolCall)) :
    (lostCalls fragments).map Fragment.sent = fragments.map fun f => (f.1, f.2.arguments) := by
  unfold lostCalls
  rw [map_map]
  rfl

theorem routeCalls_sent (blocks : Blocks) (i : Nat) (calls : List ToolCall) :
    (routeCalls blocks i calls).1.map Fragment.sent =
      (calls.zipIdx i).map fun x => (x.1.index.getD x.2, x.1.arguments) := by
  induction calls generalizing blocks i with
  | nil => rfl
  | cons call rest ih =>
    unfold routeCalls
    rw [map_cons, zipIdx_cons, map_cons, ih]
    rfl

/-- Every delta is accounted for, with all its fragments. -/
structure Accounts (p : Passed) (d : Delta) : Prop where
  delta : p.delta = d
  sent : p.fragments.map Fragment.sent = d.fragments.map fun f => (f.1, f.2.arguments)

theorem lost_accounts (delta : Delta) : Accounts (.lost delta) delta :=
    ⟨rfl, lostCalls_sent delta.fragments⟩

theorem passFirst_accounts (delta : Delta) : Accounts (passFirst delta).1 delta := by
  refine ⟨rfl, ?_⟩
  unfold passFirst
  cases delta.fragments with
  | nil => rfl
  | cons f rest =>
    rw [map_cons, lostCalls_sent, map_cons]
    rfl

theorem passLater_accounts (blocks : Blocks) (delta : Delta) :
    Accounts (passLater blocks delta).1 delta := by
  unfold passLater
  split
  · refine ⟨rfl, ?_⟩
    rw [routeCalls_sent, Delta.fragments, map_map]
    rfl
  · rename_i hCalls
    refine ⟨rfl, ?_⟩
    rw [Delta.fragments, not_not.mp hCalls]
    rfl

theorem passFrom_accounts {chunks : List Chunk}
    (hOne : ∀ c ∈ chunks, ∃ choice, c.choices = [choice]) (blocks : Blocks) (ended : Bool) :
    List.Forall₂ Accounts (passFrom blocks ended chunks) (deltas chunks) := by
  induction chunks generalizing blocks ended with
  | nil => exact .nil
  | cons c rest ih =>
    obtain ⟨⟨choice, hChoices⟩, hOneRest⟩ := forall_mem_cons.mp hOne
    rw [deltas_cons hChoices rfl]
    unfold passFrom
    rw [hChoices]
    dsimp only
    split
    · exact .cons (lost_accounts _) (ih hOneRest _ _)
    · exact .cons (passLater_accounts _ _) (ih hOneRest _ _)

theorem pass_accounts {chunks : List Chunk} (hOne : ∀ c ∈ chunks, ∃ choice, c.choices = [choice]) :
    List.Forall₂ Accounts (pass chunks) (deltas chunks) := by
  cases chunks with
  | nil => exact .nil
  | cons c rest =>
    obtain ⟨⟨choice, hChoices⟩, hOneRest⟩ := forall_mem_cons.mp hOne
    rw [pass_cons hChoices, deltas_cons hChoices rfl]
    exact .cons (passFirst_accounts _) (passFrom_accounts hOneRest _ _)

theorem passStream_accounts {chunks : List Chunk}
    (hOne : ∀ c ∈ chunks, ∃ choice, c.choices = [choice]) :
    List.Forall₂ Accounts (passStream chunks) (deltas chunks) := by
  rcases passStream_cases hOne {} 0 with ⟨hPass, -⟩ | ⟨c, rfl, hPass⟩ | ⟨c, c', rfl, -, hPass⟩
  · rw [hPass]
    exact pass_accounts hOne
  · rw [hPass]
    exact passFrom_accounts hOne _ _
  · have hFirst : ∀ x ∈ [c], ∃ choice, x.choices = [choice] := by
      rw [forall_mem_singleton]
      exact hOne c mem_cons_self
    have hDeltas : deltas [c, c'] = deltas [c] ++ deltas [c'] := by simp [deltas]
    rw [hPass, hDeltas]
    exact List.rel_append (pass_accounts hFirst) (pass_accounts (forall_mem_cons.mp hOne).2)

theorem Accounts.deltas_eq {passed : List Passed} {l : List Delta}
    (h : List.Forall₂ Accounts passed l) : l = passed.map Passed.delta := by
  induction h with
  | nil => rfl
  | cons hOne _ ih => rw [map_cons, ← ih, hOne.delta]

theorem Accounts.sent_eq {passed : List Passed} {l : List Delta}
    (h : List.Forall₂ Accounts passed l) :
    (l.flatMap Delta.fragments).map (fun f => (f.1, f.2.arguments)) =
      (passed.flatMap Passed.fragments).map Fragment.sent := by
  induction h with
  | nil => rfl
  | cons hOne _ ih => rw [flatMap_cons, flatMap_cons, map_append, map_append,
    ih, hOne.sent]

/-! ## Owners -/

/-- Besides its own block, a fragment goes to the one with the id `id₀` only. -/
def Fragment.Joins (ids : Nat → String) (id₀ : String) (f : Fragment) : Prop :=
  f.owner = none ∨ f.owner = some (ids f.index) ∨ f.owner = some id₀

/-- Besides the id of its call, an offset has the id `id₀` only. -/
def Joined (ids : Nat → String) (id₀ : String) (blocks : Blocks) : Prop :=
  ∀ o, blocks o = none ∨ blocks o = some (ids o) ∨ blocks o = some id₀

def Labelled (ids : Nat → String) (fragments : List (Nat × ToolCall)) : Prop :=
  ∀ f ∈ fragments, f.2.name ≠ "" → f.2.id = ids f.1

section

variable {ids : Nat → String} {id₀ : String}

theorem joined_none : Joined ids id₀ fun _ => none := fun _ => Or.inl rfl

theorem lostCalls_joins (fragments : List (Nat × ToolCall)) :
    ∀ f ∈ lostCalls fragments, f.Joins ids id₀ := by
  intro f hf
  obtain ⟨g, -, rfl⟩ := mem_map.mp hf
  exact Or.inl rfl

variable {blocks : Blocks}

theorem Joined.routeCall (h : Joined ids id₀ blocks) (i : Nat) (call : ToolCall)
    (hNamed : call.name ≠ "" → call.id = ids (call.index.getD i)) :
    (Stream.routeCall blocks i call).1.Joins ids id₀ ∧
      Joined ids id₀ (Stream.routeCall blocks i call).2 := by
  unfold Stream.routeCall
  dsimp only
  set k := call.index.getD i
  by_cases hName : call.name = ""
  · rw [if_pos hName]
    exact ⟨h k, h⟩
  · have hNext : Joined ids id₀ (update blocks k (some call.id)) := by
      intro o
      by_cases ho : o = k
      · rw [ho, update_self, hNamed hName]
        exact Or.inr (Or.inl rfl)
      · rw [update_of_ne ho]
        exact h o
    rw [if_neg hName]
    exact ⟨hNext k, hNext⟩

theorem Joined.routeCalls (h : Joined ids id₀ blocks) (i : Nat) (calls : List ToolCall)
    (hNamed : Labelled ids ((calls.zipIdx i).map fun x => (x.1.index.getD x.2, x.1))) :
    (∀ f ∈ (Stream.routeCalls blocks i calls).1, f.Joins ids id₀) ∧
      Joined ids id₀ (Stream.routeCalls blocks i calls).2 := by
  induction calls generalizing blocks i with
  | nil => exact ⟨forall_mem_nil _, h⟩
  | cons call rest ih =>
    rw [zipIdx_cons, map_cons] at hNamed
    obtain ⟨hOne, hMore⟩ := forall_mem_cons.mp hNamed
    obtain ⟨hCall, hNext⟩ := h.routeCall i call hOne
    obtain ⟨hRest, hLast⟩ := ih hNext (i + 1) hMore
    exact ⟨forall_mem_cons.mpr ⟨hCall, hRest⟩, hLast⟩

theorem Joined.passLater (h : Joined ids id₀ blocks) {delta : Delta}
    (hNamed : Labelled ids delta.fragments) :
    (∀ f ∈ (Stream.passLater blocks delta).1.fragments, f.Joins ids id₀) ∧
      Joined ids id₀ (Stream.passLater blocks delta).2 := by
  unfold Stream.passLater
  split
  · exact h.routeCalls 0 delta.toolCalls hNamed
  · refine ⟨forall_mem_nil _, ?_⟩
    split
    · exact joined_none
    · exact h

theorem Joined.passFrom (h : Joined ids id₀ blocks) (ended : Bool) {chunks : List Chunk}
    (hOne : ∀ c ∈ chunks, ∃ choice, c.choices = [choice])
    (hNamed : Labelled ids (fragmentsOf chunks)) :
    ∀ f ∈ (Stream.passFrom blocks ended chunks).flatMap Passed.fragments, f.Joins ids id₀ := by
  induction chunks generalizing blocks ended with
  | nil => exact forall_mem_nil _
  | cons c rest ih =>
    obtain ⟨⟨choice, hChoices⟩, hOneRest⟩ := forall_mem_cons.mp hOne
    rw [fragmentsOf_cons hChoices rfl] at hNamed
    obtain ⟨hNow, hLater⟩ := forall_mem_append.mp hNamed
    unfold Stream.passFrom
    rw [hChoices]
    dsimp only
    split
    · rw [flatMap_cons]
      exact forall_mem_append.mpr ⟨lostCalls_joins _, ih h ended hOneRest hLater⟩
    · obtain ⟨hPassed, hNext⟩ := h.passLater hNow
      rw [flatMap_cons]
      exact forall_mem_append.mpr ⟨hPassed, ih hNext _ hOneRest hLater⟩

/-- The first chunk gives its call, if it has one, the block 0. -/
theorem passFirst_joined (delta : Delta) :
    ∃ id₀, Joined ids id₀ (passFirst delta).2 ∧ ∀ f ∈ (passFirst delta).1.fragments,
      f.Joins ids id₀ := by
  unfold passFirst
  dsimp only
  cases delta.fragments with
  | nil =>
    refine ⟨"", ?_, forall_mem_nil _⟩
    split <;> exact joined_none
  | cons f rest =>
    refine ⟨f.2.id, ?_, forall_mem_cons.mpr ⟨Or.inr (Or.inr rfl), lostCalls_joins rest⟩⟩
    split
    · exact joined_none
    · intro o
      dsimp only
      by_cases ho : o = 0
      · rw [ho, update_self]
        exact Or.inr (Or.inr rfl)
      · rw [update_of_ne ho]
        exact Or.inl rfl

/-- If the first fragment has the id of its index, no other fragment of its chunk is passed on. -/
theorem passFirst_own {delta : Delta} (h : ∀ f ∈ delta.fragments.head?, f.2.id = ids f.1) :
    ∀ f ∈ (passFirst delta).1.fragments, f.Joins ids id₀ := by
  unfold passFirst
  dsimp only
  cases hFragments : delta.fragments with
  | nil => exact forall_mem_nil _
  | cons f rest =>
    rw [hFragments] at h
    refine forall_mem_cons.mpr ⟨Or.inr (Or.inl ?_), lostCalls_joins rest⟩
    rw [h f rfl]

theorem pass_joins {chunks : List Chunk} (hOne : ∀ c ∈ chunks, ∃ choice, c.choices = [choice])
    (hNamed : Labelled ids (fragmentsOf chunks)) :
    ∃ id₀, ∀ f ∈ (pass chunks).flatMap Passed.fragments, f.Joins ids id₀ := by
  cases chunks with
  | nil => exact ⟨"", forall_mem_nil _⟩
  | cons c rest =>
    obtain ⟨⟨choice, hChoices⟩, hOneRest⟩ := forall_mem_cons.mp hOne
    rw [fragmentsOf_cons hChoices rfl] at hNamed
    obtain ⟨id₀, hBlocks, hFirst⟩ := passFirst_joined choice.delta
    refine ⟨id₀, ?_⟩
    rw [pass_cons hChoices, flatMap_cons]
    exact forall_mem_append.mpr
      ⟨hFirst, hBlocks.passFrom _ hOneRest (forall_mem_append.mp hNamed).2⟩

theorem passStream_joins {chunks : List Chunk}
    (hOne : ∀ c ∈ chunks, ∃ choice, c.choices = [choice]) (hIdentified : Identified ids chunks) :
    ∃ id₀, ∀ f ∈ (passStream chunks).flatMap Passed.fragments, f.Joins ids id₀ := by
  rcases passStream_cases hOne {} 0 with ⟨hPass, -⟩ | ⟨c, rfl, hPass⟩ | ⟨c, c', rfl, -, hPass⟩
  · rw [hPass]
    exact pass_joins hOne hIdentified.named
  · rw [hPass]
    exact ⟨"", joined_none.passFrom false hOne hIdentified.named⟩
  · obtain ⟨⟨choice, hChoices⟩, hOneRest⟩ := forall_mem_cons.mp hOne
    have hFragments := fragmentsOf_cons hChoices rfl [c']
    have hLater : Labelled ids (fragmentsOf [c']) := by
      have hNamed : Labelled ids (fragmentsOf [c, c']) := hIdentified.named
      rw [hFragments] at hNamed
      exact (forall_mem_append.mp hNamed).2
    have hFirst : ∀ f ∈ choice.delta.fragments.head?, f.2.id = ids f.1 := by
      intro f hf
      have hHead : f ∈ (fragmentsOf [c, c']).head? := by
        rw [hFragments, head?_append, Option.mem_def.mp hf]
        rfl
      exact hIdentified.named f (mem_of_mem_head? hHead) (hIdentified.first f hHead)
    obtain ⟨id₀, hSecond⟩ := pass_joins hOneRest hLater
    refine ⟨id₀, ?_⟩
    rw [hPass, flatMap_append, pass_cons hChoices]
    refine forall_mem_append.mpr ⟨?_, hSecond⟩
    rw [flatMap_cons]
    exact forall_mem_append.mpr ⟨passFirst_own hFirst, forall_mem_nil _⟩

end

/-! ## When nothing is lost -/

section

variable {ids : Nat → String} {chunks : List Chunk} {passed : List Passed}
  (hAccounts : List.Forall₂ Accounts passed (deltas chunks))
include hAccounts

theorem text_eq_iff :
    passed.flatMap Passed.text = (deltas chunks).flatMap Delta.getContentString ↔
      ∀ p ∈ passed, p.content = true ∨ p.delta.getContentString = [] := by
  rw [Accounts.deltas_eq hAccounts, flatMap_map]
  exact (Eq.congr_left flatMap_ite).trans flatMap_filter_eq_iff

theorem thinking_eq_iff :
    passed.flatMap Passed.thinking = (deltas chunks).flatMap Delta.getReasoningContent ↔
      ∀ p ∈ passed, p.reasoning = true ∨ p.delta.getReasoningContent = [] := by
  rw [Accounts.deltas_eq hAccounts, flatMap_map]
  exact (Eq.congr_left flatMap_ite).trans flatMap_filter_eq_iff

theorem fragmentsOf_sent :
    (fragmentsOf chunks).map (fun f => (f.1, f.2.arguments)) =
      (passed.flatMap Passed.fragments).map Fragment.sent :=
  Accounts.sent_eq hAccounts

theorem argumentsOf_eq (k : Nat) :
    argumentsOf k chunks =
      ((passed.flatMap Passed.fragments).filter fun f => f.index = k).flatMap
        Fragment.arguments := by
  have hSent := congrArg (fun l => (l.filter fun x => decide (x.1 = k)).flatMap Prod.snd)
    (fragmentsOf_sent hAccounts)
  simp only [filter_map, flatMap_map] at hSent
  exact hSent

/-- The fragments that come in and those that are passed on have the same indexes. -/
theorem forall_fragmentsOf (P : Nat → Prop) :
    (∀ g ∈ fragmentsOf chunks, P g.1) ↔ ∀ f ∈ passed.flatMap Passed.fragments, P f.index := by
  have hIndexes := congrArg (List.map Prod.fst) (fragmentsOf_sent hAccounts)
  simp only [map_map] at hIndexes
  have hForall := congrArg (fun l => ∀ k ∈ l, P k) hIndexes
  simp only [forall_mem_map] at hForall
  exact Iff.of_eq hForall

theorem json_eq_iff {id₀ : String} (hIdentified : Identified ids chunks)
    (hJoins : ∀ f ∈ passed.flatMap Passed.fragments, f.Joins ids id₀) :
    (∀ g ∈ fragmentsOf chunks,
        ((passed.flatMap Passed.fragments).filter fun f => f.owner = some (ids g.1)).flatMap
          Fragment.arguments = argumentsOf g.1 chunks) ↔
      ∀ f ∈ passed.flatMap Passed.fragments,
        f.owner = some (ids f.index) ∨ f.arguments = [] := by
  have hDistinct : ∀ f ∈ passed.flatMap Passed.fragments, ∀ g ∈ passed.flatMap Passed.fragments,
      ids f.index = ids g.index → f.index = g.index := by
    have hGiven := hIdentified.distinct
    rw [forall_fragmentsOf hAccounts fun k => ∀ g ∈ fragmentsOf chunks, ids k = ids g.1 → k = g.1]
      at hGiven
    intro f hf
    exact (forall_fragmentsOf hAccounts fun k => ids f.index = ids k → f.index = k).mp (hGiven f hf)
  rw [forall_fragmentsOf hAccounts fun k => ((passed.flatMap Passed.fragments).filter fun f =>
      f.owner = some (ids k)).flatMap Fragment.arguments = argumentsOf k chunks,
    ← routed_iff (g := fun f : Fragment => ids f.index) hJoins]
  refine forall₂_congr fun f hf => ?_
  -- the id of a call tells its fragments from the others
  have hSame : (passed.flatMap Passed.fragments).filter (fun g => g.index = f.index) =
      (passed.flatMap Passed.fragments).filter fun g => ids g.index = ids f.index := by
    refine filter_congr fun g hg => ?_
    rw [decide_eq_decide]
    exact ⟨congrArg ids, hDistinct g hg f hf⟩
  rw [argumentsOf_eq hAccounts, hSame]

end

theorem forall_whole_iff (ids : Nat → String) (passed : List Passed) :
    (∀ p ∈ passed, p.whole ids = true) ↔
      (∀ p ∈ passed, p.content = true ∨ p.delta.getContentString = []) ∧
      (∀ p ∈ passed, p.reasoning = true ∨ p.delta.getReasoningContent = []) ∧
      ∀ f ∈ passed.flatMap Passed.fragments,
        f.owner = some (ids f.index) ∨ f.arguments = [] := by
  simp only [Passed.whole, Bool.and_eq_true, Bool.or_eq_true, decide_eq_true_eq, all_eq_true,
    mem_flatMap]
  constructor
  · intro h
    refine ⟨fun p hp => (h p hp).1.1, fun p hp => (h p hp).1.2, ?_⟩
    rintro f ⟨p, hp, hf⟩
    exact (h p hp).2 f hf
  · rintro ⟨hContent, hReasoning, hFragments⟩ p hp
    exact ⟨⟨hContent p hp, hReasoning p hp⟩, fun f hf => hFragments f ⟨p, hp, hf⟩⟩

/-- A Claude stream loses nothing if and only if every chunk is passed on as a whole. -/
theorem keepsContent_iff_whole {ids : Nat → String} {chunks : List Chunk}
    (hOne : ∀ c ∈ chunks, ∃ choice, c.choices = [choice]) (hIdentified : Identified ids chunks)
    (usage : Usage) (estimate : Int) :
    KeepsContent ids chunks (Reading.read {} (oaiStreamHandler chunks usage (.new estimate))) ↔
      ∀ p ∈ passStream chunks, p.whole ids = true := by
  have hAdds := oaiStreamHandler_addsAll hOne usage estimate
  have hAccounts := passStream_accounts hOne
  obtain ⟨id₀, hJoins⟩ := passStream_joins hOne hIdentified
  rw [forall_whole_iff, ← text_eq_iff hAccounts, ← thinking_eq_iff hAccounts,
    ← json_eq_iff hAccounts hIdentified hJoins]
  constructor
  · intro h
    refine ⟨hAdds.text.symm.trans h.text, hAdds.thinking.symm.trans h.thinking, ?_⟩
    intro g hg
    exact (hAdds.json (ids g.1)).symm.trans (h.json g hg)
  · rintro ⟨hText, hThinking, hArguments⟩
    refine ⟨hAdds.text.trans hText, hAdds.thinking.trans hThinking, ?_⟩
    intro g hg
    exact (hAdds.json (ids g.1)).trans (hArguments g hg)

/-- A text beside reasoning, in an answer that is ended as it should be. -/
def besideReasoning : List Chunk :=
  [sampleChunk { content := some [] } none none,
    sampleChunk { content := some [65], reasoningContent := some [66] } none none,
    sampleChunk {} (some "stop") (some {})]

def besideFinish : List Chunk :=
  [sampleChunk { content := some [] } none none,
    sampleChunk { content := some [] } none none,
    sampleChunk { content := some [65] } (some "stop") none]

/-- Both texts are lost. -/
theorem text_beside_others_is_lost :
    (∀ c ∈ besideReasoning ++ besideFinish, ∃ choice, c.choices = [choice]) ∧
      ¬ KeepsContent (fun _ => "") besideReasoning
        (Reading.read {} (oaiStreamHandler besideReasoning {} (.new 0))) ∧
      ¬ KeepsContent (fun _ => "") besideFinish
        (Reading.read {} (oaiStreamHandler besideFinish {} (.new 0))) := by
  refine ⟨?_, fun h => ?_, fun h => ?_⟩
  · intro c hc
    simp only [besideReasoning, besideFinish, cons_append, nil_append, mem_cons,
      not_mem_nil, or_false] at hc
    rcases hc with rfl | rfl | rfl | rfl | rfl | rfl <;> exact ⟨_, rfl⟩
  · have hLost : (Reading.read {} (oaiStreamHandler besideReasoning {} (.new 0))).text ≠
      [65] := by decide
    exact hLost h.text
  · have hLost : (Reading.read {} (oaiStreamHandler besideFinish {} (.new 0))).text ≠ [65] := by
      decide
    exact hLost h.text

/-- Reasoning, text and two calls side by side, each in a chunk of its own. -/
theorem keepsContent_iff_whole_calls :
    KeepsContent (fun k => if k = 0 then "call_0" else "call_1")
      [sampleChunk { reasoningContent := some [66] } none none,
        sampleChunk { content := some [65] } none none,
        sampleChunk { toolCalls := [wholeCall 0 "call_0" "f", wholeCall 1 "call_1" "g"] } none none,
        sampleChunk {} (some "tool_calls") (some {})]
      (Reading.read {} (oaiStreamHandler [sampleChunk { reasoningContent := some [66] } none none,
        sampleChunk { content := some [65] } none none,
        sampleChunk { toolCalls := [wholeCall 0 "call_0" "f", wholeCall 1 "call_1" "g"] } none none,
        sampleChunk {} (some "tool_calls") (some {})] {} (.new 0))) := by
  refine (keepsContent_iff_whole ?_ ⟨by decide, by decide, by decide⟩ {} 0).mpr (by decide)
  intro c hc
  simp only [mem_cons, not_mem_nil, or_false] at hc
  rcases hc with rfl | rfl | rfl | rfl <;> exact ⟨_, rfl⟩

end Qapi.Stream
