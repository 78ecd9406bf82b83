import Qapi.Channels.Cache
import Mathlib.Data.List.Rotate

/-!
# The keys of a channel

`GetKeys` and `GetNextEnabledKey` of `model/channel.go`. In polling mode the search starts
where the last call has stopped. `polling_fair`: on a channel that the memory cache holds, as
many calls as there are enabled keys return each of them, in their cyclic order.
-/

namespace Qapi.Channels

open Qapi.Core List

inductive MultiKeyMode
  | random
  | polling
  | other
deriving DecidableEq, Repr

/-- `Channel`, as far as its keys are concerned; a key is missing in `statusList` unless it was
given a status. -/
structure KeyedChannel where
  id : Int
  key : String
  keys : List String
  isMultiKey : Bool
  statusList : Nat → Option Int
  mode : MultiKeyMode
  pollingIndex : Int

namespace KeyedChannel

/-- `GetKeys`; `parseArray` gives the items of a JSON array as texts. -/
def getKeys (parseArray : String → Option (List String)) (c : KeyedChannel) : List String :=
  if c.key = "" then []
  else if c.keys ≠ [] then c.keys
  else
    let lines := split (String.ofList (trimList (· = '\n') c.key.toList)) '\n'
    if startsWith (trimSpace c.key) "[" then (parseArray (trimSpace c.key)).getD lines else lines

def enabled (c : KeyedChannel) (idx : Nat) : Bool :=
  (c.statusList idx).getD channelStatusEnabled = channelStatusEnabled

def enabledIdx (c : KeyedChannel) (n : Nat) : List Nat := (range n).filter c.enabled

def start (pollingIndex : Int) (n : Nat) : Nat :=
  if pollingIndex < 0 ∨ n ≤ pollingIndex then 0 else pollingIndex.toNat

/-- `GetNextEnabledKey`; `draw` is what `rand.Intn` returns, `cached` the polling index of the
channel that `CacheGetChannelInfo` finds. -/
def getNextEnabledKey (parseArray : String → Option (List String)) (draw : Nat)
    (cached : Option Int) (c : KeyedChannel) : Except String (String × Nat) × KeyedChannel :=
  if !c.isMultiKey then (.ok (c.key, 0), c)
  else
    let keys := c.getKeys parseArray
    let n := keys.length
    if n = 0 then (.error "no keys available", c)
    else
      match c.enabledIdx n with
      | [] => (.error "no enabled keys", c)
      | first :: others =>
        match c.mode with
        | .random =>
          let idx := (first :: others).getD draw first
          (.ok (keys.getD idx "", idx), c)
        | .polling =>
          match cached with
          | none => (.error ("渠道# " ++ toString c.id ++ "，已不存在"), c)
          | some index =>
            match ((range n).map fun i => (start index n + i) % n).find? c.enabled with
            | some idx =>
              (.ok (keys.getD idx "", idx), { c with pollingIndex := ((idx + 1) % n : Nat) })
            | none => (.ok (keys.getD first "", first), c)
        | .other => (.ok (keys.getD first "", first), c)

/-- What consecutive calls return, one for each draw, on a channel that is itself in the cache:
the index that a call reads is the one that the last call has written. -/
def calls (parseArray : String → Option (List String)) :
    List Nat → KeyedChannel → List (Except String (String × Nat))
  | [], _ => []
  | draw :: draws, c =>
    let (result, c) := c.getNextEnabledKey parseArray draw (some c.pollingIndex)
    result :: calls parseArray draws c

/-! ## The search -/

theorem map_add_mod_range (s n : Nat) :
    (range n).map (fun i => (s + i) % n) = (range n).rotate s := by
  apply ext_getElem
  · simp
  · intro i h₁ h₂
    simp [getElem_rotate, Nat.add_comm s]

/-- What a rotation leaves of a selection is a rotation of it. -/
theorem exists_filter_rotate {α : Type*} (p : α → Bool) (l : List α) (s : Nat) :
    ∃ m, (l.rotate s).filter p = (l.filter p).rotate m := by
  have hSplit : l.filter p =
      (l.take (s % l.length)).filter p ++ (l.drop (s % l.length)).filter p := by
    rw [← filter_append, take_append_drop]
  refine ⟨((l.take (s % l.length)).filter p).length, ?_⟩
  rw [hSplit, rotate_append_length_eq, rotate_eq_drop_append_take_mod,
    filter_append]

/-- A search that begins behind the place where the last one has stopped has what that one found
at its end. -/
theorem filter_rotate_next {p : Nat → Bool} {n s idx : Nat}
    (h : ((range n).rotate s).find? p = some idx) :
    ∃ rest, ((range n).rotate s).filter p = idx :: rest ∧
      ((range n).rotate ((idx + 1) % n)).filter p = rest ++ [idx] := by
  obtain ⟨hp, before, after, hCut, hBefore⟩ := find?_eq_some_iff_append.mp h
  have hNone : before.filter p = [] := by
    rw [filter_eq_nil_iff]
    intro a ha
    simpa using hBefore a ha
  have hLength : before.length < n := by
    have hAll := congrArg length hCut
    simp only [length_rotate, length_range, length_append, length_cons] at hAll
    omega
  have hIdx : idx = (before.length + s) % n := by
    have hAt := congrArg (fun l => l[before.length]?) hCut
    simpa [getElem?_rotate, hLength] using hAt.symm
  have hBehind := rotate_append_length_eq (before ++ [idx]) after
  rw [length_append, length_singleton, ← append_cons] at hBehind
  have hTurn : (range n).rotate ((idx + 1) % n) = after ++ (before ++ [idx]) := by
    have hMod := rotate_mod (range n) (before.length + s + 1)
    rw [length_range] at hMod
    rw [hIdx, Nat.mod_add_mod, hMod, ← hIdx, Nat.add_right_comm, Nat.add_comm _ s,
      ← rotate_rotate, hCut, hBehind]
  refine ⟨after.filter p, ?_, ?_⟩
  · rw [hCut, filter_append, hNone, filter_cons_of_pos hp, nil_append]
  · rw [hTurn, filter_append, filter_append, hNone, filter_singleton, hp]
    rfl

/-! ## The calls -/

section Polling

variable {parseArray : String → Option (List String)} {c : KeyedChannel} {n : Nat}

/-- The order in which the polling mode looks for an enabled key. -/
def turn (c : KeyedChannel) (n : Nat) : List Nat :=
  ((range n).rotate (start c.pollingIndex n)).filter c.enabled

theorem turn_next (hn : 0 < n) (idx : Nat) :
    turn { c with pollingIndex := ((idx + 1) % n : Nat) } n =
      ((range n).rotate ((idx + 1) % n)).filter c.enabled := by
  have hLt : (idx + 1) % n < n := Nat.mod_lt _ hn
  have hStart : start ((idx + 1) % n : Nat) n = (idx + 1) % n := by
    rw [start, if_neg (by omega), Int.toNat_natCast]
  rw [turn, hStart]
  rfl

/-- A call returns the first key of the turn and puts it at the turn's end. -/
theorem getNextEnabledKey_polling (hMulti : c.isMultiKey = true) (hMode : c.mode = .polling)
    (hn : (c.getKeys parseArray).length = n) {idx : Nat} {rest : List Nat}
    (hTurn : c.turn n = idx :: rest) (draw : Nat) :
    ∃ i : Int, c.getNextEnabledKey parseArray draw (some c.pollingIndex) =
        (.ok ((c.getKeys parseArray).getD idx "", idx), { c with pollingIndex := i }) ∧
      turn { c with pollingIndex := i } n = rest ++ [idx] := by
  have hIn : idx ∈ c.turn n := by rw [hTurn]; exact mem_cons_self
  obtain ⟨hRange, hEnabled⟩ := mem_filter.mp hIn
  have hLt : idx < n := by simpa using hRange
  have hFind : ((range n).rotate (start c.pollingIndex n)).find? c.enabled = some idx := by
    rw [← head?_filter, ← turn, hTurn]
    rfl
  obtain ⟨others, hFirst, hNext⟩ := filter_rotate_next hFind
  have hRest : others = rest := by
    rw [← turn, hTurn] at hFirst
    exact (cons.inj hFirst).2.symm
  refine ⟨((idx + 1) % n : Nat), ?_, ?_⟩
  · have hSome : idx ∈ c.enabledIdx n :=
      mem_filter.mpr ⟨mem_range.mpr hLt, hEnabled⟩
    unfold getNextEnabledKey
    rw [if_neg (by simp [hMulti])]
    dsimp only
    rw [hn, if_neg (by omega)]
    split
    · rename_i hNone
      rw [hNone] at hSome
      cases hSome
    · rw [hMode]
      rw [map_add_mod_range, hFind]
  · rw [turn_next (by omega), hNext, hRest]

theorem calls_polling (hMulti : c.isMultiKey = true) (hMode : c.mode = .polling)
    (hn : (c.getKeys parseArray).length = n) {before after : List Nat}
    (hTurn : c.turn n = before ++ after) (draws : List Nat)
    (hDraws : draws.length = before.length) :
    calls parseArray draws c =
      before.map fun idx => .ok ((c.getKeys parseArray).getD idx "", idx) := by
  induction before generalizing c after draws with
  | nil =>
    rw [length_eq_zero_iff.mp hDraws]
    rfl
  | cons idx before ih =>
    obtain ⟨draw, draws, rfl⟩ := exists_cons_of_length_eq_add_one hDraws
    rw [cons_append] at hTurn
    obtain ⟨i, hCall, hLeft⟩ := getNextEnabledKey_polling hMulti hMode hn hTurn draw
    rw [append_assoc] at hLeft
    have hMore := ih (c := { c with pollingIndex := i }) hMulti hMode hn hLeft draws
      (Nat.succ.inj hDraws)
    rw [calls, hCall]
    exact congrArg (_ :: ·) hMore

end Polling

/-- Any `k` consecutive calls in polling mode, where `k` keys are enabled, return the enabled
indexes in their cyclic order, each once, whatever index was stored. -/
theorem polling_fair (parseArray : String → Option (List String)) (c : KeyedChannel)
    (hMulti : c.isMultiKey = true) (hMode : c.mode = .polling) (draws : List Nat)
    (hDraws : draws.length = (c.enabledIdx (c.getKeys parseArray).length).length) :
    ∃ m, calls parseArray draws c =
      ((c.enabledIdx (c.getKeys parseArray).length).rotate m).map fun idx =>
        .ok ((c.getKeys parseArray).getD idx "", idx) := by
  obtain ⟨m, hTurn⟩ := exists_filter_rotate c.enabled
    (range (c.getKeys parseArray).length)
    (start c.pollingIndex (c.getKeys parseArray).length)
  rw [← append_nil (rotate _ m)] at hTurn
  refine ⟨m, calls_polling hMulti hMode rfl hTurn draws ?_⟩
  rw [length_rotate]
  exact hDraws

def fourKeys : KeyedChannel where
  id := 1
  key := "a\nb\nc\nd"
  keys := ["a", "b", "c", "d"]
  isMultiKey := true
  statusList := fun idx => if idx = 1 then some 3 else none
  mode := .polling
  pollingIndex := -2

theorem polling_fair_fourKeys :
    ∃ m, calls (fun _ => none) [0, 0, 0] fourKeys =
      ((fourKeys.enabledIdx 4).rotate m).map fun idx =>
        .ok ((fourKeys.getKeys fun _ => none).getD idx "", idx) :=
  polling_fair (fun _ => none) fourKeys rfl rfl [0, 0, 0] (by decide)

end KeyedChannel

end Qapi.Channels
