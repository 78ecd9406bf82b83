import Qapi.Core.Rank
import Qapi.Core.Table
import Qapi.Core.Text
import Mathlib.Data.List.Count
import Mathlib.Logic.Function.Basic

/-!
# The channel cache

`InitChannelCache` and `CacheUpdateChannelStatus` of `model/channel_cache.go`: for every
group and model the ids of the enabled channels, by priority, beside the table of all
channels. `loaded_get` says what a list holds after loading, up to the order in which
equal priorities are left, `updated_get` what a change of a status does to it.
-/

namespace Qapi.Channels

open Qapi.Core List Option

/-- `dto.AdvancedCustomRoute`, as far as the selection reads it. -/
structure AdvancedCustomRoute where
  incomingPath : String
deriving DecidableEq, Repr

/-- `dto.AdvancedCustomConfig`. -/
structure AdvancedCustomConfig where
  routes : List AdvancedCustomRoute
deriving DecidableEq, Repr

/-- `Channel`, with the advanced custom config of its other settings decoded. -/
structure Channel where
  id : Int
  type : Int := 1
  status : Int := 1
  group : String := "default"
  models : String := ""
  priority : Option Int := none
  weight : Option Nat := none
  advancedCustom : Option AdvancedCustomConfig := none
deriving DecidableEq, Repr

def channelTypeAdvancedCustom : Int := 58

def channelStatusEnabled : Int := 1

def Channel.getPriority (c : Channel) : Int := c.priority.getD 0

def Channel.getWeight (c : Channel) : Nat := c.weight.getD 0

/-- `map[string]map[string][]int`: a group without a map of its own is `none`, a model
without an entry has the list `[]`. -/
structure Lists where
  byGroup : String → Option (String → List Int)

def Lists.get (lists : Lists) (group model : String) : List Int :=
  match lists.byGroup group with
  | none => []
  | some byModel => byModel model

def Lists.map (f : List Int → List Int) (lists : Lists) : Lists :=
  ⟨fun group => (lists.byGroup group).map fun byModel model => f (byModel model)⟩

theorem Lists.get_map {f : List Int → List Int} (hf : f [] = []) (lists : Lists)
    (group model : String) : (lists.map f).get group model = f (lists.get group model) := by
  cases hGroup : lists.byGroup group with
  | none => simp [Lists.get, Lists.map, hGroup, hf]
  | some byModel => simp [Lists.get, Lists.map, hGroup]

structure Cache where
  group2model2channels : Lists
  channelsIDM : Table Channel.id
  channel2advancedCustomConfig : Int → Option AdvancedCustomConfig

/-- `sort.Slice` by descending priority. The order of equal priorities is left open. -/
structure SliceSort where
  sort : (Int → Int) → List Int → List Int
  perm : ∀ priority ids, (sort priority ids).Perm ids
  sorted : ∀ priority ids, (sort priority ids).Pairwise fun i j => priority j ≤ priority i

/-- The sort that leaves equal priorities as they are. -/
def SliceSort.stable : SliceSort where
  sort priority ids := ids.insertionSort fun i j => priority j ≤ priority i
  perm _ ids := perm_insertionSort _ ids
  sorted priority ids := pairwise_insertionSort_by priority ids

/-! ## Loading -/

/-- An empty map for every group that an ability names. -/
def Lists.ofGroups (groups : List String) : Lists :=
  ⟨fun group => if group ∈ groups then some fun _ => [] else none⟩

theorem Lists.get_ofGroups (groups : List String) (group model : String) :
    (Lists.ofGroups groups).get group model = [] := by
  unfold Lists.get Lists.ofGroups
  by_cases hMem : group ∈ groups <;> simp [hMem]

/-- Append a channel to one list. The assignment to an entry of a nil map panics. -/
def addEntry (lists : Lists) (group model : String) (id : Int) : Option Lists :=
  (lists.byGroup group).map fun byModel =>
    ⟨Function.update lists.byGroup group
      (some (Function.update byModel model (byModel model ++ [id])))⟩

def addModels (id : Int) (group : String) : List String → Lists → Option Lists
  | [], lists => some lists
  | model :: models, lists => (addEntry lists group model id).bind (addModels id group models)

def addGroups (id : Int) (models : List String) : List String → Lists → Option Lists
  | [], lists => some lists
  | group :: groups, lists => (addModels id group models lists).bind (addGroups id models groups)

def addChannels : List Channel → Lists → Option Lists
  | [], lists => some lists
  | c :: channels, lists =>
    if c.status ≠ channelStatusEnabled then addChannels channels lists
    else (addGroups c.id (split c.models ',') (split c.group ',') lists).bind
      (addChannels channels)

def priorityOf (channels : Table Channel.id) (id : Int) : Int :=
  match channels.find? id with
  | some c => c.getPriority
  | none => 0

def configOf (channels : Table Channel.id) (id : Int) : Option AdvancedCustomConfig :=
  match channels.find? id with
  | some c => if c.type = channelTypeAdvancedCustom then c.advancedCustom else none
  | none => none

/-- `InitChannelCache`, from the channels and the groups of the abilities. -/
def initChannelCache (sorter : SliceSort) (channels : Table Channel.id)
    (abilityGroups : List String) : Option Cache :=
  (addChannels channels.rows (Lists.ofGroups abilityGroups)).map fun lists =>
    { group2model2channels := lists.map (sorter.sort (priorityOf channels))
      channelsIDM := channels
      channel2advancedCustomConfig := configOf channels }

def Channel.entries (c : Channel) (group model : String) : List Int :=
  replicate ((split c.group ',').count group * (split c.models ',').count model) c.id

theorem addEntry_get {lists lists' : Lists} {group model : String} {id : Int}
    (h : addEntry lists group model id = some lists') (g m : String) :
    lists'.get g m = lists.get g m ++ if g = group ∧ m = model then [id] else [] := by
  obtain ⟨byModel, hGroup, rfl⟩ := map_eq_some_iff.mp h
  simp only [Lists.get]
  by_cases hg : g = group
  · subst hg
    rw [Function.update_self, hGroup]
    by_cases hm : m = model
    · subst hm
      simp
    · simp [hm]
  · rw [Function.update_of_ne hg]
    simp [hg]

theorem addModels_get {id : Int} {group : String} {models : List String} {lists lists' : Lists}
    (h : addModels id group models lists = some lists') (g m : String) :
    lists'.get g m = lists.get g m ++
      if g = group then replicate (models.count m) id else [] := by
  induction models generalizing lists with
  | nil =>
    cases h
    simp
  | cons model models ih =>
    obtain ⟨next, hEntry, hRest⟩ := bind_eq_some_iff.mp h
    rw [ih hRest, addEntry_get hEntry, append_assoc]
    congr 1
    by_cases hg : g = group
    · by_cases hm : m = model
      · subst hm
        simp [hg, replicate_succ]
      · simp [hg, hm, count_cons_of_ne (Ne.symm hm)]
    · simp [hg]

theorem addGroups_get {id : Int} {models groups : List String} {lists lists' : Lists}
    (h : addGroups id models groups lists = some lists') (g m : String) :
    lists'.get g m = lists.get g m ++ replicate (groups.count g * models.count m) id := by
  induction groups generalizing lists with
  | nil =>
    cases h
    simp
  | cons group groups ih =>
    obtain ⟨next, hModels, hRest⟩ := bind_eq_some_iff.mp h
    rw [ih hRest, addModels_get hModels, append_assoc]
    congr 1
    by_cases hg : g = group
    · subst hg
      rw [if_pos rfl, replicate_append_replicate, count_cons_self]
      congr 1
      rw [Nat.add_comm, Nat.succ_mul]
    · rw [if_neg hg, nil_append, count_cons_of_ne (Ne.symm hg)]

theorem addChannels_get {channels : List Channel} {lists lists' : Lists}
    (h : addChannels channels lists = some lists') (g m : String) :
    lists'.get g m = lists.get g m ++
      (channels.filter fun c => c.status = channelStatusEnabled).flatMap
        fun c => c.entries g m := by
  induction channels generalizing lists with
  | nil =>
    cases h
    simp
  | cons c channels ih =>
    unfold addChannels at h
    split at h
    · rename_i hDisabled
      rw [ih h, filter_cons_of_neg (by simpa using hDisabled)]
    · rename_i hEnabled
      obtain ⟨next, hGroups, hRest⟩ := bind_eq_some_iff.mp h
      rw [ih hRest, addGroups_get hGroups, append_assoc,
        filter_cons_of_pos (by simpa using hEnabled), flatMap_cons]
      rfl

/-- A list holds every enabled channel as often as its group and model names say so. -/
theorem loaded_get {sorter : SliceSort} {channels : Table Channel.id}
    {abilityGroups : List String} {cache : Cache}
    (h : initChannelCache sorter channels abilityGroups = some cache) (g m : String) :
    (cache.group2model2channels.get g m).Perm
      ((channels.rows.filter fun c => c.status = channelStatusEnabled).flatMap
        fun c => c.entries g m) := by
  obtain ⟨lists, hLists, rfl⟩ := map_eq_some_iff.mp h
  have hEmpty : sorter.sort (priorityOf channels) [] = [] :=
    List.Perm.eq_nil (sorter.perm _ [])
  rw [Lists.get_map hEmpty, addChannels_get hLists, Lists.get_ofGroups, nil_append]
  exact sorter.perm _ _

/-! ## Changing a status -/

/-- The loop over one list: the first entry of the channel is cut out. -/
def removeChannel (id : Int) (channels : List Int) : List Int :=
  match channels.findIdx? fun channelId => channelId = id with
  | some i => channels.take i ++ channels.drop (i + 1)
  | none => channels

theorem removeChannel_eq_erase (id : Int) (channels : List Int) :
    removeChannel id channels = channels.erase id := by
  unfold removeChannel
  cases hFind : channels.findIdx? fun channelId => channelId = id with
  | none =>
    rw [findIdx?_eq_none_iff] at hFind
    have hNot : id ∉ channels := fun hMem => by simpa using hFind id hMem
    rw [erase_of_not_mem hNot]
  | some i =>
    have hIdx : channels.idxOf id = i := by
      rw [findIdx?_eq_some_iff_findIdx_eq] at hFind
      rw [← hFind.2, idxOf]
      rfl
    rw [erase_eq_eraseIdx_of_idxOf hIdx, eraseIdx_eq_take_drop_succ]

/-- `CacheUpdateChannelStatus`. -/
def cacheUpdateChannelStatus (cache : Cache) (id status : Int) : Cache :=
  let known := { cache with
    channelsIDM := cache.channelsIDM.modify (fun c => c.id = id)
      (fun c => { c with status := status }) fun _ => rfl }
  if status ≠ channelStatusEnabled then
    { known with group2model2channels := cache.group2model2channels.map (removeChannel id) }
  else known

theorem updated_get (cache : Cache) (id status : Int) (g m : String) :
    (cacheUpdateChannelStatus cache id status).group2model2channels.get g m =
      if status ≠ channelStatusEnabled then (cache.group2model2channels.get g m).erase id
      else cache.group2model2channels.get g m := by
  unfold cacheUpdateChannelStatus
  by_cases hStatus : status ≠ channelStatusEnabled
  · rw [if_pos hStatus, if_pos hStatus, Lists.get_map rfl, removeChannel_eq_erase]
  · rw [if_neg hStatus, if_neg hStatus]

end Qapi.Channels
