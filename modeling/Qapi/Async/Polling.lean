import Qapi.Async.Suno
import Qapi.Core.Table

/-!
# Dispatch of a polling pass

`RunTaskPollingOnce` reads the unfinished tasks and, platform by platform, groups them:
`taskChannelM` holds the upstream ids of every channel, and one map `taskM`, over all
channels, leads from an upstream id to its task. Every channel is then asked for its
ids, and what it answers is applied to the tasks that `taskM` gives. Where two tasks of
a platform have the same upstream id, `taskM` keeps the one that was read last, so the
other is asked about in vain; `Unmixed` says when that does not happen.
-/

namespace Qapi.Async.Polling

open Qapi.Core List

/-- `TaskPlatform`; the video platforms are numbers of channel types. -/
inductive Platform
  | suno
  | midjourney
  | other (text : String)
deriving DecidableEq, Repr

/-- `Task` with what the dispatch reads besides. -/
structure SyncTask extends Task where
  platform : Platform
  upstreamTaskID : String
deriving DecidableEq, Repr

def SyncTask.key (t : SyncTask) : Int := t.id

def SyncTask.getUpstreamTaskID (t : SyncTask) : String :=
  if t.upstreamTaskID ≠ "" then t.upstreamTaskID else t.taskID

/-- `SunoDataResponse` with the id of the task that the item is about. -/
structure SunoItem extends Suno.SunoDataResponse where
  taskID : String
deriving DecidableEq, Repr

/-- `GetAllUnFinishSyncTasks`. -/
def getAllUnFinishSyncTasks (limit : Nat) (rows : Table SyncTask.key) : List SyncTask :=
  ((rows.rows.filter fun t => t.unfinished).insertionSort fun t u => t.key ≤ u.key).take limit

/-! ## Grouping -/

/-- What a pass builds from the tasks of a platform. The maps of the source are functions; the
keys of `taskChannelM` are listed in `channels`, in no particular order. -/
structure Grouping where
  taskM : String → Option SyncTask
  taskChannelM : Int → List String
  channels : List Int
  nullTaskIds : List Int

def Grouping.empty : Grouping := ⟨fun _ => none, fun _ => [], [], []⟩

def Grouping.addTask (g : Grouping) (task : SyncTask) : Grouping :=
  let upstreamID := task.getUpstreamTaskID
  if upstreamID = "" then { g with nullTaskIds := g.nullTaskIds ++ [task.id] }
  else
    { g with
      taskM := Function.update g.taskM upstreamID (some task)
      taskChannelM := Function.update g.taskChannelM task.channelId
        (g.taskChannelM task.channelId ++ [upstreamID])
      channels := g.channels.insert task.channelId }

def group (tasks : List SyncTask) : Grouping := tasks.foldl Grouping.addTask .empty

/-! ## Asking the channels -/

/-- A channel, an upstream id, and the task that `taskM` holds for the id: what is asked of the
channel, and what its answer is applied to. -/
structure Poll where
  channel : Int
  upstreamID : String
  task : SyncTask
deriving DecidableEq, Repr

/-- What a pass depends on besides the rows: the query limit, which channels `CacheGetChannel`
finds, which platforms have an adaptor, and, for Suno, the items that a channel answers with,
none if the request fails. -/
structure Env where
  taskQueryLimit : Nat
  loads : Int → Bool
  hasAdaptor : Platform → Bool
  items : Int → List SunoItem

/-- The poll of a task that `taskM` may hold for the id. -/
def Grouping.poll (g : Grouping) (channelId : Int) (upstreamID : String) : Option Poll :=
  (g.taskM upstreamID).map (Poll.mk channelId upstreamID)

/-- What `updateVideoTasks` and `updateSunoTasks` ask of the channels that can be loaded. -/
def Grouping.asked (g : Grouping) (env : Env) : List Poll :=
  (g.channels.filter env.loads).flatMap fun channelId =>
    (g.taskChannelM channelId).filterMap (g.poll channelId)

/-- The items of the Suno responses with the tasks that they are compared with and applied to. -/
def Grouping.answered (g : Grouping) (env : Env) : List Poll :=
  (g.channels.filter env.loads).flatMap fun channelId =>
    (env.items channelId).filterMap fun item => g.poll channelId item.taskID

/-- `DispatchPlatformUpdate`, up to the order in which the channels are served: what is asked. -/
def polls (env : Env) (platform : Platform) (g : Grouping) : List Poll :=
  if platform = .midjourney ∨ env.hasAdaptor platform = false then [] else g.asked env

/-- `DispatchPlatformUpdate`, up to the order in which the channels are served: what is applied. A
video task gets the answer of its own request, a Suno response says itself what it is about. -/
def deliveries (env : Env) (platform : Platform) (g : Grouping) : List Poll :=
  match platform with
  | .suno => if env.hasAdaptor platform = false then [] else g.answered env
  | _ => polls env platform g

def platformTasks (env : Env) (rows : Table SyncTask.key) (platform : Platform) : List SyncTask :=
  (getAllUnFinishSyncTasks env.taskQueryLimit rows).filter fun t => t.platform = platform

/-- A pass over a platform. The channels of a video platform are served concurrently and those of
Suno in the order in which Go ranges over a map. -/
structure Pass (env : Env) (rows : Table SyncTask.key) (platform : Platform) where
  asked : List Poll
  applied : List Poll
  asked_perm : asked.Perm (polls env platform (group (platformTasks env rows platform)))
  applied_perm : applied.Perm (deliveries env platform (group (platformTasks env rows platform)))

/-! ## What the grouping holds -/

def named (tasks : List SyncTask) : List SyncTask :=
  tasks.filter fun t => t.getUpstreamTaskID ≠ ""

/-- No task of the list that has the upstream id of `t` was created after it. -/
def Newest (tasks : List SyncTask) (t : SyncTask) : Prop :=
  ∀ u ∈ tasks, u.getUpstreamTaskID = t.getUpstreamTaskID → u.key ≤ t.key

def Ordered (tasks : List SyncTask) : Prop := tasks.Pairwise fun t u => t.key < u.key

section

variable {tasks : List SyncTask} {t : SyncTask}

theorem group_concat (tasks : List SyncTask) (t : SyncTask) :
    group (tasks ++ [t]) = (group tasks).addTask t := by
  simp [group]

theorem named_concat (tasks : List SyncTask) (t : SyncTask) :
    named (tasks ++ [t]) = named tasks ++ if t.getUpstreamTaskID = "" then [] else [t] := by
  by_cases hNull : t.getUpstreamTaskID = "" <;> simp [named, hNull]

theorem mem_named : t ∈ named tasks ↔ t ∈ tasks ∧ t.getUpstreamTaskID ≠ "" := by
  simp [named]

theorem Grouping.addTask_null (g : Grouping) (h : t.getUpstreamTaskID = "") :
    g.addTask t = { g with nullTaskIds := g.nullTaskIds ++ [t.id] } := if_pos h

theorem Grouping.addTask_named (g : Grouping) (h : t.getUpstreamTaskID ≠ "") :
    g.addTask t = { g with
      taskM := Function.update g.taskM t.getUpstreamTaskID (some t)
      taskChannelM := Function.update g.taskChannelM t.channelId
        (g.taskChannelM t.channelId ++ [t.getUpstreamTaskID])
      channels := g.channels.insert t.channelId } := if_neg h

theorem taskChannelM_group (tasks : List SyncTask) (channelId : Int) :
    (group tasks).taskChannelM channelId =
      ((named tasks).filter fun t => t.channelId = channelId).map (·.getUpstreamTaskID) := by
  induction tasks using reverseRecOn with
  | nil => rfl
  | append_singleton tasks t ih =>
    rw [group_concat, named_concat]
    by_cases hNull : t.getUpstreamTaskID = ""
    · simpa [Grouping.addTask_null _ hNull, hNull] using ih
    · rw [Grouping.addTask_named _ hNull]
      by_cases hChannel : t.channelId = channelId
      · subst hChannel
        simp [ih, hNull]
      · simp [ih, hNull, hChannel, Function.update_of_ne (Ne.symm hChannel)]

theorem mem_channels_group (tasks : List SyncTask) (channelId : Int) :
    channelId ∈ (group tasks).channels ↔ ∃ t ∈ named tasks, t.channelId = channelId := by
  induction tasks using reverseRecOn with
  | nil => simp [group, Grouping.empty, named]
  | append_singleton tasks t ih =>
    rw [group_concat, named_concat]
    by_cases hNull : t.getUpstreamTaskID = ""
    · simpa [Grouping.addTask_null _ hNull, hNull] using ih
    · rw [Grouping.addTask_named _ hNull]
      simp only [hNull, if_false, mem_insert_iff, ih, mem_append, mem_singleton]
      constructor
      · rintro (rfl | ⟨u, hu, hc⟩)
        · exact ⟨t, Or.inr rfl, rfl⟩
        · exact ⟨u, Or.inl hu, hc⟩
      · rintro ⟨u, hu | rfl, hc⟩
        · exact Or.inr ⟨u, hu, hc⟩
        · exact Or.inl hc.symm

theorem nodup_channels_group (tasks : List SyncTask) : (group tasks).channels.Nodup := by
  induction tasks using reverseRecOn with
  | nil => exact nodup_nil
  | append_singleton tasks t ih =>
    rw [group_concat]
    by_cases hNull : t.getUpstreamTaskID = ""
    · rwa [Grouping.addTask_null _ hNull]
    · rw [Grouping.addTask_named _ hNull]
      exact ih.insert

theorem taskM_group (tasks : List SyncTask) (upstreamID : String) :
    (group tasks).taskM upstreamID =
      ((named tasks).filter fun t => t.getUpstreamTaskID = upstreamID).getLast? := by
  induction tasks using reverseRecOn with
  | nil => rfl
  | append_singleton tasks t ih =>
    rw [group_concat, named_concat]
    by_cases hNull : t.getUpstreamTaskID = ""
    · simpa [Grouping.addTask_null _ hNull, hNull] using ih
    · rw [Grouping.addTask_named _ hNull]
      by_cases hId : t.getUpstreamTaskID = upstreamID
      · subst hId
        simp [hNull]
      · simp [ih, hNull, hId, Function.update_of_ne (Ne.symm hId)]

theorem Ordered.nodup (h : Ordered tasks) : (tasks.map SyncTask.key).Nodup :=
  pairwise_map.mpr (h.imp ne_of_lt)

/-- Of tasks in the order of their ids, `taskM` holds the newest with the upstream id. -/
theorem taskM_eq_some (hOrdered : Ordered tasks) {upstreamID : String} :
    (group tasks).taskM upstreamID = some t ↔
      t ∈ named tasks ∧ t.getUpstreamTaskID = upstreamID ∧ Newest tasks t := by
  have hLast : ∀ x, (group tasks).taskM upstreamID = some x →
      x ∈ named tasks ∧ x.getUpstreamTaskID = upstreamID ∧ Newest (named tasks) x := by
    intro x hx
    rw [taskM_group] at hx
    obtain ⟨front, hFront⟩ := getLast?_eq_some_iff.mp hx
    have hMem : ∀ u, u ∈ front ++ [x] ↔ u ∈ named tasks ∧ u.getUpstreamTaskID = upstreamID := by
      intro u
      rw [← hFront, mem_filter, decide_eq_true_eq]
    obtain ⟨hNamed, hId⟩ := (hMem x).mp (by simp)
    refine ⟨hNamed, hId, fun u hu hSame => ?_⟩
    have hSorted : (front ++ [x]).Pairwise fun t u => t.key < u.key := by
      rw [← hFront]
      exact (List.Pairwise.filter _ hOrdered).filter _
    rcases mem_append.mp ((hMem u).mpr ⟨hu, hSame.trans hId⟩) with hu | hu
    · exact le_of_lt ((pairwise_append.mp hSorted).2.2 u hu x (by simp))
    · rw [mem_singleton.mp hu]
  -- only tasks that have an upstream id can share one with a task that has
  have hNewest : ∀ x ∈ named tasks, (Newest (named tasks) x ↔ Newest tasks x) := by
    intro x hx
    constructor
    · intro h u hu hSame
      refine h u (mem_named.mpr ⟨hu, ?_⟩) hSame
      rw [hSame]
      exact (mem_named.mp hx).2
    · intro h u hu
      exact h u (mem_named.mp hu).1
  constructor
  · intro h
    obtain ⟨hNamed, hId, hNew⟩ := hLast t h
    exact ⟨hNamed, hId, (hNewest t hNamed).mp hNew⟩
  · rintro ⟨hNamed, hId, hNew⟩
    cases hFound : (group tasks).taskM upstreamID with
    | none =>
      rw [taskM_group, getLast?_eq_none_iff, filter_eq_nil_iff] at hFound
      exact absurd hId (by simpa using hFound t hNamed)
    | some x =>
      obtain ⟨hxNamed, hxId, hxNew⟩ := hLast x hFound
      have hle := hxNew t hNamed (hId.trans hxId.symm)
      have hge := hNew x (mem_named.mp hxNamed).1 (hxId.trans hId.symm)
      rw [inj_on_of_nodup_map hOrdered.nodup (mem_named.mp hxNamed).1 (mem_named.mp hNamed).1
        (le_antisymm hge hle)]

theorem taskM_of_asked {g : Grouping} {env : Env} {d : Poll} (h : d ∈ g.asked env) :
    g.taskM d.upstreamID = some d.task := by
  simp only [Grouping.asked, Grouping.poll, mem_flatMap, mem_filterMap,
    Option.map_eq_some_iff] at h
  obtain ⟨c, -, u, -, x, hFound, rfl⟩ := h
  exact hFound

theorem mem_answered {g : Grouping} {env : Env} {d : Poll} :
    d ∈ g.answered env ↔ env.loads d.channel = true ∧ d.channel ∈ g.channels ∧
      (∃ item ∈ env.items d.channel, item.taskID = d.upstreamID) ∧
      g.taskM d.upstreamID = some d.task := by
  obtain ⟨channel, upstreamID, task⟩ := d
  simp only [Grouping.answered, Grouping.poll, mem_flatMap, mem_filter,
    mem_filterMap, Option.map_eq_some_iff, Poll.mk.injEq]
  constructor
  · rintro ⟨c, ⟨hKnown, hLoads⟩, item, hItem, x, hFound, rfl, rfl, rfl⟩
    exact ⟨hLoads, hKnown, ⟨item, hItem, rfl⟩, hFound⟩
  · rintro ⟨hLoads, hKnown, ⟨item, hItem, rfl⟩, hFound⟩
    exact ⟨channel, ⟨hKnown, hLoads⟩, item, hItem, task, hFound, rfl, rfl, rfl⟩

/-- One request for every task on a channel that can be loaded, on behalf of the task that `taskM`
holds for its upstream id. -/
theorem asked_group_perm (env : Env) (tasks : List SyncTask) :
    ((group tasks).asked env).Perm (((named tasks).filter fun t => env.loads t.channelId).filterMap
      fun t => (group tasks).poll t.channelId t.getUpstreamTaskID) := by
  have hChannel : ∀ c ∈ (group tasks).channels.filter env.loads,
      ((group tasks).taskChannelM c).filterMap ((group tasks).poll c) =
        (((named tasks).filter fun t => env.loads t.channelId).filter fun t =>
          t.channelId = c).filterMap fun t => (group tasks).poll t.channelId t.getUpstreamTaskID := by
    intro c hc
    have hLoads := (mem_filter.mp hc).2
    have hSame : (((named tasks).filter fun t => env.loads t.channelId).filter fun t =>
        t.channelId = c) = (named tasks).filter fun t => t.channelId = c := by
      rw [filter_filter]
      apply filter_congr
      intro t _
      by_cases ht : t.channelId = c
      · simp [ht, hLoads]
      · simp [ht]
    rw [hSame, taskChannelM_group, filterMap_map]
    apply filterMap_congr
    intro t ht
    have hc : t.channelId = c := of_decide_eq_true (mem_filter.mp ht).2
    rw [hc]
    rfl
  rw [Grouping.asked, flatMap_congr hChannel, ← filterMap_flatMap]
  refine (flatMap_filter_perm ((nodup_channels_group tasks).filter _) ?_).filterMap _
  intro t ht
  obtain ⟨hNamed, hLoads⟩ := mem_filter.mp ht
  exact mem_filter.mpr ⟨(mem_channels_group tasks _).mpr ⟨t, hNamed, rfl⟩, hLoads⟩

/-- The request that is about the task itself. -/
def ownPoll (t : SyncTask) : Poll := ⟨t.channelId, t.getUpstreamTaskID, t⟩

theorem asked_perm_ownPoll {env : Env} (hOrdered : Ordered tasks)
    (hNewest : ∀ t ∈ named tasks, env.loads t.channelId = true → Newest tasks t) :
    ((group tasks).asked env).Perm
      (((named tasks).filter fun t => env.loads t.channelId).map ownPoll) := by
  have hOwn : ∀ t ∈ (named tasks).filter fun t => env.loads t.channelId,
      (group tasks).poll t.channelId t.getUpstreamTaskID = some (ownPoll t) := by
    intro t ht
    obtain ⟨hNamed, hLoads⟩ := mem_filter.mp ht
    have hFound := (taskM_eq_some hOrdered).mpr ⟨hNamed, rfl, hNewest t hNamed hLoads⟩
    rw [Grouping.poll, hFound]
    rfl
  have hPerm := asked_group_perm env tasks
  rwa [filterMap_congr hOwn, ← Function.comp_def some, filterMap_eq_map] at hPerm

end

/-! ## The tasks of a pass -/

theorem mem_getAllUnFinishSyncTasks {limit : Nat} {rows : Table SyncTask.key} {t : SyncTask}
    (h : t ∈ getAllUnFinishSyncTasks limit rows) : t ∈ rows ∧ t.unfinished = true :=
  mem_filter.mp ((mem_insertionSort _).mp (mem_of_mem_take h))

theorem ordered_getAllUnFinishSyncTasks (limit : Nat) (rows : Table SyncTask.key) :
    Ordered (getAllUnFinishSyncTasks limit rows) := by
  refine List.Pairwise.take ?_
  have hNodup : ((rows.rows.filter fun t => t.unfinished).insertionSort
      fun t u => t.key ≤ u.key).Pairwise fun t u => t.key ≠ u.key := by
    rw [← pairwise_map (f := SyncTask.key)]
    have hPerm := (perm_insertionSort (fun t u : SyncTask => t.key ≤ u.key)
      (rows.rows.filter fun t => t.unfinished)).map SyncTask.key
    exact hPerm.nodup_iff.mpr ((List.Sublist.map _ filter_sublist).nodup rows.nodup)
  have hSorted := pairwise_insertionSort (fun t u : SyncTask => t.key ≤ u.key)
    (rows.rows.filter fun t => t.unfinished)
  exact (hSorted.and hNodup).imp fun ⟨hle, hne⟩ => lt_of_le_of_ne hle hne

section

variable {env : Env} {rows : Table SyncTask.key} {platform : Platform}

theorem ordered_platformTasks : Ordered (platformTasks env rows platform) :=
  List.Pairwise.filter _ (ordered_getAllUnFinishSyncTasks env.taskQueryLimit rows)

structure Pending (env : Env) (rows : Table SyncTask.key) (platform : Platform) (t : SyncTask) :
    Prop where
  row : t ∈ rows
  unfinished : t.unfinished = true
  platform_eq : t.platform = platform
  named : t.getUpstreamTaskID ≠ ""
  loads : env.loads t.channelId = true

theorem pending_of_mem {t : SyncTask} (ht : t ∈ named (platformTasks env rows platform))
    (hLoads : env.loads t.channelId = true) : Pending env rows platform t := by
  obtain ⟨hMem, hNamed⟩ := mem_named.mp ht
  obtain ⟨hRead, hPlatform⟩ := mem_filter.mp hMem
  obtain ⟨hRow, hUnfinished⟩ := mem_getAllUnFinishSyncTasks hRead
  exact ⟨hRow, hUnfinished, of_decide_eq_true hPlatform, hNamed, hLoads⟩

theorem Pending.mem_named {t : SyncTask} (h : Pending env rows platform t)
    (hRead : t ∈ getAllUnFinishSyncTasks env.taskQueryLimit rows) :
    t ∈ Polling.named (platformTasks env rows platform) :=
  Polling.mem_named.mpr ⟨mem_filter.mpr ⟨hRead, decide_eq_true h.platform_eq⟩, h.named⟩

/-! ## Results reach their tasks -/

/-- What a channel answers for an upstream id is applied to a task of the channel with the id. -/
def Pass.ReachesOwnTasks (p : Pass env rows platform) : Prop :=
  ∀ d ∈ p.applied, d.task.channelId = d.channel ∧ d.task.getUpstreamTaskID = d.upstreamID

def Pass.PollsOnce (p : Pass env rows platform) : Prop :=
  ∀ t, Pending env rows platform t →
    (p.asked.filter fun d => d.task.key = t.key) = [ownPoll t]

/-- The platform is polled here and every task to poll is within the query limit and is the
newest with its upstream id; and no Suno channel answers with the upstream id of a task of
another channel. -/
structure Unmixed (env : Env) (rows : Table SyncTask.key) (platform : Platform) : Prop where
  served : ∀ t, Pending env rows platform t →
    platform ≠ .midjourney ∧ env.hasAdaptor platform = true
  read : ∀ t, Pending env rows platform t → t ∈ getAllUnFinishSyncTasks env.taskQueryLimit rows
  newest : ∀ t, Pending env rows platform t → Newest (platformTasks env rows platform) t
  items : platform = .suno → env.hasAdaptor platform = true →
    ∀ u ∈ named (platformTasks env rows platform), env.loads u.channelId = true →
      ∀ item ∈ env.items u.channelId, ∀ t ∈ named (platformTasks env rows platform),
        t.getUpstreamTaskID = item.taskID → Newest (platformTasks env rows platform) t →
          t.channelId = u.channelId

theorem asked_of_polls {g : Grouping} {d : Poll} (h : d ∈ polls env platform g) :
    (platform ≠ .midjourney ∧ env.hasAdaptor platform = true) ∧ d ∈ g.asked env := by
  unfold polls at h
  split at h
  · cases h
  · rename_i hServed
    rw [not_or, Bool.not_eq_false] at hServed
    exact ⟨hServed, h⟩

theorem Unmixed.asked_perm (h : Unmixed env rows platform) :
    ((group (platformTasks env rows platform)).asked env).Perm
      (((named (platformTasks env rows platform)).filter fun t =>
        env.loads t.channelId).map ownPoll) :=
  asked_perm_ownPoll ordered_platformTasks fun t ht hLoads => h.newest t (pending_of_mem ht hLoads)

theorem Unmixed.pollsOnce (h : Unmixed env rows platform) (p : Pass env rows platform) :
    p.PollsOnce := by
  intro t ht
  have hServed := h.served t ht
  have hAsked : p.asked.Perm (((named (platformTasks env rows platform)).filter fun t =>
      env.loads t.channelId).map ownPoll) := by
    have hPolls : polls env platform (group (platformTasks env rows platform)) =
        (group (platformTasks env rows platform)).asked env := if_neg (by simp [hServed])
    exact (hPolls ▸ p.asked_perm).trans h.asked_perm
  have hNodup : (((named (platformTasks env rows platform)).filter fun t =>
      env.loads t.channelId).map SyncTask.key).Nodup := by
    have hOrdered : Ordered (platformTasks env rows platform) := ordered_platformTasks
    exact (List.Sublist.map _ (filter_sublist.trans filter_sublist)).nodup hOrdered.nodup
  have hMem : t ∈ (named (platformTasks env rows platform)).filter fun t =>
      env.loads t.channelId :=
    mem_filter.mpr ⟨ht.mem_named (h.read t ht), ht.loads⟩
  have hFilter := hAsked.filter fun d => decide (d.task.key = t.key)
  rw [filter_map] at hFilter
  have hOne := filter_key_eq_singleton hNodup hMem
  rw [show ((fun d : Poll => decide (d.task.key = t.key)) ∘ ownPoll) =
    fun u => decide (u.key = t.key) from rfl, hOne] at hFilter
  exact perm_singleton.mp hFilter

theorem Unmixed.reachesOwnTasks (h : Unmixed env rows platform) (p : Pass env rows platform) :
    p.ReachesOwnTasks := by
  intro d hd
  have hDelivered := p.applied_perm.mem_iff.mp hd
  have hPolled : d ∈ polls env platform (group (platformTasks env rows platform)) →
      d.task.channelId = d.channel ∧ d.task.getUpstreamTaskID = d.upstreamID := by
    intro hd
    obtain ⟨t, -, rfl⟩ := mem_map.mp (h.asked_perm.mem_iff.mp (asked_of_polls hd).2)
    exact ⟨rfl, rfl⟩
  cases platform with
  | midjourney => exact hPolled hDelivered
  | other text => exact hPolled hDelivered
  | suno =>
    simp only [deliveries] at hDelivered
    split at hDelivered
    · cases hDelivered
    · rename_i hAdaptor
      obtain ⟨hLoads, hKnown, ⟨item, hItem, hId⟩, hFound⟩ := mem_answered.mp hDelivered
      obtain ⟨hNamed, hUpstream, hNewest⟩ := (taskM_eq_some ordered_platformTasks).mp hFound
      obtain ⟨u, hu, hChannel⟩ := (mem_channels_group _ _).mp hKnown
      refine ⟨?_, hUpstream⟩
      rw [← hChannel] at hLoads hItem ⊢
      exact h.items rfl (by simpa using hAdaptor) u hu hLoads item hItem d.task hNamed
        (hUpstream.trans hId.symm) hNewest

theorem unmixed_of_pass {p : Pass env rows platform} (hOwn : p.ReachesOwnTasks)
    (hOnce : p.PollsOnce) : Unmixed env rows platform := by
  -- a task that is polled is one that the grouping holds for its own upstream id
  have hPolled : ∀ t, Pending env rows platform t →
      (platform ≠ .midjourney ∧ env.hasAdaptor platform = true) ∧
        t ∈ named (platformTasks env rows platform) ∧
        Newest (platformTasks env rows platform) t := by
    intro t ht
    have hAsked : ownPoll t ∈ p.asked := by
      have hMem : ownPoll t ∈ p.asked.filter fun d => d.task.key = t.key := by
        rw [hOnce t ht]
        exact mem_singleton.mpr rfl
      exact (mem_filter.mp hMem).1
    obtain ⟨hServed, hAsked⟩ := asked_of_polls (p.asked_perm.mem_iff.mp hAsked)
    obtain ⟨hNamed, -, hNewest⟩ :=
      (taskM_eq_some ordered_platformTasks).mp (taskM_of_asked hAsked)
    exact ⟨hServed, hNamed, hNewest⟩
  refine ⟨fun t ht => (hPolled t ht).1, ?_, fun t ht => (hPolled t ht).2.2, ?_⟩
  · intro t ht
    exact (mem_filter.mp (mem_named.mp (hPolled t ht).2.1).1).1
  · intro hSuno hAdaptor u hu hLoads item hItem t hNamed hId hNewest
    subst hSuno
    have hDelivered : (⟨u.channelId, item.taskID, t⟩ : Poll) ∈
        deliveries env .suno (group (platformTasks env rows .suno)) := by
      simp only [deliveries, hAdaptor, Bool.true_eq_false, if_false]
      exact mem_answered.mpr ⟨hLoads, (mem_channels_group _ _).mpr ⟨u, hu, rfl⟩,
        ⟨item, hItem, rfl⟩, (taskM_eq_some ordered_platformTasks).mpr ⟨hNamed, hId, hNewest⟩⟩
    exact (hOwn _ (p.applied_perm.mem_iff.mpr hDelivered)).1

/-- The results of a pass reach their tasks, and every task is polled once, exactly when no task
of the pass gets in the way of another. -/
theorem results_reach_own_tasks_iff (p : Pass env rows platform) :
    (p.ReachesOwnTasks ∧ p.PollsOnce) ↔ Unmixed env rows platform :=
  ⟨fun h => unmixed_of_pass h.1 h.2, fun h => ⟨h.reachesOwnTasks p, h.pollsOnce p⟩⟩

end

/-! ## Two channels with one upstream id -/

/-- A video task with the upstream id `job-1`. -/
def videoTask (id channelId : Int) : SyncTask where
  toTask := { sampleTask .inProgress with id := id, channelId := channelId }
  platform := .other "55"
  upstreamTaskID := "job-1"

def twoChannels : Table SyncTask.key := ⟨[videoTask 1 1, videoTask 2 2], by decide⟩

def allLoaded : Env := ⟨1000, fun _ => true, fun _ => true, fun _ => []⟩

/-- In every pass, what the first channel answers is applied to the task of the second, and nobody
polls the task of the first. -/
theorem shared_upstream_id_mixes_tasks :
    Nonempty (Pass allLoaded twoChannels (.other "55")) ∧
      Pending allLoaded twoChannels (.other "55") (videoTask 1 1) ∧
      ∀ p : Pass allLoaded twoChannels (.other "55"),
        (⟨1, "job-1", videoTask 2 2⟩ : Poll) ∈ p.applied ∧
          (p.asked.filter fun d => d.task.key = 1) = [] := by
  refine ⟨⟨_, _, List.Perm.refl _, List.Perm.refl _⟩, ?_, fun p => ⟨?_, ?_⟩⟩
  · exact ⟨mem_cons_self, by decide, rfl, by decide, rfl⟩
  · rw [p.applied_perm.mem_iff]
    decide
  · have hFilter := p.asked_perm.filter fun d => decide (d.task.key = 1)
    have hNone : ((polls allLoaded (.other "55")
        (group (platformTasks allLoaded twoChannels (.other "55")))).filter
          fun d => decide (d.task.key = 1)) = [] := by decide
    rw [hNone] at hFilter
    exact hFilter.eq_nil

end Qapi.Async.Polling
