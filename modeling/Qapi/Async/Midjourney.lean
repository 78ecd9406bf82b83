import Qapi.Async.Basic
import Qapi.Billing.Quota
import Qapi.Core.Ledger
import Qapi.Core.Machine

/-!
# Midjourney tasks

`runMidjourneyTaskUpdateOnce` over the table of Midjourney tasks. A pass reads the
unfinished rows, asks every channel for its tasks and applies the items of the
response to its copies, one after another. The write is a compare-and-swap on the
status that the copy had before the item, while the quota is given back for what the
item says about progress and failure. So winning the swap is winning the refund only
for items that move the status; `Safe` says which items those are.
-/

namespace Qapi.Async.Mj

open Qapi.Core Subscription Billing

/-- `Midjourney`, a row. -/
structure Midjourney where
  id : Int
  code : Int
  userId : Int
  mjId : String
  promptEn : String
  state : String
  submitTime : Int
  startTime : Int
  finishTime : Int
  imageUrl : String
  videoUrl : String
  videoUrls : String
  status : String
  progress : String
  failReason : String
  channelId : Int
  quota : Int
  buttons : String
  properties : String
deriving DecidableEq, Repr

/-- `MidjourneyDto`, an item of the response; buttons and properties are given as the JSON text
that the pass stores, if they are present. -/
structure MidjourneyDto where
  mjId : String
  promptEn : String
  state : String
  submitTime : Int
  startTime : Int
  finishTime : Int
  imageUrl : String
  videoUrl : String
  videoUrls : List String
  status : String
  progress : String
  failReason : String
  buttons : Option String
  properties : Option String
deriving DecidableEq, Repr

/-- The condition of `GetAllUnFinishTasks`. -/
def Midjourney.unfinished (t : Midjourney) : Bool := t.progress ≠ "100%"

/-! ## One item -/

section

-- `common.Marshal` on the URLs of an item
variable (marshal : List String → Option String)

def checkMjTaskNeedUpdate (oldTask : Midjourney) (newTask : MidjourneyDto) : Bool :=
  oldTask.code ≠ 1 || oldTask.progress ≠ newTask.progress ||
    oldTask.promptEn ≠ newTask.promptEn || oldTask.state ≠ newTask.state ||
    oldTask.submitTime ≠ newTask.submitTime || oldTask.startTime ≠ newTask.startTime ||
    oldTask.finishTime ≠ newTask.finishTime || oldTask.imageUrl ≠ newTask.imageUrl ||
    oldTask.status ≠ newTask.status || oldTask.failReason ≠ newTask.failReason ||
    (oldTask.progress ≠ "100%" && newTask.failReason ≠ "") ||
    oldTask.videoUrl ≠ newTask.videoUrl ||
    (if newTask.videoUrls ≠ [] then oldTask.videoUrls ≠ (marshal newTask.videoUrls).getD ""
      else oldTask.videoUrls ≠ "")

/-- The item as the pass treats it: a task of more than an hour counts as failed. -/
def expireItem (now : Int) (task : Midjourney) (item : MidjourneyDto) : MidjourneyDto :=
  if 3600000 < now - task.submitTime ∧ task.progress ≠ "100%" then
    { item with failReason := "上游任务超时（超过1小时）", status := "FAILURE" }
  else item

def takeFields (task : Midjourney) (item : MidjourneyDto) : Midjourney :=
  { task with
    code := 1
    progress := item.progress
    promptEn := item.promptEn
    state := item.state
    submitTime := item.submitTime
    startTime := item.startTime
    finishTime := item.finishTime
    imageUrl := item.imageUrl
    status := item.status
    failReason := item.failReason
    properties := item.properties.getD task.properties
    buttons := item.buttons.getD task.buttons
    videoUrl := item.videoUrl
    videoUrls := if item.videoUrls ≠ [] then (marshal item.videoUrls).getD "[]" else "" }

/-- Whether the pass takes the item for a failure; the task is the copy with the fields of the
item. -/
def buildFailed (task : Midjourney) (item : MidjourneyDto) : Bool :=
  (task.progress ≠ "100%" && item.failReason ≠ "") ||
    (task.progress = "100%" && task.status = "FAILURE")

def applyItem (task : Midjourney) (item : MidjourneyDto) : Midjourney :=
  let task := takeFields marshal task item
  if buildFailed task item then { task with progress := "100%" } else task

def shouldReturnQuota (task : Midjourney) (item : MidjourneyDto) : Bool :=
  let task := takeFields marshal task item
  buildFailed task item && task.quota ≠ 0

end

/-! ## Statements -/

/-- `UpdateWithStatus`: the rows afterwards and whether the caller won, or the error. -/
def updateWithStatus (o : Write) (rows : Table Midjourney.id) (task : Midjourney)
    (fromStatus : String) : Table Midjourney.id × Except Err Bool :=
  saveIf o rows (fun r => r.status = fromStatus) task

/-- A row that a bulk update fails; the reason is set only where one is given. -/
def failRow (failReason : Option String) (row : Midjourney) : Midjourney :=
  { row with
    failReason := failReason.getD row.failReason
    status := "FAILURE"
    progress := "100%" }

theorem failRow_id (failReason : Option String) (row : Midjourney) :
    (failRow failReason row).id = row.id := rfl

/-- The bulk updates: all rows that the condition selects fail, or the statement fails. -/
def bulkFail (o : Write) (rows : Table Midjourney.id) (selected : Midjourney → Bool)
    (failReason : Option String) : Table Midjourney.id :=
  match o with
  | .failed _ => rows
  | _ => rows.modify selected (failRow failReason) (failRow_id failReason)

/-! ## Passes -/

/-- Where a pass stands: it has not read the rows, it has read them, it has channels left to ask,
it has items of a response left to apply, or it has won a write and is about to give the quota
back. -/
inductive Pass
  | idle
  | grouping (tasks : List Midjourney)
  | scanning (tasks : List Midjourney) (channels : List Int)
  | applying (tasks : List Midjourney) (channels : List Int) (items : List MidjourneyDto)
  | returning (tasks : List Midjourney) (channels : List Int) (items : List MidjourneyDto)
      (task : Midjourney)

structure State where
  rows : Table Midjourney.id
  passes : Nat → Pass
  world : World
  returned : List Midjourney

def State.setPass (s : State) (p : Nat) (x : Pass) : State :=
  { s with passes := Function.update s.passes p x }

/-- `taskM`: of several tasks with one id the last one that was read. -/
def taskM (tasks : List Midjourney) (mjId : String) : Option Midjourney :=
  tasks.reverse.find? fun t => t.mjId ≠ "" && t.mjId = mjId

/-- The channels of `taskChannelM`. -/
def channelsOf (tasks : List Midjourney) : List Int :=
  ((tasks.filter fun t => t.mjId ≠ "").map (·.channelId)).dedup

/-- The ids that `taskChannelM` holds for the channel. -/
def mjIdsOf (tasks : List Midjourney) (channelId : Int) : List String :=
  (tasks.filter fun t => t.mjId ≠ "" && t.channelId = channelId).map (·.mjId)

def channelMissingReason (channelId : Int) : String :=
  "获取渠道信息失败，请联系管理员，渠道ID：" ++ toString channelId

def putBack (tasks : List Midjourney) (task : Midjourney) : List Midjourney :=
  tasks.map fun t => if t.id = task.id then task else t

/-- What the passes do, one statement at a time. A channel is asked in the order in which the map
is ranged over; it may be missing, its request may fail, or it answers with items. -/
inductive Action
  | read (p : Nat)
  | failNull (p : Nat) (o : Write)
  | channelMissing (p : Nat) (channelId : Int) (o : Write)
  | requestFailed (p : Nat) (channelId : Int)
  | response (p : Nat) (channelId : Int) (items : List MidjourneyDto)
  | item (p : Nat) (now : Int) (o : Write)
  | giveBack (p : Nat) (o : Outcome)
  | finish (p : Nat)

section

variable (marshal : List String → Option String)

/-- The copy that the item is applied to and the item as it is applied, if the task is known and
needs an update. -/
def pending (now : Int) (tasks : List Midjourney) (item : MidjourneyDto) :
    Option (Midjourney × MidjourneyDto) := do
  let task ← taskM tasks item.mjId
  let item := expireItem now task item
  if checkMjTaskNeedUpdate marshal task item then some (task, item) else none

def applyNext (s : State) (p : Nat) (now : Int) (o : Write) (tasks : List Midjourney)
    (channels : List Int) (item : MidjourneyDto) (items : List MidjourneyDto) : State :=
  match pending marshal now tasks item with
  | none => s.setPass p (.applying tasks channels items)
  | some (task, item) =>
    let written := applyItem marshal task item
    match updateWithStatus o s.rows written task.status with
    | (rows, .ok true) =>
      { s.setPass p
          (if shouldReturnQuota marshal task item then
            .returning (putBack tasks written) channels items written
          else .applying (putBack tasks written) channels items) with rows := rows }
    | (rows, _) =>
      { s.setPass p (.applying (putBack tasks written) channels items) with rows := rows }

def step (s : State) : Action → State
  | .read p =>
    match s.passes p with
    | .idle => s.setPass p (.grouping (s.rows.rows.filter Midjourney.unfinished))
    | _ => s
  | .failNull p o =>
    match s.passes p with
    | .grouping tasks =>
      let nullTaskIds := (tasks.filter fun t => t.mjId = "").map (·.id)
      { s.setPass p (.scanning tasks (channelsOf tasks)) with
        rows := bulkFail o s.rows (fun r => r.id ∈ nullTaskIds) none }
    | _ => s
  | .channelMissing p channelId o =>
    match s.passes p with
    | .scanning tasks channels =>
      if channelId ∈ channels then
        { s.setPass p (.scanning tasks (channels.erase channelId)) with
          rows := bulkFail o s.rows (fun r => r.mjId ∈ mjIdsOf tasks channelId)
            (some (channelMissingReason channelId)) }
      else s
    | _ => s
  | .requestFailed p channelId =>
    match s.passes p with
    | .scanning tasks channels =>
      if channelId ∈ channels then s.setPass p (.scanning tasks (channels.erase channelId)) else s
    | _ => s
  | .response p channelId items =>
    match s.passes p with
    | .scanning tasks channels =>
      if channelId ∈ channels then
        s.setPass p (.applying tasks (channels.erase channelId) items)
      else s
    | _ => s
  | .item p now o =>
    match s.passes p with
    | .applying tasks channels (item :: items) =>
      applyNext marshal s p now o tasks channels item items
    | .applying tasks channels [] => s.setPass p (.scanning tasks channels)
    | _ => s
  | .giveBack p o =>
    match s.passes p with
    | .returning tasks channels items task =>
      match increaseUserQuota o task.userId task.quota s.world with
      | .ok (_, world) =>
        { s.setPass p (.applying tasks channels items) with
          world := world
          returned := task :: s.returned }
      | .error _ => s.setPass p (.applying tasks channels items)
    | _ => s
  | .finish p =>
    match s.passes p with
    | .scanning _ _ => s.setPass p .idle
    | _ => s

def applied (s : State) : Action → Option (Midjourney × MidjourneyDto)
  | .item p now _ =>
    match s.passes p with
    | .applying tasks _ (item :: _) => pending marshal now tasks item
    | _ => none
  | _ => none

/-- The condition on an item and the copy that it is applied to: an item for which the quota is
given back moves a copy that is not `FAILURE` to `FAILURE`, and no item moves a copy out of
`FAILURE`. -/
def SafeItem (task : Midjourney) (item : MidjourneyDto) : Prop :=
  (shouldReturnQuota marshal task item = true → task.status ≠ "FAILURE" ∧ item.status = "FAILURE") ∧
    (task.status = "FAILURE" → item.status = "FAILURE")

def Safe (s : State) (a : Action) : Prop :=
  ∀ x ∈ applied marshal s a, SafeItem marshal x.1 x.2

instance (task : Midjourney) (item : MidjourneyDto) : Decidable (SafeItem marshal task item) :=
  inferInstanceAs (Decidable ((_ → _ ∧ _) ∧ (_ → _)))

instance (s : State) (a : Action) : Decidable (Safe marshal s a) :=
  inferInstanceAs (Decidable (∀ x ∈ applied marshal s a, SafeItem marshal x.1 x.2))

end

/-! ## What the actions do to the rows -/

def Failed (rows : Table Midjourney.id) (id : Int) : Prop :=
  ∃ r, rows.find? id = some r ∧ r.status = "FAILURE"

theorem Failed.bulkFail {rows : Table Midjourney.id} {id : Int} (h : Failed rows id) (o : Write)
    (selected : Midjourney → Bool) (failReason : Option String) :
    Failed (bulkFail o rows selected failReason) id := by
  obtain ⟨r, hFind, hStatus⟩ := h
  have hModified : Failed (rows.modify selected (failRow failReason) (failRow_id failReason)) id := by
    refine ⟨if selected r then failRow failReason r else r, ?_, ?_⟩
    · rw [Table.find?_modify, hFind, Option.map_some]
    · split
      · rfl
      · exact hStatus
  cases o with
  | failed e => exact ⟨r, hFind, hStatus⟩
  | ok => exact hModified
  | lost e => exact hModified

theorem failed_save_self {rows : Table Midjourney.id} {task r : Midjourney}
    (hFind : rows.find? task.id = some r) (h : task.status = "FAILURE") :
    Failed (rows.save task) task.id := ⟨task, Table.find?_save_self rfl hFind, h⟩

theorem Failed.save_of_ne {rows : Table Midjourney.id} {task : Midjourney} {id : Int}
    (h : Failed rows id) (hne : id ≠ task.id) : Failed (rows.save task) id := by
  obtain ⟨r, hFind, hStatus⟩ := h
  exact ⟨r, (Table.find?_save_of_ne hne).trans hFind, hStatus⟩

theorem updateWithStatus_cases (o : Write) (rows : Table Midjourney.id) (task : Midjourney)
    (fromStatus : String) :
    Loses rows (updateWithStatus o rows task fromStatus) ∨
      ∃ r, rows.find? task.id = some r ∧ r.status = fromStatus ∧
        Wins o (rows.save task) (updateWithStatus o rows task fromStatus) := by
  unfold updateWithStatus
  rcases saveIf_cases o rows (fun r => decide (r.status = fromStatus)) task with
    hLoses | ⟨r, hFind, hStatus, hWins⟩
  · exact Or.inl hLoses
  · exact Or.inr ⟨r, hFind, of_decide_eq_true hStatus, hWins⟩

/-! ## The refunds as a ledger -/

def Pass.owes : Pass → Option Int
  | .returning _ _ _ task => some task.id
  | _ => none

/-- A row is due once it is `FAILURE`; a pass owes what it has won. -/
def ledger (s : State) : Ledger Nat Int where
  due := Failed s.rows
  owes p := (s.passes p).owes
  paid id := (s.returned.map (·.id)).count id

section

variable {s : State} {p : Nat} {x : Pass} {rows : Table Midjourney.id}

theorem owes_setPass (s : State) (p : Nat) (x : Pass) :
    (fun q => ((s.setPass p x).passes q).owes) =
      Function.update (fun q => (s.passes q).owes) p x.owes :=
  Function.comp_update Pass.owes s.passes p x

theorem ledger_quiet (hOwes : x.owes = none) (hRows : ∀ id, Failed s.rows id → Failed rows id) :
    Ledger.Step (ledger s) (ledger { s.setPass p x with rows := rows }) := by
  refine .quiet hRows ?_ rfl
  intro q id hq
  have hUpdate : Function.update (fun q => (s.passes q).owes) p x.owes q = some id := by
    rw [← owes_setPass]
    exact hq
  rcases Ledger.update_owes_cases hUpdate with ⟨-, hx⟩ | ⟨-, hOld⟩
  · rw [hOwes] at hx
    cases hx
  · exact hOld

theorem ledger_setPass (hOwes : x.owes = none) :
    Ledger.Step (ledger s) (ledger (s.setPass p x)) := by
  have hStep : Ledger.Step (ledger s) (ledger { s.setPass p x with rows := s.rows }) :=
    ledger_quiet hOwes fun _ h => h
  exact hStep

theorem ledger_same : Ledger.Step (ledger s) (ledger s) := .quiet (fun _ h => h) (fun _ _ h => h) rfl

theorem applyItem_status (marshal : List String → Option String) (task : Midjourney)
    (item : MidjourneyDto) : (applyItem marshal task item).status = item.status := by
  simp only [applyItem]
  split <;> rfl

variable {marshal : List String → Option String} {item : MidjourneyDto}

theorem failed_save_item {task r : Midjourney} (hSafe : SafeItem marshal task item)
    (hFind : rows.find? (applyItem marshal task item).id = some r)
    (hStatus : r.status = task.status) {id : Int} (h : Failed rows id) :
    Failed (rows.save (applyItem marshal task item)) id := by
  by_cases hid : id = (applyItem marshal task item).id
  · obtain ⟨r', hFind', hFailed⟩ := h
    rw [hid, hFind] at hFind'
    cases hFind'
    rw [hid]
    refine failed_save_self hFind ?_
    rw [applyItem_status]
    exact hSafe.2 (hStatus.symm.trans hFailed)
  · exact h.save_of_ne hid

variable {tasks : List Midjourney} {channels : List Int} {items : List MidjourneyDto}

theorem ledger_win {task r : Midjourney} (hSafe : SafeItem marshal task item)
    (hReturn : shouldReturnQuota marshal task item = true)
    (hFind : s.rows.find? (applyItem marshal task item).id = some r)
    (hStatus : r.status = task.status) :
    Ledger.Step (ledger s) (ledger { s.setPass p
        (.returning tasks channels items (applyItem marshal task item)) with
      rows := s.rows.save (applyItem marshal task item) }) := by
  obtain ⟨hOpen, hFailure⟩ := hSafe.1 hReturn
  refine .win p (applyItem marshal task item).id (fun _ => failed_save_item hSafe hFind hStatus)
    ?_ ?_ (owes_setPass s p _) rfl
  · rintro ⟨r', hFind', hFailed⟩
    rw [hFind] at hFind'
    cases hFind'
    exact hOpen (hStatus.symm.trans hFailed)
  · exact failed_save_self hFind ((applyItem_status ..).trans hFailure)

theorem ledger_applyNext {now : Int} {o : Write}
    (hSafe : ∀ y ∈ pending marshal now tasks item, SafeItem marshal y.1 y.2) :
    Ledger.Step (ledger s) (ledger (applyNext marshal s p now o tasks channels item items)) := by
  unfold applyNext
  split
  · exact ledger_setPass rfl
  · rename_i task item' hPending
    have hItem : SafeItem marshal task item' := hSafe (task, item') hPending
    simp only
    rcases updateWithStatus_cases o s.rows (applyItem marshal task item') task.status with
      (hWrite | ⟨e, hWrite⟩) | ⟨r, hFind, hStatus, hWrite⟩
    · rw [hWrite]
      exact ledger_quiet rfl fun _ h => h
    · rw [hWrite]
      exact ledger_quiet rfl fun _ h => h
    · have hKeep : ∀ id, Failed s.rows id →
          Failed (s.rows.save (applyItem marshal task item')) id :=
        fun _ => failed_save_item hItem hFind hStatus
      rcases hWrite with hWrite | ⟨-, e, hWrite⟩
      · rw [hWrite]
        dsimp only
        by_cases hReturn : shouldReturnQuota marshal task item' = true
        · rw [if_pos hReturn]
          exact ledger_win hItem hReturn hFind hStatus
        · rw [if_neg hReturn]
          exact ledger_quiet rfl hKeep
      · rw [hWrite]
        exact ledger_quiet rfl hKeep

theorem ledger_giveBack {task : Midjourney} (world : World)
    (hPass : s.passes p = .returning tasks channels items task) :
    Ledger.Step (ledger s) (ledger { s.setPass p (.applying tasks channels items) with
      world := world
      returned := task :: s.returned }) := by
  refine .pay p task.id (fun _ h => h) ?_ (owes_setPass s p _) ?_
  · show (s.passes p).owes = some task.id
    rw [hPass]
    rfl
  · funext id
    by_cases hid : id = task.id
    · subst hid
      simp [ledger]
    · simp [ledger, hid, List.count_cons, Ne.symm hid]

end

theorem ledger_step (marshal : List String → Option String) {s : State} {a : Action}
    (hSafe : Safe marshal s a) : Ledger.Step (ledger s) (ledger (step marshal s a)) := by
  cases a with
  | read p | finish p =>
    simp only [step]
    split
    · exact ledger_setPass rfl
    · exact ledger_same
  | failNull p o =>
    simp only [step]
    split
    · exact ledger_quiet rfl fun _ h => h.bulkFail o _ _
    · exact ledger_same
  | channelMissing p channelId o =>
    simp only [step]
    split
    · split
      · exact ledger_quiet rfl fun _ h => h.bulkFail o _ _
      · exact ledger_same
    · exact ledger_same
  | requestFailed p channelId | response p channelId items =>
    simp only [step]
    split
    · split
      · exact ledger_setPass rfl
      · exact ledger_same
    · exact ledger_same
  | item p now o =>
    simp only [step]
    split
    · rename_i tasks channels item items hPass
      refine ledger_applyNext ?_
      simpa only [Safe, applied, hPass] using hSafe
    · exact ledger_setPass rfl
    · exact ledger_same
  | giveBack p o =>
    simp only [step]
    split
    · rename_i tasks channels items task hPass
      split
      · exact ledger_giveBack _ hPass
      · exact ledger_setPass rfl
    · exact ledger_same

/-! ## The balances -/

def givenBack (returned : List Midjourney) (userId : Int) : Int :=
  ((returned.filter fun t => t.userId = userId).map (·.quota)).sum

theorem applyNext_world (marshal : List String → Option String) (s : State) (p : Nat) (now : Int)
    (o : Write) (tasks : List Midjourney) (channels : List Int) (item : MidjourneyDto)
    (items : List MidjourneyDto) :
    (applyNext marshal s p now o tasks channels item items).world = s.world ∧
      (applyNext marshal s p now o tasks channels item items).returned = s.returned := by
  unfold applyNext
  split
  · exact ⟨rfl, rfl⟩
  · simp only
    split <;> exact ⟨rfl, rfl⟩

theorem step_world (marshal : List String → Option String) (s : State) (a : Action) :
    ((step marshal s a).world = s.world ∧ (step marshal s a).returned = s.returned) ∨
      ∃ task, (step marshal s a).world = s.world.addUser task.userId task.quota ∧
        (step marshal s a).returned = task :: s.returned := by
  cases a with
  | item p now o =>
    left
    simp only [step]
    split
    · exact applyNext_world ..
    · exact ⟨rfl, rfl⟩
    · exact ⟨rfl, rfl⟩
  | giveBack p o =>
    simp only [step]
    split
    · rename_i task _
      split
      · rename_i u world hWrite
        exact Or.inr ⟨task, quotaWrite_ok hWrite, rfl⟩
      · exact Or.inl ⟨rfl, rfl⟩
    · exact Or.inl ⟨rfl, rfl⟩
  | read p | failNull p o | finish p =>
    left
    simp only [step]
    split <;> exact ⟨rfl, rfl⟩
  | channelMissing p channelId o | requestFailed p channelId | response p channelId items =>
    left
    simp only [step]
    split
    · split <;> exact ⟨rfl, rfl⟩
    · exact ⟨rfl, rfl⟩

theorem users_run (marshal : List String → Option String) {s : State} (hs : s.returned = [])
    (l : List Action) (userId : Int) :
    (run (step marshal) s l).world.users userId =
      s.world.users userId + givenBack (run (step marshal) s l).returned userId := by
  refine run_invariant
    (I := fun t : State =>
      t.world.users userId = s.world.users userId + givenBack t.returned userId)
    ?_ ?_ l
  · intro t a ht
    rcases step_world marshal t a with ⟨hWorld, hReturned⟩ | ⟨task, hWorld, hReturned⟩
    · rw [hWorld, hReturned]
      exact ht
    · rw [hWorld, hReturned]
      by_cases hUser : task.userId = userId
      · subst hUser
        rw [World.addUser_self, ht]
        simp only [givenBack, List.filter_cons, decide_true, if_true, List.map_cons, List.sum_cons]
        omega
      · have hSame : (t.world.addUser task.userId task.quota).users userId = t.world.users userId := by
          simp [World.addUser, Ne.symm hUser]
        rw [hSame, ht]
        simp [givenBack, hUser]
  · simp [hs, givenBack]

/-! ## A task is refunded once -/

structure Initial (s : State) : Prop where
  idle : ∀ p, s.passes p = .idle
  unreturned : s.returned = []

theorem Initial.once {s : State} (h : Initial s) : (ledger s).Once := by
  refine Ledger.Once.initial ?_ ?_
  · intro p
    show (s.passes p).owes = none
    rw [h.idle]
    rfl
  · intro id
    show (s.returned.map (·.id)).count id = 0
    rw [h.unreturned]
    rfl

/-- In every interleaving of passes whose items all meet the condition, the quota of a task is
given back at most once; the quotas of the users change by what is given back and by nothing
else. -/
theorem midjourney_refunded_at_most_once (marshal : List String → Option String) {s : State}
    (hs : Initial s) {l : List Action} (hl : Guarded (step marshal) (Safe marshal) s l) :
    (∀ id, ((run (step marshal) s l).returned.map (·.id)).count id ≤ 1) ∧
      ∀ userId, (run (step marshal) s l).world.users userId =
        s.world.users userId + givenBack (run (step marshal) s l).returned userId := by
  have hOnce : (ledger (run (step marshal) s l)).Once :=
    Guarded.invariant (I := fun s => (ledger s).Once)
      (fun _ _ h hSafe => h.step (ledger_step marshal hSafe)) hs.once hl
  exact ⟨hOnce.le_one, users_run marshal hs.unreturned l⟩

def sampleMidjourney : Midjourney where
  id := 1
  code := 1
  userId := 1
  mjId := "mj-1"
  promptEn := ""
  state := ""
  submitTime := 0
  startTime := 0
  finishTime := 0
  imageUrl := ""
  videoUrl := ""
  videoUrls := ""
  status := "IN_PROGRESS"
  progress := "30%"
  failReason := ""
  channelId := 1
  quota := 100
  buttons := ""
  properties := ""

def sampleItem (status progress failReason : String) : MidjourneyDto :=
  ⟨"mj-1", "", "", 0, 0, 0, "", "", [], status, progress, failReason, none, none⟩

def sampleState : State := ⟨⟨[sampleMidjourney], by simp⟩, fun _ => .idle, sampleWorld 300, []⟩

def twoItems (items : List MidjourneyDto) : List Action :=
  [.read 0, .failNull 0 .ok, .response 0 1 items, .item 0 60000 .ok, .giveBack 0 .good,
    .item 0 60000 .ok, .giveBack 0 .good]

/-- A failure that is reported twice moves the status once. -/
theorem repeated_failure_refunded_once :
    let l := twoItems [sampleItem "FAILURE" "100%" "banned", sampleItem "FAILURE" "100%" "banned"]
    ((run (step fun _ => none) sampleState l).returned.map (·.id)).count 1 ≤ 1 ∧
      (run (step fun _ => none) sampleState l).world.users 1 = 400 :=
  ⟨(midjourney_refunded_at_most_once (fun _ => none) ⟨fun _ => rfl, rfl⟩ (by decide)).1 1,
    by decide⟩

/-- A reason for failing that comes twice with an unchanged status is refunded twice. -/
theorem unchanged_status_refunded_twice :
    let l := twoItems [sampleItem "IN_PROGRESS" "30%" "banned", sampleItem "IN_PROGRESS" "30%" "banned"]
    ((run (step fun _ => none) sampleState l).returned.map (·.id)).count 1 = 2 ∧
      (run (step fun _ => none) sampleState l).world.users 1 = 500 := by
  decide

end Qapi.Async.Mj
