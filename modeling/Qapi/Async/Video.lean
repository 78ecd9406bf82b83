import Qapi.Async.Billing
import Qapi.Core.Machine

/-!
# Video tasks

`updateVideoSingleTask` and `sweepTimedOutTasks` over one task row. A pass reads the
row while the task is unfinished, works on its copy, writes the copy back by a
compare-and-swap on the status that it read, and bills only if that write moved the
task to a final status and was its own. Passes run on any number of nodes; what they
do to the row and to the balances is interleaved in any order.
-/

namespace Qapi.Async

open Qapi.Core Subscription Billing Pricing

/-- `TaskInfo`, the result of a poll. -/
structure TaskInfo where
  status : String
  reason : String
  url : String
  progress : String
  totalTokens : Int
deriving DecidableEq, Repr

def failTaskInfo (reason : String) : TaskInfo := ⟨"FAILURE", reason, "", "", 0⟩

/-- What a response body is as an error response: no JSON, an error with a code, or neither. -/
inductive ErrorBody
  | notJson
  | openai (code : String)
  | unrecognized
deriving DecidableEq, Repr

/-- What a poll brings back: the parsed result, `none` when fetching, reading or parsing fails,
the body as an error response, and the redacted body. -/
structure VideoResponse where
  parsed : Option TaskInfo
  errorBody : ErrorBody
  data : String
deriving DecidableEq, Repr

inductive Bill
  | refund
  | settle
deriving DecidableEq, Repr

def Bill.status : Bill → TaskStatus
  | .refund => .failure
  | .settle => .success

theorem Bill.status_isTerminal (b : Bill) : b.status.isTerminal = true := by
  cases b <;> rfl

structure Config where
  serverAddress : String
  taskTimeoutMinutes : Int
  settings : Settings

/-! ## One poll -/

/-- The result with an empty status replaced; `none` says that the task waits for the next round. -/
def resolveEmptyStatus (r : VideoResponse) (info : TaskInfo) : Option TaskInfo :=
  if info.status ≠ "" then some info
  else match r.errorBody with
    | .notJson => some info
    | .openai code =>
      if code = "429" then none else some (failTaskInfo "upstream returned error")
    | .unrecognized => some (failTaskInfo "upstream returned unrecognized message")

def buildProxyURL (cfg : Config) (taskID : String) : String :=
  cfg.serverAddress ++ "/v1/videos/" ++ taskID ++ "/content"

/-- The `switch` over the new status: the task and the billing call it asks for, `none` for a
status that is not known here. -/
def applyStatus (cfg : Config) (now : Int) (t : Task) (info : TaskInfo) :
    Option (Task × Option Bill) :=
  let finishTime := if t.finishTime = 0 then now else t.finishTime
  match t.status with
  | .submitted => some ({ t with progress := "10%" }, none)
  | .queued => some ({ t with progress := "20%" }, none)
  | .inProgress =>
    some ({ t with
      progress := "30%"
      startTime := if t.startTime = 0 then now else t.startTime }, none)
  | .success =>
    let resultURL :=
      if startsWith info.url "data:" then buildProxyURL cfg t.taskID
      else if info.url ≠ "" then info.url
      else buildProxyURL cfg t.taskID
    some ({ t with progress := "100%", finishTime := finishTime, resultURL := resultURL },
      some .settle)
  | .failure =>
    some ({ t with progress := "100%", finishTime := finishTime, failReason := info.reason },
      if t.quota ≠ 0 then some .refund else none)
  | _ => none

def withProgress (progress : String) (t : Task) : Task :=
  if progress ≠ "" then { t with progress := progress } else t

/-- What a poll wants to write: the task, the billing call, and the tokens that were used. -/
structure Polled where
  task : Task
  bill : Option Bill
  totalTokens : Int

/-- `updateVideoSingleTask` up to the write. -/
def pollTask (cfg : Config) (now : Int) (t : Task) (r : VideoResponse) : Option Polled := do
  let parsed ← r.parsed
  let info ← resolveEmptyStatus r parsed
  let status := TaskStatus.ofText info.status
  let (task, bill) ← applyStatus cfg now { t with data := r.data, status := status } info
  -- a failure is always complete, whatever progress was reported
  let progress := if status = .failure then "100%" else info.progress
  pure { task := withProgress progress task
         bill := bill
         totalTokens := info.totalTokens }

/-- `taskSnapshot.Equal` on the snapshots of two tasks. -/
def snapshotEqual (s t : Task) : Bool :=
  s.status = t.status && s.progress = t.progress && s.startTime = t.startTime &&
    s.finishTime = t.finishTime && s.failReason = t.failReason && s.resultURL = t.resultURL &&
    s.data = t.data

/-- The write of `updateVideoSingleTask` and the billing call that is left to do. -/
def writePolled (o : Write) (row snap : Task) (x : Polled) : Task × Option Bill :=
  if x.task.status.isTerminal ∧ snap.status ≠ x.task.status then
    match updateWithStatus o row x.task snap.status with
    | (row, .ok true) => (row, x.bill)
    | (row, _) => (row, none)
  else if !snapshotEqual snap x.task then ((updateWithStatus o row x.task snap.status).1, x.bill)
  else (row, x.bill)

/-! ## Passes over the row -/

/-- Where a pass stands: it has not read the row, it holds the copy that it polls or sweeps,
or it has written and is about to bill. -/
inductive Pass
  | idle
  | polling (task : Task)
  | sweeping (task : Task)
  | billing (task : Task) (bill : Bill) (totalTokens : Int)

structure State where
  row : Task
  passes : Nat → Pass
  world : World
  bills : List (Nat × Bill)

def State.setPass (s : State) (p : Nat) (x : Pass) : State :=
  { s with passes := Function.update s.passes p x }

def afterWrite (x : Polled) : Option Bill → Pass
  | none => .idle
  | some b => .billing x.task b x.totalTokens

inductive Action
  | read (p : Nat)
  | readTimedOut (p : Nat) (cutoffUnix : Int)
  | poll (p : Nat) (r : VideoResponse) (now : Int) (o : Write)
  | sweep (p : Nat) (now : Int) (o : Write)
  | bill (p : Nat) (adjusted : Int) (o : Outcome)

def executeBill (cfg : Config) (adjusted : Int) (o : Outcome) (t : Task) (totalTokens : Int)
    (s : State) : Bill → Task × World
  | .refund => (s.row, (refundTaskQuota o t s.world).2)
  | .settle =>
    let (settled, w) := settleTaskBillingOnComplete cfg.settings o adjusted totalTokens t s.world
    (writeQuota o s.row t settled, w)

def step (cfg : Config) (s : State) : Action → State
  | .read p =>
    match s.passes p with
    | .idle => if s.row.unfinished then s.setPass p (.polling s.row) else s
    | _ => s
  | .readTimedOut p cutoffUnix =>
    match s.passes p with
    | .idle =>
      if 0 < cfg.taskTimeoutMinutes ∧ s.row.timedOut cutoffUnix then
        s.setPass p (.sweeping s.row)
      else s
    | _ => s
  | .poll p r now o =>
    match s.passes p with
    | .polling t =>
      match pollTask cfg now t r with
      | none => s.setPass p .idle
      | some x =>
        let (row, bill) := writePolled o s.row t x
        { s.setPass p (afterWrite x bill) with row := row }
    | _ => s
  | .sweep p now o =>
    match s.passes p with
    | .sweeping t =>
      let task := timeOut cfg.taskTimeoutMinutes now t
      match updateWithStatus o s.row task t.status with
      | (row, .ok true) =>
        { s.setPass p (if sweepRefunds t then .billing task .refund 0 else .idle) with row := row }
      | (row, _) => { s.setPass p .idle with row := row }
    | _ => s
  | .bill p adjusted o =>
    match s.passes p with
    | .billing t b totalTokens =>
      let (row, world) := executeBill cfg adjusted o t totalTokens s b
      { s.setPass p .idle with row := row, world := world, bills := (p, b) :: s.bills }
    | _ => s

/-! ## What one action can do -/

theorem applyStatus_some {cfg : Config} {now : Int} {t task : Task} {info : TaskInfo}
    {bill : Option Bill} (h : applyStatus cfg now t info = some (task, bill)) :
    (task.id = t.id ∧ task.quota = t.quota ∧ task.status = t.status) ∧
      (∀ b, bill = some b → t.status = b.status) ∧
      (t.status = .failure → t.quota ≠ 0 → bill = some .refund) := by
  have hOpen : t.status ≠ .failure → (∀ b : Bill, none = some b → t.status = b.status) ∧
      (t.status = .failure → t.quota ≠ 0 → none = some Bill.refund) := by
    intro hne
    exact ⟨nofun, fun hFailure => absurd hFailure hne⟩
  unfold applyStatus at h
  simp only at h
  split at h
  · rename_i hStatus
    cases h
    exact ⟨⟨rfl, rfl, rfl⟩, hOpen (by rw [hStatus]; decide)⟩
  · rename_i hStatus
    cases h
    exact ⟨⟨rfl, rfl, rfl⟩, hOpen (by rw [hStatus]; decide)⟩
  · rename_i hStatus
    cases h
    exact ⟨⟨rfl, rfl, rfl⟩, hOpen (by rw [hStatus]; decide)⟩
  · rename_i hStatus
    cases h
    refine ⟨⟨rfl, rfl, rfl⟩, fun b hb => ?_, fun hFailure => ?_⟩
    · cases hb
      exact hStatus
    · rw [hStatus] at hFailure
      cases hFailure
  · rename_i hStatus
    cases h
    refine ⟨⟨rfl, rfl, rfl⟩, fun b hb => ?_, fun _ hQuota => if_pos hQuota⟩
    split at hb
    · cases hb
      exact hStatus
    · cases hb
  · cases h

theorem withProgress_task (progress : String) (t : Task) :
    (withProgress progress t).id = t.id ∧ (withProgress progress t).quota = t.quota ∧
      (withProgress progress t).status = t.status := by
  unfold withProgress
  split <;> exact ⟨rfl, rfl, rfl⟩

/-- A poll changes neither the id nor the quota of the task; it asks for the billing call that
belongs to the status it writes, and for the refund of a failed task that was paid for. -/
theorem pollTask_some {cfg : Config} {now : Int} {t : Task} {r : VideoResponse} {x : Polled}
    (h : pollTask cfg now t r = some x) : (x.task.id = t.id ∧ x.task.quota = t.quota) ∧
      (∀ b, x.bill = some b → x.task.status = b.status) ∧
      (x.task.status = .failure → t.quota ≠ 0 → x.bill = some .refund) := by
  obtain ⟨parsed, -, h⟩ := Option.bind_eq_some_iff.mp h
  obtain ⟨info, -, h⟩ := Option.bind_eq_some_iff.mp h
  obtain ⟨⟨task, bill⟩, hApply, h⟩ := Option.bind_eq_some_iff.mp h
  obtain ⟨⟨hId, hQuota, hStatus⟩, hBill, hRefund⟩ := applyStatus_some hApply
  cases h
  obtain ⟨hId', hQuota', hStatus'⟩ := withProgress_task
    (if TaskStatus.ofText info.status = .failure then "100%" else info.progress) task
  refine ⟨⟨hId'.trans hId, hQuota'.trans hQuota⟩, fun b hb => ?_, fun hFailure => ?_⟩
  · exact hStatus'.trans (hStatus.trans (hBill b hb))
  · exact hRefund (hStatus.symm.trans (hStatus'.symm.trans hFailure))

theorem bill_eq_none {x : Polled} (hBill : ∀ b, x.bill = some b → x.task.status = b.status)
    (hOpen : ¬ x.task.status.isTerminal = true) : x.bill = none := by
  cases hb : x.bill with
  | none => rfl
  | some b =>
    rw [hBill b hb, Bill.status_isTerminal] at hOpen
    exact absurd rfl hOpen

/-- The write of a poll from an open copy: the row stays and nothing is billed, or the row was
in the status of the copy and is now the polled task. -/
theorem writePolled_cases (o : Write) (row : Task) {snap : Task} {x : Polled}
    (hSnap : snap.status.isTerminal = false)
    (hBill : ∀ b, x.bill = some b → x.task.status = b.status) :
    ((writePolled o row snap x).1 = row ∧ (writePolled o row snap x).2 = none) ∨
      (row.status = snap.status ∧ (writePolled o row snap x).1 = x.task ∧
        ∀ b, (writePolled o row snap x).2 = some b → x.task.status = b.status) := by
  unfold writePolled
  by_cases hDone : x.task.status.isTerminal = true
  · have hNe : snap.status ≠ x.task.status := by
      intro hEq
      rw [hEq, hDone] at hSnap
      exact absurd hSnap (by simp)
    rw [if_pos ⟨hDone, hNe⟩]
    rcases updateWithStatus_cases o row x.task snap.status with
      (hWrite | ⟨e, hWrite⟩) | ⟨hStatus, hWrite | ⟨-, e, hWrite⟩⟩
    · rw [hWrite]
      exact Or.inl ⟨rfl, rfl⟩
    · rw [hWrite]
      exact Or.inl ⟨rfl, rfl⟩
    · rw [hWrite]
      exact Or.inr ⟨hStatus, rfl, hBill⟩
    · rw [hWrite]
      exact Or.inr ⟨hStatus, rfl, nofun⟩
  · have hNone := bill_eq_none hBill hDone
    rw [if_neg (fun h => hDone h.1), hNone]
    split
    · rcases updateWithStatus_cases o row x.task snap.status with
        (hWrite | ⟨e, hWrite⟩) | ⟨hStatus, hWrite | ⟨-, e, hWrite⟩⟩
      · exact Or.inl ⟨hWrite ▸ rfl, rfl⟩
      · exact Or.inl ⟨hWrite ▸ rfl, rfl⟩
      · exact Or.inr ⟨hStatus, hWrite ▸ rfl, nofun⟩
      · exact Or.inr ⟨hStatus, hWrite ▸ rfl, nofun⟩
    · exact Or.inl ⟨rfl, rfl⟩

def Pass.owes : Pass → Option Bill
  | .billing _ b _ => some b
  | _ => none

def Pass.CopyOpen : Pass → Prop
  | .polling t => t.status.isTerminal = false
  | .sweeping t => t.status.isTerminal = false
  | _ => True

theorem afterWrite_owes (x : Polled) (bill : Option Bill) : (afterWrite x bill).owes = bill := by
  cases bill <;> rfl

theorem afterWrite_copyOpen (x : Polled) (bill : Option Bill) : (afterWrite x bill).CopyOpen := by
  cases bill <;> trivial

/-- What an action of the pass `p` can do: change the pass alone, write an open row and become
the one who owes its billing call, or execute the call that it owes. -/
inductive Effect (p : Nat) (s : State) : State → Prop
  | pass (x : Pass) (hOwes : x.owes = none) (hCopy : x.CopyOpen) : Effect p s (s.setPass p x)
  | write (row : Task) (x : Pass) (hOpen : s.row.status.isTerminal = false) (hCopy : x.CopyOpen)
      (hOwes : ∀ b, x.owes = some b → row.status = b.status) :
      Effect p s { s.setPass p x with row := row }
  | bill (row : Task) (world : World) (b : Bill) (hOwes : (s.passes p).owes = some b)
      (hRow : row.status = s.row.status) :
      Effect p s { s.setPass p .idle with row := row, world := world, bills := (p, b) :: s.bills }

variable {s : State}

theorem effect_poll {p : Nat} {t : Task} (h : t.status.isTerminal = false) {x : Polled}
    (hBill : ∀ b, x.bill = some b → x.task.status = b.status) (o : Write) :
    Effect p s { s.setPass p (afterWrite x (writePolled o s.row t x).2) with
      row := (writePolled o s.row t x).1 } := by
  rcases writePolled_cases o s.row h hBill with ⟨hRow, hNone⟩ |
    ⟨hStatus, hRow, hBilled⟩
  · rw [hRow, hNone]
    exact .pass .idle rfl trivial
  · rw [hRow]
    refine .write x.task _ (by rw [hStatus, h]) (afterWrite_copyOpen x _) ?_
    rw [afterWrite_owes]
    exact hBilled

theorem effect_sweep (cfg : Config) {p : Nat} {t : Task} (h : t.status.isTerminal = false)
    (now : Int) (o : Write) (hPass : s.passes p = .sweeping t) :
    Effect p s (step cfg s (.sweep p now o)) := by
  simp only [step, hPass]
  rcases updateWithStatus_cases o s.row (timeOut cfg.taskTimeoutMinutes now t) t.status with
    (hWrite | ⟨e, hWrite⟩) | ⟨hStatus, hWrite⟩
  · rw [hWrite]
    exact .pass .idle rfl trivial
  · rw [hWrite]
    exact .pass .idle rfl trivial
  · have hOpen : s.row.status.isTerminal = false := by rw [hStatus, h]
    rcases hWrite with hWrite | ⟨-, e, hWrite⟩
    · rw [hWrite]
      refine .write _ _ hOpen ?_ ?_
      · split <;> trivial
      · intro b hb
        split at hb
        · cases hb
          rfl
        · cases hb
    · rw [hWrite]
      exact .write _ .idle hOpen trivial nofun

theorem executeBill_status (cfg : Config) (adjusted : Int) (o : Outcome) (t : Task)
    (totalTokens : Int) (s : State) (b : Bill) :
    (executeBill cfg adjusted o t totalTokens s b).1.status = s.row.status := by
  cases b with
  | refund => rfl
  | settle => exact writeQuota_status ..

theorem step_effect (cfg : Config) (hCopies : ∀ p, (s.passes p).CopyOpen) (a : Action) :
    step cfg s a = s ∨ ∃ p, Effect p s (step cfg s a) := by
  cases a with
  | read p =>
    simp only [step]
    split
    · split
      · rename_i hUnfinished
        exact Or.inr ⟨p, .pass _ rfl (Task.unfinished_status hUnfinished)⟩
      · exact Or.inl rfl
    · exact Or.inl rfl
  | readTimedOut p cutoffUnix =>
    simp only [step]
    split
    · split
      · rename_i hTimedOut
        exact Or.inr ⟨p, .pass _ rfl (Task.timedOut_status hTimedOut.2)⟩
      · exact Or.inl rfl
    · exact Or.inl rfl
  | poll p r now o =>
    simp only [step]
    split
    · rename_i t hPass
      have hCopy := hCopies p
      rw [hPass] at hCopy
      cases hPoll : pollTask cfg now t r with
      | none => exact Or.inr ⟨p, .pass .idle rfl trivial⟩
      | some x => exact Or.inr ⟨p, effect_poll hCopy ((pollTask_some hPoll).2.1) o⟩
    · exact Or.inl rfl
  | sweep p now o =>
    cases hPass : s.passes p with
    | sweeping t =>
      have hCopy := hCopies p
      rw [hPass] at hCopy
      exact Or.inr ⟨p, effect_sweep cfg hCopy now o hPass⟩
    | _ => exact Or.inl (by simp only [step, hPass])
  | bill p adjusted o =>
    simp only [step]
    split
    · rename_i t b totalTokens hPass
      exact Or.inr ⟨p, .bill _ _ b (by rw [hPass]; rfl)
        (executeBill_status cfg adjusted o t totalTokens s b)⟩
    · exact Or.inl rfl

/-! ## Billing happens once -/

structure Initial (s : State) : Prop where
  idle : ∀ p, s.passes p = .idle
  unbilled : s.bills = []

/-- At most one pass owes a billing call, the row has the status that the call belongs to, and
nothing has been billed while it is owed. -/
structure Inv (s : State) : Prop where
  copies : ∀ p, (s.passes p).CopyOpen
  owed : ∀ p b, (s.passes p).owes = some b → s.row.status = b.status ∧ s.bills = []
  unique : ∀ p q b c, (s.passes p).owes = some b → (s.passes q).owes = some c → p = q
  billed : s.bills = [] ∨ ∃ p b, s.bills = [(p, b)] ∧ s.row.status = b.status

theorem Initial.inv (h : Initial s) : Inv s where
  copies p := by
    rw [h.idle]
    trivial
  owed p b hb := by
    rw [h.idle] at hb
    cases hb
  unique p q b c hb := by
    rw [h.idle] at hb
    cases hb
  billed := Or.inl h.unbilled

section

variable {s s' : State} {p : Nat}

theorem Inv.open_row (h : Inv s) (hOpen : s.row.status.isTerminal = false) :
    (∀ p, (s.passes p).owes = none) ∧ s.bills = [] := by
  have hFinal : ∀ b : Bill, s.row.status ≠ b.status := by
    intro b hb
    rw [hb, b.status_isTerminal] at hOpen
    cases hOpen
  refine ⟨fun p => ?_, ?_⟩
  · cases hOwes : (s.passes p).owes with
    | none => rfl
    | some b => exact absurd (h.owed p b hOwes).1 (hFinal b)
  · rcases h.billed with hNone | ⟨p, b, -, hStatus⟩
    · exact hNone
    · exact absurd hStatus (hFinal b)

theorem setPass_owes_cases {x : Pass} {q : Nat} {b : Bill}
    (h : ((s.setPass p x).passes q).owes = some b) :
    (q = p ∧ x.owes = some b) ∨ (q ≠ p ∧ (s.passes q).owes = some b) := by
  by_cases hq : q = p
  · subst hq
    exact Or.inl ⟨rfl, by simpa [State.setPass] using h⟩
  · exact Or.inr ⟨hq, by simpa [State.setPass, hq] using h⟩

theorem setPass_copyOpen {x : Pass} (h : ∀ q, (s.passes q).CopyOpen) (hx : x.CopyOpen) (q : Nat) :
    ((s.setPass p x).passes q).CopyOpen := by
  by_cases hq : q = p
  · subst hq
    simpa [State.setPass] using hx
  · simpa [State.setPass, hq] using h q

theorem inv_pass {x : Pass} (h : Inv s) (hOwes : x.owes = none) (hCopy : x.CopyOpen) :
    Inv (s.setPass p x) := by
  have hOther : ∀ q b, ((s.setPass p x).passes q).owes = some b → (s.passes q).owes = some b := by
    intro q b hb
    rcases setPass_owes_cases hb with ⟨-, hx⟩ | ⟨-, hOld⟩
    · rw [hOwes] at hx
      cases hx
    · exact hOld
  exact ⟨setPass_copyOpen h.copies hCopy, fun q b hb => h.owed q b (hOther q b hb),
    fun q q' b c hb hc => h.unique q q' b c (hOther q b hb) (hOther q' c hc), h.billed⟩

theorem inv_write {x : Pass} {row : Task} (h : Inv s) (hOpen : s.row.status.isTerminal = false)
    (hCopy : x.CopyOpen) (hOwes : ∀ b, x.owes = some b → row.status = b.status) :
    Inv { s.setPass p x with row := row } := by
  obtain ⟨hNobody, hUnbilled⟩ := h.open_row hOpen
  -- so the writer is the only one who can owe anything
  have hWriter : ∀ q b, ((s.setPass p x).passes q).owes = some b → q = p ∧ x.owes = some b := by
    intro q b hb
    rcases setPass_owes_cases hb with hNew | ⟨-, hOld⟩
    · exact hNew
    · rw [hNobody q] at hOld
      cases hOld
  exact ⟨setPass_copyOpen h.copies hCopy,
    fun q b hb => ⟨hOwes b (hWriter q b hb).2, hUnbilled⟩,
    fun q q' b c hb hc => (hWriter q b hb).1.trans (hWriter q' c hc).1.symm,
    Or.inl hUnbilled⟩

theorem inv_bill {row : Task} {world : World} {b : Bill} (h : Inv s)
    (hOwes : (s.passes p).owes = some b) (hRow : row.status = s.row.status) :
    Inv { s.setPass p .idle with row := row, world := world, bills := (p, b) :: s.bills } := by
  obtain ⟨hStatus, hUnbilled⟩ := h.owed p b hOwes
  have hNobody : ∀ q c, ((s.setPass p .idle).passes q).owes ≠ some c := by
    intro q c hc
    rcases setPass_owes_cases hc with ⟨-, hIdle⟩ | ⟨hq, hOld⟩
    · cases hIdle
    · exact hq (h.unique q p c b hOld hOwes)
  exact ⟨setPass_copyOpen h.copies trivial, fun q c hc => absurd hc (hNobody q c),
    fun q _ c _ hc => absurd hc (hNobody q c),
    Or.inr ⟨p, b, congrArg _ hUnbilled, hRow.trans hStatus⟩⟩

theorem inv_effect (h : Inv s) (hEffect : Effect p s s') : Inv s' := by
  cases hEffect with
  | pass x hOwes hCopy => exact inv_pass h hOwes hCopy
  | write row x hOpen hCopy hOwes => exact inv_write h hOpen hCopy hOwes
  | bill row world b hOwes hRow => exact inv_bill h hOwes hRow

theorem status_effect (hEffect : Effect p s s') (hFinal : s.row.status.isTerminal = true) :
    s'.row.status = s.row.status := by
  cases hEffect with
  | pass x hOwes hCopy => rfl
  | write row x hOpen hCopy hOwes =>
    rw [hOpen] at hFinal
    cases hFinal
  | bill row world b hOwes hRow => exact hRow

end

theorem inv_step (cfg : Config) (h : Inv s) (a : Action) : Inv (step cfg s a) := by
  rcases step_effect cfg h.copies a with hSame | ⟨p, hEffect⟩
  · rw [hSame]
    exact h
  · exact inv_effect h hEffect

theorem status_step (cfg : Config) (h : Inv s) (a : Action)
    (hFinal : s.row.status.isTerminal = true) : (step cfg s a).row.status = s.row.status := by
  rcases step_effect cfg h.copies a with hSame | ⟨p, hEffect⟩
  · rw [hSame]
  · exact status_effect hEffect hFinal

theorem status_run (cfg : Config) (h : Inv s) (l : List Action)
    (hFinal : s.row.status.isTerminal = true) : (run (step cfg) s l).row.status = s.row.status := by
  induction l generalizing s with
  | nil => rfl
  | cons a l ih =>
    have hStep := status_step cfg h a hFinal
    rw [run_cons, ih (inv_step cfg h a) (by rw [hStep, hFinal]), hStep]

def State.finished (s : State) : Bool := s.row.status.isTerminal

/-- In every interleaving of passes over the row: it becomes final at most once and keeps its
final status, at most one billing call is executed, the refund only for a row that is
`FAILURE` and the settlement only for one that is `SUCCESS`. -/
theorem video_task_billed_once (cfg : Config) {s : State} (hs : Initial s) (l : List Action) :
    runCost (step cfg) (entering (step cfg) State.finished) s l ≤ 1 ∧
      (∀ l₁ l₂, l = l₁ ++ l₂ → (run (step cfg) s l₁).finished = true →
        (run (step cfg) s l).row.status = (run (step cfg) s l₁).row.status) ∧
      (run (step cfg) s l).bills.length ≤ 1 ∧
      ∀ p b, (p, b) ∈ (run (step cfg) s l).bills → (run (step cfg) s l).row.status = b.status := by
  have hInv : ∀ l, Inv (run (step cfg) s l) := fun l =>
    run_invariant (I := Inv) (fun _ a h => inv_step cfg h a) hs.inv l
  refine ⟨?_, ?_, ?_, ?_⟩
  · refine runCost_entering_le_one (I := Inv) (fun _ a h => inv_step cfg h a) ?_ hs.inv l
    intro s a h hFinal
    show (step cfg s a).row.status.isTerminal = true
    rw [status_step cfg h a hFinal]
    exact hFinal
  · intro l₁ l₂ hl hFinal
    rw [hl, run_append]
    exact status_run cfg (hInv l₁) l₂ hFinal
  · rcases (hInv l).billed with hNone | ⟨p, b, hOne, -⟩
    · rw [hNone]
      exact Nat.zero_le 1
    · rw [hOne]
      exact le_refl 1
  · intro p b hb
    rcases (hInv l).billed with hNone | ⟨q, c, hOne, hStatus⟩
    · rw [hNone] at hb
      cases hb
    · rw [hOne, List.mem_singleton] at hb
      cases hb
      exact hStatus

/-! ## A failure and a success that race -/

def sampleConfig : Config := ⟨"https://gateway", 60, unitSettings⟩

def race : List Action :=
  [.read 0, .read 1, .readTimedOut 2 1800003600,
    .poll 0 ⟨some ⟨"FAILURE", "blocked", "", "", 0⟩, .notJson, "failed"⟩ 1800003600 .ok,
    .poll 1 ⟨some ⟨"SUCCESS", "", "https://video", "", 0⟩, .notJson, "done"⟩ 1800003600 .ok,
    .sweep 2 1800003600 .ok, .bill 1 0 .good, .bill 2 0 .good, .bill 0 0 .good]

theorem race_refunded_once :
    let s : State := ⟨sampleTask .inProgress, fun _ => .idle, sampleWorld 300, []⟩
    (run (step sampleConfig) s race).bills = [(0, .refund)] ∧
      (run (step sampleConfig) s race).row.status = .failure ∧
      (run (step sampleConfig) s race).world.users 1 = 400 := by
  intro s
  have hBills : (run (step sampleConfig) s race).bills = [(0, .refund)] := by decide
  have hOnce := video_task_billed_once sampleConfig (s := s) ⟨fun _ => rfl, rfl⟩ race
  refine ⟨hBills, hOnce.2.2.2 0 .refund ?_, by decide⟩
  rw [hBills]
  exact List.mem_singleton.mpr rfl

end Qapi.Async
