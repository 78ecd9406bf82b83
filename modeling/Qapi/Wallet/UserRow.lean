import Qapi.Core.Machine
import Qapi.Async.Basic

/-!
# The balances of a user's row

The statements that write `quota` and `aff_quota` of one user: the relative updates of
`increaseUserQuota` and `decreaseUserQuota`, the save of the whole row with which
`inviteUser` ends, `TransferAffQuotaToQuota`, and `User.UpdateWithTx`, which writes the
columns of a struct that its caller has read some time before. Any number of calls are
under way at once, and their statements interleave in any order.

The transfer reads the row under a lock that it keeps to the commit (SQLite makes one of
two conflicting transactions fail instead), so what it saves is what it has read. The
others save what they have read without a lock. What a run adds to the balances is
therefore accounted for exactly when no such save finds a balance that has changed.
-/

namespace Qapi.UserRow

open Qapi.Core Function
open Async (Write)

/-- The balances and counters of `User`. -/
structure User where
  quota : Int
  usedQuota : Int
  requestCount : Int
  affCount : Int
  affQuota : Int
  affHistoryQuota : Int
deriving DecidableEq, Repr

structure Config where
  quotaForInviter : Int
  quotaPerUnit : ℚ

def User.balance (u : User) : Int := u.quota + u.affQuota

/-- What `inviteUser` makes of the user it has read. -/
def User.invited (cfg : Config) (u : User) : User :=
  { u with
    affCount := u.affCount + 1
    affQuota := u.affQuota + cfg.quotaForInviter
    affHistoryQuota := u.affHistoryQuota + cfg.quotaForInviter }

/-- What `TransferAffQuotaToQuota` makes of the user it has read. -/
def User.transferred (quota : Int) (u : User) : User :=
  { u with affQuota := u.affQuota - quota, quota := u.quota + quota }

/-- A column of a struct given to `Updates`: only a value other than zero is written. -/
def nonZeroOr (new old : Int) : Int := if new = 0 then old else new

/-- `Omit("quota", "used_quota", "request_count").Updates(newUser)`. -/
def User.updates (row newUser : User) : User :=
  { row with
    affCount := nonZeroOr newUser.affCount row.affCount
    affQuota := nonZeroOr newUser.affQuota row.affQuota
    affHistoryQuota := nonZeroOr newUser.affHistoryQuota row.affHistoryQuota }

/-! ## Calls -/

/-- Where a call is: the struct it has read, and what it does with it. -/
inductive Phase
  | idle
  | inviting (user : User)
  | holding (user : User)
  | updating (newUser : User)
  | updated
  | transferring (quota : Int) (user : User)
deriving DecidableEq, Repr

structure State (T : Type*) where
  row : User
  lock : Option T
  phase : T → Phase

inductive Action (T : Type*)
  | increaseUserQuota (quota : Int) (o : Write)
  | decreaseUserQuota (quota : Int) (o : Write)
  | inviteRead (t : T)
  | inviteSave (t : T) (o : Write)
  | getUserById (t : T)
  | updateRead (t : T)
  | updateWrite (t : T) (o : Write)
  | updateReload (t : T)
  | transferRead (t : T) (quota : Int)
  | transferCommit (t : T) (o : Write)
  | abort (t : T)
deriving DecidableEq, Repr

section

variable {T : Type*} [DecidableEq T]

def State.start (row : User) : State T := ⟨row, none, fun _ => .idle⟩

def State.goto (s : State T) (t : T) (p : Phase) : State T :=
  { s with phase := Function.update s.phase t p }

theorem goto_phase (s : State T) (t : T) (p : Phase) :
    (s.goto t p).phase = Function.update s.phase t p := rfl

/-- Whether an update of the row goes through: it waits while the row is locked. -/
def State.writes (s : State T) (o : Write) : Bool := s.lock.isNone && o.tookEffect

def State.write (s : State T) (o : Write) (f : User → User) : State T :=
  if s.writes o then { s with row := f s.row } else s

def State.finish (s : State T) (t : T) : State T :=
  { s.goto t .idle with lock := if s.lock = some t then none else s.lock }

/-- The next state. A statement that its call has not come to changes nothing, and one that waits
for the lock is tried again. -/
def step (cfg : Config) (s : State T) : Action T → State T
  | .increaseUserQuota quota o => s.write o fun u => { u with quota := u.quota + quota }
  | .decreaseUserQuota quota o => s.write o fun u => { u with quota := u.quota - quota }
  | .inviteRead t =>
    match s.phase t with
    | .idle => s.goto t (.inviting s.row)
    | _ => s
  | .inviteSave t o =>
    match s.phase t, s.lock with
    | .inviting user, none => (s.write o fun _ => user.invited cfg).goto t .idle
    | _, _ => s
  | .getUserById t =>
    match s.phase t with
    | .idle => s.goto t (.holding s.row)
    | _ => s
  | .updateRead t =>
    match s.phase t with
    | .holding user => s.goto t (.updating user)
    | _ => s
  | .updateWrite t o =>
    match s.phase t, s.lock with
    | .updating newUser, none =>
      (s.write o fun row => row.updates newUser).goto t (if o = .ok then .updated else .idle)
    | _, _ => s
  | .updateReload t =>
    match s.phase t with
    | .updated => s.goto t (.holding s.row)
    | _ => s
  | .transferRead t quota =>
    match s.phase t, s.lock with
    | .idle, none =>
      if (quota : ℚ) < cfg.quotaPerUnit ∨ s.row.affQuota < quota then s
      else { s.goto t (.transferring quota s.row) with lock := some t }
    | _, _ => s
  | .transferCommit t o =>
    match s.phase t with
    | .transferring quota user =>
      let row := if o.tookEffect then user.transferred quota else s.row
      { s.finish t with row := row }
    | _ => s
  | .abort t => s.finish t

/-! ## Accounting -/

def credit (cfg : Config) (s : State T) : Action T → Int
  | .increaseUserQuota quota o => if s.writes o then quota else 0
  | .decreaseUserQuota quota o => if s.writes o then -quota else 0
  | .inviteSave t o =>
    match s.phase t with
    | .inviting _ => if s.writes o then cfg.quotaForInviter else 0
    | _ => 0
  | _ => 0

/-- The commit of a transfer moves the amount from `aff_quota`, which has as much, to `quota`, and
changes nothing else of the row; a commit that fails changes nothing. -/
def MovesOnly (cfg : Config) (s : State T) : Action T → Prop
  | .transferCommit t o =>
    match s.phase t with
    | .transferring quota _ =>
      quota ≤ s.row.affQuota ∧ (step cfg s (.transferCommit t o)).row =
        if o.tookEffect then s.row.transferred quota else s.row
    | _ => True
  | _ => True

/-- After every statement of the run the balances are those at its start with every increase,
decrease and completed invitation, and every transfer only moves quota. -/
def Accounted (cfg : Config) (s : State T) (l : List (Action T)) : Prop :=
  (∀ m, m <+: l →
    (run (step cfg) s m).row.balance = s.row.balance + runCost (step cfg) (credit cfg) s m) ∧
    Guarded (step cfg) (MovesOnly cfg) s l

/-- The row still has the balances that a save by `inviteUser` has read, and the `aff_quota` that
an update by `UpdateWithTx` writes, where it writes one. -/
def Fresh (s : State T) : Action T → Prop
  | .inviteSave t o =>
    match s.phase t with
    | .inviting user => s.writes o = true → user.balance = s.row.balance
    | _ => True
  | .updateWrite t o =>
    match s.phase t with
    | .updating newUser =>
      s.writes o = true → newUser.affQuota = 0 ∨ newUser.affQuota = s.row.affQuota
    | _ => True
  | _ => True

/-! ## The row lock -/

/-- A call that has read the row for a transfer holds the lock, and the row is as it was read. -/
def Locked (s : State T) : Prop :=
  ∀ t quota user, s.phase t = .transferring quota user →
    s.lock = some t ∧ s.row = user ∧ quota ≤ user.affQuota

omit [DecidableEq T] in
theorem locked_start (row : User) : Locked (State.start (T := T) row) := by
  intro t quota user h
  cases h

variable {cfg : Config} {s : State T}

omit [DecidableEq T] in
theorem Locked.write (h : Locked s) (o : Write) (f : User → User) : Locked (s.write o f) := by
  unfold State.write
  split
  · rename_i hWrites
    intro t quota user hPhase
    obtain ⟨hLock, -, -⟩ := h t quota user hPhase
    simp [State.writes, hLock] at hWrites
  · exact h

theorem Locked.goto (h : Locked s) (t : T) {p : Phase}
    (hp : ∀ quota user, p ≠ .transferring quota user) : Locked (s.goto t p) := by
  intro u quota user hPhase
  by_cases hu : u = t
  · subst hu
    rw [goto_phase, update_self] at hPhase
    exact absurd hPhase (hp quota user)
  · rw [goto_phase, update_of_ne hu] at hPhase
    exact h u quota user hPhase

/-- Another call cannot hold the lock that the finished call gives back. -/
theorem Locked.finish (h : Locked s) (t : T) : Locked (s.finish t) := by
  intro u quota user hPhase
  have hGoto := h.goto t (p := .idle) nofun
  obtain ⟨hLock, hRow, hQuota⟩ := hGoto u quota user hPhase
  have hut : u ≠ t := by
    rintro rfl
    simp [State.finish, State.goto] at hPhase
  refine ⟨?_, hRow, hQuota⟩
  have hOther : s.lock ≠ some t := by
    intro hSelf
    exact hut (Option.some.inj (hLock.symm.trans hSelf))
  rw [State.finish, if_neg hOther]
  exact hLock

theorem step_locked (cfg : Config) (s : State T) (a : Action T) (h : Locked s) :
    Locked (step cfg s a) := by
  cases a with
  | increaseUserQuota quota o => exact h.write o _
  | decreaseUserQuota quota o => exact h.write o _
  | inviteRead t | getUserById t | updateRead t | updateReload t =>
    unfold step
    dsimp only
    split
    · exact h.goto t nofun
    · exact h
  | inviteSave t o =>
    unfold step
    dsimp only
    split
    · exact (h.write o _).goto t nofun
    · exact h
  | updateWrite t o =>
    unfold step
    dsimp only
    split
    · refine (h.write o _).goto t ?_
      intro quota user hEq
      split at hEq <;> cases hEq
    · exact h
  | transferRead t quota =>
    unfold step
    dsimp only
    split
    · rename_i hPhase hFree
      split
      · exact h
      · rename_i hAccepted
        rw [not_or] at hAccepted
        intro u q user hu
        -- while the lock was free nobody else was transferring
        by_cases hut : u = t
        · subst hut
          rw [goto_phase, update_self] at hu
          cases hu
          exact ⟨rfl, rfl, not_lt.mp hAccepted.2⟩
        · rw [goto_phase, update_of_ne hut] at hu
          have hLock := (h u q user hu).1
          rw [hFree] at hLock
          cases hLock
    · exact h
  | transferCommit t o =>
    unfold step
    dsimp only
    split
    · rename_i quota user hPhase
      intro u q user' hu
      obtain ⟨hLock, -, -⟩ := h.finish t u q user' hu
      -- the lock of the finished call is free, and everybody else was without it
      rw [State.finish, if_pos (h t quota user hPhase).1] at hLock
      cases hLock
    · exact h
  | abort t => exact h.finish t

theorem movesOnly (cfg : Config) (s : State T) (a : Action T) (h : Locked s) :
    MovesOnly cfg s a := by
  cases a with
  | transferCommit t o =>
    unfold MovesOnly
    dsimp only
    split
    · rename_i quota user hPhase
      obtain ⟨-, rfl, hQuota⟩ := h t quota user hPhase
      refine ⟨hQuota, ?_⟩
      simp only [step, hPhase]
    · trivial
  | _ => trivial

/-! ## One statement -/

theorem balance_invited (cfg : Config) (u : User) :
    (u.invited cfg).balance = u.balance + cfg.quotaForInviter := by
  simp only [User.balance, User.invited]
  omega

theorem balance_transferred (quota : Int) (u : User) :
    (u.transferred quota).balance = u.balance := by
  simp only [User.balance, User.transferred]
  omega

theorem balance_updates_iff (row newUser : User) :
    (row.updates newUser).balance = row.balance ↔
      newUser.affQuota = 0 ∨ newUser.affQuota = row.affQuota := by
  simp only [User.balance, User.updates, nonZeroOr]
  split <;> omega

omit [DecidableEq T] in
theorem balance_write (s : State T) (o : Write) (f : User → User) :
    (s.write o f).row.balance = if s.writes o then (f s.row).balance else s.row.balance := by
  unfold State.write
  split <;> rfl

theorem balance_iff_of_row_eq {a : Action T} (hRow : (step cfg s a).row = s.row)
    (hCredit : credit cfg s a = 0) (hFresh : Fresh s a) :
    (step cfg s a).row.balance = s.row.balance + credit cfg s a ↔ Fresh s a := by
  simp [hRow, hCredit, hFresh]

/-- A statement adds to the balances what it is for exactly when what it saves is fresh. -/
theorem step_balance_iff (cfg : Config) (s : State T) (a : Action T) (h : Locked s) :
    (step cfg s a).row.balance = s.row.balance + credit cfg s a ↔ Fresh s a := by
  cases a with
  | increaseUserQuota quota o | decreaseUserQuota quota o =>
    simp only [step, balance_write, credit, Fresh, iff_true]
    split
    · simp only [User.balance]
      omega
    · omega
  | inviteSave t o =>
    simp only [step, credit, Fresh]
    cases hPhase : s.phase t with
    | inviting user =>
      cases hLock : s.lock with
      | none =>
        simp only [State.goto, balance_write, balance_invited]
        split
        · rename_i hWrites
          simp only [hWrites, forall_const]
          omega
        · rename_i hWrites
          simp [hWrites]
      | some holder => simp [State.writes, hLock]
    | _ => simp
  | updateWrite t o =>
    simp only [step, credit, Fresh, add_zero]
    cases hPhase : s.phase t with
    | updating newUser =>
      cases hLock : s.lock with
      | none =>
        simp only [State.goto, balance_write]
        split
        · rename_i hWrites
          simp only [hWrites, forall_const, balance_updates_iff]
        · rename_i hWrites
          simp [hWrites]
      | some holder => simp [State.writes, hLock]
    | _ => simp
  | transferCommit t o =>
    simp only [step, credit, Fresh, add_zero, iff_true]
    cases hPhase : s.phase t with
    | transferring quota user =>
      obtain ⟨-, rfl, -⟩ := h t quota user hPhase
      dsimp only
      split
      · exact balance_transferred quota s.row
      · rfl
    | _ => rfl
  | inviteRead t | getUserById t | updateRead t | updateReload t =>
    refine balance_iff_of_row_eq ?_ rfl trivial
    unfold step
    dsimp only
    split <;> rfl
  | transferRead t quota =>
    refine balance_iff_of_row_eq ?_ rfl trivial
    unfold step
    dsimp only
    split
    · split <;> rfl
    · rfl
  | abort t => exact balance_iff_of_row_eq rfl rfl trivial

/-! ## Runs -/

/-- In every run of calls that start on the row, the balances are accounted for after every
statement exactly when each save of a struct read before finds the balances it has read. -/
theorem accounted_iff_fresh (cfg : Config) (row : User) (l : List (Action T)) :
    Accounted cfg (State.start row) l ↔ Guarded (step cfg) Fresh (State.start row) l := by
  have hStep : ∀ (s : State T) (a : Action T), Locked s → Locked (step cfg s a) :=
    fun s a h => step_locked cfg s a h
  unfold Accounted
  rw [forall_prefix_runCost_iff (f := fun s : State T => s.row.balance)]
  constructor
  · rintro ⟨hSums, -⟩
    refine hSums.imp_of_invariant (fun s a h _ => hStep s a h) ?_ (locked_start row)
    intro s a h hSum
    exact (step_balance_iff cfg s a h).mp hSum
  · intro hFresh
    constructor
    · refine hFresh.imp_of_invariant (fun s a h _ => hStep s a h) ?_ (locked_start row)
      intro s a h hf
      exact (step_balance_iff cfg s a h).mpr hf
    · exact hFresh.imp_of_invariant (fun s a h _ => hStep s a h)
        (fun s a h _ => movesOnly cfg s a h) (locked_start row)

end

def sampleUser : User := ⟨1000, 0, 0, 1, 700, 700⟩

/-- An increase between the two statements of `inviteUser` is lost, and an update with a struct
read before a transfer gives the transferred quota back to `aff_quota`. -/
theorem stale_save_not_accounted :
    ¬ Accounted (T := Bool) ⟨100, 500⟩ (State.start sampleUser)
        [.inviteRead true, .increaseUserQuota 5 .ok, .inviteSave true .ok] ∧
      ¬ Accounted (T := Bool) ⟨100, 500⟩ (State.start sampleUser)
        [.getUserById true, .transferRead false 600, .transferCommit false .ok, .updateRead true,
          .updateWrite true .ok] := by
  constructor
  · intro h
    exact absurd (h.1 _ (List.prefix_refl _)) (by decide)
  · intro h
    exact absurd (h.1 _ (List.prefix_refl _)) (by decide)

end Qapi.UserRow
