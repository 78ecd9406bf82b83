import Qapi.Core.Table
import Qapi.Core.Transactions
import Qapi.Core.Result

/-!
# Redemption codes

`model/redemption.go`: `Redeem` reads a code, marks it used with an update that is
conditional on its status, and credits the quota to the caller, in one transaction. Any
number of calls run at once; every statement may fail, and then the transaction is rolled
back. SQLite has no row locks, so whether the read takes one is a parameter; the
conditional update locks the row it changes in every database.

Only the transaction that finds the code enabled marks it, so a code is credited at most
once. That the credit finds a row is not checked: for a user whose account is deleted the
code is marked used, the call returns its quota, and nothing is credited.
-/

namespace Qapi.Redeem

open Qapi.Core List Function Table

/-! ## The tables -/

inductive Status
  | enabled
  | disabled
  | used
deriving DecidableEq, Repr

/-- `Redemption`; `deleted` is whether `deleted_at` is set. -/
structure Redemption where
  id : Int
  key : String
  status : Status
  quota : Int
  redeemedTime : Int
  usedUserId : Int
  expiredTime : Int
  deleted : Bool
deriving DecidableEq, Repr

def Redemption.rowId (r : Redemption) : Int := r.id

structure Account where
  id : Int
  quota : Int
  deleted : Bool
deriving DecidableEq, Repr

def Account.rowId (a : Account) : Int := a.id

structure Credit where
  codeId : Int
  userId : Int
  quota : Int
deriving DecidableEq, Repr

structure Db where
  codes : Table Redemption.rowId
  users : Table Account.rowId
  credits : List Credit

/-- `First` by key, among the codes that are not deleted. -/
def Db.code (db : Db) (key : String) : Option Redemption :=
  db.codes.rows.find? fun r => r.key = key ∧ r.deleted = false

/-- The user has an account that is not deleted. -/
def Db.Live (db : Db) (userId : Int) : Prop := ∃ a ∈ db.users, a.id = userId ∧ a.deleted = false

instance (db : Db) (userId : Int) : Decidable (db.Live userId) :=
  inferInstanceAs (Decidable (∃ a ∈ db.users.rows, a.id = userId ∧ a.deleted = false))

def Redemption.redeemed (r : Redemption) (now userId : Int) : Redemption :=
  { r with redeemedTime := now, status := .used, usedUserId := userId }

def Account.credited (a : Account) (quota : Int) : Account := { a with quota := a.quota + quota }

/-! ## The transaction -/

/-- A call of `Redeem`. -/
structure Call where
  key : String
  userId : Int
deriving DecidableEq, Repr

inductive Phase
  | called (c : Call)
  | marking (c : Call) (r : Redemption)
  | crediting (c : Call) (r : Redemption)
  | committing (c : Call) (r : Redemption)
  | redeemed (c : Call) (r : Redemption)
  | failed (c : Call) (e : Err)
deriving DecidableEq, Repr

inductive Lock
  | code (id : Int)
  | user (id : Int)
deriving DecidableEq, Repr

structure Mark where
  codeId : Int
  now : Int
  userId : Int
deriving DecidableEq, Repr

structure Writes where
  mark : Option Mark
  credit : Option Credit
deriving DecidableEq, Repr

/-- What a statement finds outside the tables: whether it fails, and the clock. -/
structure Input where
  fails : Bool
  now : Int
deriving DecidableEq, Repr

/-- `ErrRedeemFailed`, which the caller sees for every error of the transaction. -/
def errRedeemFailed : Err := .msg "redeem.failed"

/-- The conditional update finds its row: the code is still enabled. -/
def Db.Enabled (db : Db) (codeId : Int) : Prop :=
  ∃ row ∈ db.codes, row.id = codeId ∧ row.status = .enabled ∧ row.deleted = false

instance (db : Db) (codeId : Int) : Decidable (db.Enabled codeId) :=
  inferInstanceAs (Decidable (∃ row ∈ db.codes.rows,
    row.id = codeId ∧ row.status = .enabled ∧ row.deleted = false))

/-- The next statement of `Redeem`, with the checks that follow it. -/
def exec (i : Input) (db : Db) : Phase → Writes → Outcome Phase Writes
  | .called c, w =>
    if c.key = "" then .rollback (.failed c (.msg "未提供兑换码"))
    else if c.userId = 0 then .rollback (.failed c (.msg "无效的 user id"))
    else if i.fails then .rollback (.failed c errRedeemFailed)
    else
      match db.code c.key with
      | none => .rollback (.failed c errRedeemFailed)
      | some r =>
        if r.status ≠ .enabled then .rollback (.failed c errRedeemFailed)
        else if r.expiredTime ≠ 0 ∧ r.expiredTime < i.now then .rollback (.failed c errRedeemFailed)
        else .next (.marking c r) w
  | .marking c r, w =>
    if i.fails then .rollback (.failed c errRedeemFailed)
    else if db.Enabled r.id then
      .next (.crediting c r) { w with mark := some ⟨r.id, i.now, c.userId⟩ }
    else .rollback (.failed c errRedeemFailed)
  | .crediting c r, w =>
    if i.fails then .rollback (.failed c errRedeemFailed)
    else .next (.committing c r)
      { w with credit := if db.Live c.userId then some ⟨r.id, c.userId, r.quota⟩ else none }
  | .committing c r, _ =>
    if i.fails then .rollback (.failed c errRedeemFailed) else .commit (.redeemed c r)
  | .redeemed c r, w => .next (.redeemed c r) w
  | .failed c e, w => .next (.failed c e) w

def markCodes (codes : Table Redemption.rowId) : Option Mark → Table Redemption.rowId
  | none => codes
  | some m => codes.modify (fun r => r.id = m.codeId) (fun r => r.redeemed m.now m.userId)
      fun _ => rfl

def creditUsers (users : Table Account.rowId) : Option Credit → Table Account.rowId
  | none => users
  | some c => users.modify (fun a => a.id = c.userId ∧ a.deleted = false)
      (fun a => a.credited c.quota) fun _ => rfl

def commit (db : Db) (w : Writes) : Db where
  codes := markCodes db.codes w.mark
  users := creditUsers db.users w.credit
  credits := db.credits ++ w.credit.toList

def locks (rowLock : Bool) (db : Db) : Phase → List Lock
  | .called c => if rowLock then ((db.code c.key).map fun r => Lock.code r.id).toList else []
  | .marking _ r => [.code r.id]
  | .crediting c _ => [.user c.userId]
  | _ => []

/-- `Redeem`; `rowLock` says whether its read takes a row lock. -/
def redeem (rowLock : Bool) : TxProgram Db Phase Lock Writes Input where
  locks := locks rowLock
  exec := exec
  noWrites := ⟨none, none⟩
  apply := commit

/-! ## What the statements do -/

def Phase.call : Phase → Call
  | .called c => c
  | .marking c _ => c
  | .crediting c _ => c
  | .committing c _ => c
  | .redeemed c _ => c
  | .failed c _ => c

def Phase.Ended : Phase → Prop
  | .redeemed _ _ => True
  | .failed _ _ => True
  | _ => False

section

variable {i : Input} {db : Db} {p p' : Phase} {w w' : Writes}

theorem exec_eq_next (h : exec i db p w = .next p' w') :
    (∃ c r, p = .called c ∧ db.code c.key = some r ∧ r.status = .enabled ∧ p' = .marking c r ∧
        w' = w) ∨
      (∃ c r, p = .marking c r ∧ db.Enabled r.id ∧ p' = .crediting c r ∧
        w' = { w with mark := some ⟨r.id, i.now, c.userId⟩ }) ∨
      (∃ c r, p = .crediting c r ∧ p' = .committing c r ∧
        w' = { w with credit := if db.Live c.userId then some ⟨r.id, c.userId, r.quota⟩ else none }) ∨
      p.Ended ∧ p' = p ∧ w' = w := by
  cases p with
  | called c =>
    simp only [exec] at h
    split at h <;> try cases h
    split at h <;> try cases h
    split at h <;> try cases h
    split at h <;> try cases h
    next r hCode =>
      split at h <;> try cases h
      next hStatus =>
        split at h <;> cases h
        exact Or.inl ⟨c, r, rfl, hCode, not_not.mp hStatus, rfl, rfl⟩
  | marking c r =>
    simp only [exec] at h
    split at h <;> try cases h
    split at h <;> cases h
    next hEnabled => exact Or.inr (Or.inl ⟨c, r, rfl, hEnabled, rfl, rfl⟩)
  | crediting c r =>
    simp only [exec] at h
    split at h <;> cases h
    exact Or.inr (Or.inr (Or.inl ⟨c, r, rfl, rfl, rfl⟩))
  | committing c r =>
    simp only [exec] at h
    split at h <;> cases h
  | redeemed c r | failed c e =>
    cases h
    exact Or.inr (Or.inr (Or.inr ⟨trivial, rfl, rfl⟩))

theorem exec_eq_rollback (h : exec i db p w = .rollback p') : ∃ e, p' = .failed p.call e := by
  cases p with
  | called c =>
    simp only [exec] at h
    split at h
    · cases h
      exact ⟨_, rfl⟩
    split at h
    · cases h
      exact ⟨_, rfl⟩
    split at h
    · cases h
      exact ⟨_, rfl⟩
    split at h
    · cases h
      exact ⟨_, rfl⟩
    split at h
    · cases h
      exact ⟨_, rfl⟩
    split at h <;> cases h
    exact ⟨_, rfl⟩
  | marking c r =>
    simp only [exec] at h
    split at h
    · cases h
      exact ⟨_, rfl⟩
    split at h <;> cases h
    exact ⟨_, rfl⟩
  | crediting c r | committing c r =>
    simp only [exec] at h
    split at h <;> cases h
    exact ⟨_, rfl⟩
  | redeemed c r => cases h
  | failed c e => cases h

theorem exec_eq_commit (h : exec i db p w = .commit p') :
    ∃ c r, p = .committing c r ∧ p' = .redeemed c r := by
  cases p with
  | called c =>
    simp only [exec] at h
    split at h <;> try cases h
    split at h <;> try cases h
    split at h <;> try cases h
    split at h <;> try cases h
    split at h <;> try cases h
    split at h <;> cases h
  | marking c r =>
    simp only [exec] at h
    split at h <;> try cases h
    split at h <;> cases h
  | crediting c r =>
    simp only [exec] at h
    split at h <;> cases h
  | committing c r =>
    simp only [exec] at h
    split at h <;> cases h
    exact ⟨c, r, rfl, rfl⟩
  | redeemed c r => cases h
  | failed c e => cases h

end

/-! ## The history of the tables -/

def creditedTo (credits : List Credit) (userId : Int) : Int :=
  ((credits.filter fun c => c.userId = userId).map (·.quota)).sum

@[simp]
theorem creditedTo_append (credits more : List Credit) (userId : Int) :
    creditedTo (credits ++ more) userId = creditedTo credits userId + creditedTo more userId := by
  simp [creditedTo]

/-- The tables after some credits: each code is as it was and was not credited, or it was
enabled and is marked by the user who was credited with its quota; the accounts hold what
was credited to them. -/
structure History (db₀ db : Db) : Prop where
  codes : ∀ r ∈ db₀.codes,
    (r ∈ db.codes ∧ ∀ c ∈ db.credits, c.codeId ≠ r.id) ∨
      (r.status = .enabled ∧ ∃ userId now, ⟨r.id, userId, r.quota⟩ ∈ db.credits ∧
        r.redeemed now userId ∈ db.codes)
  origin : ∀ r ∈ db.codes, ∃ r₀ ∈ db₀.codes, r₀.id = r.id
  known : ∀ c ∈ db.credits, ∃ r ∈ db₀.codes, r.id = c.codeId
  once : (db.credits.map (·.codeId)).Nodup
  users : ∀ a ∈ db₀.users, a.credited (creditedTo db.credits a.id) ∈ db.users
  accounts : ∀ a ∈ db.users, ∃ a₀ ∈ db₀.users, a₀.id = a.id ∧ a₀.deleted = a.deleted

variable {db₀ db : Db} {r : Redemption}

theorem History.unchanged (h : History db₀ db) (hr : r ∈ db.codes)
    (hStatus : r.status = .enabled) : r ∈ db₀.codes := by
  obtain ⟨r₀, hr₀, hId⟩ := h.origin r hr
  rcases h.codes r₀ hr₀ with ⟨hMem, _⟩ | ⟨_, userId, now, _, hMarked⟩
  · rwa [← eq_of_key hMem hr hId]
  · have hEq : r₀.redeemed now userId = r := eq_of_key hMarked hr hId
    rw [← hEq] at hStatus
    cases hStatus

theorem History.not_credited (h : History db₀ db) (hr : r ∈ db.codes)
    (hStatus : r.status = .enabled) : ∀ c ∈ db.credits, c.codeId ≠ r.id := by
  rcases h.codes r (h.unchanged hr hStatus) with ⟨_, hNone⟩ | ⟨_, userId, now, _, hMarked⟩
  · exact hNone
  · have hEq : r.redeemed now userId = r := eq_of_key hMarked hr rfl
    rw [← hEq] at hStatus
    cases hStatus

theorem History.refl (db : Db) (h : db.credits = []) : History db db where
  codes r hr := by
    rw [h]
    exact Or.inl ⟨hr, by simp⟩
  origin r hr := ⟨r, hr, rfl⟩
  known := by simp [h]
  once := by simp [h]
  users a ha := by
    rw [h]
    simpa [creditedTo, Account.credited] using ha
  accounts a ha := ⟨a, ha, rfl, rfl⟩

def paid (c : Call) (r : Redemption) (now : Int) : Writes :=
  ⟨some ⟨r.id, now, c.userId⟩, some ⟨r.id, c.userId, r.quota⟩⟩

section

variable {db₀ db : Db} {c : Call} {r : Redemption} {now : Int}

theorem mem_codes_commit {row : Redemption} :
    row ∈ (commit db (paid c r now)).codes ↔
      ∃ old ∈ db.codes, row = if old.id = r.id then old.redeemed now c.userId else old := by
  have hModify := mem_modify (t := db.codes) (p := fun row => decide (row.id = r.id))
    (f := fun row => row.redeemed now c.userId) (s := row) fun _ => rfl
  simp only [decide_eq_true_eq] at hModify
  exact hModify

theorem mem_users_commit {a : Account} :
    a ∈ (commit db (paid c r now)).users ↔
      ∃ old ∈ db.users,
        a = if old.id = c.userId ∧ old.deleted = false then old.credited r.quota else old := by
  have hModify := mem_modify (t := db.users)
    (p := fun a => decide (a.id = c.userId ∧ a.deleted = false))
    (f := fun a => a.credited r.quota) (s := a) fun _ => rfl
  simp only [decide_eq_true_eq] at hModify
  exact hModify

theorem mem_commit_of_ne {row : Redemption} (hRow : row ∈ db.codes) (hId : row.id ≠ r.id) :
    row ∈ (commit db (paid c r now)).codes :=
  mem_codes_commit.mpr ⟨row, hRow, (if_neg hId).symm⟩

theorem redeemed_mem_commit (hr : r ∈ db.codes) :
    r.redeemed now c.userId ∈ (commit db (paid c r now)).codes :=
  mem_codes_commit.mpr ⟨r, hr, (if_pos rfl).symm⟩

theorem credits_commit :
    (commit db (paid c r now)).credits = db.credits ++ [⟨r.id, c.userId, r.quota⟩] := rfl

/-- The commit of a call that has marked an enabled code and found an account extends the
history. -/
theorem History.commit (h : History db₀ db) (hr : r ∈ db.codes) (hStatus : r.status = .enabled)
    (hLive : db.Live c.userId) : History db₀ (commit db (paid c r now)) where
  codes r' hr' := by
    by_cases hId : r'.id = r.id
    · -- the code that is marked now
      obtain rfl : r' = r := eq_of_key hr' (h.unchanged hr hStatus) hId
      exact Or.inr ⟨hStatus, c.userId, now, by simp [credits_commit], redeemed_mem_commit hr⟩
    · rcases h.codes r' hr' with ⟨hMem, hNone⟩ | ⟨hEnabled, userId, now', hCredit, hMarked⟩
      · refine Or.inl ⟨mem_commit_of_ne hMem hId, ?_⟩
        intro credit hCredit
        rw [credits_commit, mem_append, mem_singleton] at hCredit
        rcases hCredit with hOld | rfl
        · exact hNone credit hOld
        · exact Ne.symm hId
      · refine Or.inr ⟨hEnabled, userId, now', ?_, mem_commit_of_ne hMarked hId⟩
        rw [credits_commit]
        exact mem_append_left _ hCredit
  origin row hRow := by
    obtain ⟨old, hOld, rfl⟩ := mem_codes_commit.mp hRow
    obtain ⟨r₀, hr₀, hId⟩ := h.origin old hOld
    refine ⟨r₀, hr₀, ?_⟩
    split
    · exact hId
    · exact hId
  known credit hCredit := by
    rw [credits_commit, mem_append, mem_singleton] at hCredit
    rcases hCredit with hOld | rfl
    · exact h.known credit hOld
    · exact ⟨r, h.unchanged hr hStatus, rfl⟩
  once := by
    rw [credits_commit, map_append, map_singleton, nodup_append]
    refine ⟨h.once, nodup_singleton _, ?_⟩
    intro id hOld id' hNew
    obtain ⟨credit, hCredit, rfl⟩ := mem_map.mp hOld
    rw [mem_singleton.mp hNew]
    exact h.not_credited hr hStatus credit hCredit
  users a ha := by
    have hMem := h.users a ha
    rw [credits_commit, creditedTo_append]
    refine mem_users_commit.mpr ⟨_, hMem, ?_⟩
    by_cases hId : a.id = c.userId
    · -- the account is not deleted, since one with this id is not
      obtain ⟨live, hLiveMem, hLiveId, hNotDeleted⟩ := hLive
      have hSame : a.credited (creditedTo db.credits a.id) = live :=
        eq_of_key hMem hLiveMem (hId.trans hLiveId.symm)
      have hOpen : a.deleted = false := by
        rw [← hSame] at hNotDeleted
        exact hNotDeleted
      simp [Account.credited, creditedTo, hId, hOpen, add_assoc]
    · simp [Account.credited, creditedTo, hId, Ne.symm hId]
  accounts a ha := by
    obtain ⟨old, hOld, rfl⟩ := mem_users_commit.mp ha
    obtain ⟨a₀, ha₀, hId, hDeleted⟩ := h.accounts old hOld
    refine ⟨a₀, ha₀, ?_⟩
    split
    · exact ⟨hId, hDeleted⟩
    · exact ⟨hId, hDeleted⟩

end

/-! ## Every interleaving -/

/-- What a call has read: an enabled code with its key. -/
structure HasRead (db₀ : Db) (c : Call) (r : Redemption) : Prop where
  mem : r ∈ db₀.codes
  enabled : r.status = .enabled
  key : r.key = c.key

/-- The state of one call: a call that has marked a code owns its row, which is as it was
read; a call that has returned the quota has credited its user. -/
def CallState (db₀ db : Db) (owns : Lock → Prop) : Phase → Writes → Prop
  | .called _, w => w = ⟨none, none⟩
  | .marking c r, w => HasRead db₀ c r ∧ w = ⟨none, none⟩
  | .crediting c r, w => HasRead db₀ c r ∧ owns (.code r.id) ∧ r ∈ db.codes ∧
      ∃ now, w = ⟨some ⟨r.id, now, c.userId⟩, none⟩
  | .committing c r, w => HasRead db₀ c r ∧ owns (.code r.id) ∧ r ∈ db.codes ∧
      db₀.Live c.userId ∧ ∃ now, w = paid c r now
  | .redeemed c r, w => HasRead db₀ c r ∧ ⟨r.id, c.userId, r.quota⟩ ∈ db.credits ∧ w = ⟨none, none⟩
  | .failed _ _, w => w = ⟨none, none⟩

variable {T : Type} [DecidableEq T]

def start (db : Db) (call : T → Call) : TxSystem T Db Phase Lock Writes :=
  ⟨db, fun _ => none, fun t => .called (call t), fun _ => ⟨none, none⟩⟩

theorem History.live_iff (h : History db₀ db) (userId : Int) :
    db.Live userId ↔ db₀.Live userId := by
  constructor
  · rintro ⟨a, ha, hId, hOpen⟩
    obtain ⟨a₀, ha₀, hId₀, hDeleted⟩ := h.accounts a ha
    exact ⟨a₀, ha₀, hId₀.trans hId, hDeleted.trans hOpen⟩
  · rintro ⟨a, ha, hId, hOpen⟩
    exact ⟨_, h.users a ha, hId, hOpen⟩

theorem History.hasRead (h : History db₀ db) {c : Call} (hCode : db.code c.key = some r)
    (hStatus : r.status = .enabled) : HasRead db₀ c r := by
  have hMem : r ∈ db.codes := mem_of_find?_eq_some hCode
  have hFound := find?_some hCode
  rw [decide_eq_true_eq] at hFound
  exact ⟨h.unchanged hMem hStatus, hStatus, hFound.1⟩

theorem History.mem_of_enabled (h : History db₀ db) {c : Call} (hRead : HasRead db₀ c r)
    (hEnabled : db.Enabled r.id) : r ∈ db.codes := by
  obtain ⟨row, hRow, hId, hStatus, _⟩ := hEnabled
  have hSame : row = r := eq_of_key (h.unchanged hRow hStatus) hRead.mem hId
  rwa [← hSame]

/-- The commit of another call leaves the state of a call alone: the codes that the two
have marked are different ones. -/
theorem CallState.commit {owns : Lock → Prop} {p : Phase} {w : Writes}
    (h : CallState db₀ db owns p w) {c : Call} {now : Int} (hForeign : ¬ owns (.code r.id)) :
    CallState db₀ (commit db (paid c r now)) owns p w := by
  have hKeeps : ∀ r' : Redemption, owns (.code r'.id) → r' ∈ db.codes →
      r' ∈ (Redeem.commit db (paid c r now)).codes := by
    intro r' hOwns hMem
    apply mem_commit_of_ne hMem
    intro hId
    exact hForeign (hId ▸ hOwns)
  cases p with
  | called c' => exact h
  | marking c' r' => exact h
  | crediting c' r' | committing c' r' =>
    obtain ⟨hRead, hOwns, hMem, hWrites⟩ := h
    exact ⟨hRead, hOwns, hKeeps r' hOwns hMem, hWrites⟩
  | redeemed c' r' =>
    obtain ⟨hRead, hCredit, hWrites⟩ := h
    refine ⟨hRead, ?_, hWrites⟩
    rw [credits_commit]
    exact mem_append_left _ hCredit
  | failed c' e => exact h

/-- What holds after every step: the history of the tables, and the state of each call. -/
structure Consistent (db₀ : Db) (call : T → Call) (s : TxSystem T Db Phase Lock Writes) : Prop where
  history : History db₀ s.db
  calls : ∀ t, TxProgram.At (CallState db₀) s t
  identity : ∀ t, (s.phase t).call = call t

/-- The credit of a call finds its user's account. -/
def CreditFindsAccount (s : TxSystem T Db Phase Lock Writes) (a : T × Input) : Prop :=
  match s.phase a.1 with
  | .crediting c _ => s.db.Live c.userId
  | _ => True

instance (s : TxSystem T Db Phase Lock Writes) (a : T × Input) : Decidable (CreditFindsAccount s a) := by
  unfold CreditFindsAccount
  split <;> infer_instance

section

variable {db₀ : Db} {call : T → Call} {s : TxSystem T Db Phase Lock Writes} {a : T × Input}
  {rowLock : Bool}

omit [DecidableEq T] in
theorem callState_next (hHistory : History db₀ s.db) {owns : Lock → Prop} {p : Phase} {w : Writes}
    (hState : CallState db₀ s.db owns (s.phase a.1) (s.writes a.1))
    (hLive : CreditFindsAccount s a) (hExec : exec a.2 s.db (s.phase a.1) (s.writes a.1) = .next p w)
    {owns' : Lock → Prop} (hMore : ∀ l, owns l → owns' l)
    (hTaken : ∀ l ∈ locks rowLock s.db (s.phase a.1), owns' l) :
    CallState db₀ s.db owns' p w := by
  rcases exec_eq_next hExec with ⟨c, r, hPhase, hCode, hStatus, rfl, rfl⟩ |
    ⟨c, r, hPhase, hEnabled, rfl, rfl⟩ | ⟨c, r, hPhase, rfl, rfl⟩ | ⟨hEnded, rfl, rfl⟩
  · rw [hPhase] at hState
    exact ⟨hHistory.hasRead hCode hStatus, hState⟩
  · rw [hPhase] at hState hTaken
    obtain ⟨hRead, hWrites⟩ := hState
    refine ⟨hRead, hTaken _ (by simp [locks]), hHistory.mem_of_enabled hRead hEnabled, a.2.now, ?_⟩
    rw [hWrites]
  · have hAccount : s.db.Live c.userId := by
      simpa only [CreditFindsAccount, hPhase] using hLive
    rw [hPhase] at hState
    obtain ⟨hRead, hOwns, hMem, now, hWrites⟩ := hState
    refine ⟨hRead, hMore _ hOwns, hMem, (hHistory.live_iff _).mp hAccount, now, ?_⟩
    rw [hWrites, if_pos hAccount]
    rfl
  · cases hPhase : s.phase a.1 with
    | redeemed c r | failed c e =>
      rw [hPhase] at hState
      exact hState
    | called c | marking c r | crediting c r | committing c r =>
      simp [hPhase, Phase.Ended] at hEnded

theorem call_step (t : T) : (((redeem rowLock).step s a).phase t).call = (s.phase t).call := by
  by_cases ht : t = a.1
  · subst ht
    rcases (redeem rowLock).step_cases s a with
      h | ⟨_, ⟨p, w, hExec, h⟩ | ⟨p, hExec, h⟩ | ⟨p, hExec, h⟩⟩
    · rw [h]
    · rw [h]
      dsimp only
      rw [update_self]
      rcases exec_eq_next hExec with ⟨c, r, hPhase, _, _, rfl, _⟩ | ⟨c, r, hPhase, _, rfl, _⟩ |
        ⟨c, r, hPhase, rfl, _⟩ | ⟨_, rfl, _⟩
      · rw [hPhase]
        rfl
      · rw [hPhase]
        rfl
      · rw [hPhase]
        rfl
      · rfl
    · obtain ⟨e, rfl⟩ := exec_eq_rollback hExec
      rw [h]
      dsimp only
      rw [update_self]
      rfl
    · obtain ⟨c, r, hPhase, rfl⟩ := exec_eq_commit hExec
      rw [h]
      dsimp only
      rw [update_self, hPhase]
      rfl
  · rw [TxProgram.phase_step_of_ne ht]

/-- Every statement whose credit finds an account keeps the tables and the calls
consistent. -/
theorem consistent_step (hs : Consistent db₀ call s) (hLive : CreditFindsAccount s a) :
    Consistent db₀ call ((redeem rowLock).step s a) := by
  have hIdentity : ∀ t, (((redeem rowLock).step s a).phase t).call = call t := by
    intro t
    rw [call_step, hs.identity t]
  have hState := hs.calls a.1
  rcases (redeem rowLock).step_cases s a with
    h | ⟨hFree, ⟨p, w, hExec, h⟩ | ⟨p, hExec, h⟩ | ⟨p, hExec, h⟩⟩
  · rw [h]
    exact hs
  · refine ⟨?_, ?_, hIdentity⟩
    · rw [h]
      exact hs.history
    · apply TxProgram.at_step hs.calls
      · rw [h]
        unfold TxProgram.At
        dsimp only
        rw [update_self, update_self]
        exact callState_next hs.history hState hLive hExec
          (fun l hOwn => TxProgram.acquire_self hOwn) (fun l hMem => TxProgram.acquire_of_mem hMem)
      · intro u _ hu
        rw [h]
        exact hu
  · obtain ⟨e, rfl⟩ := exec_eq_rollback hExec
    refine ⟨?_, ?_, hIdentity⟩
    · rw [h]
      exact hs.history
    · apply TxProgram.at_step hs.calls
      · rw [h]
        unfold TxProgram.At
        dsimp only
        rw [update_self, update_self]
        rfl
      · intro u _ hu
        rw [h]
        exact hu
  · obtain ⟨c, r, hPhase, rfl⟩ := exec_eq_commit hExec
    unfold TxProgram.At at hState
    rw [hPhase] at hState
    obtain ⟨hRead, hOwns, hMem, hAccount, now, hWrites⟩ := hState
    have hDb : ((redeem rowLock).step s a).db = commit s.db (paid c r now) := by
      rw [h]
      exact congrArg (commit s.db) hWrites
    refine ⟨?_, ?_, hIdentity⟩
    · rw [hDb]
      exact hs.history.commit hMem hRead.enabled ((hs.history.live_iff _).mpr hAccount)
    · apply TxProgram.at_step hs.calls
      · unfold TxProgram.At
        rw [hDb]
        rw [h]
        dsimp only
        rw [update_self, update_self]
        refine ⟨hRead, ?_, rfl⟩
        rw [credits_commit]
        exact mem_append_right _ (mem_singleton_self _)
      · intro u hu hOther
        rw [hDb]
        apply CallState.commit hOther
        intro hForeign
        rw [hOwns] at hForeign
        exact hu (Option.some.inj hForeign).symm

end

omit [DecidableEq T] in
theorem consistent_start (db : Db) (hNone : db.credits = []) (call : T → Call) :
    Consistent db call (start db call) :=
  ⟨History.refl db hNone, fun _ => rfl, fun _ => rfl⟩

/-- The codes are single-use: each is credited at most once and with its own quota, a code
is marked by exactly the user who was credited, a call that returned a quota has credited
it to its own user, and the accounts hold what was credited. -/
structure SingleUse (db₀ : Db) (call : T → Call) (s : TxSystem T Db Phase Lock Writes) : Prop where
  once : ∀ id, (s.db.credits.filter fun c => c.codeId = id).length ≤ 1
  quota : ∀ c ∈ s.db.credits, ∃ r ∈ db₀.codes, r.id = c.codeId ∧ r.quota = c.quota
  spent : ∀ r ∈ db₀.codes, r.status = .used → ∀ c ∈ s.db.credits, c.codeId ≠ r.id
  marked : ∀ r ∈ db₀.codes, r.status ≠ .used → ∀ row ∈ s.db.codes, row.id = r.id → ∀ userId,
    (row.status = .used ∧ row.usedUserId = userId) ↔
      ∃ c ∈ s.db.credits, c.codeId = r.id ∧ c.userId = userId
  success : ∀ t c r, s.phase t = .redeemed c r →
    r.key = (call t).key ∧ ⟨r.id, (call t).userId, r.quota⟩ ∈ s.db.credits
  balance : ∀ a ∈ db₀.users, a.credited (creditedTo s.db.credits a.id) ∈ s.db.users

section

variable {db₀ db : Db}

theorem History.quota (h : History db₀ db) {c : Credit} (hc : c ∈ db.credits) :
    ∃ r ∈ db₀.codes, r.id = c.codeId ∧ r.quota = c.quota := by
  obtain ⟨r, hr, hId⟩ := h.known c hc
  refine ⟨r, hr, hId, ?_⟩
  rcases h.codes r hr with ⟨_, hNone⟩ | ⟨_, userId, now, hCredit, _⟩
  · exact absurd hId.symm (hNone c hc)
  · rw [inj_on_of_nodup_map h.once hc hCredit hId.symm]

theorem History.spent (h : History db₀ db) {r : Redemption} (hr : r ∈ db₀.codes)
    (hUsed : r.status = .used) : ∀ c ∈ db.credits, c.codeId ≠ r.id := by
  rcases h.codes r hr with ⟨_, hNone⟩ | ⟨hEnabled, _⟩
  · exact hNone
  · rw [hUsed] at hEnabled
    cases hEnabled

/-- A code that was not used at the start is marked by a user exactly when it was credited
to this user. -/
theorem History.marked (h : History db₀ db) {r row : Redemption} (hr : r ∈ db₀.codes)
    (hFresh : r.status ≠ .used) (hRow : row ∈ db.codes) (hId : row.id = r.id) (userId : Int) :
    (row.status = .used ∧ row.usedUserId = userId) ↔
      ∃ c ∈ db.credits, c.codeId = r.id ∧ c.userId = userId := by
  rcases h.codes r hr with ⟨hMem, hNone⟩ | ⟨_, creditedUser, now, hCredit, hMarked⟩
  · obtain rfl : row = r := eq_of_key hRow hMem hId
    constructor
    · rintro ⟨hUsed, _⟩
      exact absurd hUsed hFresh
    · rintro ⟨c, hc, hCode, _⟩
      exact absurd hCode (hNone c hc)
  · obtain rfl : row = r.redeemed now creditedUser := eq_of_key hRow hMarked hId
    constructor
    · rintro ⟨_, rfl⟩
      exact ⟨_, hCredit, rfl, rfl⟩
    · rintro ⟨c, hc, hCode, rfl⟩
      rw [inj_on_of_nodup_map h.once hc hCredit hCode]
      exact ⟨rfl, rfl⟩

end

/-- In every interleaving in which each credit finds its user's account, the codes are
single-use. -/
theorem redeem_single_use (rowLock : Bool) (db₀ : Db) (hNone : db₀.credits = [])
    (call : T → Call) (l : List (T × Input))
    (hLive : Guarded (redeem rowLock).step CreditFindsAccount (start db₀ call) l) :
    SingleUse db₀ call (run (redeem rowLock).step (start db₀ call) l) := by
  have h : Consistent db₀ call (run (redeem rowLock).step (start db₀ call) l) :=
    Guarded.invariant (fun _ _ => consistent_step) (consistent_start db₀ hNone call) hLive
  refine ⟨?_, fun c hc => h.history.quota hc, fun r hr => h.history.spent hr,
    fun r hr hFresh row hRow hId => h.history.marked hr hFresh hRow hId, ?_, h.history.users⟩
  · intro id
    exact (⟨_, h.history.once⟩ : Table Credit.codeId).length_filter_key_le_one id
  · intro t c r hPhase
    have hState := h.calls t
    have hCall := h.identity t
    unfold TxProgram.At at hState
    rw [hPhase] at hState hCall
    obtain ⟨hRead, hCredit, _⟩ := hState
    rw [← hCall]
    exact ⟨hRead.key, hCredit⟩

/-! ## Two calls, and an account that is deleted -/

def sampleDb : Db where
  codes := ⟨[⟨1, "k", .enabled, 500, 0, 0, 0, false⟩], by decide⟩
  users := ⟨[⟨7, 10, false⟩, ⟨8, 0, true⟩], by decide⟩
  credits := []

def twice : Bool → Call := fun _ => ⟨"k", 7⟩

/-- Both read the code; the first marks it, and the second has to wait and fails. -/
def twiceRun : List (Bool × Input) :=
  [(false, ⟨false, 100⟩), (true, ⟨false, 100⟩), (false, ⟨false, 101⟩), (true, ⟨false, 101⟩),
    (false, ⟨false, 102⟩), (false, ⟨false, 103⟩), (true, ⟨false, 104⟩)]

def deletedRun : List (Unit × Input) :=
  [((), ⟨false, 100⟩), ((), ⟨false, 101⟩), ((), ⟨false, 102⟩), ((), ⟨false, 103⟩)]

/-- The call returns its quota and the code is marked used, and no account is credited. -/
theorem deleted_user_not_credited :
    (run (redeem true).step (start sampleDb fun _ => ⟨"k", 8⟩) deletedRun).phase () =
        .redeemed ⟨"k", 8⟩ ⟨1, "k", .enabled, 500, 0, 0, 0, false⟩ ∧
      (run (redeem true).step (start sampleDb fun _ => ⟨"k", 8⟩) deletedRun).db.codes.rows =
        [⟨1, "k", .used, 500, 101, 8, 0, false⟩] ∧
      (run (redeem true).step (start sampleDb fun _ => ⟨"k", 8⟩) deletedRun).db.credits = [] ∧
      ¬ SingleUse sampleDb (fun _ => ⟨"k", 8⟩)
        (run (redeem true).step (start sampleDb fun _ => ⟨"k", 8⟩) deletedRun) := by
  have hPhase : (run (redeem true).step (start sampleDb fun _ => ⟨"k", 8⟩) deletedRun).phase () =
      .redeemed ⟨"k", 8⟩ ⟨1, "k", .enabled, 500, 0, 0, 0, false⟩ := by decide
  have hCredits :
      (run (redeem true).step (start sampleDb fun _ => ⟨"k", 8⟩) deletedRun).db.credits = [] := by
    decide
  refine ⟨hPhase, by decide, hCredits, ?_⟩
  intro hSingle
  have hCredit := (hSingle.success () _ _ hPhase).2
  rw [hCredits] at hCredit
  cases hCredit

theorem twice_single_use :
    Guarded (redeem false).step CreditFindsAccount (start sampleDb twice) twiceRun ∧
      SingleUse sampleDb twice (run (redeem false).step (start sampleDb twice) twiceRun) := by
  have hLive : Guarded (redeem false).step CreditFindsAccount (start sampleDb twice) twiceRun := by
    decide
  exact ⟨hLive, redeem_single_use false sampleDb rfl twice twiceRun hLive⟩

end Qapi.Redeem
