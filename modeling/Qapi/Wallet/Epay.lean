import Qapi.Core.Ledger
import Qapi.Wallet.CreditOnce

/-!
# Epay callbacks

`EpayNotify` on one order, on any number of processes that share the database. A
callback reads the order, writes the status and adds the quota in three statements, and
the lock it holds meanwhile keeps out the callers of its own process only. So two
processes can both find the order pending, and a quota that cannot be added, or whose
owner has no row any more, is lost, because the order is completed already. `Apart` says
which runs do neither.
-/

namespace Qapi.Wallet.Epay

open Qapi.Core Function

/-- Where a callback stands: it is not there, it holds the lock of its process, it has found the
order pending and is about to write it, or it has written it and is about to add the quota. -/
inductive Callback
  | idle
  | locked (process : Nat)
  | updating (process : Nat) (topUp : TopUp)
  | crediting (process : Nat) (topUp : TopUp)

def Callback.process : Callback → Option Nat
  | .idle => none
  | .locked p => some p
  | .updating p _ => some p
  | .crediting p _ => some p

structure State where
  db : Db
  locks : Nat → Bool
  callbacks : Nat → Callback
  credits : List Credit

def State.setCallback (s : State) (k : Nat) (x : Callback) : State :=
  { s with callbacks := update s.callbacks k x }

/-- `LockOrder` by the callback. -/
def State.acquire (s : State) (k process : Nat) : State :=
  { s.setCallback k (.locked process) with locks := update s.locks process true }

/-- The callback returns; `UnlockOrder` is deferred. -/
def State.release (s : State) (k process : Nat) : State :=
  { s.setCallback k .idle with locks := update s.locks process false }

/-- What happens: a callback of a verified success takes the lock, reads the order, writes it or
adds the quota, or an administrator completes the order under the lock of a process. A callback
brings the payment method that was used; an outcome is the error of the statement. -/
inductive Action
  | lock (k process : Nat)
  | read (k : Nat) (actualType : String) (o : Option Err)
  | save (k : Nat) (o : Option Err)
  | credit (k : Nat) (o : Option Err)
  | manual (process : Nat) (now : Int) (o : Outcome)

section

variable (quotaPerUnit : ℚ) (tradeNo : String)

/-- What a callback goes on with after its read: the order as it will be written, if it is a
pending order of this gateway. -/
def foundPending (actualType : String) (o : Option Err) (db : Db) : Option TopUp :=
  match o, db.orders.find? tradeNo with
  | none, some t =>
    if t.paymentProvider = .epay ∧ t.status = .pending then
      some { t with paymentMethod := actualType, status := .success }
    else none
  | _, _ => none

def step (s : State) : Action → State
  | .lock k process =>
    match s.callbacks k with
    | .idle => if s.locks process then s else s.acquire k process
    | _ => s
  | .read k actualType o =>
    match s.callbacks k with
    | .locked process =>
      match foundPending tradeNo actualType o s.db with
      | some topUp => s.setCallback k (.updating process topUp)
      | none => s.release k process
    | _ => s
  | .save k o =>
    match s.callbacks k with
    | .updating process topUp =>
      match o with
      | none => { s.setCallback k (.crediting process topUp) with db := s.db.saveTopUp topUp }
      | some _ => s.release k process
    | _ => s
  | .credit k o =>
    match s.callbacks k with
    | .crediting process topUp =>
      let quotaToAdd := amountQuota quotaPerUnit topUp
      -- `IncreaseUserQuota` refuses a negative quota; an error is logged only
      if quotaToAdd < 0 ∨ o ≠ none then s.release k process
      else
        { s.release k process with
          db := s.db.updateUser topUp.userId fun u => { u with quota := u.quota + quotaToAdd }
          credits := (s.db.credited topUp.userId quotaToAdd).toList ++ s.credits }
    | _ => s
  | .manual process now o =>
    if s.locks process then s
    else
      match manualCompleteTopUp quotaPerUnit o now tradeNo s.db with
      | .ok (credit, db) => { s with db := db, credits := credit.toList ++ s.credits }
      | .error _ => s

end

/-! ## The locks -/

/-- The lock of a process is held by at most one callback. -/
structure Locks (s : State) : Prop where
  held : ∀ k p, (s.callbacks k).process = some p → s.locks p = true
  unique : ∀ j k p, (s.callbacks j).process = some p → (s.callbacks k).process = some p → j = k

section

variable {s : State} {k process : Nat} {x : Callback}

theorem setCallback_cases {j : Nat} {y : Callback} (h : (s.setCallback k x).callbacks j = y) :
    (j = k ∧ x = y) ∨ (j ≠ k ∧ s.callbacks j = y) := by
  by_cases hj : j = k
  · subst hj
    exact Or.inl ⟨rfl, by simpa [State.setCallback] using h⟩
  · exact Or.inr ⟨hj, by simpa [State.setCallback, hj] using h⟩

theorem process_cases {j p : Nat} (h : ((s.setCallback k x).callbacks j).process = some p) :
    (j = k ∧ x.process = some p) ∨ (j ≠ k ∧ (s.callbacks j).process = some p) := by
  rcases setCallback_cases (rfl : (s.setCallback k x).callbacks j = _) with ⟨hj, hx⟩ | ⟨hj, hx⟩
  · exact Or.inl ⟨hj, by rw [hx]; exact h⟩
  · exact Or.inr ⟨hj, by rw [hx]; exact h⟩

theorem Locks.setCallback (h : Locks s) (hx : x.process = (s.callbacks k).process) :
    Locks (s.setCallback k x) := by
  have hOld : ∀ j p, ((s.setCallback k x).callbacks j).process = some p →
      (s.callbacks j).process = some p := by
    intro j p hj
    rcases process_cases hj with ⟨hjk, hp⟩ | ⟨-, hp⟩
    · rw [hjk, ← hx]
      exact hp
    · exact hp
  exact ⟨fun j p hj => h.held j p (hOld j p hj),
    fun i j p hi hj => h.unique i j p (hOld i p hi) (hOld j p hj)⟩

theorem Locks.acquire (h : Locks s) (hFree : s.locks process = false) :
    Locks (s.acquire k process) := by
  have hOthers : ∀ j, (s.callbacks j).process ≠ some process := by
    intro j hj
    rw [h.held j process hj] at hFree
    cases hFree
  constructor
  · intro j p hj
    rcases process_cases hj with ⟨-, hp⟩ | ⟨-, hp⟩
    · cases hp
      simp [State.acquire]
    · have hne : p ≠ process := by
        intro hEq
        subst hEq
        exact hOthers j hp
      simp [State.acquire, State.setCallback, hne, h.held j p hp]
  · intro i j p hi hj
    rcases process_cases hi with ⟨hik, hp⟩ | ⟨-, hp⟩
    · rcases process_cases hj with ⟨hjk, -⟩ | ⟨-, hq⟩
      · exact hik.trans hjk.symm
      · cases hp
        exact absurd hq (hOthers j)
    · rcases process_cases hj with ⟨-, hq⟩ | ⟨-, hq⟩
      · cases hq
        exact absurd hp (hOthers i)
      · exact h.unique i j p hp hq

theorem Locks.release (h : Locks s) (hk : (s.callbacks k).process = some process) :
    Locks (s.release k process) := by
  have hOld : ∀ j p, ((s.release k process).callbacks j).process = some p →
      j ≠ k ∧ (s.callbacks j).process = some p := by
    intro j p hj
    rcases process_cases hj with ⟨-, hp⟩ | hOther
    · cases hp
    · exact hOther
  constructor
  · intro j p hj
    obtain ⟨hjk, hp⟩ := hOld j p hj
    have hne : p ≠ process := by
      intro hEq
      subst hEq
      exact hjk (h.unique j k p hp hk)
    simp [State.release, State.setCallback, hne, h.held j p hp]
  · intro i j p hi hj
    exact h.unique i j p (hOld i p hi).2 (hOld j p hj).2

end

/-! ## Who is about to write -/

def Completed (tradeNo : String) (db : Db) : Prop :=
  ∃ u, db.orders.find? tradeNo = some u ∧ u.status = .success

theorem not_completed_of_pending {tradeNo : String} {db : Db} {u : TopUp}
    (hFind : db.orders.find? tradeNo = some u) (hPending : u.status = .pending) :
    ¬ Completed tradeNo db := by
  rintro ⟨v, hFindV, hSuccess⟩
  rw [hFind] at hFindV
  cases hFindV
  rw [hPending] at hSuccess
  cases hSuccess

def NoneUpdating (s : State) : Prop := ∀ k p c, s.callbacks k ≠ .updating p c

/-- The copies that callbacks hold are of the order `t`; a copy that is about to be written is the
only one, and the order is not completed yet. -/
structure Copies (tradeNo : String) (t : TopUp) (s : State) : Prop where
  updating : ∀ k p c, s.callbacks k = .updating p c →
    c.tradeNo = tradeNo ∧ c.SameOrder t ∧ c.status = .success
  crediting : ∀ k p c, s.callbacks k = .crediting p c → c.SameOrder t
  notYet : ∀ k p c, s.callbacks k = .updating p c → ¬ Completed tradeNo s.db
  alone : ∀ j k p q c d, s.callbacks j = .updating p c → s.callbacks k = .updating q d → j = k

def Callback.noCopy : Callback → Bool
  | .idle => true
  | .locked _ => true
  | _ => false

section

variable {tradeNo : String} {t : TopUp} {s : State} {k process : Nat} {x : Callback}

theorem not_updating_of_noCopy (hx : x.noCopy = true) (p : Nat) (c : TopUp) :
    x ≠ .updating p c := by
  intro hEq
  rw [hEq] at hx
  cases hx

theorem not_crediting_of_noCopy (hx : x.noCopy = true) (p : Nat) (c : TopUp) :
    x ≠ .crediting p c := by
  intro hEq
  rw [hEq] at hx
  cases hx

theorem Copies.drop (h : Copies tradeNo t s) (hx : x.noCopy = true) :
    Copies tradeNo t (s.setCallback k x) := by
  have hUpdating : ∀ j p c, (s.setCallback k x).callbacks j = .updating p c →
      s.callbacks j = .updating p c := by
    intro j p c hj
    rcases setCallback_cases hj with ⟨-, hNew⟩ | ⟨-, hOld⟩
    · exact absurd hNew (not_updating_of_noCopy hx p c)
    · exact hOld
  have hCrediting : ∀ j p c, (s.setCallback k x).callbacks j = .crediting p c →
      s.callbacks j = .crediting p c := by
    intro j p c hj
    rcases setCallback_cases hj with ⟨-, hNew⟩ | ⟨-, hOld⟩
    · exact absurd hNew (not_crediting_of_noCopy hx p c)
    · exact hOld
  exact ⟨fun j p c hj => h.updating j p c (hUpdating j p c hj),
    fun j p c hj => h.crediting j p c (hCrediting j p c hj),
    fun j p c hj => h.notYet j p c (hUpdating j p c hj),
    fun i j p q c d hi hj => h.alone i j p q c d (hUpdating i p c hi) (hUpdating j q d hj)⟩

/-- The first callback that finds the order pending. -/
theorem Copies.take (h : Copies tradeNo t s) (hNone : NoneUpdating s)
    (hOrder : ¬ Completed tradeNo s.db) {c : TopUp} (hKey : c.tradeNo = tradeNo)
    (hSame : c.SameOrder t) (hStatus : c.status = .success) :
    Copies tradeNo t (s.setCallback k (.updating process c)) := by
  have hOnly : ∀ j p d, (s.setCallback k (.updating process c)).callbacks j = .updating p d →
      j = k ∧ d = c := by
    intro j p d hj
    rcases setCallback_cases hj with ⟨hjk, hNew⟩ | ⟨-, hOld⟩
    · cases hNew
      exact ⟨hjk, rfl⟩
    · exact absurd hOld (hNone j p d)
  constructor
  · intro j p d hj
    rw [(hOnly j p d hj).2]
    exact ⟨hKey, hSame, hStatus⟩
  · intro j p d hj
    rcases setCallback_cases hj with ⟨-, hNew⟩ | ⟨-, hOld⟩
    · cases hNew
    · exact h.crediting j p d hOld
  · intro j p d hj
    exact hOrder
  · intro i j p q d e hi hj
    exact (hOnly i p d hi).1.trans (hOnly j q e hj).1.symm

/-- The callback that writes the order leaves no copy to write. -/
theorem Copies.write (h : Copies tradeNo t s) {c : TopUp}
    (hk : s.callbacks k = .updating process c) (db : Db) :
    Copies tradeNo t { s.setCallback k (.crediting process c) with db := db } := by
  have hNone : ∀ j p d, (s.setCallback k (.crediting process c)).callbacks j ≠ .updating p d := by
    intro j p d hj
    rcases setCallback_cases hj with ⟨-, hNew⟩ | ⟨hjk, hOld⟩
    · cases hNew
    · exact hjk (h.alone j k p process d c hOld hk)
  constructor
  · intro j p d hj
    exact absurd hj (hNone j p d)
  · intro j p d hj
    rcases setCallback_cases hj with ⟨-, hNew⟩ | ⟨-, hOld⟩
    · cases hNew
      exact (h.updating k process c hk).2.1
    · exact h.crediting j p d hOld
  · intro j p d hj
    exact absurd hj (hNone j p d)
  · intro i j p q d e hi
    exact absurd hi (hNone i p d)

theorem Copies.ofNone (h : Copies tradeNo t s) (hNone : NoneUpdating s) (db : Db)
    (credits : List Credit) : Copies tradeNo t { s with db := db, credits := credits } where
  updating j p c hj := absurd hj (hNone j p c)
  crediting := h.crediting
  notYet j p c hj := absurd hj (hNone j p c)
  alone i _ p _ c _ hi := absurd hi (hNone i p c)

end

/-! ## The credits as a ledger -/

def Callback.owes : Callback → Option Unit
  | .crediting _ _ => some ()
  | _ => none

def ledger (tradeNo : String) (s : State) : Ledger Nat Unit where
  due _ := Completed tradeNo s.db
  owes k := (s.callbacks k).owes
  paid _ := s.credits.length

theorem owes_setCallback (s : State) (k : Nat) (x : Callback) :
    (fun j => ((s.setCallback k x).callbacks j).owes) =
      update (fun j => (s.callbacks j).owes) k x.owes :=
  Function.comp_update Callback.owes s.callbacks k x

theorem owes_setCallback_same {s : State} {k : Nat} {x : Callback}
    (h : x.owes = (s.callbacks k).owes) :
    (fun j => ((s.setCallback k x).callbacks j).owes) = fun j => (s.callbacks j).owes := by
  rw [owes_setCallback, h, Function.update_eq_self]

/-- What holds of an order `t` that was pending when the quotas were those in `quotas`. -/
structure Inv (tradeNo : String) (t : TopUp) (quotas : Int → ℚ) (s : State) : Prop where
  locks : Locks s
  copies : Copies tradeNo t s
  order : ∃ u, s.db.orders.find? tradeNo = some u ∧ u.SameOrder t
  once : (ledger tradeNo s).Once
  covered : (ledger tradeNo s).Covered
  owner : ∀ x ∈ s.credits, x.userId = t.userId
  quotas : ∀ userId, s.db.quota userId = quotas userId + creditedTo s.credits userId

section

variable {tradeNo : String} {t : TopUp} {quotas : Int → ℚ} {s : State} {k process : Nat}
  {x : Callback}

theorem Inv.quiet (h : Inv tradeNo t quotas s) {locks : Nat → Bool}
    (hLocks : Locks { s.setCallback k x with locks := locks })
    (hCopies : Copies tradeNo t (s.setCallback k x)) (hOwes : x.owes = (s.callbacks k).owes) :
    Inv tradeNo t quotas { s.setCallback k x with locks := locks } := by
  have hStep : Ledger.ExactStep (ledger tradeNo s)
      (ledger tradeNo { s.setCallback k x with locks := locks }) :=
    .quiet (fun _ => Iff.rfl) (owes_setCallback_same hOwes) rfl
  exact ⟨hLocks, ⟨hCopies.updating, hCopies.crediting, hCopies.notYet, hCopies.alone⟩, h.order,
    h.once.exactStep hStep, h.covered.exactStep hStep, h.owner, h.quotas⟩

theorem Inv.write (h : Inv tradeNo t quotas s) {c : TopUp}
    (hk : s.callbacks k = .updating process c) :
    Inv tradeNo t quotas
      { s.setCallback k (.crediting process c) with db := s.db.saveTopUp c } := by
  obtain ⟨hKey, hSame, hStatus⟩ := h.copies.updating k process c hk
  obtain ⟨u, hFind, -⟩ := h.order
  have hSaved : (s.db.saveTopUp c).orders.find? tradeNo = some c :=
    Table.find?_save_self hKey hFind
  have hLocks : Locks (s.setCallback k (.crediting process c)) := by
    apply h.locks.setCallback
    rw [hk]
    rfl
  have hStep : Ledger.ExactStep (ledger tradeNo s) (ledger tradeNo
      { s.setCallback k (.crediting process c) with db := s.db.saveTopUp c }) := by
    refine .win k () ?_ (h.copies.notYet k process c hk) ?_ (owes_setCallback s k _) rfl
    · intro j
      exact ⟨fun _ => Or.inr rfl, fun _ => ⟨c, hSaved, hStatus⟩⟩
    · show (s.callbacks k).owes = none
      rw [hk]
      rfl
  exact ⟨⟨hLocks.held, hLocks.unique⟩, h.copies.write hk _, ⟨c, hSaved, hSame⟩,
    h.once.exactStep hStep, h.covered.exactStep hStep, h.owner, h.quotas⟩

theorem Inv.owner_cons (h : Inv tradeNo t quotas s) {userId : Int} {amount : ℚ}
    (hUser : userId = t.userId) :
    ∀ x ∈ (some (⟨userId, amount⟩ : Credit)).toList ++ s.credits, x.userId = t.userId := by
  intro x hx
  rcases List.mem_cons.mp hx with hNew | hOld
  · rw [hNew]
    exact hUser
  · exact h.owner x hOld

theorem Inv.credit (h : Inv tradeNo t quotas s) {c : TopUp}
    (hk : s.callbacks k = .crediting process c) {amount : ℚ}
    (hCredit : s.db.credited c.userId amount = some ⟨c.userId, amount⟩) :
    Inv tradeNo t quotas { s.release k process with
      db := s.db.updateUser c.userId fun u => { u with quota := u.quota + amount }
      credits := (s.db.credited c.userId amount).toList ++ s.credits } := by
  have hLocks : Locks (s.release k process) := by
    apply h.locks.release
    rw [hk]
    rfl
  have hCopies : Copies tradeNo t (s.setCallback k .idle) := h.copies.drop rfl
  have hStep : Ledger.ExactStep (ledger tradeNo s) (ledger tradeNo { s.release k process with
      db := s.db.updateUser c.userId fun u => { u with quota := u.quota + amount }
      credits := (s.db.credited c.userId amount).toList ++ s.credits }) := by
    refine .pay k () (fun _ => Iff.rfl) ?_ (owes_setCallback s k .idle) ?_
    · show (s.callbacks k).owes = some ()
      rw [hk]
      rfl
    · funext j
      simp [ledger, hCredit]
  refine ⟨⟨hLocks.held, hLocks.unique⟩,
    ⟨hCopies.updating, hCopies.crediting, hCopies.notYet, hCopies.alone⟩, h.order,
    h.once.exactStep hStep, h.covered.exactStep hStep, ?_, ?_⟩
  · rw [hCredit]
    exact h.owner_cons (h.copies.crediting k process c hk).userId
  · intro userId
    exact quotas_credited (f := fun u => { u with quota := u.quota + amount }) h.quotas
      (fun _ => rfl) userId

theorem Inv.manual (h : Inv tradeNo t quotas s) (hNone : NoneUpdating s) {u : TopUp}
    (hFind : s.db.orders.find? tradeNo = some u) (hPending : u.status = .pending) {m : Completion}
    (hCredit : s.db.credited u.userId (m.quota u) = some ⟨u.userId, m.quota u⟩) (now : Int) :
    Inv tradeNo t quotas
      { s with
        db := s.db.complete m now u
        credits := (s.db.credited u.userId (m.quota u)).toList ++ s.credits } := by
  obtain ⟨u', hFind', hSame⟩ := h.order
  rw [hFind] at hFind'
  cases hFind'
  have hKey : u.tradeNo = tradeNo := Table.key_of_find? hFind
  have hSaved : (s.db.complete m now u).orders.find? tradeNo = some (u.complete now) :=
    Table.find?_save_self hKey hFind
  have hOpen : ¬ Completed tradeNo s.db := not_completed_of_pending hFind hPending
  have hStep : Ledger.ExactStep (ledger tradeNo s) (ledger tradeNo
      { s with
        db := s.db.complete m now u
        credits := (s.db.credited u.userId (m.quota u)).toList ++ s.credits }) := by
    refine .settle () ?_ hOpen rfl ?_
    · intro j
      exact ⟨fun _ => Or.inr rfl, fun _ => ⟨u.complete now, hSaved, rfl⟩⟩
    · funext j
      simp [ledger, hCredit]
  refine ⟨⟨h.locks.held, h.locks.unique⟩, h.copies.ofNone hNone _ _,
    ⟨u.complete now, hSaved, ⟨hSame.userId, hSame.amount, hSame.money, hSame.provider⟩⟩,
    h.once.exactStep hStep, h.covered.exactStep hStep, ?_, ?_⟩
  · rw [hCredit]
    exact h.owner_cons hSame.userId
  · exact quotas_completed h.quotas m now u

end

/-! ## Callbacks that stay apart -/

def NoneOutside (s : State) (process : Nat) : Prop :=
  ∀ k p c, s.callbacks k = .updating p c → p = process

/-- The condition on an action: while the order is pending, it is read or completed by hand only
when no callback of another process is about to write it; a quota that a callback is to add is not
negative and can be added; and the user to whom a quota is to be added has a row. -/
def Apart (quotaPerUnit : ℚ) (tradeNo : String) (s : State) : Action → Prop
  | .read k _ _ => ∀ process, s.callbacks k = .locked process →
      ∀ u ∈ s.db.orders.find? tradeNo, u.status = .pending → NoneOutside s process
  | .credit k o => ∀ process c, s.callbacks k = .crediting process c →
      o = none ∧ 0 ≤ amountQuota quotaPerUnit c ∧ (s.db.users c.userId).isSome = true
  | .manual process _ _ => s.locks process = false →
      ∀ u ∈ s.db.orders.find? tradeNo, u.status = .pending →
        NoneOutside s process ∧ (s.db.users u.userId).isSome = true
  | _ => True

section

variable {quotaPerUnit : ℚ} {tradeNo : String} {t : TopUp} {quotas : Int → ℚ} {s : State}

theorem foundPending_some {actualType : String} {o : Option Err} {db : Db} {c : TopUp}
    (h : foundPending tradeNo actualType o db = some c) :
    ∃ u, db.orders.find? tradeNo = some u ∧ u.status = .pending ∧
      c = { u with paymentMethod := actualType, status := .success } := by
  unfold foundPending at h
  split at h
  · rename_i u hFind
    split at h
    · rename_i hOpen
      cases h
      exact ⟨u, hFind, hOpen.2, rfl⟩
    · cases h
  · cases h

/-- The lock keeps out the callbacks of the same process, the condition those of the others. -/
theorem noneUpdating_of_locked (h : Locks s) {k process : Nat}
    (hk : s.callbacks k = .locked process) (hOutside : NoneOutside s process) :
    NoneUpdating s := by
  intro j p c hj
  have hp : p = process := hOutside j p c hj
  subst hp
  have hjk : j = k := by
    apply h.unique j k p
    · rw [hj]
      rfl
    · rw [hk]
      rfl
  rw [hjk, hk] at hj
  cases hj

theorem noneUpdating_of_free (h : Locks s) {process : Nat} (hFree : s.locks process = false)
    (hOutside : NoneOutside s process) : NoneUpdating s := by
  intro j p c hj
  have hp : p = process := hOutside j p c hj
  subst hp
  have hHeld : s.locks p = true := by
    apply h.held j p
    rw [hj]
    rfl
  rw [hFree] at hHeld
  cases hHeld

theorem Inv.found (h : Inv tradeNo t quotas s) {k process : Nat}
    (hk : s.callbacks k = .locked process) {actualType : String} {o : Option Err} {c : TopUp}
    (hFound : foundPending tradeNo actualType o s.db = some c)
    (hOutside : ∀ u ∈ s.db.orders.find? tradeNo, u.status = .pending → NoneOutside s process) :
    Inv tradeNo t quotas (s.setCallback k (.updating process c)) := by
  obtain ⟨u, hFind, hPending, rfl⟩ := foundPending_some hFound
  obtain ⟨u', hFind', hSame⟩ := h.order
  rw [hFind] at hFind'
  cases hFind'
  have hKey : u.tradeNo = tradeNo := Table.key_of_find? hFind
  have hNone : NoneUpdating s :=
    noneUpdating_of_locked h.locks hk (hOutside u hFind hPending)
  have hOpen : ¬ Completed tradeNo s.db := not_completed_of_pending hFind hPending
  have hLocks := h.locks.setCallback (k := k)
    (x := .updating process { u with paymentMethod := actualType, status := .success })
    (by rw [hk]; rfl)
  refine h.quiet hLocks ?_ ?_
  · exact h.copies.take hNone hOpen hKey
      ⟨hSame.userId, hSame.amount, hSame.money, hSame.provider⟩ rfl
  · rw [hk]
    rfl

theorem Inv.leave (h : Inv tradeNo t quotas s) {k process : Nat}
    (hk : (s.callbacks k).process = some process) (hOwes : (s.callbacks k).owes = none) :
    Inv tradeNo t quotas (s.release k process) :=
  h.quiet (h.locks.release hk) (h.copies.drop rfl) hOwes.symm

theorem Inv.step (h : Inv tradeNo t quotas s) {a : Action} (ha : Apart quotaPerUnit tradeNo s a) :
    Inv tradeNo t quotas (Epay.step quotaPerUnit tradeNo s a) := by
  cases a with
  | lock k process =>
    simp only [Epay.step]
    split
    · rename_i hk
      split
      · exact h
      · rename_i hFree
        refine h.quiet (h.locks.acquire (Bool.eq_false_iff.mpr hFree)) (h.copies.drop rfl) ?_
        rw [hk]
        rfl
    · exact h
  | read k actualType o =>
    simp only [Epay.step]
    split
    · rename_i process hk
      split
      · rename_i c hFound
        exact h.found hk hFound (ha process hk)
      · exact h.leave (by rw [hk]; rfl) (by rw [hk]; rfl)
    · exact h
  | save k o =>
    simp only [Epay.step]
    split
    · rename_i process c hk
      split
      · exact h.write hk
      · exact h.leave (by rw [hk]; rfl) (by rw [hk]; rfl)
    · exact h
  | credit k o =>
    simp only [Epay.step]
    split
    · rename_i process c hk
      obtain ⟨hGood, hQuota, hUser⟩ := ha process c hk
      rw [if_neg (by rw [not_or, not_lt, not_not]; exact ⟨hQuota, hGood⟩)]
      exact h.credit hk (Db.credited_of_isSome hUser _)
    · exact h
  | manual process now o =>
    simp only [Epay.step]
    split
    · exact h
    · rename_i hFree
      have hUnlocked : s.locks process = false := Bool.eq_false_iff.mpr hFree
      split
      · rename_i credit db hManual
        rcases completeTx_ok (manualCompleteTopUp_ok hManual) with ⟨hNone, hDb⟩ |
          ⟨u, hFind, hPending, -, -, hCredit, hDb⟩
        · rw [hNone, hDb]
          exact h
        · rw [hCredit, hDb]
          obtain ⟨hOutside, hUser⟩ := ha hUnlocked u hFind hPending
          exact h.manual (noneUpdating_of_free h.locks hUnlocked hOutside) hFind hPending
            (Db.credited_of_isSome hUser _) now
      · exact h

end

/-! ## Credited exactly once -/

/-- The order is pending, no callback has come, and nothing has been added to quotas. -/
structure Initial (tradeNo : String) (t : TopUp) (s : State) : Prop where
  order : s.db.orders.find? tradeNo = some t
  pending : t.status = .pending
  idle : ∀ k, s.callbacks k = .idle
  fresh : s.credits = []

theorem Initial.inv {tradeNo : String} {t : TopUp} {s : State} (h : Initial tradeNo t s) :
    Inv tradeNo t s.db.quota s := by
  have hOwes : ∀ k, (ledger tradeNo s).owes k = none := by
    intro k
    show (s.callbacks k).owes = none
    rw [h.idle k]
    rfl
  have hOpen : ¬ Completed tradeNo s.db := not_completed_of_pending h.order h.pending
  constructor
  · constructor
    · intro k p hk
      rw [h.idle k] at hk
      cases hk
    · intro j k p hj
      rw [h.idle j] at hj
      cases hj
  · constructor
    · intro k p c hk
      rw [h.idle k] at hk
      cases hk
    · intro k p c hk
      rw [h.idle k] at hk
      cases hk
    · intro k p c hk
      exact hOpen
    · intro j k p q c d hj
      rw [h.idle j] at hj
      cases hj
  · exact ⟨t, h.order, ⟨rfl, rfl, rfl, rfl⟩⟩
  · refine Ledger.Once.initial hOwes ?_
    intro k
    show s.credits.length = 0
    rw [h.fresh]
    rfl
  · intro k hDue
    exact absurd hDue hOpen
  · intro x hx
    rw [h.fresh] at hx
    cases hx
  · intro userId
    simp [h.fresh, creditedTo]

/-- In every run whose actions all meet the condition: the order is credited at most once, to its
owner, no other quota changes, and when all callbacks have returned the order is completed exactly
when it has been credited. -/
theorem epay_credited_exactly_once (quotaPerUnit : ℚ) {tradeNo : String} {t : TopUp} {s : State}
    (hs : Initial tradeNo t s) {l : List Action}
    (hl : Guarded (step quotaPerUnit tradeNo) (Apart quotaPerUnit tradeNo) s l) :
    let s' := run (step quotaPerUnit tradeNo) s l
    s'.credits.length ≤ 1 ∧ (∀ x ∈ s'.credits, x.userId = t.userId) ∧
      (∀ userId, s'.db.quota userId = s.db.quota userId + creditedTo s'.credits userId) ∧
      ((∀ k, s'.callbacks k = .idle) → (Completed tradeNo s'.db ↔ s'.credits.length = 1)) := by
  intro s'
  have hInv : Inv tradeNo t s.db.quota s' :=
    Guarded.invariant (I := Inv tradeNo t s.db.quota) (fun _ _ h ha => h.step ha) hs.inv hl
  refine ⟨hInv.once.le_one (), hInv.owner, hInv.quotas, ?_⟩
  intro hIdle
  apply Ledger.due_iff_paid hInv.once hInv.covered
  intro k hk
  have hOwes : (s'.callbacks k).owes = some () := hk
  rw [hIdle k] at hOwes
  cases hOwes

def sampleState : State := ⟨sampleDb .epay, fun _ => false, fun _ => .idle, []⟩

def oneAfterAnother : List Action :=
  [.lock 0 0, .read 0 "alipay" none, .save 0 none, .credit 0 none, .manual 1 7 .good]

theorem oneAfterAnother_apart :
    Guarded (step 500000 "T1") (Apart 500000 "T1") sampleState oneAfterAnother := by
  refine ⟨trivial, ?_, trivial, ?_, ?_, trivial⟩
  · intro process _ u _ _ k p c hk
    rcases setCallback_cases hk with ⟨-, hNew⟩ | ⟨-, hOld⟩
    · cases hNew
    · cases hOld
  · intro process c hk
    cases hk
    exact ⟨rfl, by decide +kernel, rfl⟩
  · intro _ u hu hPending
    have hFind : (run (step 500000 "T1") sampleState (oneAfterAnother.take 4)).db.orders.find? "T1" =
        some { sampleOrder .epay with paymentMethod := "alipay", status := .success } := by
      decide +kernel
    cases hFind.symm.trans hu
    cases hPending

theorem oneAfterAnother_credited_once :
    let s := run (step 500000 "T1") sampleState oneAfterAnother
    s.credits.length ≤ 1 ∧ s.db.quota 1 = 5000000 := by
  intro s
  have hInitial : Initial "T1" (sampleOrder .epay) sampleState :=
    ⟨by decide, rfl, fun _ => rfl, rfl⟩
  exact ⟨(epay_credited_exactly_once 500000 hInitial oneAfterAnother_apart).1, by decide +kernel⟩

/-- Two processes that have both found the order pending both credit it; and an order whose quota
cannot be added, or whose owner has been deleted, stays completed without it. -/
theorem two_processes_credit_twice :
    let l : List Action := [.lock 0 0, .lock 1 1, .read 0 "alipay" none, .read 1 "alipay" none,
      .save 0 none, .save 1 none, .credit 0 none, .credit 1 none]
    let m : List Action := [.lock 0 0, .read 0 "alipay" none, .save 0 none,
      .credit 0 (some (.msg "connection lost"))]
    let m' : List Action := [.lock 0 0, .read 0 "alipay" none, .save 0 none, .credit 0 none]
    let deleted : State := { sampleState with db := { sampleDb .epay with users := fun _ => none } }
    let done : TopUp := { sampleOrder .epay with paymentMethod := "alipay", status := .success }
    (run (step 500000 "T1") sampleState l).db.quota 1 = 10000000 ∧
      (run (step 500000 "T1") sampleState m).db.orders.find? "T1" = some done ∧
      (run (step 500000 "T1") sampleState m).db.quota 1 = 0 ∧
      (run (step 500000 "T1") deleted m').db.orders.find? "T1" = some done ∧
      (run (step 500000 "T1") deleted m').credits = [] := by
  decide +kernel

end Qapi.Wallet.Epay
