import Qapi.Core.Transactions
import Qapi.Subscription.Consume

/-!
# Concurrent pre-consumes of one request

Several connections run `PreConsumeUserSubscription` for the same request id, statement by
statement, at read-committed isolation. The candidates are read with row locks, and the
unique index on the request id makes an insert wait for another one that is not committed.
A conflicting insert is an error of the statement only: the code then reads the record that
is in its way. The request is also noticed by a plain read at the start.

Other requests may do anything to the rows in between, and may refund the request; they do
not insert or delete its record.
-/

namespace Qapi.DuplicateConsume

open Qapi.Core Subscription Function Option

/-- One call, with what it reads from outside the tables and which of its statements fail. -/
structure Call where
  env : Env
  o : Subscription.Outcome
  requestId : String
  userId : Int
  amount : Int

/-- The statement that a call executes next. -/
inductive Stage
  | findRecord
  | findSub (existing : PreConsumeRecord)
  | listSubs
  | createRecord (sub : UserSubscription)
  | findDuplicate (sub : UserSubscription) (err : Option Err)
  | commit (r : PreConsumeResult)

/-- What a transaction has written: the rows that it has reset, and the row that it has charged
with the record of the request. -/
structure Writes where
  resets : List UserSubscription
  charge : Option (UserSubscription × PreConsumeRecord)

inductive Phase
  | running (c : Call) (stage : Stage)
  | done (c : Call) (r : PreConsumeResult) (w : Writes)
  | failed (c : Call) (e : Err)

inductive Lock
  | sub (id : Int)
  | request (id : String)
deriving DecidableEq, Repr

/-- The candidate loop up to the row that covers the amount: the rows saved by lazy resets, and
the row. -/
def chooseSub (env : Env) (o : Subscription.Outcome) (amount : Int) :
    List UserSubscription → Except Err (List UserSubscription × UserSubscription)
  | [] => .error (.msg ("subscription quota insufficient, need=" ++ toString amount))
  | candidate :: rest => do
    let plan ← getSubscriptionPlanByIdTx env o candidate.planId
    let d ← dueReset env plan candidate
    let saved ← match d with
      | .keep => pure []
      | d => do
        stmt o (.saveReset candidate.id)
        pure [d.row candidate]
    if covers (d.row candidate) amount then pure (saved, d.row candidate)
    else do
      let (resets, sub) ← chooseSub env o amount rest
      pure (saved ++ resets, sub)

/-- The next statement of a call, with the checks that follow it. -/
def statement (c : Call) (db : Db) : Stage → Writes → Except Err (Stage × Writes)
  | .findRecord, w => do
    failIf (c.userId ≤ 0) (.msg "invalid userId")
    failIf (trimSpace c.requestId = "") (.msg "requestId is empty")
    failIf (c.amount ≤ 0) (.msg "amount must be > 0")
    stmt c.o .findRecord
    match db.records.find? c.requestId with
    | some existing =>
      failIf (existing.status = .refunded) alreadyRefunded
      pure (.findSub existing, w)
    | none => pure (.listSubs, w)
  | .findSub existing, w => do
    stmt c.o .findSub
    let sub ← found (db.subs.find? existing.userSubscriptionId)
    pure (.commit (.repeated sub existing.preConsumed), w)
  | .listSubs, w => do
    failIf ((c.o .listSubs).isSome) (.msg "no active subscription")
    failIf ((activeSubs c.env.now c.userId db).isEmpty) (.msg "no active subscription")
    let (resets, sub) ← chooseSub c.env c.o c.amount (activeSubs c.env.now c.userId db)
    pure (.createRecord sub, { w with resets := resets })
  | .createRecord sub, w =>
    match c.o .createRecord, db.records.find? c.requestId with
    | none, none => do
      stmt c.o .saveSub
      pure (.commit ⟨sub.id, c.amount, sub.amountTotal, sub.amountUsed,
          (charged sub c.amount).amountUsed⟩,
        { w with charge := some (charged sub c.amount,
          ⟨c.requestId, c.userId, sub.id, c.amount, .consumed⟩) })
    | err, _ => pure (.findDuplicate sub err, w)
  | .findDuplicate sub err, w =>
    match c.o .findDuplicate, db.records.find? c.requestId with
    | none, some dup => do
      failIf (dup.status = .refunded) alreadyRefunded
      pure (.commit (.repeated sub dup.preConsumed), w)
    | _, _ => .error (err.getD (.msg "UNIQUE constraint failed"))
  | .commit r, w => pure (.commit r, w)

def exec (_ : Unit) (db : Db) : Phase → Writes → Core.Outcome Phase Writes
  | .running c (.commit r), w =>
    match c.o .commit with
    | some e => .rollback (.failed c e)
    | none => .commit (.done c r w)
  | .running c stage, w =>
    match statement c db stage w with
    | .ok (stage, w) => .next (.running c stage) w
    | .error e => .rollback (.failed c e)
  | p, w => .next p w

def commit (db : Db) (w : Writes) : Db :=
  let db := w.resets.foldl Db.saveSub db
  match w.charge with
  | none => db
  | some (row, record) =>
    match db.records.create record with
    | some records => { db with records := records }.saveSub row
    | none => db

/-- The locks of the next statement: the candidates are read for update, and an insert locks its
entry of the unique index. -/
def locks (db : Db) : Phase → List Lock
  | .running c .listSubs => (activeSubs c.env.now c.userId db).map fun s => .sub s.id
  | .running c (.createRecord _) => [.request c.requestId]
  | _ => []

def preConsume : TxProgram Db Phase Lock Writes Unit where
  locks := locks
  exec := exec
  noWrites := ⟨[], none⟩
  apply := commit

/-- Without other connections the loop and the insert are those of the sequential model. -/
theorem chargeFirst_eq (env : Env) (o : Subscription.Outcome) (requestId : String)
    (userId amount : Int) (l : List UserSubscription) (db : Db) :
    chargeFirst env o requestId userId amount l db = (chooseSub env o amount l).bind fun x =>
      chargeSub o requestId userId amount x.2 (x.1.foldl Db.saveSub db) := by
  induction l generalizing db with
  | nil => rfl
  | cons s l ih =>
    simp only [chargeFirst, chooseSub, maybeResetUserSubscriptionWithPlanTx, bind, Except.bind]
    cases getSubscriptionPlanByIdTx env o s.planId with
    | error e => rfl
    | ok plan =>
      dsimp only
      cases dueReset env plan s with
      | error e => rfl
      | ok d =>
        -- what is left of the loop, after the rows that it has saved
        have hRest : ∀ saved, (if covers (d.row s) amount then
            chargeSub o requestId userId amount (d.row s) (saved.foldl Db.saveSub db)
            else chargeFirst env o requestId userId amount l (saved.foldl Db.saveSub db)) =
            (if covers (d.row s) amount then (pure (saved, d.row s) : Except Err _)
              else (chooseSub env o amount l).bind fun x => pure (saved ++ x.1, x.2)).bind fun x =>
                chargeSub o requestId userId amount x.2 (x.1.foldl Db.saveSub db) := by
          intro saved
          split
          · rfl
          · rw [ih]
            cases chooseSub env o amount l with
            | error e => rfl
            | ok x => simp [Except.bind, pure, Except.pure]
        cases d with
        | keep => exact hRest []
        | schedule last next | reset last next =>
          cases stmt o (.saveReset s.id) with
          | error e => rfl
          | ok u => exact hRest [_]

/-! ## Interleavings -/

variable {T : Type*} [DecidableEq T]

/-- A statement of one of the calls, or what other requests have committed. -/
inductive Act (T : Type*)
  | call (t : T)
  | others (db : Db)

def step (s : TxSystem T Db Phase Lock Writes) : Act T → TxSystem T Db Phase Lock Writes
  | .call t => preConsume.step s (t, ())
  | .others db => { s with db := db }

def start (db : Db) (call : T → Call) : TxSystem T Db Phase Lock Writes :=
  ⟨db, fun _ => none, fun t => .running (call t) .findRecord, fun _ => ⟨[], none⟩⟩

/-- Other requests leave the record of this one alone, but for its status. -/
def Foreign (id : String) (s : TxSystem T Db Phase Lock Writes) : Act T → Prop
  | .call _ => True
  | .others db => (db.records.find? id).map (fun r => { r with status := .consumed }) =
      (s.db.records.find? id).map fun r => { r with status := .consumed }

/-- A call whose insert has failed on the record of the request has chosen the row of the record,
and has reset no row on its way. -/
def SameChoice (s : TxSystem T Db Phase Lock Writes) : Act T → Prop
  | .call t =>
    match s.phase t with
    | .running c (.findDuplicate sub _) => ∀ dup ∈ s.db.records.find? c.requestId,
      dup.userSubscriptionId = sub.id ∧ (s.writes t).resets = []
    | _ => True
  | .others _ => True

def Charged (s : TxSystem T Db Phase Lock Writes) (t : T) : Prop :=
  ∃ c r w, s.phase t = .done c r w ∧ w.charge.isSome

/-- The stored record of the request is for the row and the amount. -/
def Stored (id : String) (db : Db) (subId preConsumed : Int) : Prop :=
  ∃ record, db.records.find? id = some record ∧ record.userSubscriptionId = subId ∧
    record.preConsumed = preConsumed

/-- What holds of a call: it has written nothing and its result is that of the stored record, or
it has charged a row and holds the lock of the request, which has no record yet. -/
def CallState (id : String) (db : Db) (owns : Lock → Prop) : Phase → Writes → Prop
  | .running c stage, w => c.requestId = id ∧
    match stage with
    | .findSub r => w = ⟨[], none⟩ ∧ Stored id db r.userSubscriptionId r.preConsumed
    | .createRecord _ | .findDuplicate _ _ => w.charge = none
    | .commit r =>
      (w = ⟨[], none⟩ ∧ Stored id db r.userSubscriptionId r.preConsumed) ∨
        (owns (.request id) ∧ db.records.find? id = none ∧ ∃ row, w.charge =
          some (row, ⟨id, c.userId, r.userSubscriptionId, r.preConsumed, .consumed⟩))
    | _ => w = ⟨[], none⟩
  | .done _ r w, _ => Stored id db r.userSubscriptionId r.preConsumed ∧
    (w = ⟨[], none⟩ ∨ w.charge.isSome)
  | .failed _ _, _ => True

/-- Every call is in such a state, and a record of the request comes from one call that has
charged a row. -/
structure Consistent (id : String) (s : TxSystem T Db Phase Lock Writes) : Prop where
  calls : ∀ t, TxProgram.At (CallState id) s t
  unique : ∀ t u, Charged s t → Charged s u → t = u
  charged : (s.db.records.find? id).isSome → ∃ t, Charged s t

section

variable {id : String} {s : TxSystem T Db Phase Lock Writes} {db db' : Db}
  {owns owns' : Lock → Prop} {c : Call} {w w' : Writes} {stage stage' : Stage} {p : Phase}

theorem records_resets (l : List UserSubscription) (db : Db) :
    (l.foldl Db.saveSub db).records = db.records := by
  induction l generalizing db with
  | nil => rfl
  | cons s l ih => rw [List.foldl_cons, ih, Db.saveSub_records]

theorem find?_commit {row : UserSubscription} {record : PreConsumeRecord}
    (h : w.charge = some (row, record)) (hNone : db.records.find? record.requestId = none) :
    (commit db w).records.find? record.requestId = some record := by
  obtain ⟨records, hCreate, -⟩ := Table.create_of_fresh hNone
  simp only [commit, h, records_resets, hCreate, Db.saveSub_records]
  exact Table.find?_create_self hCreate

/-- What a call relies on: the record of the request keeps its row and amount. -/
theorem CallState.of_stored (h : CallState id db owns p w)
    (hStored : ∀ subId amount, Stored id db subId amount → Stored id db' subId amount)
    (hNone : owns (.request id) → db.records.find? id = none →
      owns' (.request id) ∧ db'.records.find? id = none) : CallState id db' owns' p w := by
  cases p with
  | running c stage =>
    cases stage with
    | findSub r => exact ⟨h.1, h.2.1, hStored _ _ h.2.2⟩
    | commit r =>
      refine ⟨h.1, h.2.imp (fun h => ⟨h.1, hStored _ _ h.2⟩) ?_⟩
      rintro ⟨hOwns, hFresh, hCharge⟩
      obtain ⟨hOwns', hFresh'⟩ := hNone hOwns hFresh
      exact ⟨hOwns', hFresh', hCharge⟩
    | _ => exact h
  | done c r w' => exact ⟨hStored _ _ h.1, h.2⟩
  | failed c e => trivial

theorem callState_statement (h : CallState id db owns (.running c stage) w)
    (hChoice : ∀ sub err, stage = .findDuplicate sub err →
      ∀ dup ∈ db.records.find? c.requestId, dup.userSubscriptionId = sub.id ∧ w.resets = [])
    (hMore : ∀ l, owns l → owns' l) (hTaken : ∀ l ∈ locks db (.running c stage), owns' l)
    (hOk : statement c db stage w = .ok (stage', w')) :
    CallState id db owns' (.running c stage') w' := by
  obtain ⟨rfl, h⟩ := h
  refine ⟨rfl, ?_⟩
  cases stage with
  | findRecord =>
    iterate 4 replace hOk := of_seq hOk
    split at hOk
    · rename_i existing hFound
      replace hOk := of_seq hOk
      cases hOk
      exact ⟨h, existing, hFound, rfl, rfl⟩
    · cases hOk
      exact h
  | findSub existing =>
    replace hOk := of_seq hOk
    obtain ⟨sub, hSub, hOk⟩ := of_bind hOk
    cases hOk
    have hId : sub.id = existing.userSubscriptionId := Table.key_of_find? (found_eq_ok.mp hSub)
    refine Or.inl ⟨h.1, ?_⟩
    rw [PreConsumeResult.repeated, hId]
    exact h.2
  | listSubs =>
    replace hOk := of_seq hOk
    replace hOk := of_seq hOk
    obtain ⟨⟨resets, sub⟩, -, hOk⟩ := of_bind hOk
    cases hOk
    rw [h]
  | createRecord sub =>
    simp only [statement] at hOk
    split at hOk
    · rename_i hFresh
      replace hOk := of_seq hOk
      cases hOk
      exact Or.inr ⟨hTaken _ (List.mem_singleton_self _), hFresh, _, rfl⟩
    · cases hOk
      exact h
  | findDuplicate sub err =>
    simp only [statement] at hOk
    split at hOk
    · rename_i dup _ hDup
      replace hOk := of_seq hOk
      cases hOk
      obtain ⟨hSub, hResets⟩ := hChoice sub err rfl dup hDup
      have hNothing : w = ⟨[], none⟩ := by
        rw [← hResets, ← (h : w.charge = none)]
      exact Or.inl ⟨hNothing, dup, hDup, hSub, rfl⟩
    · cases hOk
  | commit r =>
    cases hOk
    exact h.imp_right fun hCharge => ⟨hMore _ hCharge.1, hCharge.2⟩

theorem exec_eq_next {p' : Phase} (h : exec () db p w = .next p' w') :
    (p' = p ∧ w' = w ∧ ∀ c stage, p ≠ .running c stage) ∨ ∃ c stage stage',
      p = .running c stage ∧ p' = .running c stage' ∧
        statement c db stage w = .ok (stage', w') := by
  unfold exec at h
  split at h
  · split at h <;> cases h
  · rename_i c stage _
    split at h
    · rename_i stage' w' hOk
      cases h
      exact Or.inr ⟨c, stage, stage', rfl, rfl, hOk⟩
    · cases h
  · rename_i hNot
    cases h
    exact Or.inl ⟨rfl, rfl, hNot⟩

theorem exec_eq_rollback {p' : Phase} (h : exec () db p w = .rollback p') :
    ∃ c stage e, p = .running c stage ∧ p' = .failed c e := by
  unfold exec at h
  split at h
  · split at h <;> cases h
    exact ⟨_, _, _, rfl, rfl⟩
  · split at h <;> cases h
    exact ⟨_, _, _, rfl, rfl⟩
  · cases h

theorem exec_eq_commit {p' : Phase} (h : exec () db p w = .commit p') :
    ∃ c r, p = .running c (.commit r) ∧ p' = .done c r w := by
  unfold exec at h
  split at h
  · rename_i c r
    split at h <;> cases h
    exact ⟨c, r, rfl, rfl⟩
  · split at h <;> cases h
  · cases h

theorem Stored.find_ne_none {subId amount : Int} (h : Stored id db subId amount) :
    db.records.find? id ≠ none := by
  obtain ⟨record, hFind, -⟩ := h
  rw [hFind]
  exact some_ne_none record

omit [DecidableEq T] in
theorem Consistent.stored (hs : Consistent id s) {t : T} (h : Charged s t) :
    s.db.records.find? id ≠ none := by
  obtain ⟨c, r, w, hPhase, -⟩ := h
  have hState := hs.calls t
  unfold TxProgram.At at hState
  rw [hPhase] at hState
  exact hState.1.find_ne_none

/-- A step that changes neither whether there is a record nor which calls have charged a row. -/
theorem Consistent.of_phase {t : T} {s' : TxSystem T Db Phase Lock Writes} (hs : Consistent id s)
    (hCalls : ∀ u, TxProgram.At (CallState id) s' u)
    (hRecord : (s'.db.records.find? id).isSome = (s.db.records.find? id).isSome)
    (hOthers : ∀ u, u ≠ t → s'.phase u = s.phase u) (hOwn : Charged s' t ↔ Charged s t) :
    Consistent id s' := by
  have hCharged : ∀ u, Charged s' u ↔ Charged s u := by
    intro u
    by_cases hu : u = t
    · rw [hu, hOwn]
    · unfold Charged
      rw [hOthers u hu]
  refine ⟨hCalls, ?_, ?_⟩
  · intro u v hu hv
    exact hs.unique u v ((hCharged u).mp hu) ((hCharged v).mp hv)
  · intro hSome
    rw [hRecord] at hSome
    obtain ⟨u, hu⟩ := hs.charged hSome
    exact ⟨u, (hCharged u).mpr hu⟩

omit [DecidableEq T] in
theorem not_charged_of_running {t : T} (h : s.phase t = .running c stage) : ¬ Charged s t := by
  rintro ⟨c', r, w, hDone, -⟩
  rw [h] at hDone
  cases hDone

theorem consistent_commit_repeated (hs : Consistent id s) {t : T} {r : PreConsumeResult}
    (hPhase : s.phase t = .running c (.commit r)) (hWrites : s.writes t = ⟨[], none⟩)
    (hStored : Stored id s.db r.userSubscriptionId r.preConsumed)
    (hStep : preConsume.step s (t, ()) = ⟨commit s.db (s.writes t), TxProgram.release s.holder t,
      update s.phase t (.done c r (s.writes t)), update s.writes t ⟨[], none⟩⟩) :
    Consistent id (preConsume.step s (t, ())) := by
  have hRecords : (preConsume.step s (t, ())).db.records = s.db.records := by
    rw [hStep, hWrites]
    rfl
  have hDone : (preConsume.step s (t, ())).phase t = .done c r (s.writes t) := by
    rw [hStep]
    exact update_self ..
  have hKept : ∀ subId amount, Stored id s.db subId amount →
      Stored id (preConsume.step s (t, ())).db subId amount := by
    intro subId amount h
    unfold Stored
    rwa [hRecords]
  refine hs.of_phase (t := t) (TxProgram.at_step hs.calls ?_ ?_) (by rw [hRecords])
    (fun u hu => TxProgram.phase_step_of_ne hu) (iff_of_false ?_ (not_charged_of_running hPhase))
  · unfold TxProgram.At
    rw [hDone]
    exact ⟨hKept _ _ hStored, Or.inl hWrites⟩
  · intro u _ hState
    exact hState.of_stored hKept fun hOwns hNone => ⟨hOwns, hRecords ▸ hNone⟩
  · rintro ⟨c', r', w', h, hSome⟩
    rw [hDone] at h
    cases h
    rw [hWrites] at hSome
    cases hSome

/-- The commit of the call that has charged a row: no other call has seen the request. -/
theorem consistent_commit_charge (hs : Consistent id s) {t : T} {r : PreConsumeResult}
    {row : UserSubscription} (hOwns : s.holder (.request id) = some t)
    (hNone : s.db.records.find? id = none) (hCharge : (s.writes t).charge = some (row,
      ⟨id, c.userId, r.userSubscriptionId, r.preConsumed, .consumed⟩))
    (hStep : preConsume.step s (t, ()) = ⟨commit s.db (s.writes t), TxProgram.release s.holder t,
      update s.phase t (.done c r (s.writes t)), update s.writes t ⟨[], none⟩⟩) :
    Consistent id (preConsume.step s (t, ())) := by
  have hFind : (preConsume.step s (t, ())).db.records.find? id =
      some ⟨id, c.userId, r.userSubscriptionId, r.preConsumed, .consumed⟩ := by
    rw [hStep]
    exact find?_commit hCharge hNone
  have hDone : (preConsume.step s (t, ())).phase t = .done c r (s.writes t) := by
    rw [hStep]
    exact update_self ..
  have hOwn : Charged (preConsume.step s (t, ())) t := ⟨c, r, _, hDone, by rw [hCharge]; rfl⟩
  have hOnly : ∀ u, Charged (preConsume.step s (t, ())) u → u = t := by
    intro u hu
    by_contra hne
    refine hs.stored (t := u) ?_ hNone
    unfold Charged at hu ⊢
    rwa [TxProgram.phase_step_of_ne hne] at hu
  refine ⟨TxProgram.at_step hs.calls ?_ ?_, ?_, fun _ => ⟨t, hOwn⟩⟩
  · unfold TxProgram.At
    rw [hDone]
    exact ⟨⟨_, hFind, rfl, rfl⟩, Or.inr (by rw [hCharge]; rfl)⟩
  · intro u hne hState
    refine hState.of_stored (fun _ _ h => absurd hNone h.find_ne_none) fun hOther _ => ?_
    rw [hOwns] at hOther
    exact absurd (some.inj hOther).symm hne
  · intro u v hu hv
    rw [hOnly u hu, hOnly v hv]

theorem consistent_call (hs : Consistent id s) {t : T} (hChoice : SameChoice s (.call t)) :
    Consistent id (preConsume.step s (t, ())) := by
  have hState := hs.calls t
  unfold TxProgram.At at hState
  rcases preConsume.step_cases s (t, ()) with
    h | ⟨-, ⟨p, w, hExec, h⟩ | ⟨p, hExec, h⟩ | ⟨p, hExec, h⟩⟩
  · rw [h]
    exact hs
  · have hPhase : (preConsume.step s (t, ())).phase t = p := by
      rw [h]
      exact update_self ..
    have hWrites : (preConsume.step s (t, ())).writes t = w := by
      rw [h]
      exact update_self ..
    have hDb : (preConsume.step s (t, ())).db = s.db := by rw [h]
    have hOthers : ∀ u, u ≠ t → TxProgram.At (CallState id) s u →
        CallState id (preConsume.step s (t, ())).db (fun l => s.holder l = some u) (s.phase u)
          (s.writes u) := by
      intro u _ hu
      rw [hDb]
      exact hu
    have hOwn : CallState id s.db (fun l => (preConsume.step s (t, ())).holder l = some t) p w ∧
        (Charged (preConsume.step s (t, ())) t ↔ Charged s t) := by
      rw [h]
      rcases exec_eq_next hExec with ⟨rfl, rfl, -⟩ | ⟨c, stage, stage', hOld, rfl, hOk⟩
      · exact ⟨hState.of_stored (fun _ _ h => h) fun hOwns hNone =>
          ⟨TxProgram.acquire_self hOwns, hNone⟩, by simp [Charged]⟩
      · rw [hOld] at hState
        refine ⟨callState_statement hState ?_ (fun l hOwns => TxProgram.acquire_self hOwns) ?_ hOk,
          iff_of_false (not_charged_of_running (h ▸ hPhase)) (not_charged_of_running hOld)⟩
        · rintro sub err rfl
          simpa only [SameChoice, hOld] using hChoice
        · intro l hl
          rw [← hOld] at hl
          exact TxProgram.acquire_of_mem hl
    refine hs.of_phase (t := t) (TxProgram.at_step hs.calls ?_ hOthers) (by rw [hDb])
      (fun u hu => TxProgram.phase_step_of_ne hu) hOwn.2
    unfold TxProgram.At
    rw [hPhase, hWrites, hDb]
    exact hOwn.1
  · obtain ⟨c, stage, e, hOld, rfl⟩ := exec_eq_rollback hExec
    have hPhase : (preConsume.step s (t, ())).phase t = .failed c e := by
      rw [h]
      exact update_self ..
    refine hs.of_phase (t := t) (TxProgram.at_step hs.calls ?_ ?_) (by rw [h])
      (fun u hu => TxProgram.phase_step_of_ne hu) (iff_of_false ?_ (not_charged_of_running hOld))
    · unfold TxProgram.At
      rw [hPhase]
      trivial
    · intro u _ hu
      rw [h]
      exact hu
    · rintro ⟨c', r, w, hDone, -⟩
      rw [hPhase] at hDone
      cases hDone
  · obtain ⟨c, r, hOld, rfl⟩ := exec_eq_commit hExec
    rw [hOld] at hState
    rcases hState with ⟨-, ⟨hWrites, hStored⟩ | ⟨hOwns, hNone, row, hCharge⟩⟩
    · exact consistent_commit_repeated hs hOld hWrites hStored h
    · exact consistent_commit_charge hs hOwns hNone hCharge h

theorem consistent_others (hs : Consistent id s) {t : T} (hForeign : Foreign id s (.others db)) :
    Consistent id { s with db := db } := by
  have hKept : ∀ subId amount, Stored id s.db subId amount → Stored id db subId amount := by
    rintro subId amount ⟨record, hFind, hSub, hAmount⟩
    simp only [Foreign, hFind, map_some, map_eq_some_iff] at hForeign
    obtain ⟨record', hFind', hSame⟩ := hForeign
    simp only [PreConsumeRecord.mk.injEq] at hSame
    exact ⟨record', hFind', hSame.2.2.1.trans hSub, hSame.2.2.2.1.trans hAmount⟩
  have hSome := congrArg isSome hForeign
  simp only [isSome_map] at hSome
  refine hs.of_phase (t := t) (fun u => (hs.calls u).of_stored hKept ?_) hSome
    (fun _ _ => rfl) Iff.rfl
  intro hOwns hNone
  refine ⟨hOwns, ?_⟩
  rw [hNone] at hSome
  simpa using hSome

omit [DecidableEq T] in
theorem consistent_start {call : T → Call} (hNone : db.records.find? id = none)
    (hCall : ∀ t, (call t).requestId = id) : Consistent id (start db call) := by
  refine ⟨fun t => ⟨hCall t, rfl⟩, ?_, ?_⟩
  · rintro t u ⟨c, r, w, hDone, -⟩
    cases hDone
  · intro hSome
    rw [start, hNone] at hSome
    cases hSome

end

/-- In every interleaving in which each call that meets the record of the request has chosen the
row of the record and reset none, all calls that succeed return this row and the recorded amount,
one call has charged a row, and the others have changed nothing. -/
theorem duplicate_calls_agree {id : String} {db : Db} {call : T → Call} {l : List (Act T)}
    (hNone : db.records.find? id = none) (hCall : ∀ t, (call t).requestId = id)
    (hForeign : Guarded step (Foreign id) (start db call) l)
    (hChoice : Guarded step SameChoice (start db call) l) :
    let s := run step (start db call) l
    ∀ t u c c' r r' w w', s.phase t = .done c r w → s.phase u = .done c' r' w' →
      Stored id s.db r.userSubscriptionId r.preConsumed ∧
      (r'.userSubscriptionId = r.userSubscriptionId ∧ r'.preConsumed = r.preConsumed) ∧
      ∃ v, Charged s v ∧ ∀ v' c r w, s.phase v' = .done c r w → v' = v ∨ w = ⟨[], none⟩ := by
  intro s t u c c' r r' w w' ht hu
  have hs : Consistent id s := by
    refine Guarded.invariant ?_ (consistent_start hNone hCall) (hForeign.and hChoice)
    rintro s (v | db') hs ⟨hForeign, hChoice⟩
    · exact consistent_call hs hChoice
    · exact consistent_others (t := t) hs hForeign
  have hDone : ∀ {t c r w}, s.phase t = .done c r w →
      Stored id s.db r.userSubscriptionId r.preConsumed ∧ (w = ⟨[], none⟩ ∨ w.charge.isSome) := by
    intro t c r w hPhase
    have hState := hs.calls t
    unfold TxProgram.At at hState
    rwa [hPhase] at hState
  obtain ⟨record, hFind, hSub, hAmount⟩ := (hDone ht).1
  obtain ⟨record', hFind', hSub', hAmount'⟩ := (hDone hu).1
  cases hFind.symm.trans hFind'
  obtain ⟨v, hv⟩ := hs.charged (by rw [hFind]; rfl)
  refine ⟨(hDone ht).1, ⟨hSub'.symm.trans hSub, hAmount'.symm.trans hAmount⟩, v, hv, ?_⟩
  intro v' c r w hPhase
  rcases (hDone hPhase).2 with hNothing | hCharged
  · exact Or.inr hNothing
  · exact Or.inl (hs.unique v' v ⟨c, r, w, hPhase, hCharged⟩ hv)

def Phase.result? : Phase → Option PreConsumeResult
  | .done _ r _ => some r
  | _ => none

theorem Phase.result?_eq_some {p : Phase} {r : PreConsumeResult} (h : p.result? = some r) :
    ∃ c w, p = .done c r w := by
  cases p with
  | done c r' w =>
    cases h
    exact ⟨c, w, rfl⟩
  | running => cases h
  | failed => cases h

instance (s : TxSystem T Db Phase Lock Writes) (a : Act T) : Decidable (SameChoice s a) := by
  unfold SameChoice
  split
  · split <;> infer_instance
  · infer_instance

def fixedPlan : Plan :=
  { id := 1
    title := "fixed"
    durationUnit := .month
    durationValue := 1
    customSeconds := 0
    allowWalletOverflow := none
    maxPurchasePerUser := 0
    upgradeGroup := ""
    downgradeGroup := ""
    totalAmount := 100
    quotaResetPeriod := "never"
    quotaResetCustomSeconds := 0 }

def rowOf (id used endTime : Int) : UserSubscription :=
  { id := id
    userId := 1
    planId := 1
    amountTotal := 100
    amountUsed := used
    startTime := 100
    endTime := endTime
    status := .active
    lastResetTime := 0
    nextResetTime := 0
    upgradeGroup := ""
    prevUserGroup := ""
    downgradeGroup := ""
    allowWalletOverflow := true }

def twoRows (used : Int) : Db :=
  ⟨⟨[rowOf 1 used 2000, rowOf 2 0 3000], by simp [rowOf]⟩, .empty, fun _ => "default"⟩

def spendForty : Call :=
  ⟨⟨1000, fixedZone 0, fun _ => some fixedPlan, id⟩, .good, "request", 1, 40⟩

/-- Both calls look for a record; then the first one runs to its end, and the second one follows. -/
def racing : List (Act (Fin 2)) :=
  [.call 0, .call 1, .call 0, .call 0, .call 0, .call 1, .call 1, .call 1, .call 1]

theorem racing_calls_agree :
    let s := run step (start (twoRows 0) fun _ => spendForty) racing
    (s.phase 0).result? = some ⟨1, 40, 100, 0, 40⟩ ∧
      (s.phase 1).result? = some ⟨1, 40, 100, 40, 40⟩ ∧
      ∃ v, Charged s v ∧ ∀ v' c r w, s.phase v' = .done c r w → v' = v ∨ w = ⟨[], none⟩ := by
  intro s
  have hFirst : (s.phase 0).result? = some ⟨1, 40, 100, 0, 40⟩ := by decide
  have hSecond : (s.phase 1).result? = some ⟨1, 40, 100, 40, 40⟩ := by decide
  obtain ⟨c, w, hDone⟩ := Phase.result?_eq_some hFirst
  exact ⟨hFirst, hSecond, (duplicate_calls_agree
    (show (twoRows 0).records.find? "request" = none from rfl) (fun _ => rfl)
    (by simp [racing, Guarded, Foreign]) (by decide) 0 0 c c _ _ w w hDone hDone).2.2⟩

/-- After the first call its row has no room for another 40 units, so that the second call, whose
insert fails, returns the other row with the amount of the record. -/
theorem duplicate_calls_disagree :
    let s := run step (start (twoRows 60) fun _ => spendForty) racing
    (s.phase 0).result? = some ⟨1, 40, 100, 60, 100⟩ ∧
      (s.phase 1).result? = some ⟨2, 40, 100, 0, 0⟩ ∧
      ∃ record, s.db.records.find? "request" = some record ∧ record.userSubscriptionId = 1 := by
  decide

end Qapi.DuplicateConsume
