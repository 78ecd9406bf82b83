import Mathlib.Data.List.Sort
import Qapi.Subscription.Basic

/-!
# Charging and refunding a subscription

`PreConsumeUserSubscription`, `PostConsumeUserSubscriptionDelta` and
`RefundSubscriptionPreConsume`. The first two are one transaction each. The
refund runs its transaction around a call of the second one, which opens a
transaction of its own on the global handle: what that one commits stays
committed when the outer transaction fails.
-/

namespace Qapi.Subscription

open Qapi.Core List Table

/-- `First(&row)`: a missing row is an error. -/
def found {α : Type} : Option α → Except Err α
  | some a => .ok a
  | none => .error recordNotFound

@[simp] theorem found_eq_ok {α : Type} {x : Option α} {a : α} :
    found x = .ok a ↔ x = some a := by
  cases x <;> simp [found]

/-! ## Pre-consuming -/

/-- `SubscriptionPreConsumeResult`. -/
structure PreConsumeResult where
  userSubscriptionId : Int
  preConsumed : Int
  amountTotal : Int
  amountUsedBefore : Int
  amountUsedAfter : Int
deriving DecidableEq, Repr

def PreConsumeResult.repeated (sub : UserSubscription) (preConsumed : Int) : PreConsumeResult :=
  ⟨sub.id, preConsumed, sub.amountTotal, sub.amountUsed, sub.amountUsed⟩

/-- `ORDER BY end_time ASC, id ASC`. -/
def endsBefore (s t : UserSubscription) : Prop :=
  s.endTime < t.endTime ∨ (s.endTime = t.endTime ∧ s.id ≤ t.id)

instance : DecidableRel endsBefore := fun s t =>
  inferInstanceAs (Decidable (s.endTime < t.endTime ∨ (s.endTime = t.endTime ∧ s.id ≤ t.id)))

/-- The rows a user can be charged on: active and not past their end. -/
def chargeable (now userId : Int) (s : UserSubscription) : Bool :=
  s.userId = userId && s.status = .active && s.endTime > now

/-- The candidates of a pre-consume, in the order in which they are tried. -/
def activeSubs (now userId : Int) (db : Db) : List UserSubscription :=
  (db.subs.rows.filter (chargeable now userId)).insertionSort endsBefore

/-- Whether a row has room for the amount; a total of 0 is no limit. -/
def covers (sub : UserSubscription) (amount : Int) : Bool :=
  !(sub.amountTotal > 0 && sub.amountTotal - sub.amountUsed < amount)

def charged (sub : UserSubscription) (amount : Int) : UserSubscription :=
  { sub with amountUsed := sub.amountUsed + amount }

@[simp] theorem charged_id (sub : UserSubscription) (amount : Int) :
    (charged sub amount).id = sub.id := rfl

@[simp] theorem charged_amountTotal (sub : UserSubscription) (amount : Int) :
    (charged sub amount).amountTotal = sub.amountTotal := rfl

@[simp] theorem charged_amountUsed (sub : UserSubscription) (amount : Int) :
    (charged sub amount).amountUsed = sub.amountUsed + amount := rfl

def alreadyRefunded : Err := .msg "subscription pre-consume already refunded"

def chargeSub (o : Outcome) (requestId : String) (userId amount : Int) (sub : UserSubscription)
    (db : Db) : Except Err (PreConsumeResult × Db) :=
  let record : PreConsumeRecord := ⟨requestId, userId, sub.id, amount, .consumed⟩
  match o .createRecord, db.records.create record with
  | none, some records => do
    stmt o .saveSub
    pure (⟨sub.id, amount, sub.amountTotal, sub.amountUsed, (charged sub amount).amountUsed⟩,
      { db with records := records }.saveSub (charged sub amount))
  | failed, _ =>
    -- the insert failed: either another transaction has inserted the record meanwhile, or not
    match o .findDuplicate, db.records.find? requestId with
    | none, some dup =>
      if dup.status = .refunded then .error alreadyRefunded
      else .ok (.repeated sub dup.preConsumed, db)
    | _, _ => .error (failed.getD (.msg "UNIQUE constraint failed"))

def chargeFirst (env : Env) (o : Outcome) (requestId : String) (userId amount : Int) :
    List UserSubscription → Db → Except Err (PreConsumeResult × Db)
  | [], _ => .error (.msg ("subscription quota insufficient, need=" ++ toString amount))
  | candidate :: rest, db => do
    let plan ← getSubscriptionPlanByIdTx env o candidate.planId
    let (sub, db) ← maybeResetUserSubscriptionWithPlanTx env o plan candidate db
    if covers sub amount then chargeSub o requestId userId amount sub db
    else chargeFirst env o requestId userId amount rest db

/-- The body of the transaction of `PreConsumeUserSubscription`. -/
def preConsumeTx (env : Env) (o : Outcome) (requestId : String) (userId amount : Int) (db : Db) :
    Except Err (PreConsumeResult × Db) := do
  stmt o .findRecord
  match db.records.find? requestId with
  | some existing =>
    failIf (existing.status = .refunded) alreadyRefunded
    stmt o .findSub
    let sub ← found (db.subs.find? existing.userSubscriptionId)
    pure (.repeated sub existing.preConsumed, db)
  | none =>
    failIf ((o .listSubs).isSome) (.msg "no active subscription")
    let subs := activeSubs env.now userId db
    failIf (subs.isEmpty) (.msg "no active subscription")
    chargeFirst env o requestId userId amount subs db

/-- `PreConsumeUserSubscription`; the model name and the quota type it is given are not used. -/
def preConsumeUserSubscription (env : Env) (o : Outcome) (requestId : String)
    (userId amount : Int) (db : Db) : Except Err (PreConsumeResult × Db) := do
  failIf (userId ≤ 0) (.msg "invalid userId")
  failIf (trimSpace requestId = "") (.msg "requestId is empty")
  failIf (amount ≤ 0) (.msg "amount must be > 0")
  let r ← preConsumeTx env o requestId userId amount db
  stmt o .commit
  pure r

/-- The lazy reset that a call decides on for the row, with the plan it looks up. -/
def LazyReset (env : Env) (sub : UserSubscription) (d : DueReset) : Prop :=
  ∃ plan, env.plans sub.planId = some plan ∧ dueReset env plan sub = .ok d

variable {o : Outcome} {requestId : String} {userId : Int} {db db' : Db} {r : PreConsumeResult}

theorem chargeSub_ok {amount : Int} {sub : UserSubscription}
    (hFresh : db.records.find? requestId = none)
    (h : chargeSub o requestId userId amount sub db = .ok (r, db')) :
    ∃ records, db.records.create ⟨requestId, userId, sub.id, amount, .consumed⟩ = some records ∧
      r = ⟨sub.id, amount, sub.amountTotal, sub.amountUsed, sub.amountUsed + amount⟩ ∧
      db' = { db with records := records }.saveSub (charged sub amount) := by
  obtain ⟨records, hRec, -⟩ := create_of_fresh (t := db.records)
    (r := ⟨requestId, userId, sub.id, amount, .consumed⟩) hFresh
  cases ho : o .createRecord with
  | none =>
    simp only [chargeSub, ho, hRec] at h
    replace h := of_seq h
    cases h
    exact ⟨records, hRec, rfl, rfl⟩
  | some e =>
    -- no record of the request is found, so the failed insert is an error
    simp only [chargeSub, ho, hFresh] at h
    cases hd : o .findDuplicate <;> simp [hd] at h

/-- What the candidate loop does when it succeeds for a new request: it resets
the rows it passes over, none of which has room, and charges the one it stops at. -/
structure ChargesFirst (env : Env) (requestId : String) (userId amount : Int)
    (passed : List UserSubscription) (sub : UserSubscription) (d : DueReset)
    (r : PreConsumeResult) (db db' : Db) : Prop where
  passed_short : ∀ s ∈ passed, ∃ e, LazyReset env s e ∧ covers (e.row s) amount = false ∧
    db'.subs.find? s.id = some (e.row s)
  lazy : LazyReset env sub d
  covered : covers (d.row sub) amount = true
  row : db'.subs.find? sub.id = some (charged (d.row sub) amount)
  others : ∀ k, k ≠ sub.id → (∀ s ∈ passed, k ≠ s.id) → db'.subs.find? k = db.subs.find? k
  record : db.records.create ⟨requestId, userId, sub.id, amount, .consumed⟩ = some db'.records
  groups : db'.groups = db.groups
  result : r = ⟨sub.id, amount, sub.amountTotal, (d.row sub).amountUsed,
    (d.row sub).amountUsed + amount⟩

theorem chargeFirst_ok {env : Env} {amount : Int} {l : List UserSubscription}
    (hStored : ∀ s ∈ l, db.subs.find? s.id = some s) (hIds : (l.map (·.id)).Nodup)
    (hFresh : db.records.find? requestId = none)
    (h : chargeFirst env o requestId userId amount l db = .ok (r, db')) :
    ∃ passed sub rest d, l = passed ++ sub :: rest ∧
      ChargesFirst env requestId userId amount passed sub d r db db' := by
  induction l generalizing db with
  | nil => cases h
  | cons s l ih =>
    obtain ⟨plan, hPlan, h⟩ := of_bind h
    obtain ⟨⟨s', db₁⟩, hReset, h⟩ := of_bind h
    have hs := hStored s mem_cons_self
    obtain ⟨d, hd, rfl, rfl⟩ := maybeReset_ok hs hReset
    have hLazy : LazyReset env s d := ⟨plan, getPlan_ok hPlan, hd⟩
    have hRow : (db.saveSub (d.row s)).subs.find? s.id = some (d.row s) :=
      find?_save_self (DueReset.row_id s d) hs
    have hOther : ∀ k, k ≠ s.id → (db.saveSub (d.row s)).subs.find? k = db.subs.find? k := by
      intro k hk
      exact find?_save_of_ne (by simpa using hk)
    dsimp only at h
    split at h
    · rename_i hCov
      obtain ⟨records, hRec, rfl, rfl⟩ := chargeSub_ok (by simpa using hFresh) h
      refine ⟨[], s, l, d, rfl, by simp, hLazy, hCov, ?_, ?_, by simpa using hRec, rfl, by simp⟩
      · exact find?_save_self (by simp) hRow
      · intro k hk _
        rw [← hOther k hk]
        exact find?_save_of_ne (by simpa using hk)
    · rename_i hCov
      have hNe : ∀ t ∈ l, t.id ≠ s.id := by
        intro t ht heq
        exact (nodup_cons.mp hIds).1 (mem_map.mpr ⟨t, ht, heq⟩)
      have hStored' : ∀ t ∈ l, (db.saveSub (d.row s)).subs.find? t.id = some t := by
        intro t ht
        rw [hOther t.id (hNe t ht)]
        exact hStored t (mem_cons_of_mem _ ht)
      obtain ⟨passed, sub, rest, e, rfl, hc⟩ :=
        ih hStored' (nodup_cons.mp hIds).2 (by simpa using hFresh) h
      have hSubNe : s.id ≠ sub.id := fun heq => hNe sub (by simp) heq.symm
      have hPassedNe : ∀ t ∈ passed, s.id ≠ t.id := fun t ht heq => hNe t (by simp [ht]) heq.symm
      refine ⟨s :: passed, sub, rest, e, rfl, ?_, hc.lazy, hc.covered, hc.row, ?_,
        by simpa using hc.record, by simpa using hc.groups, hc.result⟩
      · intro t ht
        rcases mem_cons.mp ht with rfl | ht
        · exact ⟨d, hLazy, by simpa using hCov, (hc.others _ hSubNe hPassedNe).trans hRow⟩
        · exact hc.passed_short t ht
      · intro k hk hks
        rw [hc.others k hk fun t ht => hks t (mem_cons_of_mem _ ht)]
        exact hOther k (hks s mem_cons_self)

theorem mem_activeSubs {now : Int} {s : UserSubscription} :
    s ∈ activeSubs now userId db ↔ s ∈ db.subs ∧ chargeable now userId s = true := by
  simp [activeSubs, mem_def]

theorem activeSubs_stored {now : Int} :
    ∀ s ∈ activeSubs now userId db, db.subs.find? s.id = some s :=
  fun _ hs => find?_of_mem (mem_activeSubs.mp hs).1

theorem activeSubs_ids {now : Int} : ((activeSubs now userId db).map (·.id)).Nodup := by
  have hPerm := (perm_insertionSort endsBefore
    (db.subs.rows.filter (chargeable now userId))).map (·.id)
  rw [activeSubs, hPerm.nodup_iff]
  exact (List.Sublist.map _ filter_sublist).nodup db.subs.nodup

/-- What a successful pre-consume can be: the repetition of a recorded request,
which writes nothing, or the charge of a new one. -/
theorem preConsume_ok {env : Env} {amount : Int}
    (h : preConsumeUserSubscription env o requestId userId amount db = .ok (r, db')) :
    0 < amount ∧
    ((∃ record sub, db.records.find? requestId = some record ∧ record.status = .consumed ∧
        db.subs.find? record.userSubscriptionId = some sub ∧
        r = .repeated sub record.preConsumed ∧ db' = db) ∨
      (db.records.find? requestId = none ∧
        ∃ passed sub rest d, activeSubs env.now userId db = passed ++ sub :: rest ∧
          ChargesFirst env requestId userId amount passed sub d r db db')) := by
  replace h := of_seq h
  replace h := of_seq h
  obtain ⟨_, hAmount, h⟩ := of_bind h
  rw [failIf_eq_ok] at hAmount
  obtain ⟨⟨r', db₁⟩, hTx, h⟩ := of_bind h
  replace h := of_seq h
  cases h
  refine ⟨by omega, ?_⟩
  replace hTx := of_seq hTx
  split at hTx
  · rename_i record hRecord
    obtain ⟨_, hStatus, hTx⟩ := of_bind hTx
    rw [failIf_eq_ok] at hStatus
    replace hTx := of_seq hTx
    obtain ⟨sub, hSub, hTx⟩ := of_bind hTx
    cases hTx
    have hConsumed : record.status = .consumed := by
      cases hst : record.status <;> simp_all
    exact Or.inl ⟨record, sub, hRecord, hConsumed, found_eq_ok.mp hSub, rfl, rfl⟩
  · rename_i hFresh
    replace hTx := of_seq hTx
    replace hTx := of_seq hTx
    exact Or.inr ⟨hFresh, chargeFirst_ok activeSubs_stored activeSubs_ids hFresh hTx⟩

/-! ## Adjusting the used amount -/

/-- The used amount after a delta: the sum, or zero where the sum is negative. -/
def usedAfter (used delta : Int) : Int := max (used + delta) 0

def postConsumeUserSubscriptionDelta (o : Outcome) (userSubscriptionId delta : Int) (db : Db) :
    Except Err (Unit × Db) := do
  failIf (userSubscriptionId ≤ 0) (.msg "invalid userSubscriptionId")
  if delta = 0 then pure ((), db)
  else
    stmt o .findSub
    let sub ← found (db.subs.find? userSubscriptionId)
    let newUsed := usedAfter sub.amountUsed delta
    failIf (sub.amountTotal > 0 ∧ newUsed > sub.amountTotal)
      (.msg ("subscription used exceeds total, used=" ++ toString newUsed ++ " total=" ++
        toString sub.amountTotal))
    stmt o .saveSub
    stmt o .commit
    pure ((), db.saveSub { sub with amountUsed := newUsed })

theorem usedAfter_nonneg (used delta : Int) : 0 ≤ usedAfter used delta := le_max_right _ _

theorem usedAfter_of_nonneg {used delta : Int} (h : 0 ≤ used + delta) :
    usedAfter used delta = used + delta := max_eq_left h

def adjusted (sub : UserSubscription) (delta : Int) : UserSubscription :=
  { sub with amountUsed := usedAfter sub.amountUsed delta }

@[simp] theorem adjusted_id (sub : UserSubscription) (delta : Int) :
    (adjusted sub delta).id = sub.id := rfl

@[simp] theorem adjusted_amountTotal (sub : UserSubscription) (delta : Int) :
    (adjusted sub delta).amountTotal = sub.amountTotal := rfl

@[simp] theorem adjusted_amountUsed (sub : UserSubscription) (delta : Int) :
    (adjusted sub delta).amountUsed = usedAfter sub.amountUsed delta := rfl

theorem postConsume_ok {id delta : Int} {u : Unit}
    (h : postConsumeUserSubscriptionDelta o id delta db = .ok (u, db')) :
    (delta = 0 ∧ db' = db) ∨
    ∃ sub, db.subs.find? id = some sub ∧ db' = db.saveSub (adjusted sub delta) ∧
      (0 < sub.amountTotal → usedAfter sub.amountUsed delta ≤ sub.amountTotal) := by
  replace h := of_seq h
  split at h
  · rename_i hDelta
    cases h
    exact Or.inl ⟨hDelta, rfl⟩
  · replace h := of_seq h
    obtain ⟨sub, hSub, h⟩ := of_bind h
    obtain ⟨_, hTotal, h⟩ := of_bind h
    replace h := of_seq h
    replace h := of_seq h
    cases h
    rw [failIf_eq_ok] at hTotal
    exact Or.inr ⟨sub, found_eq_ok.mp hSub, rfl, by omega⟩

/-! ## Refunding -/

/-- The outcomes of one refund attempt: of the statements of the outer
transaction, and of those of the transaction that the delta opens by itself. -/
structure RefundOutcome where
  outer : Outcome
  delta : Outcome

def markRefunded (o : Outcome) (record : PreConsumeRecord) (db : Db) : Except Err (Unit × Db) := do
  stmt o .saveRecord
  stmt o .commit
  pure ((), db.saveRecord { record with status := .refunded })

def refundSubscriptionPreConsume (o : RefundOutcome) (requestId : String) (db : Db) :
    Except Err Unit × Db :=
  if trimSpace requestId = "" then (.error (.msg "requestId is empty"), db)
  else match stmt o.outer .findRecord >>= fun _ => found (db.records.find? requestId) with
    | .error e => (.error e, db)
    | .ok record =>
      if record.status = .refunded then (stmt o.outer .commit, db)
      else if record.preConsumed ≤ 0 then transact db (markRefunded o.outer record db)
      else
        match transact db (postConsumeUserSubscriptionDelta o.delta record.userSubscriptionId
          (-record.preConsumed) db) with
        | (.error e, db') => (.error e, db')
        | (.ok (), db') => transact db' (markRefunded o.outer record db')

/-- The attempt gets as far as committing the transaction of the delta. -/
def deltaCommitted (o : RefundOutcome) (requestId : String) (db : Db) : Bool :=
  trimSpace requestId ≠ "" && (o.outer .findRecord).isNone &&
    match db.records.find? requestId with
    | some r => r.status = .consumed && 0 < r.preConsumed &&
      isOk (postConsumeUserSubscriptionDelta o.delta r.userSubscriptionId (-r.preConsumed) db)
    | none => false

theorem markRefunded_ok {record : PreConsumeRecord} {u : Unit}
    (h : markRefunded o record db = .ok (u, db')) :
    db' = db.saveRecord { record with status := .refunded } := by
  replace h := of_seq h
  replace h := of_seq h
  cases h
  rfl

/-- The attempt gives the charge of the record `r` back to the row `sub`. -/
structure GivesBack (o : RefundOutcome) (requestId : String) (db : Db) (r : PreConsumeRecord)
    (sub : UserSubscription) : Prop where
  record : db.records.find? requestId = some r
  consumed : r.status = .consumed
  pos : 0 < r.preConsumed
  row : db.subs.find? r.userSubscriptionId = some sub
  total : 0 < sub.amountTotal → usedAfter sub.amountUsed (-r.preConsumed) ≤ sub.amountTotal
  committed : deltaCommitted o requestId db = true

/-- What one refund attempt can do: leave the tables alone, mark the record of an
empty charge, give the charge back and mark the record, or give the charge back
and fail to mark the record. -/
inductive RefundCase (o : RefundOutcome) (requestId : String) (db : Db) :
    Except Err Unit → Db → Prop
  | skip (res : Except Err Unit) (hNot : deltaCommitted o requestId db = false)
      (hOk : res = .ok () → ∃ r, db.records.find? requestId = some r ∧ r.status = .refunded) :
      RefundCase o requestId db res db
  | empty (r : PreConsumeRecord) (hr : db.records.find? requestId = some r)
      (hConsumed : r.status = .consumed) (hEmpty : r.preConsumed ≤ 0)
      (hNot : deltaCommitted o requestId db = false) :
      RefundCase o requestId db (.ok ()) (db.saveRecord { r with status := .refunded })
  | taken (r : PreConsumeRecord) (sub : UserSubscription) (h : GivesBack o requestId db r sub) :
      RefundCase o requestId db (.ok ())
        ((db.saveSub (adjusted sub (-r.preConsumed))).saveRecord { r with status := .refunded })
  | late (e : Err) (r : PreConsumeRecord) (sub : UserSubscription)
      (h : GivesBack o requestId db r sub)
      (hLate : o.outer .saveRecord ≠ none ∨ o.outer .commit ≠ none) :
      RefundCase o requestId db (.error e) (db.saveSub (adjusted sub (-r.preConsumed)))

theorem markRefunded_error {record : PreConsumeRecord} {e : Err}
    (h : markRefunded o record db = .error e) : o .saveRecord ≠ none ∨ o .commit ≠ none := by
  by_contra hNone
  rw [not_or, not_not, not_not] at hNone
  simp [markRefunded, stmt_of_none hNone.1, stmt_of_none hNone.2] at h

theorem refund_cases_of_record {o : RefundOutcome} {r : PreConsumeRecord}
    (hId : trimSpace requestId ≠ "") (hFind : o.outer .findRecord = none)
    (hr : db.records.find? requestId = some r) :
    RefundCase o requestId db (refundSubscriptionPreConsume o requestId db).1
      (refundSubscriptionPreConsume o requestId db).2 := by
  have hUnfold : refundSubscriptionPreConsume o requestId db =
      if r.status = .refunded then (stmt o.outer .commit, db)
      else if r.preConsumed ≤ 0 then transact db (markRefunded o.outer r db)
      else match transact db (postConsumeUserSubscriptionDelta o.delta r.userSubscriptionId
          (-r.preConsumed) db) with
        | (.error e, db') => (.error e, db')
        | (.ok (), db') => transact db' (markRefunded o.outer r db') := by
    simp [refundSubscriptionPreConsume, hId, stmt_of_none hFind, hr, found]
  rw [hUnfold]
  split
  · rename_i hRefunded
    exact .skip _ (by simp [deltaCommitted, hr, hRefunded]) fun _ => ⟨r, hr, hRefunded⟩
  rename_i hStatus
  have hConsumed : r.status = .consumed := by
    cases hs : r.status with
    | consumed => rfl
    | refunded => exact absurd hs hStatus
  split
  · rename_i hEmpty
    have hNot : deltaCommitted o requestId db = false := by
      simp [deltaCommitted, hr, show ¬ 0 < r.preConsumed by omega]
    cases hm : markRefunded o.outer r db with
    | error e => exact .skip _ hNot fun hOk => by cases hOk
    | ok x =>
      rw [transact_ok, markRefunded_ok hm]
      exact .empty r hr hConsumed hEmpty hNot
  rename_i hEmpty
  have hPos : 0 < r.preConsumed := by omega
  cases hp : postConsumeUserSubscriptionDelta o.delta r.userSubscriptionId (-r.preConsumed) db with
  | error e => exact .skip _ (by simp [deltaCommitted, hr, hp]) fun hOk => by cases hOk
  | ok x =>
    obtain ⟨⟨⟩, db₁⟩ := x
    obtain ⟨hZero, -⟩ | ⟨sub, hSub, rfl, hTotal⟩ := postConsume_ok hp
    · omega
    have hGives : GivesBack o requestId db r sub :=
      ⟨hr, hConsumed, hPos, hSub, hTotal,
        by simp [deltaCommitted, hId, hFind, hr, hConsumed, hp, hPos]⟩
    simp only [transact_ok]
    cases hm : markRefunded o.outer r (db.saveSub (adjusted sub (-r.preConsumed))) with
    | error e => exact .late e r sub hGives (markRefunded_error hm)
    | ok y =>
      rw [transact_ok, markRefunded_ok hm]
      exact .taken r sub hGives

theorem refund_cases {o : RefundOutcome} {res : Except Err Unit}
    (h : refundSubscriptionPreConsume o requestId db = (res, db')) :
    RefundCase o requestId db res db' := by
  rw [show res = (refundSubscriptionPreConsume o requestId db).1 by rw [h],
    show db' = (refundSubscriptionPreConsume o requestId db).2 by rw [h]]
  by_cases hId : trimSpace requestId = ""
  · rw [show refundSubscriptionPreConsume o requestId db =
      (.error (.msg "requestId is empty"), db) by simp [refundSubscriptionPreConsume, hId]]
    exact .skip _ (by simp [deltaCommitted, hId]) fun hOk => by cases hOk
  cases hFind : o.outer .findRecord with
  | some e =>
    rw [show refundSubscriptionPreConsume o requestId db = (.error e, db) by
      simp [refundSubscriptionPreConsume, hId, stmt, hFind]]
    exact .skip _ (by simp [deltaCommitted, hFind]) fun hOk => by cases hOk
  | none =>
    cases hr : db.records.find? requestId with
    | none =>
      rw [show refundSubscriptionPreConsume o requestId db = (.error recordNotFound, db) by
        simp [refundSubscriptionPreConsume, hId, stmt, hFind, hr, found]]
      exact .skip _ (by simp [deltaCommitted, hr]) fun hOk => by cases hOk
    | some r => exact refund_cases_of_record hId hFind hr

end Qapi.Subscription
