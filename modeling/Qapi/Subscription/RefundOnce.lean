import Qapi.Subscription.Calls

/-!
# A refund is taken at most once

`refundWithRetry` repeats the refund of a request up to three times, relying on
the record of the request to make repetitions harmless. The record is marked in
the outer transaction, while the amount is given back in a transaction of its
own, so an attempt whose outer transaction fails after that one has committed
gives the amount back and reports an error, and the next attempt gives it back
again. Without such a late failure the tables are, after any number of attempts,
either as they were or refunded once.
-/

namespace Qapi.Subscription

open Qapi.Core

/-- The loop of `refundWithRetry` over the outcomes of its attempts. -/
def refundAttempts (requestId : String) :
    List RefundOutcome → Except Err Unit → Db → Except Err Unit × Db
  | [], last, db => (last, db)
  | o :: rest, _, db =>
    match refundSubscriptionPreConsume o requestId db with
    | (.ok (), db') => (.ok (), db')
    | (.error e, db') => refundAttempts requestId rest (.error e) db'

def retries (o : Fin 3 → RefundOutcome) : List RefundOutcome := [o 0, o 1, o 2]

/-- `refundWithRetry` around `RefundSubscriptionPreConsume`, with its three attempts. -/
def refundWithRetry (o : Fin 3 → RefundOutcome) (requestId : String) (db : Db) :
    Except Err Unit × Db :=
  refundAttempts requestId (retries o) (.ok ()) db

def attempt (requestId : String) (db : Db) (o : RefundOutcome) : Db :=
  (refundSubscriptionPreConsume o requestId db).2

/-- The attempt fails after the transaction that gives the amount back has committed. -/
def LateFailure (requestId : String) (db : Db) (o : RefundOutcome) : Prop :=
  deltaCommitted o requestId db = true ∧ (o.outer .saveRecord ≠ none ∨ o.outer .commit ≠ none)

instance (requestId : String) (db : Db) (o : RefundOutcome) :
    Decidable (LateFailure requestId db o) := inferInstanceAs (Decidable (_ ∧ _))

/-- A call of `refundWithRetry` is a run of some of its attempts. -/
theorem refundAttempts_eq_run (requestId : String) (l : List RefundOutcome)
    (last : Except Err Unit) (db : Db) :
    ∃ m, m <+: l ∧ (refundAttempts requestId l last db).2 = run (attempt requestId) db m := by
  induction l generalizing last db with
  | nil => exact ⟨[], List.prefix_refl [], rfl⟩
  | cons o l ih =>
    rcases h : refundSubscriptionPreConsume o requestId db with ⟨e | u, db'⟩
    · obtain ⟨m, hm, hRun⟩ := ih (.error e) db'
      refine ⟨o :: m, List.cons_prefix_cons.mpr ⟨rfl, hm⟩, ?_⟩
      simp only [refundAttempts, h, hRun, run_cons, attempt]
    · refine ⟨[o], List.cons_prefix_cons.mpr ⟨rfl, List.nil_prefix⟩, ?_⟩
      simp only [refundAttempts, h, run_cons, run_nil, attempt]

/-- The tables `db` where the refund of the request has been taken at most once
since `db₀`. -/
inductive RefundTaken (requestId : String) (db₀ : Db) : Db → Prop
  | untouched : RefundTaken requestId db₀ db₀
  | empty (r : PreConsumeRecord) (hr : db₀.records.find? requestId = some r)
      (hConsumed : r.status = .consumed) (hEmpty : r.preConsumed ≤ 0) :
      RefundTaken requestId db₀ (db₀.saveRecord { r with status := .refunded })
  | once (r : PreConsumeRecord) (sub : UserSubscription)
      (hr : db₀.records.find? requestId = some r) (hConsumed : r.status = .consumed)
      (hPos : 0 < r.preConsumed) (hSub : db₀.subs.find? r.userSubscriptionId = some sub) :
      RefundTaken requestId db₀
        ((db₀.saveSub (adjusted sub (-r.preConsumed))).saveRecord { r with status := .refunded })

variable {requestId : String}

/-- An attempt without a late failure leaves the tables alone, or takes a refund
that has not been taken and succeeds. -/
theorem refund_without_late_failure {o : RefundOutcome} {db : Db}
    (h : ¬ LateFailure requestId db o) :
    attempt requestId db o = db ∨
      ((refundSubscriptionPreConsume o requestId db).1 = .ok () ∧
        (∃ r, db.records.find? requestId = some r ∧ r.status = .consumed) ∧
        RefundTaken requestId db (attempt requestId db o)) := by
  unfold attempt
  rcases hRes : refundSubscriptionPreConsume o requestId db with ⟨res, db'⟩
  cases refund_cases hRes with
  | skip => exact Or.inl rfl
  | empty r hr hConsumed hEmpty =>
    exact Or.inr ⟨rfl, ⟨r, hr, hConsumed⟩, .empty r hr hConsumed hEmpty⟩
  | taken r sub hg =>
    exact Or.inr ⟨rfl, ⟨r, hg.record, hg.consumed⟩,
      .once r sub hg.record hg.consumed hg.pos hg.row⟩
  | late e r sub hg hLate => exact absurd ⟨hg.committed, hLate⟩ h

/-- A call of `refundWithRetry` for a charge that was not refunded, when no attempt
fails late: it succeeds and gives the charge back once, or fails and leaves the
tables alone. -/
theorem refundAttempts_cases {r : PreConsumeRecord} {sub : UserSubscription}
    {l : List RefundOutcome} {db : Db} (last : Except Err Unit)
    (hr : db.records.find? requestId = some r) (hConsumed : r.status = .consumed)
    (hPos : 0 < r.preConsumed) (hSub : db.subs.find? r.userSubscriptionId = some sub)
    (hl : Guarded (attempt requestId) (fun db o => ¬ LateFailure requestId db o) db l)
    (hLast : l = [] → isOk last = false) :
    refundAttempts requestId l last db = (.ok (),
        (db.saveSub (adjusted sub (-r.preConsumed))).saveRecord { r with status := .refunded }) ∨
      (isOk (refundAttempts requestId l last db).1 = false ∧
        (refundAttempts requestId l last db).2 = db) := by
  induction l generalizing last with
  | nil => exact Or.inr ⟨hLast rfl, rfl⟩
  | cons o l ih =>
    rcases hRes : refundSubscriptionPreConsume o requestId db with ⟨res, db'⟩
    have hAttempt : attempt requestId db o = db' := by rw [attempt, hRes]
    cases refund_cases hRes with
    | skip _ _ hOk =>
      cases res with
      | ok u =>
        obtain ⟨r', hr', hRefunded⟩ := hOk rfl
        rw [hr] at hr'
        cases hr'
        rw [hConsumed] at hRefunded
        cases hRefunded
      | error e =>
        have hl' := hl.2
        rw [hAttempt] at hl'
        simp only [refundAttempts, hRes]
        exact ih _ hl' fun _ => rfl
    | empty r' hr' _ hEmpty =>
      rw [hr] at hr'
      cases hr'
      omega
    | taken r' sub' hg =>
      have hr' := hg.record
      rw [hr] at hr'
      cases hr'
      have hSub' := hg.row
      rw [hSub] at hSub'
      cases hSub'
      exact Or.inl (by simp only [refundAttempts, hRes])
    | late e r' sub' hg hLate => exact absurd ⟨hg.committed, hLate⟩ hl.1

theorem record_after_mark {db : Db} {r : PreConsumeRecord}
    (hr : db.records.find? requestId = some r) :
    (db.saveRecord { r with status := .refunded }).records.find? requestId =
      some { r with status := .refunded } := by
  have hKey : r.requestId = requestId := Table.key_of_find? hr
  exact Table.find?_save_self hKey hr

/-- Once the refund has been taken, its record says so. -/
theorem RefundTaken.untouched_or_refunded {db₀ db : Db} (h : RefundTaken requestId db₀ db) :
    db = db₀ ∨ ∃ r, db.records.find? requestId = some r ∧ r.status = .refunded := by
  cases h with
  | untouched => exact Or.inl rfl
  | empty r hr => exact Or.inr ⟨_, record_after_mark hr, rfl⟩
  | once r sub hr =>
    have hr' : (db₀.saveSub (adjusted sub (-r.preConsumed))).records.find? requestId = some r := hr
    exact Or.inr ⟨_, record_after_mark hr', rfl⟩

theorem refundTaken_step {db₀ db : Db} {o : RefundOutcome}
    (hTaken : RefundTaken requestId db₀ db) (h : ¬ LateFailure requestId db o) :
    RefundTaken requestId db₀ (attempt requestId db o) := by
  rcases refund_without_late_failure h with hSame | ⟨-, ⟨r, hr, hConsumed⟩, hOnce⟩
  · rw [hSame]
    exact hTaken
  · rcases hTaken.untouched_or_refunded with rfl | ⟨r', hr', hRefunded⟩
    · exact hOnce
    · rw [hr] at hr'
      cases hr'
      rw [hConsumed] at hRefunded
      cases hRefunded

/-- In every run of refund attempts for a request in which no attempt fails late,
the refund is taken at most once, and an attempt that reports an error leaves the
tables as they were. The attempts of `refundWithRetry` are such runs. -/
theorem refund_at_most_once (requestId : String) (db : Db) (l : List RefundOutcome)
    (hl : Guarded (attempt requestId) (fun db o => ¬ LateFailure requestId db o) db l) :
    RefundTaken requestId db (run (attempt requestId) db l) ∧
    (∀ o, ¬ LateFailure requestId (run (attempt requestId) db l) o →
      (refundSubscriptionPreConsume o requestId (run (attempt requestId) db l)).1 ≠ .ok () →
      (refundSubscriptionPreConsume o requestId (run (attempt requestId) db l)).2 =
        run (attempt requestId) db l) ∧
    ∀ o db', ∃ m, m <+: retries o ∧
      (refundWithRetry o requestId db').2 = run (attempt requestId) db' m := by
  refine ⟨?_, ?_, fun o db' => refundAttempts_eq_run requestId _ _ db'⟩
  · exact hl.invariant (I := RefundTaken requestId db)
      (fun _ _ hTaken hLate => refundTaken_step hTaken hLate) .untouched
  · intro o hLate hError
    rcases refund_without_late_failure hLate with hSame | ⟨hOk, -, -⟩
    · exact hSame
    · exact absurd hOk hError

/-! ## A late failure -/

def usedOf (db : Db) (subId : Int) : Option Int := (db.subs.find? subId).map (·.amountUsed)

def twoRequests : Db :=
  run step purchased
    [.preConsume (utcEnv 100001) .good "request-1" 1 5,
      .preConsume (utcEnv 100002) .good "request-2" 1 20]

def RefundOutcome.good : RefundOutcome := ⟨.good, .good⟩

def RefundOutcome.saveFails : RefundOutcome :=
  ⟨fun s => if s = .saveRecord then some (.msg "connection lost") else none, .good⟩

/-- The lookup of the record fails, then an attempt succeeds, then another follows. -/
theorem twoRequests_refunded_once :
    RefundTaken "request-1" twoRequests (run (attempt "request-1") twoRequests
      [⟨fun s => if s = .findRecord then some (.msg "timeout") else none, .good⟩, .good, .good]) :=
  (refund_at_most_once "request-1" twoRequests _ (by decide)).1

/-- When marking the record fails once, the retry gives the 5 units of the
request back a second time, out of the usage of the other request. -/
theorem refund_taken_twice :
    usedOf twoRequests 1 = some 25 ∧
    isOk (refundSubscriptionPreConsume .saveFails "request-1" twoRequests).1 = false ∧
    usedOf (refundSubscriptionPreConsume .saveFails "request-1" twoRequests).2 1 = some 20 ∧
    usedOf (refundWithRetry (fun i => if i = 0 then .saveFails else .good) "request-1"
      twoRequests).2 1 = some 15 := by
  decide

end Qapi.Subscription
