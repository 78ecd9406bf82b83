import Mathlib.Algebra.Order.BigOperators.Group.List
import Qapi.Core.Numbers
import Qapi.Subscription.Bounds

/-!
# The amounts as 64-bit integers

`AmountTotal`, `AmountUsed`, `PreConsumed` and the amounts of the calls are `int64`, and
the sums of the code wrap around. `step64` performs the calls with that arithmetic. As
long as a run asks for fewer than `2 ^ 63` units no sum leaves the range, so the used
amounts stay within their bounds and a pre-consume charges exactly; a plan without a
limit that is asked for more ends with a negative used amount.
-/

namespace Qapi.Subscription

open Qapi.Core List

def covers64 (sub : UserSubscription) (amount : Int) : Bool :=
  !(sub.amountTotal > 0 && wrap64 (sub.amountTotal - sub.amountUsed) < amount)

def charged64 (sub : UserSubscription) (amount : Int) : UserSubscription :=
  { sub with amountUsed := wrap64 (sub.amountUsed + amount) }

def chargeSub64 (o : Outcome) (requestId : String) (userId amount : Int) (sub : UserSubscription)
    (db : Db) : Except Err (PreConsumeResult × Db) :=
  match o .createRecord, db.records.create ⟨requestId, userId, sub.id, amount, .consumed⟩ with
  | none, some records => do
    stmt o .saveSub
    pure (⟨sub.id, amount, sub.amountTotal, sub.amountUsed, (charged64 sub amount).amountUsed⟩,
      { db with records := records }.saveSub (charged64 sub amount))
  -- without the insert nothing is added
  | _, _ => chargeSub o requestId userId amount sub db

def chargeFirst64 (env : Env) (o : Outcome) (requestId : String) (userId amount : Int) :
    List UserSubscription → Db → Except Err (PreConsumeResult × Db)
  | [], _ => .error (.msg ("subscription quota insufficient, need=" ++ toString amount))
  | candidate :: rest, db => do
    let plan ← getSubscriptionPlanByIdTx env o candidate.planId
    let (sub, db) ← maybeResetUserSubscriptionWithPlanTx env o plan candidate db
    if covers64 sub amount then chargeSub64 o requestId userId amount sub db
    else chargeFirst64 env o requestId userId amount rest db

def preConsumeTx64 (env : Env) (o : Outcome) (requestId : String) (userId amount : Int) (db : Db) :
    Except Err (PreConsumeResult × Db) := do
  stmt o .findRecord
  match db.records.find? requestId with
  | some existing =>
    failIf (existing.status = .refunded) alreadyRefunded
    stmt o .findSub
    let sub ← found (db.subs.find? existing.userSubscriptionId)
    pure (.repeated sub existing.preConsumed, db)
  | none =>
    failIf ((o .listSubs).isSome) (.msg "no active subscription")
    let subs := activeSubs env.now userId db
    failIf (subs.isEmpty) (.msg "no active subscription")
    chargeFirst64 env o requestId userId amount subs db

def preConsumeUserSubscription64 (env : Env) (o : Outcome) (requestId : String)
    (userId amount : Int) (db : Db) : Except Err (PreConsumeResult × Db) := do
  failIf (userId ≤ 0) (.msg "invalid userId")
  failIf (trimSpace requestId = "") (.msg "requestId is empty")
  failIf (amount ≤ 0) (.msg "amount must be > 0")
  let r ← preConsumeTx64 env o requestId userId amount db
  stmt o .commit
  pure r

def postConsumeUserSubscriptionDelta64 (o : Outcome) (userSubscriptionId delta : Int) (db : Db) :
    Except Err (Unit × Db) := do
  failIf (userSubscriptionId ≤ 0) (.msg "invalid userSubscriptionId")
  if delta = 0 then pure ((), db)
  else
    stmt o .findSub
    let sub ← found (db.subs.find? userSubscriptionId)
    let newUsed := max (wrap64 (sub.amountUsed + delta)) 0
    failIf (sub.amountTotal > 0 ∧ newUsed > sub.amountTotal)
      (.msg ("subscription used exceeds total, used=" ++ toString newUsed ++ " total=" ++
        toString sub.amountTotal))
    stmt o .saveSub
    stmt o .commit
    pure ((), db.saveSub { sub with amountUsed := newUsed })

/-- The recorded amount is read from an `int64` column. -/
def refundSubscriptionPreConsume64 (o : RefundOutcome) (requestId : String) (db : Db) :
    Except Err Unit × Db :=
  if trimSpace requestId = "" then (.error (.msg "requestId is empty"), db)
  else match stmt o.outer .findRecord >>= fun _ => found (db.records.find? requestId) with
    | .error e => (.error e, db)
    | .ok record =>
      let preConsumed := wrap64 record.preConsumed
      if record.status = .refunded then (stmt o.outer .commit, db)
      else if preConsumed ≤ 0 then transact db (markRefunded o.outer record db)
      else
        match transact db (postConsumeUserSubscriptionDelta64 o.delta record.userSubscriptionId
          (-preConsumed) db) with
        | (.error e, db') => (.error e, db')
        | (.ok (), db') => transact db' (markRefunded o.outer record db')

def step64 (db : Db) : Call → Db
  | .preConsume env o requestId userId amount =>
    (transact db (preConsumeUserSubscription64 env o requestId userId amount db)).2
  | .postConsume o subId delta =>
    (transact db (postConsumeUserSubscriptionDelta64 o subId delta db)).2
  | .refund o requestId => (refundSubscriptionPreConsume64 o requestId db).2
  | c => step db c

/-! ## Rows whose sums do not wrap -/

/-- The row is within its bounds, its total is an `int64` and at most `b` of it is used. -/
structure Fits (b : Int) (s : UserSubscription) : Prop where
  inBounds : InBounds s
  total : s.amountTotal < 2 ^ 63
  used : UsedAtMost b s

variable {b : Int} {s : UserSubscription}

theorem Fits.mono {c : Int} (hbc : b ≤ c) (s : UserSubscription) (h : Fits b s) : Fits c s :=
  ⟨h.inBounds, h.total, h.used.mono hbc⟩

theorem fits_of_used_zero (hb : 0 ≤ b) (hTotal : s.amountTotal < 2 ^ 63) (h : s.amountUsed = 0) :
    Fits b s :=
  ⟨inBounds_of_used_zero h, hTotal, h.trans_le hb⟩

theorem unchargedInvariant_fits (hb : 0 ≤ b) : UnchargedInvariant (Fits b) where
  lazy s d h := by
    cases d with
    | keep => exact h
    | schedule last next => exact ⟨h.inBounds, h.total, h.used⟩
    | reset last next => exact fits_of_used_zero hb h.total rfl
  reset env plan advance s h := by
    refine fits_of_used_zero hb ?_ (resetRow_amountUsed env plan advance s)
    unfold resetRow
    split <;> exact h.total
  close _ _ _ h := ⟨h.inBounds, h.total, h.used⟩

theorem Fits.nonneg (h : Fits b s) : 0 ≤ s.amountUsed := h.inBounds.1

theorem Fits.le (h : Fits b s) : s.amountUsed ≤ b := h.used

theorem Fits.charged {amount : Int} (hAmount : 0 < amount) (hCovers : covers s amount = true)
    (h : Fits b s) : Fits (b + amount) (charged s amount) :=
  ⟨inBounds_charged hAmount hCovers h.inBounds, h.total, Int.add_le_add_right h.used amount⟩

theorem Fits.adjusted {c delta : Int} (hc : 0 ≤ c) (hbc : b + delta ≤ c)
    (hTotal : 0 < s.amountTotal → usedAfter s.amountUsed delta ≤ s.amountTotal) (h : Fits b s) :
    Fits c (adjusted s delta) :=
  ⟨⟨usedAfter_nonneg _ _, hTotal⟩, h.total, usedAtMost_adjusted hc hbc h.used⟩

theorem Fits.covers64_eq {amount : Int} (hb : b < 2 ^ 63) (h : Fits b s) :
    covers64 s amount = covers s amount := by
  have hNonneg := h.nonneg
  have hLe := h.le
  have hTotal := h.total
  unfold covers64 covers
  by_cases hPos : s.amountTotal > 0
  · rw [wrap64_of_lt (by omega) (by omega)]
  · simp [hPos]

theorem Fits.charged64_eq {amount : Int} (hAmount : 0 < amount) (hb : b + amount < 2 ^ 63)
    (h : Fits b s) : charged64 s amount = Subscription.charged s amount := by
  have hNonneg := h.nonneg
  have hLe := h.le
  unfold charged64 Subscription.charged
  rw [wrap64_of_lt (by omega) (by omega)]

theorem Fits.usedAfter64_eq {delta : Int} (hDelta : -(2 ^ 63) ≤ delta) (hb : b + delta < 2 ^ 63)
    (h : Fits b s) : max (wrap64 (s.amountUsed + delta)) 0 = usedAfter s.amountUsed delta := by
  have hNonneg := h.nonneg
  have hLe := h.le
  rw [wrap64_of_lt (by omega) (by omega), usedAfter]

/-! ## The calls on such rows -/

variable {env : Env} {o : Outcome} {requestId : String} {userId amount : Int} {db : Db}

theorem chargeSub64_eq (hAmount : 0 < amount) (hb : b + amount < 2 ^ 63) (hs : Fits b s) :
    chargeSub64 o requestId userId amount s db = chargeSub o requestId userId amount s db := by
  unfold chargeSub64
  split
  · rename_i records hCreate hRecords
    simp only [chargeSub, hCreate, hRecords, hs.charged64_eq hAmount hb]
  · rfl

theorem maybeReset_row {plan : Plan} {sub : UserSubscription} {db' : Db}
    (h : maybeResetUserSubscriptionWithPlanTx env o plan s db = .ok (sub, db')) :
    ∃ d : DueReset, sub = d.row s := by
  obtain ⟨d, -, h⟩ := of_bind h
  cases d with
  | keep =>
    cases h
    exact ⟨.keep, rfl⟩
  | schedule last next | reset last next =>
    replace h := of_seq h
    cases h
    exact ⟨_, rfl⟩

theorem chargeFirst64_eq (h0 : 0 ≤ b) (hAmount : 0 < amount) (hb : b + amount < 2 ^ 63)
    {l : List UserSubscription} (hl : ∀ s ∈ l, Fits b s) :
    chargeFirst64 env o requestId userId amount l db =
      chargeFirst env o requestId userId amount l db := by
  induction l generalizing db with
  | nil => rfl
  | cons s l ih =>
    simp only [chargeFirst64, chargeFirst]
    cases getSubscriptionPlanByIdTx env o s.planId with
    | error e => rfl
    | ok plan =>
      simp only [ok_bind]
      cases hReset : maybeResetUserSubscriptionWithPlanTx env o plan s db with
      | error e => rfl
      | ok x =>
        obtain ⟨d, hd⟩ := maybeReset_row hReset
        have hFits : Fits b x.1 := by
          rw [hd]
          exact (unchargedInvariant_fits h0).lazy s d (hl s mem_cons_self)
        simp only [ok_bind, hFits.covers64_eq (by omega), chargeSub64_eq hAmount hb hFits,
          ih fun t ht => hl t (mem_cons_of_mem _ ht)]

theorem preConsume64_eq (h0 : 0 ≤ b) (hb : b + amount < 2 ^ 63) (hdb : db.AllRows (Fits b)) :
    preConsumeUserSubscription64 env o requestId userId amount db =
      preConsumeUserSubscription env o requestId userId amount db := by
  by_cases hAmount : 0 < amount
  · have hFirst : chargeFirst64 env o requestId userId amount (activeSubs env.now userId db) db =
        chargeFirst env o requestId userId amount (activeSubs env.now userId db) db :=
      chargeFirst64_eq h0 hAmount hb fun s hs => hdb s (mem_activeSubs.mp hs).1
    have hTx : preConsumeTx64 env o requestId userId amount db =
        preConsumeTx env o requestId userId amount db := by
      unfold preConsumeTx64 preConsumeTx
      cases db.records.find? requestId with
      | some existing => rfl
      | none =>
        dsimp only
        rw [hFirst]
    rw [preConsumeUserSubscription64, hTx, preConsumeUserSubscription]
  · simp [preConsumeUserSubscription64, preConsumeUserSubscription, failIf, not_lt.mp hAmount]

theorem postConsume64_eq {subId delta : Int} (hDelta : -(2 ^ 63) ≤ delta)
    (hb : b + delta < 2 ^ 63) (hdb : db.AllRows (Fits b)) :
    postConsumeUserSubscriptionDelta64 o subId delta db =
      postConsumeUserSubscriptionDelta o subId delta db := by
  unfold postConsumeUserSubscriptionDelta64 postConsumeUserSubscriptionDelta
  cases hSub : db.subs.find? subId with
  | none => rfl
  | some sub => simp only [found, ok_bind, (hdb.find hSub).usedAfter64_eq hDelta hb]

theorem refund64_rows {o : RefundOutcome} (h0 : 0 ≤ b) (hb : b < 2 ^ 63)
    (hdb : db.AllRows (Fits b)) :
    (refundSubscriptionPreConsume64 o requestId db).2.AllRows (Fits b) := by
  have hMark : ∀ record db', db'.AllRows (Fits b) →
      (transact db' (markRefunded o.outer record db')).2.AllRows (Fits b) := by
    intro record db' hdb'
    refine hdb'.transact fun _ _ h => ?_
    rw [markRefunded_ok h]
    exact .of_subs rfl hdb'
  unfold refundSubscriptionPreConsume64
  split
  · exact hdb
  split
  · exact hdb
  rename_i record _
  dsimp only
  split
  · exact hdb
  split
  · exact hMark record db hdb
  rename_i hPos
  have hRange : wrap64 record.preConsumed < 2 ^ 63 := Int.bmod_lt (by omega)
  have hPost : (transact db (postConsumeUserSubscriptionDelta64 o.delta record.userSubscriptionId
      (-wrap64 record.preConsumed) db)).2.AllRows (Fits b) := by
    rw [postConsume64_eq (by omega) (by omega) hdb]
    refine hdb.transact fun _ _ h => postConsume_rows h (fun _ hs => hs) ?_ hdb
    intro s hTotal hs
    exact hs.adjusted h0 (by omega) hTotal
  split
  · rename_i hTx
    rw [hTx] at hPost
    exact hPost
  · rename_i hTx
    rw [hTx] at hPost
    exact hMark record _ hPost

/-! ## Runs of calls -/

/-- The total of a plan and a delta are `int64` values. -/
def Call.Int64 : Call → Prop
  | .create _ _ _ _ plan => plan.totalAmount < 2 ^ 63
  | .postConsume _ _ delta => -(2 ^ 63) ≤ delta
  | _ => True

theorem step64_fits (h0 : 0 ≤ b) (hdb : db.AllRows (Fits b)) {c : Call} (hc : c.Int64)
    (hb : b + c.asked < 2 ^ 63) : (step64 db c).AllRows (Fits (b + c.asked)) := by
  have hAsked := c.asked_nonneg
  have hKeep : ∀ s, Fits b s → Fits (b + c.asked) s := Fits.mono (by omega)
  have hFree := unchargedInvariant_fits h0
  cases c with
  | preConsume env o requestId userId amount =>
    have hAmount : amount ≤ (Call.preConsume env o requestId userId amount).asked :=
      le_max_left _ _
    rw [step64, preConsume64_eq h0 (by omega) hdb]
    refine (hdb.mono hKeep).transact fun _ _ h => preConsume_rows h hKeep hFree.lazy ?_ hdb
    intro s hPos hCovers hs
    exact (hs.charged hPos hCovers).mono (by omega) _
  | postConsume o subId delta =>
    have hDelta : delta ≤ (Call.postConsume o subId delta).asked := le_max_left _ _
    rw [step64, postConsume64_eq hc (by omega) hdb]
    refine (hdb.mono hKeep).transact fun _ _ h => postConsume_rows h hKeep ?_ hdb
    intro s hTotal hs
    exact hs.adjusted (by omega) (by omega) hTotal
  | refund o requestId => exact (refund64_rows h0 (by omega) hdb).mono hKeep
  | create env o newId userId plan =>
    have hFresh : (Call.create env o newId userId plan).Creates (Fits b) := fun _ _ =>
      fits_of_used_zero h0 hc rfl
    exact (step_uncharged_rows hFree hdb hFresh rfl).mono hKeep
  | _ => exact Db.AllRows.mono (step_uncharged_rows hFree hdb trivial rfl) hKeep

theorem asked_sum_nonneg (l : List Call) : 0 ≤ (l.map Call.asked).sum := by
  refine List.sum_nonneg fun a ha => ?_
  obtain ⟨c, -, rfl⟩ := mem_map.mp ha
  exact c.asked_nonneg

theorem run64_fits {l : List Call} (h0 : 0 ≤ b) (hdb : db.AllRows (Fits b))
    (hl : ∀ c ∈ l, c.Int64) (hb : b + (l.map Call.asked).sum < 2 ^ 63) :
    (run step64 db l).AllRows (Fits (b + (l.map Call.asked).sum)) := by
  induction l generalizing b db with
  | nil => simpa using hdb
  | cons c l ih =>
    have hAsked := c.asked_nonneg
    have hRest := asked_sum_nonneg l
    rw [map_cons, sum_cons, ← add_assoc] at hb ⊢
    have hStep := step64_fits h0 hdb (hl c mem_cons_self) (by omega)
    exact ih (by omega) hStep (fun d hd => hl d (mem_cons_of_mem _ hd)) hb

/-- In every state that a run of calls reaches from empty tables, if it asks for fewer
than `2 ^ 63` units, every used amount is within its bounds; a pre-consume that succeeds
there for a new request charges the first row with room by exactly the amount, if the sum
stays below `2 ^ 63`; and one for a recorded request that was not refunded changes nothing. -/
theorem quota_within_bounds_and_charged_exactly (groups : Int → String) (l : List Call)
    (hl : ∀ c ∈ l, c.Int64) (hAsked : (l.map Call.asked).sum < 2 ^ 63) :
    (run step64 (Db.initial groups) l).AllRows InBounds ∧
    ∀ env o requestId userId amount r db', (l.map Call.asked).sum + amount < 2 ^ 63 →
      preConsumeUserSubscription64 env o requestId userId amount
        (run step64 (Db.initial groups) l) = .ok (r, db') →
      ((run step64 (Db.initial groups) l).records.find? requestId = none →
        ∃ sub d, r.userSubscriptionId = sub.id ∧
          ChargedExactly env userId amount sub d (run step64 (Db.initial groups) l) db') ∧
      (∀ record, (run step64 (Db.initial groups) l).records.find? requestId = some record →
        record.status ≠ .refunded → db' = run step64 (Db.initial groups) l) := by
  have hFits := run64_fits le_rfl (fun s hs => absurd hs (Table.not_mem_empty s) :
    (Db.initial groups).AllRows (Fits 0)) hl (by omega)
  refine ⟨hFits.mono fun s hs => hs.inBounds, ?_⟩
  intro env o requestId userId amount r db' hSum h
  have hNonneg := asked_sum_nonneg l
  rw [preConsume64_eq (by omega) (by omega) hFits] at h
  obtain ⟨-, ⟨record, sub, hRecord, -, -, -, rfl⟩ | ⟨hFresh, passed, sub, rest, d, hl, hc⟩⟩ :=
    preConsume_ok h
  · refine ⟨?_, fun _ _ _ => rfl⟩
    intro hNone
    rw [hRecord] at hNone
    cases hNone
  · refine ⟨fun _ => ⟨sub, d, by rw [hc.result], chargedExactly_of_first hl hc⟩, ?_⟩
    intro record hRecord
    rw [hFresh] at hRecord
    cases hRecord

theorem purchased_charged_exactly :
    ∃ r db' sub d,
      preConsumeUserSubscription64 (utcEnv 100001) .good "request-1" 1 5 purchased = .ok (r, db') ∧
        ChargedExactly (utcEnv 100001) 1 5 sub d purchased db' := by
  have hOk : isOk (preConsumeUserSubscription64 (utcEnv 100001) .good "request-1" 1 5 purchased) =
      true := by decide
  cases h : preConsumeUserSubscription64 (utcEnv 100001) .good "request-1" 1 5 purchased with
  | error e =>
    rw [h] at hOk
    cases hOk
  | ok x =>
    obtain ⟨r, db'⟩ := x
    obtain ⟨sub, d, -, hc⟩ := ((quota_within_bounds_and_charged_exactly (fun _ => "default")
      [.create (utcEnv 100000) .good 1 1 monthPlan] (by simp [Call.Int64, monthPlan])
      (by decide)).2 _ _ _ _ _ _ _ (by decide) h).1 (by decide)
    exact ⟨r, db', sub, d, rfl, hc⟩

/-- A plan without a limit whose subscription is asked for `2 ^ 63` units. -/
theorem unlimited_used_wraps :
    let l : List Call := [
      .create (utcEnv 100000) .good 1 1 { monthPlan with totalAmount := 0 },
      .postConsume .good 1 (2 ^ 63 - 1),
      .preConsume (utcEnv 100001) .good "request-1" 1 1]
    (∀ c ∈ l, c.Int64) ∧ (l.map Call.asked).sum = 2 ^ 63 ∧
      ((run step64 (.initial fun _ => "default") l).subs.find? 1).map (·.amountUsed) =
        some (-(2 ^ 63)) := by
  refine ⟨by simp [Call.Int64], by decide, by decide⟩

end Qapi.Subscription
