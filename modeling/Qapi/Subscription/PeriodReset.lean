import Qapi.Core.Ledger
import Qapi.Subscription.Bounds
import Qapi.Subscription.RefundOnce

/-!
# Refunds across a quota reset

A reset starts the used amount of a row again at zero, while the requests charged
before it may still be in flight. The ledger of this module runs the calls of the
store and keeps, as ghost state, the charges of each row since its last reset that
have not been given back. A refund subtracts the amount recorded when the request
was charged, whether or not that charge is still part of the used amount; so the
used amount covers the outstanding charges only as long as no request gives back
more than it was charged since the last reset.
-/

namespace Qapi.Subscription

open Qapi.Core Holdings Function Table List

/-- The tables, with the outstanding charges of each row by request. -/
structure Ledger where
  db : Db
  out : Int → List (String × Nat)

/-- What happens to the ledger: requests are charged, settled and refunded, and
rows are reset by the job and by the administrator. A settlement is the call of
`PostConsumeUserSubscriptionDelta` that a request makes. -/
inductive Activity
  | preConsume (env : Env) (o : Outcome) (requestId : String) (userId amount : Int)
  | settle (o : Outcome) (requestId : String) (subId delta : Int)
  | refund (o : RefundOutcome) (requestId : String)
  | resetDue (env : Env) (o : Outcome) (plan : Plan) (subId : Int)
  | adminResetUser (env : Env) (o : Outcome) (userId planId : Int) (advanceResetTime : Bool)
  | adminResetPlan (env : Env) (o : Outcome) (planId : Int) (advanceResetTime : Bool)

def Activity.call : Activity → Call
  | .preConsume env o requestId userId amount => .preConsume env o requestId userId amount
  | .settle o _ subId delta => .postConsume o subId delta
  | .refund o requestId => .refund o requestId
  | .resetDue env o plan subId => .resetOne env o plan subId
  | .adminResetUser env o userId planId advance => .adminResetUser env o userId planId advance
  | .adminResetPlan env o planId advance => .adminResetPlan env o planId advance

/-- Whether the lazy reset of the row starts the used amount again at zero. -/
def resetDecided (env : Env) (plan : Plan) (s : UserSubscription) : Bool :=
  match dueReset env plan s with
  | .ok d => d.isReset
  | .error _ => false

/-- Whether a pre-consume that charges `chosen` resets the row `s` on its way. -/
def resetByCharge (env : Env) (userId : Int) (chosen s : UserSubscription) : Bool :=
  chargeable env.now userId s && endsBefore s chosen &&
    match env.plans s.planId with
    | some plan => resetDecided env plan s
    | none => false

def clear (db : Db) (p : UserSubscription → Bool) (out : Int → List (String × Nat)) :
    Int → List (String × Nat) := fun k =>
  match db.subs.find? k with
  | some s => if p s then [] else out k
  | none => out k

def outAfter (L : Ledger) : Activity → Int → List (String × Nat)
  | .preConsume env o requestId userId amount =>
    match preConsumeUserSubscription env o requestId userId amount L.db,
        L.db.records.find? requestId with
    | .ok (r, _), none =>
      let kept := match L.db.subs.find? r.userSubscriptionId with
        | some chosen => clear L.db (resetByCharge env userId chosen) L.out
        | none => L.out
      update kept r.userSubscriptionId
        ((requestId, amount.toNat) :: kept r.userSubscriptionId)
    | _, _ => L.out
  | .settle o requestId subId delta =>
    match postConsumeUserSubscriptionDelta o subId delta L.db with
    | .ok _ =>
      update L.out subId
        (if 0 < delta then (requestId, delta.toNat) :: L.out subId
        else release requestId (-delta).toNat (L.out subId))
    | .error _ => L.out
  | .refund o requestId =>
    match deltaCommitted o requestId L.db, L.db.records.find? requestId with
    | true, some r =>
      update L.out r.userSubscriptionId
        (release requestId r.preConsumed.toNat (L.out r.userSubscriptionId))
    | _, _ => L.out
  | .resetDue env o plan subId =>
    match resetDueOne env o plan subId L.db with
    | .ok (true, _) => clear L.db (fun s => s.id = subId && resetDecided env plan s) L.out
    | _ => L.out
  | .adminResetUser env o userId planId advance =>
    match adminResetUserSubscriptionsByPlan env o userId planId advance L.db with
    | .ok (r, _) =>
      clear L.db (fun s => chargeable env.now userId s && s.planId = r.planId) L.out
    | .error _ => L.out
  | .adminResetPlan env o planId advance =>
    match adminResetPlanSubscriptions env o planId advance L.db with
    | .ok (r, _) =>
      clear L.db (fun s => s.planId = r.planId && s.status = .active && s.endTime > env.now) L.out
    | .error _ => L.out

def ledgerStep (L : Ledger) (a : Activity) : Ledger := ⟨step L.db a.call, outAfter L a⟩

/-- What the activity gives back: to which row, for which request, and how much. -/
def givenBack (L : Ledger) : Activity → Option (Int × String × Nat)
  | .settle o requestId subId delta =>
    if isOk (postConsumeUserSubscriptionDelta o subId delta L.db) then
      some (subId, requestId, (-delta).toNat)
    else none
  | .refund o requestId =>
    match deltaCommitted o requestId L.db, L.db.records.find? requestId with
    | true, some r => some (r.userSubscriptionId, requestId, r.preConsumed.toNat)
    | _, _ => none
  | _ => none

/-- The activity gives back at most what its request was charged since the last reset. -/
def WithinPeriod (L : Ledger) (a : Activity) : Prop :=
  ∀ g ∈ givenBack L a, g.2.2 ≤ held g.2.1 (L.out g.1)

instance (L : Ledger) (a : Activity) : Decidable (WithinPeriod L a) :=
  inferInstanceAs (Decidable (∀ g ∈ givenBack L a, _))

def Covered (L : Ledger) : Prop := ∀ s ∈ L.db.subs, (total (L.out s.id) : Int) ≤ s.amountUsed

/-! ## Resets clear the charges -/

theorem total_clear_le (db : Db) (p : UserSubscription → Bool) (out : Int → List (String × Nat))
    (k : Int) : total (clear db p out k) ≤ total (out k) := by
  unfold clear
  split
  · split
    · exact Nat.zero_le _
    · exact le_rfl
  · exact le_rfl

variable {p : UserSubscription → Bool} {s : UserSubscription}

theorem clear_of_selected {db : Db} {out : Int → List (String × Nat)} {k : Int}
    (hs : db.subs.find? k = some s) (hp : p s = true) : clear db p out k = [] := by
  simp only [clear, hs, hp, if_true]

variable {L : Ledger}

/-- A row that is reset, or left as it was, is covered after its charges are cleared. -/
theorem covered_clear {db' : Db} (hL : Covered L) (hRows : ∀ s' ∈ db'.subs, s' ∈ L.db.subs ∨ ∃ s,
      L.db.subs.find? s'.id = some s ∧ ((p s = true ∧ 0 ≤ s'.amountUsed) ∨ s'.amountUsed =
      s.amountUsed)) : Covered ⟨db', clear L.db p L.out⟩ := by
  intro s' hs'
  have hLe := total_clear_le L.db p L.out s'.id
  rcases hRows s' hs' with hOld | ⟨s, hs, ⟨hp, hUsed⟩ | hUsed⟩
  · have := hL s' hOld
    simp only
    omega
  · simp only [clear_of_selected hs hp, total_nil]
    exact hUsed
  · have := hL s (mem_of_find? hs)
    rw [key_of_find? hs] at this
    simp only
    omega

theorem resetAll_row {env : Env} {o : Outcome} {plan : Plan} {advance : Bool}
    {l : List UserSubscription} {db db' : Db} (h : resetAll env o plan advance l db = .ok db') :
    ∀ s' ∈ db'.subs, s' ∈ db.subs ∨ ∃ s ∈ l, s.id = s'.id ∧ s'.amountUsed = 0 := by
  induction l generalizing db with
  | nil =>
    cases h
    exact fun s' hs' => Or.inl hs'
  | cons s l ih =>
    replace h := of_seq h
    intro s' hs'
    rcases ih h s' hs' with hOld | ⟨t, ht, hId, hUsed⟩
    · rcases eq_or_mem_of_mem_save hOld with rfl | hOld
      · exact Or.inr ⟨s, mem_cons_self, (resetRow_id _ _ _ _).symm, resetRow_amountUsed _ _ _ _⟩
      · exact Or.inl hOld
    · exact Or.inr ⟨t, mem_cons_of_mem _ ht, hId, hUsed⟩

/-- The administrator's resets: the rows of a list that `p` selects are reset. -/
theorem covered_resetAll {env : Env} {o : Outcome} {plan : Plan} {advance : Bool}
    {l : List UserSubscription} {db' : Db} (hL : Covered L)
    (hl : ∀ s ∈ l, s ∈ L.db.subs ∧ p s = true) (h : resetAll env o plan advance l L.db = .ok db') :
    Covered ⟨db', clear L.db p L.out⟩ := by
  refine covered_clear hL ?_
  intro s' hs'
  rcases resetAll_row h s' hs' with hOld | ⟨s, hs, hId, hUsed⟩
  · exact Or.inl hOld
  · refine Or.inr ⟨s, ?_, Or.inl ⟨(hl s hs).2, hUsed.ge⟩⟩
    rw [← hId]
    exact find?_of_mem (hl s hs).1

theorem covered_adminResetUser (hL : Covered L) (env : Env) (o : Outcome) (userId planId : Int)
    (advance : Bool) : Covered (ledgerStep L (.adminResetUser env o userId planId advance)) := by
  cases h : adminResetUserSubscriptionsByPlan env o userId planId advance L.db with
  | error e => simpa only [ledgerStep, step, Activity.call, outAfter, h, transact_error] using hL
  | ok x =>
    obtain ⟨r, db'⟩ := x
    simp only [ledgerStep, step, Activity.call, outAfter, h, transact_ok]
    obtain ⟨plan, hReset, rfl⟩ := adminResetUserSubscriptionsByPlan_ok h
    refine covered_resetAll hL ?_ hReset
    intro s hs
    obtain ⟨hs, hPlan⟩ := mem_filter.mp hs
    obtain ⟨hs, hCharge⟩ := mem_activeSubs.mp hs
    exact ⟨hs, by simpa [hCharge, buildSubscriptionResetResult] using hPlan⟩

theorem covered_adminResetPlan (hL : Covered L) (env : Env) (o : Outcome) (planId : Int)
    (advance : Bool) : Covered (ledgerStep L (.adminResetPlan env o planId advance)) := by
  cases h : adminResetPlanSubscriptions env o planId advance L.db with
  | error e => simpa only [ledgerStep, step, Activity.call, outAfter, h, transact_error] using hL
  | ok x =>
    obtain ⟨r, db'⟩ := x
    simp only [ledgerStep, step, Activity.call, outAfter, h, transact_ok]
    obtain ⟨plan, hReset, rfl⟩ := adminResetPlanSubscriptions_ok h
    refine covered_resetAll hL ?_ hReset
    intro s hs
    exact mem_filter.mp ((mem_insertionSort _).mp hs)

theorem covered_resetDue (hL : Covered L) (env : Env) (o : Outcome) (plan : Plan) (subId : Int) :
    Covered (ledgerStep L (.resetDue env o plan subId)) := by
  cases h : resetDueOne env o plan subId L.db with
  | error e => simpa only [ledgerStep, step, Activity.call, outAfter, h, transact_error] using hL
  | ok x =>
    obtain ⟨done, db'⟩ := x
    simp only [ledgerStep, step, Activity.call, outAfter, h, transact_ok]
    rcases resetDueOne_ok h with ⟨rfl, rfl⟩ | ⟨rfl, locked, s, hLocked, hReset⟩
    · exact hL
    · obtain rfl := key_of_find? hLocked
      obtain ⟨d, hd, -, rfl⟩ := maybeReset_ok hLocked hReset
      refine covered_clear hL ?_
      intro s' hs'
      rcases eq_or_mem_of_mem_save hs' with rfl | hOld
      · refine Or.inr ⟨locked, by simpa using hLocked, ?_⟩
        cases hr : d.isReset with
        | true => exact Or.inl ⟨by simp [resetDecided, hd, hr], by simp [d.row_amountUsed, hr]⟩
        | false => exact Or.inr (by simp [d.row_amountUsed, hr])
      · exact Or.inl hOld

/-! ## Charges and refunds -/

theorem covered_adjusted {k delta : Int} {sub : UserSubscription} {entries : List (String × Nat)}
    (hL : Covered L) (hSub : L.db.subs.find? k = some sub)
    (hEntries : (total entries : Int) ≤ usedAfter sub.amountUsed delta) :
    Covered ⟨L.db.saveSub (adjusted sub delta), update L.out k entries⟩ := by
  obtain rfl := key_of_find? hSub
  intro s' hs'
  rcases mem_save.mp hs' with ⟨rfl, -⟩ | ⟨hOld, hNe⟩
  · simpa using hEntries
  · have hNe' : s'.id ≠ sub.id := hNe
    simpa [update_of_ne hNe'] using hL s' hOld

theorem total_le_used {k : Int} {sub : UserSubscription} (hL : Covered L)
    (hSub : L.db.subs.find? k = some sub) : (total (L.out k) : Int) ≤ sub.amountUsed := by
  have := hL sub (mem_of_find? hSub)
  rwa [key_of_find? hSub] at this

variable {requestId : String}

/-- Giving back at most what the request holds leaves the rest covered. -/
theorem total_release_le_usedAfter {amount : Nat} {used : Int} {entries : List (String × Nat)}
    (hUsed : (total entries : Int) ≤ used) (hHeld : amount ≤ held requestId entries) :
    (total (release requestId amount entries) : Int) ≤ usedAfter used (-amount) := by
  have hRelease := total_release_of_le hHeld
  have hMax : used + -(amount : Int) ≤ usedAfter used (-amount) := le_max_left _ _
  omega

theorem covered_settle (hL : Covered L) {o : Outcome} {subId delta : Int}
    (hc : WithinPeriod L (.settle o requestId subId delta)) :
    Covered (ledgerStep L (.settle o requestId subId delta)) := by
  cases h : postConsumeUserSubscriptionDelta o subId delta L.db with
  | error e => simpa only [ledgerStep, step, Activity.call, outAfter, h, transact_error] using hL
  | ok x =>
    obtain ⟨u, db'⟩ := x
    have hHeld : (-delta).toNat ≤ held requestId (L.out subId) :=
      hc (subId, requestId, (-delta).toNat) (by simp [givenBack, h])
    simp only [ledgerStep, step, Activity.call, outAfter, h, transact_ok]
    obtain ⟨rfl, rfl⟩ | ⟨sub, hSub, rfl, -⟩ := postConsume_ok h
    · intro s hs
      have hs' := hL s hs
      by_cases hk : s.id = subId
      · have hRelease := total_release requestId 0 (L.out subId)
        simp only [hk, update_self, lt_irrefl, if_false, Int.neg_zero, Int.toNat_zero]
        rw [hk] at hs'
        omega
      · simpa [update_of_ne hk] using hs'
    · have hUsed := total_le_used hL hSub
      refine covered_adjusted hL hSub ?_
      split
      · rename_i hPos
        have hMax : sub.amountUsed + delta ≤ usedAfter sub.amountUsed delta := le_max_left _ _
        simp only [total_cons]
        omega
      · rename_i hNeg
        have hRelease := total_release_le_usedAfter hUsed hHeld
        rwa [show -((-delta).toNat : Int) = delta by omega] at hRelease

theorem covered_refund (hL : Covered L) {o : RefundOutcome}
    (hc : WithinPeriod L (.refund o requestId)) : Covered (ledgerStep L (.refund o requestId)) := by
  have hGive : ∀ r sub, GivesBack o requestId L.db r sub →
      Covered ⟨L.db.saveSub (adjusted sub (-r.preConsumed)), outAfter L (.refund o requestId)⟩ := by
    intro r sub hg
    have hHeld := hc (r.userSubscriptionId, requestId, r.preConsumed.toNat)
      (by simp [givenBack, hg.committed, hg.record])
    have hRelease := total_release_le_usedAfter (total_le_used hL hg.row) hHeld
    rw [Int.toNat_of_nonneg hg.pos.le] at hRelease
    simp only [outAfter, hg.committed, hg.record]
    exact covered_adjusted hL hg.row hRelease
  have hKeep : deltaCommitted o requestId L.db = false →
      outAfter L (.refund o requestId) = L.out := by
    intro hNot
    simp only [outAfter, hNot]
  rcases hRes : refundSubscriptionPreConsume o requestId L.db with ⟨res, db'⟩
  simp only [ledgerStep, step, Activity.call, hRes]
  cases refund_cases hRes with
  | skip _ hNot =>
    rw [hKeep hNot]
    exact hL
  | empty r _ _ _ hNot =>
    rw [hKeep hNot]
    exact hL
  | taken r sub hg => exact hGive r sub hg
  | late e r sub hg => exact hGive r sub hg

theorem endsBefore_of_precedes {t : UserSubscription} (h : precedes s t) : endsBefore s t := by
  unfold precedes at h
  unfold endsBefore
  omega

theorem resetByCharge_eq {env : Env} {userId : Int} {chosen : UserSubscription} {d : DueReset}
    (hCharge : chargeable env.now userId s = true) (hOrder : endsBefore s chosen)
    (hLazy : LazyReset env s d) : resetByCharge env userId chosen s = d.isReset := by
  obtain ⟨plan, hPlan, hd⟩ := hLazy
  simp [resetByCharge, hCharge, hOrder, hPlan, resetDecided, hd]

/-- A row that a pre-consume resets, or leaves as it was, keeps covering what is
left of its charges. -/
theorem total_clear_le_row {env : Env} {userId : Int} {chosen : UserSubscription} {d : DueReset}
    (hL : Covered L) (hs : s ∈ L.db.subs)
    (hReset : resetByCharge env userId chosen s = d.isReset) :
    (total (clear L.db (resetByCharge env userId chosen) L.out s.id) : Int) ≤
      (d.row s).amountUsed := by
  have hUsed := hL s hs
  rw [d.row_amountUsed]
  cases hr : d.isReset with
  | true =>
    rw [clear_of_selected (find?_of_mem hs) (hReset.trans hr)]
    simp
  | false =>
    have hLe := total_clear_le L.db (resetByCharge env userId chosen) L.out s.id
    simp only [Bool.false_eq_true, if_false]
    omega

theorem covered_preConsume (hL : Covered L) (env : Env) (o : Outcome) (requestId : String)
    (userId amount : Int) : Covered (ledgerStep L (.preConsume env o requestId userId amount)) := by
  cases h : preConsumeUserSubscription env o requestId userId amount L.db with
  | error e => simpa only [ledgerStep, step, Activity.call, outAfter, h, transact_error] using hL
  | ok x =>
    obtain ⟨r, db'⟩ := x
    obtain ⟨hAmount, ⟨record, sub, hRecord, -, -, -, rfl⟩ | ⟨hFresh, passed, sub, rest, d, hl, hc⟩⟩ :=
      preConsume_ok h
    · simpa only [ledgerStep, step, Activity.call, outAfter, h, hRecord, transact_ok] using hL
    have hx := chargedExactly_of_first hl hc
    have hFind := find?_of_mem hx.mem
    have hId : r.userSubscriptionId = sub.id := by rw [hc.result]
    simp only [ledgerStep, step, Activity.call, outAfter, h, hFresh, transact_ok, hId, hFind]
    intro s hs
    dsimp only at hs ⊢
    have hs' := find?_of_mem hs
    by_cases hEq : s.id = sub.id
    · rw [hEq, hx.row] at hs'
      cases hs'
      have hReset := resetByCharge_eq hx.chargeable (Or.inr ⟨rfl, le_rfl⟩) hx.reset
      have hRow := total_clear_le_row hL hx.mem hReset
      simp only [charged_id, DueReset.row_id, update_self, total_cons,
        charged_amountUsed]
      omega
    rw [update_of_ne hEq]
    by_cases hBefore : ∃ t ∈ L.db.subs, chargeable env.now userId t = true ∧ precedes t sub ∧
        s.id = t.id
    · obtain ⟨t, ht, hCharge, hPrec, hst⟩ := hBefore
      obtain ⟨e, hLazy, -, hRow⟩ := hx.before t ht hCharge hPrec
      rw [hst, hRow] at hs'
      cases hs'
      rw [hst]
      exact total_clear_le_row hL ht
        (resetByCharge_eq hCharge (endsBefore_of_precedes hPrec) hLazy)
    · have hSame := hx.others s.id hEq fun t ht hCharge hPrec hst =>
        hBefore ⟨t, ht, hCharge, hPrec, hst⟩
      rw [hSame] at hs'
      have hUsed := hL s (mem_of_find? hs')
      have hLe := total_clear_le L.db (resetByCharge env userId sub) L.out s.id
      omega

/-! ## Runs -/

theorem covered_step {a : Activity} (hL : Covered L) (hc : WithinPeriod L a) :
    Covered (ledgerStep L a) := by
  cases a with
  | preConsume env o requestId userId amount =>
    exact covered_preConsume hL env o requestId userId amount
  | settle => exact covered_settle hL hc
  | refund => exact covered_refund hL hc
  | resetDue env o plan subId => exact covered_resetDue hL env o plan subId
  | adminResetUser env o userId planId advance =>
    exact covered_adminResetUser hL env o userId planId advance
  | adminResetPlan env o planId advance => exact covered_adminResetPlan hL env o planId advance

def Ledger.start (db : Db) : Ledger := ⟨db, fun _ => []⟩

/-- In every run, from any reachable tables, in which no request gives back more
than it was charged since the last reset, every used amount covers the charges
made since the last reset that have not been given back. The amounts are exact, so
this is the code's behaviour as long as fewer than `2 ^ 63` units have been asked for
(`run_usedAtMost`). -/
theorem used_covers_outstanding {db : Db} (hdb : Reachable db) (l : List Activity)
    (hl : Guarded ledgerStep WithinPeriod (.start db) l) :
    Covered (run ledgerStep (.start db) l) := by
  refine hl.invariant (fun _ _ hL hc => covered_step hL hc) ?_
  intro s hs
  exact (hdb.inBounds s hs).1

/-- A request is charged 5 units and settled at 3 of them; then the row is reset,
and a second request is charged and refunded. -/
theorem purchased_covers_outstanding :
    Covered (run ledgerStep (.start purchased)
      [.preConsume (utcEnv 100001) .good "request-1" 1 5, .settle .good "request-1" 1 (-2),
        .preConsume (utcEnv 180000) .good "request-2" 1 3, .refund .good "request-2"]) :=
  used_covers_outstanding purchased_reachable _ (by decide)

/-- A request charged 5 units before the daily reset is refunded after it: the
usage of the request charged in the new period is erased, while its 3 units are
still outstanding. -/
theorem refund_erases_later_usage :
    let L := run ledgerStep (.start purchased)
      [.preConsume (utcEnv 100001) .good "request-1" 1 5,
        .preConsume (utcEnv 180000) .good "request-2" 1 3, .refund .good "request-1"]
    usedOf L.db 1 = some 0 ∧ L.out 1 = [("request-2", 3)] := by
  decide

end Qapi.Subscription
