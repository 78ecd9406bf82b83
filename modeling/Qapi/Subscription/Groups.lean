import Qapi.Subscription.Bounds

/-!
# Undoing the group upgrades of a user

Purchases raise the group of a user, and the end of a subscription takes that back:
through the expiry job, or by an administrator who invalidates or deletes it. `History`
records beside the tables what the outcome is measured by: the group that the user had
before the first of the overlapping upgrades, which subscription that was, and the one
that ended last.

A subscription remembers only the group at its own purchase, and only if it changed that
group. So the group before the overlapping upgrades comes back if the subscription that
ends last is the one that was bought first and the user is still in its group, or if it
names the group to fall back to; a user who renews a plan keeps its group for good.
-/

namespace Qapi.Groups

open Qapi.Core Subscription List Function Table

/-- What can happen to subscriptions. The expiry is that of one user, as the job performs it. -/
inductive Event
  | purchase (env : Env) (o : Outcome) (newId userId : Int) (plan : Plan)
  | expire (o : Outcome) (now userId : Int)
  | invalidate (env : Env) (o : Outcome) (subId : Int)
  | delete (env : Env) (o : Outcome) (subId : Int)

/-- The tables; the group of the user before the first of the overlapping upgrades, and the id of
that upgrade; the subscription of the user that ended last; and when the expiry last ran. -/
structure History where
  db : Db
  base : String
  first : Int
  last : Option UserSubscription
  swept : Int

def upgraded (userId : Int) (s : UserSubscription) : Bool :=
  s.userId = userId && s.status = .active && s.upgradeGroup ≠ ""

/-- Every active subscription of the user with an upgrade group satisfies `p`. -/
def OpenOnly (userId : Int) (p : UserSubscription → Bool) (db : Db) : Prop :=
  ∀ s ∈ db.subs.rows, upgraded userId s = true → p s = true

instance (userId : Int) (p : UserSubscription → Bool) (db : Db) :
    Decidable (OpenOnly userId p db) :=
  inferInstanceAs (Decidable (∀ s ∈ db.subs.rows, _ → _))

def NoneOpen (userId : Int) (db : Db) : Prop := OpenOnly userId (fun _ => false) db

instance (userId : Int) (db : Db) : Decidable (NoneOpen userId db) :=
  inferInstanceAs (Decidable (OpenOnly userId _ db))

/-- The subscriptions of the user that an expiry ends. -/
def closes (now userId : Int) (s : UserSubscription) : Bool :=
  upgraded userId s && s.endTime > 0 && s.endTime ≤ now

/-- Of the subscriptions that an expiry ends, the one with the last end. -/
def closedLast (now userId : Int) (db : Db) : Option UserSubscription :=
  ((db.subs.rows.filter (closes now userId)).insertionSort endsBefore).getLast?

def ofUser (userId : Int) (row : Option UserSubscription) : Option UserSubscription :=
  row.filter fun s => s.userId = userId

/-- An event, with the record of what it means for the user. -/
def step (userId : Int) (h : History) : Event → History
  | .purchase env o newId buyer plan =>
    match purchase env o newId buyer plan h.db with
    | .ok (sub, db) =>
      if buyer = userId ∧ NoneOpen userId h.db then
        { h with db := db, base := h.db.groups userId, first := sub.id }
      else { h with db := db }
    | .error _ => h
  | .expire o now v =>
    match expireUserTx o now v h.db with
    | .ok (_, db) =>
      if v = userId then
        { h with db := db, last := (closedLast now userId h.db).or h.last, swept := now }
      else { h with db := db }
    | .error _ => h
  | .invalidate env o subId =>
    match adminInvalidateUserSubscription env o subId h.db with
    | .ok (_, db) => { h with db := db, last := (ofUser userId (h.db.subs.find? subId)).or h.last }
    | .error _ => h
  | .delete env o subId =>
    match adminDeleteUserSubscription env o subId h.db with
    | .ok (_, db) => { h with db := db, last := (ofUser userId (h.db.subs.find? subId)).or h.last }
    | .error _ => h

/-- The group to fall back to when the row ended last: the one it names, or else the one before
the overlapping upgrades. -/
def fallback (base : String) (s : UserSubscription) : String :=
  if trimSpace s.downgradeGroup ≠ "" then trimSpace s.downgradeGroup else base

/-- The group that the user should be in without an active upgrade. -/
def History.expected (h : History) : String := h.last.elim h.base (fallback h.base)

variable {s : UserSubscription}

theorem expected_of_last {h : History} (hLast : h.last = some s) :
    h.expected = fallback h.base s := by
  rw [History.expected, hLast, Option.elim_some]

/-! ## The group after the end of a subscription -/

def IsGroup (g : String) : Prop := trimSpace g = g ∧ g ≠ ""

instance (g : String) : Decidable (IsGroup g) := inferInstanceAs (Decidable (_ ∧ _))

/-- The group of a user in the group `current` when the row ends and no other upgrade is active. -/
def regroup (s : UserSubscription) (current : String) : String :=
  (downgradeTarget s current).getD current

theorem regroup_status (s : UserSubscription) (status : SubStatus) (current : String) :
    regroup { s with status := status } current = regroup s current := rfl

theorem getD_target (target current : String) :
    (if target = "" ∨ target = current then none else some target).getD current =
      if target = "" then current else target := by
  by_cases hEmpty : target = ""
  · rw [if_pos (Or.inl hEmpty), if_pos hEmpty, Option.getD_none]
  rw [if_neg hEmpty]
  by_cases hSame : target = current
  · rw [if_pos (Or.inr hSame), Option.getD_none, hSame]
  · rw [if_neg (not_or.mpr ⟨hEmpty, hSame⟩), Option.getD_some]

theorem regroup_of_named (h : trimSpace s.downgradeGroup ≠ "") (current : String) :
    regroup s current = trimSpace s.downgradeGroup := by
  unfold regroup downgradeTarget
  rw [getD_target, if_pos h, if_neg h]

theorem regroup_of_other (h : trimSpace s.downgradeGroup = "") {current : String}
    (hOther : current ≠ trimSpace s.upgradeGroup) : regroup s current = current := by
  unfold regroup downgradeTarget
  rw [getD_target, if_neg (not_not.mpr h), if_pos hOther, if_pos rfl]

/-- A row that names no group takes a user who is in its group back to the group that it
remembers, if it does. -/
theorem regroup_of_raised (h : trimSpace s.downgradeGroup = "") :
    regroup s (trimSpace s.upgradeGroup) =
      if trimSpace s.prevUserGroup = "" then trimSpace s.upgradeGroup
      else trimSpace s.prevUserGroup := by
  unfold regroup downgradeTarget
  rw [getD_target, if_neg (not_not.mpr h), if_neg (not_not.mpr rfl)]

/-- An expiry and an administrator fall back to the same group. -/
theorem expiryTarget_getD (s : UserSubscription) {current : String} (h : current ≠ "") :
    (expiryTarget s current).getD current = regroup s current := by
  unfold expiryTarget
  rw [getD_target]
  by_cases hNamed : trimSpace s.downgradeGroup = ""
  · rw [if_neg (not_not.mpr hNamed)]
    by_cases hIn : current = trimSpace s.upgradeGroup
    · subst hIn
      rw [regroup_of_raised hNamed]
      by_cases hPrev : trimSpace s.prevUserGroup = ""
      · rw [if_pos (Or.inr (Or.inl hPrev)), if_pos rfl, if_pos hPrev]
      · have hRaised : ¬ (trimSpace s.upgradeGroup = "" ∨ trimSpace s.prevUserGroup = "" ∨
            trimSpace s.upgradeGroup ≠ trimSpace s.upgradeGroup) := by
          rintro (hUp | hNone | hOut)
          · exact h hUp
          · exact hPrev hNone
          · exact hOut rfl
        rw [if_neg hRaised]
    · rw [regroup_of_other hNamed hIn, if_pos (Or.inr (Or.inr hIn)), if_pos rfl]
  · rw [regroup_of_named hNamed, if_pos hNamed, if_neg hNamed]

theorem regroup_isGroup (s : UserSubscription) {current : String} (h : IsGroup current) :
    IsGroup (regroup s current) := by
  by_cases hNamed : trimSpace s.downgradeGroup = ""
  · by_cases hIn : current = trimSpace s.upgradeGroup
    · subst hIn
      rw [regroup_of_raised hNamed]
      by_cases hPrev : trimSpace s.prevUserGroup = ""
      · rw [if_pos hPrev]
        exact h
      · rw [if_neg hPrev]
        exact ⟨trimSpace_trimSpace _, hPrev⟩
    · rw [regroup_of_other hNamed hIn]
      exact h
  · rw [regroup_of_named hNamed]
    exact ⟨trimSpace_trimSpace _, hNamed⟩

/-! ## What the transactions do to the group -/

/-- The group of the row's user after the row has ended, with the other groups as they were: the
group falls back if no other upgrade is active, and at most in that way. -/
structure Regrouped (s : UserSubscription) (last : Bool) (groups groups' : Int → String) : Prop where
  others : ∀ v, v ≠ s.userId → groups' v = groups v
  keeps : groups s.userId ≠ "" →
    groups' s.userId = groups s.userId ∨ groups' s.userId = regroup s (groups s.userId)
  falls : groups s.userId ≠ "" → last = true → groups' s.userId = regroup s (groups s.userId)

theorem Regrouped.same {groups : Int → String} :
    Regrouped s false groups groups where
  others _ _ := rfl
  keeps _ := Or.inl rfl
  falls _ h := by cases h

variable {o : Outcome} {db db' : Db}

theorem downgradeUserGroup_ok {now : Int} {sub : UserSubscription} {g : String}
    (h : downgradeUserGroupForSubscriptionTx o now sub db = .ok (g, db')) :
    Regrouped sub (!hasUpgraded o now sub.userId (fun s => s.id ≠ sub.id) db) db.groups
      db'.groups := by
  unfold downgradeUserGroupForSubscriptionTx at h
  split at h
  · rename_i hNothing
    cases h
    refine ⟨fun _ _ => rfl, fun _ => Or.inl rfl, ?_⟩
    intro hGroup _
    rw [regroup_of_other hNothing.1]
    rw [hNothing.2]
    exact hGroup
  obtain ⟨current, hCurrent, h⟩ := of_bind h
  replace hCurrent := of_seq hCurrent
  replace hCurrent := of_seq hCurrent
  cases hCurrent
  split at h
  · rename_i hOther
    cases h
    rw [hOther]
    exact .same
  split at h
  · rename_i hTarget
    cases h
    have hSame : regroup sub (db.groups sub.userId) = db.groups sub.userId := by
      rw [regroup, hTarget, Option.getD_none]
    exact ⟨fun _ _ => rfl, fun _ => Or.inl rfl, fun _ _ => hSame.symm⟩
  · rename_i hTarget
    replace h := of_seq h
    cases h
    have hNew : (db.setGroup sub.userId g).groups sub.userId =
        regroup sub (db.groups sub.userId) := by
      rw [regroup, hTarget, Option.getD_some]
      exact update_self ..
    refine ⟨?_, fun _ => Or.inr hNew, fun _ _ => hNew⟩
    intro v hv
    exact update_of_ne hv ..

def cancelled (now : Int) (s : UserSubscription) : UserSubscription :=
  { s with status := .cancelled, endTime := now }

theorem invalidate_ok {env : Env} {subId : Int} {g : String}
    (h : adminInvalidateUserSubscription env o subId db = .ok (g, db')) :
    ∃ sub, db.subs.find? subId = some sub ∧ db'.subs = db.subs.save (cancelled env.now sub) ∧
      Regrouped (cancelled env.now sub)
        (!hasUpgraded o env.now sub.userId (fun s => s.id ≠ sub.id)
          (db.saveSub (cancelled env.now sub))) db.groups db'.groups := by
  replace h := of_seq h
  replace h := of_seq h
  obtain ⟨sub, hFind, h⟩ := of_bind h
  replace h := of_seq h
  obtain ⟨⟨g', db₁⟩, hDowngrade, h⟩ := of_bind h
  replace h := of_seq h
  cases h
  exact ⟨sub, found_eq_ok.mp hFind, downgradeUserGroup_subs hDowngrade,
    downgradeUserGroup_ok hDowngrade⟩

theorem delete_ok {env : Env} {subId : Int} {g : String}
    (h : adminDeleteUserSubscription env o subId db = .ok (g, db')) :
    ∃ sub, db.subs.find? subId = some sub ∧
      db'.subs = db.subs.delete (fun s => s.id = subId) ∧
      Regrouped sub (!hasUpgraded o env.now sub.userId (fun s => s.id ≠ sub.id) db) db.groups
        db'.groups := by
  replace h := of_seq h
  replace h := of_seq h
  obtain ⟨sub, hFind, h⟩ := of_bind h
  obtain ⟨⟨g', db₁⟩, hDowngrade, h⟩ := of_bind h
  replace h := of_seq h
  replace h := of_seq h
  cases h
  refine ⟨sub, found_eq_ok.mp hFind, ?_, ?_⟩
  · dsimp only
    rw [downgradeUserGroup_subs hDowngrade]
  · have hRegrouped := downgradeUserGroup_ok hDowngrade
    exact hRegrouped

/-- What an expiry does: it marks the rows that are due, and the group falls back by the row that
expired last if no upgrade is active. -/
structure Expired (o : Outcome) (now userId : Int) (db db' : Db) : Prop where
  subs : db'.subs = (expireRows now userId db).subs
  others : ∀ v, v ≠ userId → db'.groups v = db.groups v
  keeps : db.groups userId ≠ "" → db'.groups userId = db.groups userId ∨
    ∃ s, db'.groups userId = regroup s (db.groups userId)
  falls : db.groups userId ≠ "" →
    hasUpgraded o now userId (fun _ => true) (expireRows now userId db) = false →
    o (.findExpired userId) = none → ∀ s, lastExpired userId (expireRows now userId db) = some s →
    db'.groups userId = regroup s (db.groups userId)

theorem expireUser_ok {now userId : Int} {u : Unit}
    (h : expireUserTx o now userId db = .ok (u, db')) : Expired o now userId db db' := by
  replace h := of_seq h
  obtain ⟨db₁, hExpire, h⟩ := of_bind h
  replace h := of_seq h
  cases h
  have hSubs := expireGroupTx_subs hExpire
  have hGroups : (expireRows now userId db).groups = db.groups := rfl
  unfold expireGroupTx at hExpire
  split at hExpire
  · rename_i hOther
    cases hExpire
    refine ⟨hSubs, fun _ _ => rfl, fun _ => Or.inl rfl, ?_⟩
    intro _ hNone
    rw [hOther] at hNone
    cases hNone
  split at hExpire
  · rename_i last hFound hLast
    obtain ⟨current, hCurrent, hExpire⟩ := of_bind hExpire
    replace hCurrent := of_seq hCurrent
    replace hCurrent := of_seq hCurrent
    cases hCurrent
    have hThis : ∀ s, lastExpired userId (expireRows now userId db) = some s → s = last := by
      intro s hs
      exact Option.some.inj (hs.symm.trans hLast)
    split at hExpire
    · rename_i hNone
      cases hExpire
      refine ⟨hSubs, fun _ _ => rfl, fun _ => Or.inl rfl, ?_⟩
      intro hGroup _ _ s hs
      rw [hGroups] at hNone ⊢
      rw [hThis s hs, ← expiryTarget_getD last hGroup, hNone, Option.getD_none]
    · rename_i target hSome
      replace hExpire := of_seq hExpire
      cases hExpire
      have hNew : db.groups userId ≠ "" →
          ((expireRows now userId db).setGroup userId target).groups userId =
            regroup last (db.groups userId) := by
        intro hGroup
        rw [hGroups] at hSome
        rw [← expiryTarget_getD last hGroup, hSome, Option.getD_some]
        exact update_self ..
      refine ⟨hSubs, ?_, fun hGroup => Or.inr ⟨last, hNew hGroup⟩, ?_⟩
      · intro v hv
        exact update_of_ne hv ..
      · intro hGroup _ _ s hs
        rw [hThis s hs]
        exact hNew hGroup
  · rename_i hNone
    cases hExpire
    refine ⟨hSubs, fun _ _ => rfl, fun _ => Or.inl rfl, ?_⟩
    intro _ _ hFound s hs
    exact (hNone s hFound hs).elim

theorem upgradeGroupTx_others {userId : Int} {plan : Plan} {prev : String}
    (h : upgradeGroupTx o userId plan db = .ok (prev, db')) {v : Int} (hv : v ≠ userId) :
    db'.groups v = db.groups v := by
  unfold upgradeGroupTx at h
  dsimp only at h
  split at h
  · cases h
    rfl
  obtain ⟨current, -, h⟩ := of_bind h
  split at h
  · cases h
    rfl
  · replace h := of_seq h
    cases h
    exact update_of_ne hv ..

/-- What a purchase does to the group, and what it remembers. -/
theorem upgradeGroupTx_ok {userId : Int} {plan : Plan} {prev : String}
    (hPlan : trimSpace plan.upgradeGroup ≠ "")
    (h : upgradeGroupTx o userId plan db = .ok (prev, db')) :
    db'.groups userId = trimSpace plan.upgradeGroup ∧
      (prev = db.groups userId ∨ (prev = "" ∧ db.groups userId = trimSpace plan.upgradeGroup)) := by
  unfold upgradeGroupTx at h
  rw [if_neg hPlan] at h
  obtain ⟨current, hCurrent, h⟩ := of_bind h
  replace hCurrent := of_seq hCurrent
  replace hCurrent := of_seq hCurrent
  cases hCurrent
  split at h
  · rename_i hSame
    cases h
    exact ⟨hSame, Or.inr ⟨rfl, hSame⟩⟩
  · replace h := of_seq h
    cases h
    exact ⟨update_self .., Or.inl rfl⟩

/-! ## Histories and their condition -/

def EndsLater (env : Env) (plan : Plan) : Prop :=
  match calcPlanEndTime env.location env.now plan with
  | .ok endUnix => env.now < endUnix
  | .error _ => True

instance (env : Env) (plan : Plan) : Decidable (EndsLater env plan) :=
  match h : calcPlanEndTime env.location env.now plan with
  | .ok endUnix => decidable_of_iff (env.now < endUnix) (by simp only [EndsLater, h])
  | .error _ => isTrue (by simp only [EndsLater, h])

/-- What a history consists of: the user buys plans with an upgrade group, which get new ids; time
goes on; and an administrator ends subscriptions that have not ended. -/
def Regular (userId : Int) (h : History) : Event → Prop
  | .purchase env _ newId buyer plan => buyer = userId →
      trimSpace plan.upgradeGroup ≠ "" ∧ h.first < newId ∧ h.swept ≤ env.now ∧ EndsLater env plan
  | .expire _ now v => v = userId → h.swept ≤ now
  | .invalidate _ _ subId | .delete _ _ subId =>
      ∀ s ∈ h.db.subs.find? subId, s.userId = userId → s.status = .active

instance (userId : Int) (h : History) : ∀ e, Decidable (Regular userId h e)
  | .purchase _ _ _ _ _ => inferInstanceAs (Decidable (_ → _ ∧ _ ∧ _ ∧ _))
  | .expire _ _ _ => inferInstanceAs (Decidable (_ → _))
  | .invalidate _ _ subId => inferInstanceAs (Decidable (∀ s ∈ h.db.subs.find? subId, _ → _))
  | .delete _ _ subId => inferInstanceAs (Decidable (∀ s ∈ h.db.subs.find? subId, _ → _))

/-- The row names the group to fall back to, or it is the first of the overlapping upgrades and
the user is still in its group. -/
def Restores (userId : Int) (h : History) (s : UserSubscription) : Prop :=
  trimSpace s.downgradeGroup ≠ "" ∨
    (s.id = h.first ∧ h.db.groups userId = trimSpace s.upgradeGroup)

instance (userId : Int) (h : History) (s : UserSubscription) : Decidable (Restores userId h s) :=
  inferInstanceAs (Decidable (_ ∨ _ ∧ _))

/-- The condition on an event: when it ends all the upgrades that are left, the one that ends last
restores the group. An expiry has to close one, and to find what it has closed. -/
def EndsWell (userId : Int) (h : History) : Event → Prop
  | .purchase _ _ _ _ _ => True
  | .expire o now v => v = userId → OpenOnly userId (closes now userId) h.db →
      o (.findExpired userId) = none ∧
        ∃ s ∈ closedLast now userId h.db, Restores userId h s
  | .invalidate _ _ subId | .delete _ _ subId =>
      ∀ s ∈ h.db.subs.find? subId, s.userId = userId →
        OpenOnly userId (fun t => t.id = subId) h.db → Restores userId h s

instance (userId : Int) (h : History) : ∀ e, Decidable (EndsWell userId h e)
  | .purchase _ _ _ _ _ => inferInstanceAs (Decidable True)
  | .expire _ now _ =>
    inferInstanceAs (Decidable (_ → _ → _ ∧ ∃ s ∈ closedLast now userId h.db, Restores userId h s))
  | .invalidate _ _ subId => inferInstanceAs (Decidable (∀ s ∈ h.db.subs.find? subId, _ → _ → _))
  | .delete _ _ subId => inferInstanceAs (Decidable (∀ s ∈ h.db.subs.find? subId, _ → _ → _))

/-! ## The invariant -/

/-- A row of the user has an upgrade group; if it has expired it had ended when the expiry last
ran, and if it is active it had not. -/
structure RowOk (userId swept : Int) (s : UserSubscription) : Prop where
  upgrade : s.userId = userId → s.upgradeGroup ≠ ""
  expired : s.userId = userId → s.status = .expired → s.endTime ≤ swept
  active : s.userId = userId → s.status = .active → 0 < s.endTime → swept < s.endTime

/-- The first of the overlapping upgrades remembers the group before it, and without an active
upgrade the user is in the group that is expected. -/
structure Inv (userId : Int) (h : History) : Prop where
  group : IsGroup (h.db.groups userId)
  base : IsGroup h.base
  rows : h.db.AllRows (RowOk userId h.swept)
  opener : ∀ s ∈ h.db.subs, upgraded userId s = true → s.id = h.first →
    s.prevUserGroup = h.base ∨ (s.prevUserGroup = "" ∧ h.base = trimSpace s.upgradeGroup)
  undone : NoneOpen userId h.db → h.db.groups userId = h.expected

section

variable {userId : Int} {h : History}

variable {s : UserSubscription}

theorem upgraded_eq_true :
    upgraded userId s = true ↔
      s.userId = userId ∧ s.status = .active ∧ s.upgradeGroup ≠ "" := by
  simp [upgraded, and_assoc]

variable {now : Int}

theorem closes_eq_true :
    closes now userId s = true ↔ upgraded userId s = true ∧ 0 < s.endTime ∧ s.endTime ≤ now := by
  simp [closes, and_assoc]

variable {o : Outcome} {db : Db}

/-- A row of the user that is chargeable is an active upgrade. -/
theorem hasUpgraded_eq_false {other : UserSubscription → Bool}
    (hOther : ∀ s ∈ db.subs, upgraded userId s = true → s.endTime ≤ now ∨ other s = false) :
    hasUpgraded o now userId other db = false := by
  unfold hasUpgraded
  rw [Bool.and_eq_false_iff]
  right
  rw [any_eq_false]
  intro s hs hFound
  simp only [chargeable, Bool.and_eq_true, decide_eq_true_eq] at hFound
  obtain ⟨⟨⟨⟨hUser, hActive⟩, hEnd⟩, hIsOther⟩, hUp⟩ := hFound
  rcases hOther s hs (upgraded_eq_true.mpr ⟨hUser, hActive, hUp⟩) with hDue | hNot
  · omega
  · rw [hIsOther] at hNot
    cases hNot

/-- The end of a row that restores the group takes the user to the group that is expected. -/
theorem Inv.regroup (hInv : Inv userId h) (hs : s ∈ h.db.subs) (hOpen : upgraded userId s = true)
    (hRestores : Restores userId h s) :
    Groups.regroup s (h.db.groups userId) = fallback h.base s := by
  unfold fallback
  by_cases hNamed : trimSpace s.downgradeGroup = ""
  · rw [if_neg (not_not.mpr hNamed)]
    obtain ⟨hFirst, hIn⟩ := hRestores.resolve_left (not_not.mpr hNamed)
    rw [hIn, regroup_of_raised hNamed]
    rcases hInv.opener s hs hOpen hFirst with hPrev | ⟨hPrev, hBase⟩
    · rw [hPrev, hInv.base.1, if_neg hInv.base.2]
    · have hTrim : trimSpace s.prevUserGroup = "" := by
        rw [hPrev]
        decide
      rw [if_pos hTrim, hBase]
  · rw [if_pos hNamed, regroup_of_named hNamed]

/-- What ends no subscription of the user and leaves their group alone keeps the invariant. -/
theorem Inv.frame (hInv : Inv userId h) (hGroup : db.groups userId = h.db.groups userId)
    (hRows : db.AllRows (RowOk userId h.swept))
    (hSame : ∀ s, s.userId = userId → (s ∈ db.subs ↔ s ∈ h.db.subs)) :
    Inv userId { h with db := db } where
  group := by
    show IsGroup (db.groups userId)
    rw [hGroup]
    exact hInv.group
  base := hInv.base
  rows := hRows
  opener s hs hOpen hFirst :=
    hInv.opener s ((hSame s (upgraded_eq_true.mp hOpen).1).mp hs) hOpen hFirst
  undone hNone := by
    show db.groups userId = h.expected
    rw [hGroup]
    apply hInv.undone
    intro s hs hOpen
    exact hNone s ((hSame s (upgraded_eq_true.mp hOpen).1).mpr hs) hOpen

/-! ### Purchase -/

theorem RowOk.of_other {swept : Int} (hUser : s.userId ≠ userId) :
    RowOk userId swept s where
  upgrade h := absurd h hUser
  expired h := absurd h hUser
  active h := absurd h hUser

variable {sub : UserSubscription}

theorem Inv.purchase_other (hInv : Inv userId h) {env : Env} {newId buyer : Int} {plan : Plan}
    (hBuyer : buyer ≠ userId) (hPurchased : Purchased env o newId buyer plan h.db sub db) :
    Inv userId { h with db := db } := by
  obtain ⟨endUnix, prev, -, hGroup, hRow⟩ := hPurchased.row
  have hOwner : sub.userId ≠ userId := by
    rw [hRow]
    exact hBuyer
  refine hInv.frame (upgradeGroupTx_others hGroup (Ne.symm hBuyer)) ?_ ?_
  · intro s hs
    rcases (mem_create hPurchased.created).mp hs with hNew | hOld
    · rw [hNew]
      exact .of_other hOwner
    · exact hInv.rows s hOld
  · intro s hs
    rw [mem_create hPurchased.created]
    constructor
    · rintro (hNew | hOld)
      · rw [hNew] at hs
        exact absurd hs hOwner
      · exact hOld
    · exact Or.inr

structure Bought (userId : Int) (h : History) (newId : Int) (sub : UserSubscription) (db : Db) :
    Prop where
  id : sub.id = newId
  isOpen : upgraded userId sub = true
  ok : RowOk userId h.swept sub
  group : IsGroup (db.groups userId)
  prev : sub.prevUserGroup = h.db.groups userId ∨
    (sub.prevUserGroup = "" ∧ h.db.groups userId = trimSpace sub.upgradeGroup)

theorem Purchased.bought {env : Env} {newId : Int} {plan : Plan}
    (hPlan : trimSpace plan.upgradeGroup ≠ "") (hNow : h.swept ≤ env.now)
    (hLater : EndsLater env plan) (hPurchased : Purchased env o newId userId plan h.db sub db) :
    Bought userId h newId sub db := by
  obtain ⟨endUnix, prev, hEnd, hGroup, hRow⟩ := hPurchased.row
  obtain ⟨hNew, hPrev⟩ := upgradeGroupTx_ok hPlan hGroup
  unfold EndsLater at hLater
  rw [hEnd] at hLater
  subst hRow
  refine ⟨rfl, upgraded_eq_true.mpr ⟨rfl, rfl, hPlan⟩, ⟨fun _ => hPlan, ?_, ?_⟩, ?_, ?_⟩
  · intro _ hExpired
    cases hExpired
  · intro _ _ _
    show h.swept < endUnix
    exact lt_of_le_of_lt hNow hLater
  · show IsGroup (db.groups userId)
    have hIs : db.groups userId = trimSpace plan.upgradeGroup := hNew
    rw [hIs]
    exact ⟨trimSpace_trimSpace _, hPlan⟩
  · show prev = _ ∨ (prev = "" ∧ _ = trimSpace (trimSpace plan.upgradeGroup))
    rw [trimSpace_trimSpace]
    exact hPrev

theorem Inv.bought (hInv : Inv userId h) {newId : Int} (hBought : Bought userId h newId sub db)
    (hFirst : h.first < newId) (hCreated : h.db.subs.create sub = some db.subs) :
    Inv userId (if NoneOpen userId h.db then
      { h with db := db, base := h.db.groups userId, first := sub.id } else { h with db := db }) := by
  have hRows : db.AllRows (RowOk userId h.swept) := by
    intro s hs
    rcases (mem_create hCreated).mp hs with hNew | hOld
    · rw [hNew]
      exact hBought.ok
    · exact hInv.rows s hOld
  have hOpen : ¬ NoneOpen userId db := by
    intro hNone
    have hSub : sub ∈ db.subs := (mem_create hCreated).mpr (Or.inl rfl)
    cases hNone sub hSub hBought.isOpen
  split
  · rename_i hNone
    refine ⟨hBought.group, hInv.group, hRows, ?_, fun hEmpty => absurd hEmpty hOpen⟩
    intro s hs hUp _
    rcases (mem_create hCreated).mp hs with hNew | hOld
    · rw [hNew]
      exact hBought.prev
    · cases hNone s hOld hUp
  · refine ⟨hBought.group, hInv.base, hRows, ?_, fun hEmpty => absurd hEmpty hOpen⟩
    intro s hs hUp hIs
    rcases (mem_create hCreated).mp hs with hNew | hOld
    · have hId : newId = h.first := by
        rw [← hBought.id, ← hNew]
        exact hIs
      omega
    · exact hInv.opener s hOld hUp hIs

/-! ### Expiry -/

theorem mem_expireRows {v : Int} :
    s ∈ (expireRows now v db).subs ↔ ∃ r ∈ db.subs,
      s = if r.userId = v && dueToExpire now r then { r with status := .expired } else r := by
  rw [expireRows, mem_modify]

theorem Inv.expire_other (hInv : Inv userId h) {v : Int} (hv : v ≠ userId)
    (hExpired : Expired o now v h.db db) : Inv userId { h with db := db } := by
  have hKept : ∀ r : UserSubscription, r.userId = userId →
      (r.userId = v && dueToExpire now r) = false := by
    intro r hr
    simp [hr, Ne.symm hv]
  refine hInv.frame (hExpired.others userId (Ne.symm hv)) ?_ ?_
  · intro s hs
    rw [hExpired.subs, mem_expireRows] at hs
    obtain ⟨r, hr, rfl⟩ := hs
    by_cases hUser : r.userId = userId
    · rw [hKept r hUser]
      exact hInv.rows r hr
    · apply RowOk.of_other
      split
      · exact hUser
      · exact hUser
  · intro s hs
    rw [hExpired.subs, mem_expireRows]
    constructor
    · rintro ⟨r, hr, rfl⟩
      have hUser : r.userId = userId := by
        rw [← hs]
        split <;> rfl
      rw [hKept r hUser]
      exact hr
    · intro hOld
      refine ⟨s, hOld, ?_⟩
      rw [hKept s hs]
      rfl

section

variable {now : Int}

/-- For a row of the user, to be due is to be closed. -/
theorem due_eq_closes (hRows : h.db.AllRows (RowOk userId h.swept)) {r : UserSubscription}
    (hr : r ∈ h.db.subs) : (r.userId = userId && dueToExpire now r) = closes now userId r := by
  by_cases hUser : r.userId = userId
  · have hUp := (hRows r hr).upgrade hUser
    simp [dueToExpire, closes, upgraded, hUser, hUp]
  · simp [closes, upgraded, hUser]

theorem mem_expireRows_user (hRows : h.db.AllRows (RowOk userId h.swept)) {s : UserSubscription} :
    s ∈ (expireRows now userId h.db).subs ↔ ∃ r ∈ h.db.subs,
      s = if closes now userId r then { r with status := .expired } else r := by
  rw [mem_expireRows]
  constructor
  · rintro ⟨r, hr, hs⟩
    rw [due_eq_closes hRows hr] at hs
    exact ⟨r, hr, hs⟩
  · rintro ⟨r, hr, hs⟩
    rw [← due_eq_closes hRows hr] at hs
    exact ⟨r, hr, hs⟩

/-- Time goes on, so the row that expired last is one of those that were closed just now. -/
theorem lastExpired_expireRows (hRows : h.db.AllRows (RowOk userId h.swept))
    {x : UserSubscription} (hx : closedLast now userId h.db = some x) :
    lastExpired userId (expireRows now userId h.db) = some { x with status := .expired } := by
  have hMem := mem_filter.mp (mem_of_getLast?_insertionSort hx)
  obtain ⟨hOpen, hPos, hDue⟩ := closes_eq_true.mp hMem.2
  obtain ⟨hUser, hActive, hUp⟩ := upgraded_eq_true.mp hOpen
  unfold lastExpired
  apply getLast?_insertionSort
  · rw [mem_filter]
    refine ⟨(mem_expireRows_user hRows).mpr ⟨x, hMem.1, ?_⟩, ?_⟩
    · rw [if_pos hMem.2]
    · simp [hUser, hUp]
  · intro y hy hAfter
    obtain ⟨hyMem, hyExpired⟩ := mem_filter.mp hy
    obtain ⟨r, hr, rfl⟩ := (mem_expireRows_user hRows).mp hyMem
    split at hAfter
    · rename_i hCloses
      have hBefore : endsBefore r x :=
        le_of_getLast?_insertionSort hx (mem_filter.mpr ⟨hr, hCloses⟩)
      have hId : r.id = x.id := by
        unfold endsBefore at hBefore hAfter
        dsimp only at hAfter
        omega
      rw [if_pos hCloses, eq_of_key hr hMem.1 hId]
    · rename_i hKept
      rw [if_neg hKept] at hyExpired
      simp only [Bool.and_eq_true, decide_eq_true_eq] at hyExpired
      have hOld := (hRows r hr).expired hyExpired.1.1 hyExpired.1.2
      have hNew := (hRows x hMem.1).active hUser hActive hPos
      unfold endsBefore at hAfter
      dsimp only at hAfter
      omega

theorem expire_rows (hRows : h.db.AllRows (RowOk userId h.swept)) (hNow : h.swept ≤ now) :
    (expireRows now userId h.db).AllRows (RowOk userId now) := by
  intro s hs
  obtain ⟨r, hr, rfl⟩ := (mem_expireRows_user hRows).mp hs
  split
  · rename_i hCloses
    refine ⟨(hRows r hr).upgrade, fun _ _ => (closes_eq_true.mp hCloses).2.2, ?_⟩
    intro _ hActive
    cases hActive
  · rename_i hKept
    refine ⟨(hRows r hr).upgrade, ?_, ?_⟩
    · intro hUser hExpired
      exact le_trans ((hRows r hr).expired hUser hExpired) hNow
    · intro hUser hActive hPos
      by_contra hDue
      apply hKept
      have hOpen : upgraded userId r = true :=
        upgraded_eq_true.mpr ⟨hUser, hActive, (hRows r hr).upgrade hUser⟩
      exact closes_eq_true.mpr ⟨hOpen, hPos, not_lt.mp hDue⟩

theorem mem_of_open_expireRows (hRows : h.db.AllRows (RowOk userId h.swept)) {s : UserSubscription}
    (hs : s ∈ (expireRows now userId h.db).subs) (hOpen : upgraded userId s = true) :
    s ∈ h.db.subs := by
  obtain ⟨r, hr, rfl⟩ := (mem_expireRows_user hRows).mp hs
  split at hOpen
  · cases (upgraded_eq_true.mp hOpen).2.1
  · rename_i hKept
    rw [if_neg hKept]
    exact hr

/-- Without an active upgrade after the expiry, it has closed all that were. -/
theorem openOnly_closes (hRows : h.db.AllRows (RowOk userId h.swept))
    (hNone : NoneOpen userId (expireRows now userId h.db)) :
    OpenOnly userId (closes now userId) h.db := by
  intro r hr hOpen
  by_contra hKept
  have hStays : r ∈ (expireRows now userId h.db).subs := by
    refine (mem_expireRows_user hRows).mpr ⟨r, hr, ?_⟩
    rw [if_neg hKept]
  cases hNone r hStays hOpen

end

theorem Inv.expire (hInv : Inv userId h) (hExpired : Expired o now userId h.db db)
    (hNow : h.swept ≤ now) (hWell : OpenOnly userId (closes now userId) h.db → o (.findExpired
      userId) = none ∧ ∃ s ∈ closedLast now userId h.db, Restores userId h s) :
    Inv userId
      { h with db := db, last := (closedLast now userId h.db).or h.last, swept := now } := by
  have hGroup := hInv.group.2
  refine ⟨?_, hInv.base, .of_subs hExpired.subs (expire_rows hInv.rows hNow), ?_, ?_⟩
  · show IsGroup (db.groups userId)
    rcases hExpired.keeps hGroup with hSame | ⟨s, hNew⟩
    · rw [hSame]
      exact hInv.group
    · rw [hNew]
      exact regroup_isGroup s hInv.group
  · intro s hs hOpen hFirst
    have hs' : s ∈ (expireRows now userId h.db).subs := hExpired.subs ▸ hs
    exact hInv.opener s (mem_of_open_expireRows hInv.rows hs' hOpen) hOpen hFirst
  · intro hNone
    have hNone' : NoneOpen userId (expireRows now userId h.db) := by
      intro s hs
      rw [← hExpired.subs] at hs
      exact hNone s hs
    obtain ⟨hFound, x, hx, hRestores⟩ := hWell (openOnly_closes hInv.rows hNone')
    have hMem := mem_filter.mp (mem_of_getLast?_insertionSort hx)
    have hNobody : hasUpgraded o now userId (fun _ => true) (expireRows now userId h.db) = false := by
      apply hasUpgraded_eq_false
      intro s hs hOpen
      cases hNone' s hs hOpen
    have hFalls := hExpired.falls hGroup hNobody hFound _ (lastExpired_expireRows hInv.rows hx)
    rw [regroup_status] at hFalls
    have hLast : (closedLast now userId h.db).or h.last = some x := by
      rw [Option.mem_def.mp hx]
      rfl
    rw [expected_of_last hLast]
    exact hFalls.trans (hInv.regroup hMem.1 (closes_eq_true.mp hMem.2).1 hRestores)

/-! ### The administrator -/

/-- An administrator ends the row `sub`: it is gone or cancelled, the others are as they were, and
the group of its user falls back. -/
structure EndedByAdmin (subId : Int) (sub : UserSubscription) (db db' : Db) : Prop where
  found : db.subs.find? subId = some sub
  rows : ∀ s ∈ db'.subs, (s ∈ db.subs ∧ s.id ≠ subId) ∨
    (s.status = .cancelled ∧ s.userId = sub.userId ∧ s.upgradeGroup = sub.upgradeGroup)
  others : ∀ s ∈ db.subs, s.id ≠ subId → s ∈ db'.subs
  otherGroups : ∀ v, v ≠ sub.userId → db'.groups v = db.groups v
  keeps : db.groups sub.userId ≠ "" → db'.groups sub.userId = db.groups sub.userId ∨
    db'.groups sub.userId = regroup sub (db.groups sub.userId)
  falls : db.groups sub.userId ≠ "" → NoneOpen sub.userId db' →
    db'.groups sub.userId = regroup sub (db.groups sub.userId)

variable {subId : Int}

theorem invalidate_ended {env : Env} {db' : Db} {g : String}
    (hOk : adminInvalidateUserSubscription env o subId db = .ok (g, db')) :
    ∃ sub, EndedByAdmin subId sub db db' := by
  obtain ⟨sub, hFind, hSubs, hRegrouped⟩ := invalidate_ok hOk
  have hKey : sub.id = subId := key_of_find? hFind
  refine ⟨sub, hFind, ?_, ?_, hRegrouped.others, hRegrouped.keeps, ?_⟩
  · intro s hs
    rw [hSubs] at hs
    rcases mem_save.mp hs with ⟨rfl, -⟩ | ⟨hOld, hId⟩
    · exact Or.inr ⟨rfl, rfl, rfl⟩
    · exact Or.inl ⟨hOld, hKey ▸ hId⟩
  · intro s hs hId
    rw [hSubs]
    exact mem_save.mpr (Or.inr ⟨hs, hKey ▸ hId⟩)
  · intro hGroup hNone
    refine hRegrouped.falls hGroup ?_
    rw [Bool.not_eq_true']
    apply hasUpgraded_eq_false
    intro s hs hOpen
    rw [Db.saveSub_subs, ← hSubs] at hs
    cases hNone s hs hOpen

theorem delete_ended {env : Env} {db' : Db} {g : String}
    (hOk : adminDeleteUserSubscription env o subId db = .ok (g, db')) :
    ∃ sub, EndedByAdmin subId sub db db' := by
  obtain ⟨sub, hFind, hSubs, hRegrouped⟩ := delete_ok hOk
  have hKey : sub.id = subId := key_of_find? hFind
  refine ⟨sub, hFind, ?_, ?_, hRegrouped.others, hRegrouped.keeps, ?_⟩
  · intro s hs
    rw [hSubs] at hs
    obtain ⟨hOld, hId⟩ := mem_delete.mp hs
    exact Or.inl ⟨hOld, of_decide_eq_false hId⟩
  · intro s hs hId
    rw [hSubs]
    exact mem_delete.mpr ⟨hs, decide_eq_false hId⟩
  · intro hGroup hNone
    refine hRegrouped.falls hGroup ?_
    rw [Bool.not_eq_true']
    apply hasUpgraded_eq_false
    intro s hs hOpen
    by_cases hId : s.id = sub.id
    · exact Or.inr (decide_eq_false (not_not.mpr hId))
    · have hStays : s ∈ db'.subs := by
        rw [hSubs]
        exact mem_delete.mpr ⟨hs, decide_eq_false (hKey ▸ hId)⟩
      cases hNone s hStays hOpen

theorem Inv.admin_other (hInv : Inv userId h) (hEnded : EndedByAdmin subId sub h.db db)
    (hUser : sub.userId ≠ userId) : Inv userId { h with db := db } := by
  refine hInv.frame (hEnded.otherGroups userId (Ne.symm hUser)) ?_ ?_
  · intro s hs
    rcases hEnded.rows s hs with ⟨hOld, -⟩ | ⟨-, hOwner, -⟩
    · exact hInv.rows s hOld
    · apply RowOk.of_other
      rw [hOwner]
      exact hUser
  · intro s hs
    constructor
    · intro hNew
      rcases hEnded.rows s hNew with ⟨hOld, -⟩ | ⟨-, hOwner, -⟩
      · exact hOld
      · rw [hs] at hOwner
        exact absurd hOwner.symm hUser
    · intro hOld
      refine hEnded.others s hOld ?_
      intro hId
      have hSub : s = sub :=
        eq_of_key hOld (mem_of_find? hEnded.found)
          (hId.trans (key_of_find? hEnded.found).symm)
      rw [hSub] at hs
      exact hUser hs

theorem Inv.admin (hInv : Inv userId h) (hEnded : EndedByAdmin subId sub h.db db)
    (hUser : sub.userId = userId) (hActive : sub.status = .active)
    (hWell : OpenOnly userId (fun t => t.id = subId) h.db → Restores userId h sub) :
    Inv userId { h with db := db, last := some sub } := by
  subst hUser
  have hGroup := hInv.group.2
  have hSub : sub ∈ h.db.subs := mem_of_find? hEnded.found
  refine ⟨?_, hInv.base, ?_, ?_, ?_⟩
  · show IsGroup (db.groups sub.userId)
    rcases hEnded.keeps hGroup with hSame | hNew
    · rw [hSame]
      exact hInv.group
    · rw [hNew]
      exact regroup_isGroup sub hInv.group
  · intro s hs
    rcases hEnded.rows s hs with ⟨hOld, -⟩ | ⟨hCancelled, -, hUp⟩
    · exact hInv.rows s hOld
    · refine ⟨?_, ?_, ?_⟩
      · intro _
        rw [hUp]
        exact (hInv.rows sub hSub).upgrade rfl
      · intro _ hExpired
        rw [hCancelled] at hExpired
        cases hExpired
      · intro _ hIsActive
        rw [hCancelled] at hIsActive
        cases hIsActive
  · intro s hs hOpen hFirst
    rcases hEnded.rows s hs with ⟨hOld, -⟩ | ⟨hCancelled, -, -⟩
    · exact hInv.opener s hOld hOpen hFirst
    · have hIsActive := (upgraded_eq_true.mp hOpen).2.1
      rw [hCancelled] at hIsActive
      cases hIsActive
  · intro hNone
    have hOnly : OpenOnly sub.userId (fun t => t.id = subId) h.db := by
      intro s hs hOpen
      by_contra hId
      cases hNone s (hEnded.others s hs (fun h => hId (decide_eq_true h))) hOpen
    have hOpen : upgraded sub.userId sub = true :=
      upgraded_eq_true.mpr ⟨rfl, hActive, (hInv.rows sub hSub).upgrade rfl⟩
    have hExpected : ({ h with db := db, last := some sub } : History).expected =
        fallback h.base sub := expected_of_last rfl
    rw [hExpected]
    exact (hEnded.falls hGroup hNone).trans (hInv.regroup hSub hOpen (hWell hOnly))

theorem Inv.adminStep (hInv : Inv userId h) (hEnded : EndedByAdmin subId sub h.db db)
    (hActive : ∀ s ∈ h.db.subs.find? subId, s.userId = userId → s.status = .active)
    (hWell : ∀ s ∈ h.db.subs.find? subId, s.userId = userId → OpenOnly userId (fun t => t.id =
      subId) h.db → Restores userId h s) :
    Inv userId
      { h with db := db, last := (ofUser userId (h.db.subs.find? subId)).or h.last } := by
  by_cases hUser : sub.userId = userId
  · have hLast : (ofUser userId (h.db.subs.find? subId)).or h.last = some sub := by
      rw [hEnded.found]
      simp [ofUser, hUser]
    rw [hLast]
    exact hInv.admin hEnded hUser (hActive sub hEnded.found hUser) (hWell sub hEnded.found hUser)
  · have hLast : (ofUser userId (h.db.subs.find? subId)).or h.last = h.last := by
      rw [hEnded.found]
      simp [ofUser, Option.filter, hUser]
    rw [hLast]
    exact hInv.admin_other hEnded hUser

theorem Inv.step (hInv : Inv userId h) {e : Event} (hRegular : Regular userId h e)
    (hWell : EndsWell userId h e) : Inv userId (Groups.step userId h e) := by
  cases e with
  | purchase env o newId buyer plan =>
    unfold Groups.step
    dsimp only
    split
    · rename_i sub db hOk
      have hPurchased := purchase_ok hOk
      by_cases hBuyer : buyer = userId
      · subst hBuyer
        obtain ⟨hPlan, hFirst, hNow, hLater⟩ := hRegular rfl
        have hBought := Purchased.bought hPlan hNow hLater hPurchased
        have hNext := hInv.bought hBought hFirst hPurchased.created
        simpa only [true_and] using hNext
      · rw [if_neg (fun hBoth => hBuyer hBoth.1)]
        exact hInv.purchase_other hBuyer hPurchased
    · exact hInv
  | expire o now v =>
    unfold Groups.step
    dsimp only
    split
    · rename_i db hOk
      have hExpired := expireUser_ok hOk
      by_cases hv : v = userId
      · subst hv
        rw [if_pos rfl]
        exact hInv.expire hExpired (hRegular rfl) (hWell rfl)
      · rw [if_neg hv]
        exact hInv.expire_other hv hExpired
    · exact hInv
  | invalidate env o subId =>
    unfold Groups.step
    dsimp only
    split
    · rename_i db hOk
      obtain ⟨sub, hEnded⟩ := invalidate_ended hOk
      exact hInv.adminStep hEnded hRegular hWell
    · exact hInv
  | delete env o subId =>
    unfold Groups.step
    dsimp only
    split
    · rename_i db hOk
      obtain ⟨sub, hEnded⟩ := delete_ended hOk
      exact hInv.adminStep hEnded hRegular hWell
    · exact hInv

end

/-- A user in the group `group` who has bought nothing yet. -/
structure Start (userId : Int) (h : History) : Prop where
  group : IsGroup (h.db.groups userId)
  rows : ∀ s ∈ h.db.subs, s.userId ≠ userId
  base : h.base = h.db.groups userId
  last : h.last = none

/-- In every history in which the subscription that ends last names the group to fall back to, or
is the first of the overlapping upgrades and the user is still in its group: without an active
upgrade the user is in the group that the last ended subscription names, or else in the one before
the first of the overlapping upgrades, however the subscriptions ended. -/
theorem upgrades_undone (userId : Int) {h : History} (hStart : Start userId h) {l : List Event}
    (hl : Guarded (step userId) (fun h e => Regular userId h e ∧ EndsWell userId h e) h l) :
    let h' := run (step userId) h l
    NoneOpen userId h'.db → h'.db.groups userId = h'.expected := by
  intro h'
  have hFirst : Inv userId h := by
    refine ⟨hStart.group, ?_, ?_, ?_, ?_⟩
    · rw [hStart.base]
      exact hStart.group
    · intro s hs
      exact .of_other (hStart.rows s hs)
    · intro s hs hOpen
      exact absurd (upgraded_eq_true.mp hOpen).1 (hStart.rows s hs)
    · intro _
      rw [History.expected, hStart.last, ← hStart.base]
      rfl
  have hInv : Inv userId h' :=
    hl.invariant (fun _ _ hInv he => hInv.step he.1 he.2) hFirst
  exact hInv.undone

def groupPlan (id : Int) (upgradeGroup downgradeGroup : String) : Plan :=
  { monthPlan with id := id, durationUnit := .day, quotaResetPeriod := "never",
                   upgradeGroup := upgradeGroup, downgradeGroup := downgradeGroup }

def newUser : History := ⟨.initial fun _ => "default", "default", 0, none, 0⟩

theorem newUser_start : Start 1 newUser where
  group := by decide
  rows s hs := absurd hs (not_mem_empty s)
  base := rfl
  last := rfl

/-- The user renews a plan, the administrator cancels the renewal, and the first one expires; then
they buy a plan that names the group to fall back to, which is deleted. -/
theorem cancelled_renewal_undone :
    let l : List Event := [
      .purchase (utcEnv 100) .good 1 1 (groupPlan 1 "vip" ""),
      .purchase (utcEnv 200) .good 2 1 (groupPlan 1 "vip" ""),
      .invalidate (utcEnv 300) .good 2, .expire .good 90000 1,
      .purchase (utcEnv 90100) .good 3 1 (groupPlan 2 "svip" "free"),
      .delete (utcEnv 90200) .good 3]
    ((run (step 1) newUser (l.take 4)).db.groups 1 = "default") ∧
      (run (step 1) newUser l).db.groups 1 = (run (step 1) newUser l).expected ∧
      (run (step 1) newUser l).expected = "free" := by
  intro l
  have hl : Guarded (step 1) (fun h e => Regular 1 h e ∧ EndsWell 1 h e) newUser l := by
    decide
  have hUndone := upgrades_undone 1 newUser_start hl (by decide)
  exact ⟨by decide, hUndone, by decide⟩

/-- The user renews a plan and the two subscriptions expire one after the other: the user stays in
the group of the plan without an active subscription. -/
theorem renewed_plan_keeps_group :
    let l : List Event := [
      .purchase (utcEnv 100) .good 1 1 (groupPlan 1 "vip" ""),
      .purchase (utcEnv 50000) .good 2 1 (groupPlan 1 "vip" ""),
      .expire .good 90000 1, .expire .good 140000 1]
    Guarded (step 1) (Regular 1) newUser l ∧ NoneOpen 1 (run (step 1) newUser l).db ∧
      (run (step 1) newUser l).expected = "default" ∧
      (run (step 1) newUser l).db.groups 1 = "vip" := by
  decide

end Qapi.Groups
