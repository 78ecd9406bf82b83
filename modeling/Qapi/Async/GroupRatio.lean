import Qapi.Async.Billing

/-!
# The group ratio of a task

A task is priced at submission with the ratio of the using group for users of the
user's group, and its row keeps the using group alone. The settlement by tokens looks
the ratio up again, for users of that same group. The two lookups read different entries
of the table of overrides unless the two groups are one, so they give one ratio, whatever
the ratios in the tables are, exactly when they read the same entry.
-/

namespace Qapi.Async

open Qapi.Core Subscription Billing Pricing

/-- `InitTask`, as far as the settlement by tokens goes by it: the row holds the group that the
request uses; the other fields are those of `t`. -/
def initTask (info : PriceInfo) (t : Task) : Task := { t with group := info.usingGroup }

/-- The group ratio that the settlement by tokens multiplies with, if it finds a group. -/
def settlementRatio (cfg : Settings) (o : Outcome) (t : Task) (w : World) : Option ℚ :=
  let group := settlementGroup o t w
  if group = "" then none else some (groupRatioOf cfg group group).groupRatio

def recalculateAtRatio (cfg : Settings) (o : Outcome) (t : Task) (totalTokens : Int) (w : World)
    (ratio : ℚ) : Task × World :=
  let (modelRatio, hasRatioSetting, _) := cfg.modelRatio (taskModelName t)
  if totalTokens ≤ 0 ∨ hasRatioSetting = false ∨ modelRatio ≤ 0 then (t, w)
  else
    recalculateTaskQuota o t
      (quotaFromFloat (totalTokens * modelRatio * ratio * otherMultiplier t)) w

theorem recalculateTaskQuotaByTokens_eq (cfg : Settings) (o : Outcome) (t : Task)
    (totalTokens : Int) (w : World) :
    recalculateTaskQuotaByTokens cfg o t totalTokens w =
      ((settlementRatio cfg o t w).map (recalculateAtRatio cfg o t totalTokens w)).getD (t, w) := by
  rcases hModel : cfg.modelRatio (taskModelName t) with ⟨modelRatio, hasRatioSetting, name⟩
  simp only [recalculateTaskQuotaByTokens, settlementRatio, hModel]
  by_cases hGroup : settlementGroup o t w = ""
  · simp [hGroup]
  · simp [recalculateAtRatio, hModel, hGroup]

/-- The overrides are set for the same groups; the ratios may be others. -/
def SameOverrides (cfg cfg' : Settings) : Prop :=
  ∀ userGroup usingGroup, (cfg'.groupGroupRatio userGroup usingGroup).isSome =
    (cfg.groupGroupRatio userGroup usingGroup).isSome

/-- The using group is the user's own, or neither lookup finds an override. -/
def OneLookup (cfg : Settings) (userGroup usingGroup : String) : Prop :=
  userGroup = usingGroup ∨
    (cfg.groupGroupRatio userGroup usingGroup = none ∧
      cfg.groupGroupRatio usingGroup usingGroup = none)

section

variable {cfg cfg' : Settings} {userGroup usingGroup group : String}

theorem OneLookup.congr (h : OneLookup cfg userGroup usingGroup) (hSame : SameOverrides cfg cfg') :
    OneLookup cfg' userGroup usingGroup := by
  refine h.imp_right fun hNone => ⟨?_, ?_⟩
  · simpa [hNone.1] using hSame userGroup usingGroup
  · simpa [hNone.2] using hSame usingGroup usingGroup

theorem OneLookup.ratio_eq (h : OneLookup cfg userGroup usingGroup) :
    (groupRatioOf cfg usingGroup usingGroup).groupRatio =
      (groupRatioOf cfg userGroup usingGroup).groupRatio := by
  rcases h with rfl | ⟨hUser, hOwn⟩
  · rfl
  · simp [groupRatioOf, hUser, hOwn]

def withOverride (cfg : Settings) (a b : String) (ratio : ℚ) : Settings :=
  { cfg with
    groupGroupRatio := fun userGroup usingGroup =>
      if userGroup = a ∧ usingGroup = b then some ratio
      else cfg.groupGroupRatio userGroup usingGroup }

/-- An override that is set can be one with which the ratio differs from any other entry's. -/
theorem exists_override_ne {a b c d : String} (hSet : (cfg.groupGroupRatio a b).isSome = true)
    (hne : ¬ (c = a ∧ d = b)) :
    ∃ cfg', SameOverrides cfg cfg' ∧
      (groupRatioOf cfg' c d).groupRatio ≠ (groupRatioOf cfg' a b).groupRatio := by
  refine ⟨withOverride cfg a b ((groupRatioOf cfg c d).groupRatio + 1), ?_, ?_⟩
  · intro x y
    unfold withOverride
    dsimp only
    split
    · rename_i hEq
      rw [hEq.1, hEq.2, hSet]
      rfl
    · rfl
  · have hOther : ∀ ratio, groupRatioOf (withOverride cfg a b ratio) c d = groupRatioOf cfg c d := by
      intro ratio
      simp only [groupRatioOf, withOverride, if_neg hne]
      rfl
    rw [hOther]
    simp [groupRatioOf, withOverride]

/-- Where two entries are read, some ratios set them apart. -/
theorem exists_ratio_ne (cfg : Settings) (userGroup : String)
    (hne : ¬ (userGroup = group ∧ usingGroup = group))
    (hTwo : usingGroup = group → ¬ OneLookup cfg userGroup usingGroup) :
    ∃ cfg', SameOverrides cfg cfg' ∧ (groupRatioOf cfg' group group).groupRatio ≠
      (groupRatioOf cfg' userGroup usingGroup).groupRatio := by
  cases hUser : cfg.groupGroupRatio userGroup usingGroup with
  | some ratio =>
    exact exists_override_ne (by rw [hUser]; rfl) fun h => hne ⟨h.1.symm, h.2.symm⟩
  | none =>
    cases hOwn : cfg.groupGroupRatio group group with
    | some ratio =>
      obtain ⟨cfg', hSame, hDiffers⟩ := exists_override_ne (by rw [hOwn]; rfl) hne
      exact ⟨cfg', hSame, hDiffers.symm⟩
    | none =>
      -- no override is read, so the groups are two and have ratios of their own
      have hGroups : usingGroup ≠ group := by
        rintro rfl
        exact hTwo rfl (Or.inr ⟨hUser, hOwn⟩)
      refine ⟨{ cfg with groupRatio := fun name =>
        if name = group then some (cfg.getGroupRatio usingGroup + 1)
        else cfg.groupRatio name }, fun _ _ => rfl, ?_⟩
      simp [groupRatioOf, hUser, hOwn, Settings.getGroupRatio, hGroups]

theorem settlementGroup_of_empty {o : Outcome} {t : Task} {w : World} (h : t.group = "") :
    settlementGroup o t w =
      if o (.userGroup t.userId) = none then w.subs.groups t.userId else "" := by
  rw [settlementGroup, if_neg (not_not.mpr h)]
  cases o (.userGroup t.userId) <;> rfl

end

/-- The settlement by tokens uses a ratio, and whatever the ratios in the tables are, the one it
uses is the one that `HandleGroupRatio` gave at submission, exactly when the two read the same
entry, or when neither the task nor its user has a group to settle by. -/
theorem settlement_ratio_eq_submitted_iff (cfg : Settings) (autoGroup : Option String)
    (info : PriceInfo) (t : Task) (totalTokens : Int) (o : Outcome) (w : World) :
    let info' := (handleGroupRatio cfg autoGroup info).2
    let task := initTask info' t
    recalculateTaskQuotaByTokens cfg o task totalTokens w =
        ((settlementRatio cfg o task w).map
          (recalculateAtRatio cfg o task totalTokens w)).getD (task, w) ∧
      ((∀ cfg', SameOverrides cfg cfg' → ∀ ratio, settlementRatio cfg' o task w = some ratio →
          ratio = (handleGroupRatio cfg' autoGroup info).1.groupRatio) ↔
        (info'.usingGroup ≠ "" ∧ OneLookup cfg info.userGroup info'.usingGroup) ∨
          (info'.usingGroup = "" ∧
            (o (.userGroup t.userId) = none → w.subs.groups t.userId = ""))) := by
  intro info' task
  refine ⟨recalculateTaskQuotaByTokens_eq .., ?_⟩
  have hSubmitted : ∀ cfg', (handleGroupRatio cfg' autoGroup info).1.groupRatio =
      (groupRatioOf cfg' info.userGroup info'.usingGroup).groupRatio := fun _ => rfl
  have hRatio : ∀ cfg' {group : String}, settlementGroup o task w = group → group ≠ "" →
      settlementRatio cfg' o task w = some (groupRatioOf cfg' group group).groupRatio := by
    intro cfg' group hGroup hSome
    rw [settlementRatio, hGroup, if_neg hSome]
  by_cases hUsing : info'.usingGroup = ""
  · have hGroup : settlementGroup o task w =
        if o (.userGroup t.userId) = none then w.subs.groups t.userId else "" :=
      settlementGroup_of_empty hUsing
    by_cases hNone : settlementGroup o task w = ""
    · have hEmpty : o (.userGroup t.userId) = none → w.subs.groups t.userId = "" := by
        intro ho
        rwa [hGroup, if_pos ho] at hNone
      refine iff_of_true (fun cfg' _ ratio hSettled => ?_) (Or.inr ⟨hUsing, hEmpty⟩)
      rw [settlementRatio, hNone] at hSettled
      cases hSettled
    · refine iff_of_false (fun hAll => ?_) ?_
      · obtain ⟨cfg', hSame, hDiffers⟩ := exists_ratio_ne cfg info.userGroup
          (fun h => hNone (h.2.symm.trans hUsing)) fun h => absurd (h.symm.trans hUsing) hNone
        exact hDiffers ((hAll cfg' hSame _ (hRatio cfg' rfl hNone)).trans (hSubmitted cfg'))
      · rintro (⟨hSome, -⟩ | ⟨-, hEmpty⟩)
        · exact hSome hUsing
        · rw [hGroup] at hNone
          split at hNone
          · rename_i ho
            exact hNone (hEmpty ho)
          · exact hNone rfl
  · have hGroup : settlementGroup o task w = info'.usingGroup := if_pos hUsing
    constructor
    · intro hAll
      refine Or.inl ⟨hUsing, ?_⟩
      by_contra hTwo
      obtain ⟨cfg', hSame, hDiffers⟩ := exists_ratio_ne cfg _
        (fun h => hTwo (Or.inl h.1)) fun _ => hTwo
      exact hDiffers ((hAll cfg' hSame _ (hRatio cfg' hGroup hUsing)).trans (hSubmitted cfg'))
    · rintro (⟨-, hOne⟩ | ⟨hEmpty, -⟩) cfg' hSame ratio hSettled
      · rw [hRatio cfg' hGroup hUsing] at hSettled
        cases hSettled
        exact (hOne.congr hSame).ratio_eq
      · exact absurd hEmpty hUsing

/-- Users of `vip` pay half for the group `default`. -/
def halfForVip : Settings :=
  { unitSettings with
    groupGroupRatio := fun userGroup usingGroup =>
      if userGroup = "vip" ∧ usingGroup = "default" then some (1 / 2) else none }

def vipInfo : PriceInfo :=
  ⟨1, false, "vip", "default", "sora-2", false, 0, PriceData.zero, none, none, true⟩

/-- A task of a user who pays half is settled at the full ratio: 1000 tokens cost 1000, not 500. -/
theorem half_price_settled_in_full :
    let task := initTask (handleGroupRatio halfForVip none vipInfo).2 (sampleTask .success)
    (handleGroupRatio halfForVip none vipInfo).1.groupRatio = 1 / 2 ∧
      settlementRatio halfForVip .good task (sampleWorld 5000) = some 1 ∧
      (recalculateTaskQuotaByTokens halfForVip .good task 1000 (sampleWorld 5000)).1.quota = 1000 ∧
      (recalculateAtRatio halfForVip .good task 1000 (sampleWorld 5000) (1 / 2)).1.quota = 500 := by
  decide +kernel

end Qapi.Async
