import Qapi.Subscription.Calls

/-!
# The used amount stays within the total

A row is within its bounds when its used amount is not negative and, if it has a
limit, does not exceed it. The bounds are a row invariant, so they hold in every
state that the calls can reach from empty tables. No row is used by more than the
calls have asked for, so the counters stay within 64 bits until they have asked for
`2 ^ 63` units. The last part of the module is about the choice that a pre-consume
makes among the rows of the user.
-/

namespace Qapi.Subscription

open Qapi.Core List

/-- The used amount lies between zero and the total; a total of 0 is no limit. -/
def InBounds (s : UserSubscription) : Prop :=
  0 ≤ s.amountUsed ∧ (0 < s.amountTotal → s.amountUsed ≤ s.amountTotal)

instance (s : UserSubscription) : Decidable (InBounds s) :=
  inferInstanceAs (Decidable (_ ∧ _))

variable {s : UserSubscription}

theorem inBounds_of_used_zero (h : s.amountUsed = 0) : InBounds s := by
  unfold InBounds
  omega

theorem inBounds_row (d : DueReset) (h : InBounds s) : InBounds (d.row s) := by
  cases d with
  | keep => exact h
  | schedule last next => exact h
  | reset last next => exact inBounds_of_used_zero rfl

theorem inBounds_charged {amount : Int} (hAmount : 0 < amount) (hCovers : covers s amount = true)
    (h : InBounds s) : InBounds (charged s amount) := by
  unfold InBounds at h ⊢
  simp only [covers, Bool.not_eq_eq_eq_not, Bool.not_true, Bool.and_eq_false_imp,
    decide_eq_true_eq, decide_eq_false_iff_not] at hCovers
  simp only [charged_amountUsed, charged_amountTotal]
  constructor
  · omega
  · intro hTotal
    have := hCovers hTotal
    omega

theorem creates_of_used_zero {P : UserSubscription → Prop} (hP : ∀ s, s.amountUsed = 0 → P s)
    (c : Call) : c.Creates P := by
  cases c with
  | create => exact fun _ _ => hP _ rfl
  | _ => trivial

theorem rowInvariant_inBounds : RowInvariant InBounds where
  lazy _ d h := inBounds_row d h
  reset _ _ _ _ _ := inBounds_of_used_zero (resetRow_amountUsed _ _ _ _)
  charge _ _ hAmount hCovers h := inBounds_charged hAmount hCovers h
  adjust _ _ hTotal _ := ⟨usedAfter_nonneg _ _, hTotal⟩
  close _ _ _ h := h

theorem run_inBounds (groups : Int → String) (l : List Call) :
    (run step (Db.initial groups) l).AllRows InBounds :=
  run_rows rowInvariant_inBounds (creates_of_used_zero fun _ => inBounds_of_used_zero)
    (fun s hs => absurd hs (Table.not_mem_empty s)) l

def Reachable (db : Db) : Prop := ∃ groups l, db = run step (Db.initial groups) l

theorem Reachable.inBounds {db : Db} (h : Reachable db) : db.AllRows InBounds := by
  obtain ⟨groups, l, rfl⟩ := h
  exact run_inBounds groups l

theorem purchased_reachable : Reachable purchased :=
  ⟨fun _ => "default", [.create (utcEnv 100000) .good 1 1 monthPlan], rfl⟩

/-! ## The used amount and what was asked for -/

def Call.asked : Call → Int
  | .preConsume _ _ _ _ amount => max amount 0
  | .postConsume _ _ delta => max delta 0
  | _ => 0

theorem Call.asked_nonneg (c : Call) : 0 ≤ c.asked := by
  cases c with
  | preConsume => exact le_max_right _ _
  | postConsume => exact le_max_right _ _
  | _ => exact le_rfl

def UsedAtMost (b : Int) (s : UserSubscription) : Prop := s.amountUsed ≤ b

theorem UsedAtMost.mono {b c : Int} (hbc : b ≤ c) (s : UserSubscription) (h : UsedAtMost b s) :
    UsedAtMost c s := le_trans h hbc

theorem unchargedInvariant_usedAtMost {b : Int} (hb : 0 ≤ b) :
    UnchargedInvariant (UsedAtMost b) where
  lazy s d h := by
    cases d with
    | keep => exact h
    | schedule last next => exact h
    | reset last next => exact hb
  reset env plan advance s _ := (resetRow_amountUsed env plan advance s).trans_le hb
  close _ _ _ h := h

theorem usedAtMost_adjusted {b c delta : Int} (hc : 0 ≤ c) (hbc : b + delta ≤ c)
    (h : UsedAtMost b s) : UsedAtMost c (adjusted s delta) := by
  unfold UsedAtMost at h ⊢
  rw [adjusted_amountUsed]
  unfold usedAfter
  omega

theorem step_usedAtMost {b : Int} {db : Db} (hb : 0 ≤ b) (hdb : db.AllRows (UsedAtMost b))
    (c : Call) : (step db c).AllRows (UsedAtMost (b + c.asked)) := by
  have hAsked : b ≤ b + c.asked := by
    have := c.asked_nonneg
    omega
  have hKeep : ∀ s, UsedAtMost b s → UsedAtMost (b + c.asked) s := UsedAtMost.mono hAsked
  have hFree := unchargedInvariant_usedAtMost hb
  cases hc : c.charges with
  | false =>
    have hFresh := creates_of_used_zero (P := UsedAtMost b) (fun s hs => hs.trans_le hb) c
    exact (step_uncharged_rows hFree hdb hFresh hc).mono hKeep
  | true =>
    cases c with
    | preConsume env o requestId userId amount =>
      refine (hdb.mono hKeep).transact fun _ _ h => preConsume_rows h hKeep hFree.lazy ?_ hdb
      intro s _ _ hs
      exact add_le_add hs (le_max_left amount 0)
    | postConsume o subId delta =>
      refine (hdb.mono hKeep).transact fun _ _ h => postConsume_rows h hKeep ?_ hdb
      intro s _ hs
      exact usedAtMost_adjusted (hb.trans hAsked) (by simp [Call.asked]) hs
    | refund =>
      refine Db.AllRows.mono (refund_rows ?_ hdb) hKeep
      intro s delta hDelta _ hs
      exact usedAtMost_adjusted hb (by omega) hs
    | _ => cases hc

/-- In a run that asks for fewer than `2 ^ 63` units no used amount leaves the range of
the 64-bit counters. -/
theorem run_usedAtMost (groups : Int → String) (l : List Call) :
    (run step (Db.initial groups) l).AllRows
      (UsedAtMost (runCost step (fun _ c => c.asked) (Db.initial groups) l)) := by
  let I (b : Int) (db : Db) : Prop := 0 ≤ b ∧ db.AllRows (UsedAtMost b)
  have hStep : ∀ b db (c : Call), I b db → I (b + c.asked) (step db c) := fun _ _ c h =>
    ⟨add_nonneg h.1 c.asked_nonneg, step_usedAtMost h.1 h.2 c⟩
  have hInit : I 0 (Db.initial groups) := ⟨le_rfl, fun s hs => absurd hs (Table.not_mem_empty s)⟩
  have hRun := runCost_invariant hStep hInit l
  rw [zero_add] at hRun
  exact hRun.2

/-! ## The row that a pre-consume charges -/

/-- Strictly earlier in the order of end times and ids. -/
def precedes (s t : UserSubscription) : Prop :=
  s.endTime < t.endTime ∨ (s.endTime = t.endTime ∧ s.id < t.id)

instance : Std.Total endsBefore := ⟨fun s t => by unfold endsBefore; omega⟩

instance : IsTrans UserSubscription endsBefore := ⟨fun s t u => by unfold endsBefore; omega⟩

theorem activeSubs_sorted (now userId : Int) (db : Db) :
    (activeSubs now userId db).Pairwise endsBefore := pairwise_insertionSort _ _

theorem mem_front_iff {l passed rest : List UserSubscription} {sub : UserSubscription}
    (hSorted : l.Pairwise endsBefore) (hIds : (l.map (·.id)).Nodup)
    (hl : l = passed ++ sub :: rest) (hs : s ∈ l) : s ∈ passed ↔ precedes s sub := by
  subst hl
  have hOrder := pairwise_append.mp hSorted
  have hDistinct := pairwise_append.mp (pairwise_map.mp hIds)
  constructor
  · intro hp
    have hLe : endsBefore s sub := hOrder.2.2 s hp sub mem_cons_self
    have hNe : s.id ≠ sub.id := hDistinct.2.2 s hp sub mem_cons_self
    unfold endsBefore at hLe
    unfold precedes
    omega
  · intro hp
    rcases mem_append.mp hs with hs | hs
    · exact hs
    · exfalso
      rcases mem_cons.mp hs with rfl | hs
      · unfold precedes at hp
        omega
      · have hLe : endsBefore sub s := (pairwise_cons.mp hOrder.2.1).1 s hs
        unfold endsBefore at hLe
        unfold precedes at hp
        omega

/-- The purpose of a pre-consume for a new request: of the active, unexpired rows
of the user, the first one in the order of end times and ids that has room for
the amount after its due reset is charged by exactly the amount. The rows before
it are left with their due reset, and all other rows are left alone. -/
structure ChargedExactly (env : Env) (userId amount : Int) (sub : UserSubscription) (d : DueReset)
    (db db' : Db) : Prop where
  mem : sub ∈ db.subs
  chargeable : chargeable env.now userId sub = true
  reset : LazyReset env sub d
  room : covers (d.row sub) amount = true
  row : db'.subs.find? sub.id = some (charged (d.row sub) amount)
  before : ∀ s ∈ db.subs, Subscription.chargeable env.now userId s = true → precedes s sub →
    ∃ e, LazyReset env s e ∧ covers (e.row s) amount = false ∧ db'.subs.find? s.id = some (e.row s)
  others : ∀ k, k ≠ sub.id →
    (∀ s ∈ db.subs, Subscription.chargeable env.now userId s = true → precedes s sub → k ≠ s.id) →
    db'.subs.find? k = db.subs.find? k

theorem chargedExactly_of_first {env : Env} {requestId : String} {userId amount : Int}
    {passed rest : List UserSubscription} {sub : UserSubscription} {d : DueReset}
    {r : PreConsumeResult} {db db' : Db}
    (hl : activeSubs env.now userId db = passed ++ sub :: rest)
    (hc : ChargesFirst env requestId userId amount passed sub d r db db') :
    ChargedExactly env userId amount sub d db db' := by
  have hFront : ∀ s ∈ db.subs, chargeable env.now userId s = true →
      (s ∈ passed ↔ precedes s sub) := fun s hs hch =>
    mem_front_iff (activeSubs_sorted _ _ _) activeSubs_ids hl (mem_activeSubs.mpr ⟨hs, hch⟩)
  have hSub : sub ∈ activeSubs env.now userId db := by simp [hl]
  obtain ⟨hMem, hChargeable⟩ := mem_activeSubs.mp hSub
  refine ⟨hMem, hChargeable, hc.lazy, hc.covered, hc.row, ?_, ?_⟩
  · intro s hs hch hp
    exact hc.passed_short s ((hFront s hs hch).mpr hp)
  · intro k hk hOther
    refine hc.others k hk ?_
    intro s hs
    have hIn : s ∈ activeSubs env.now userId db := by simp [hl, hs]
    obtain ⟨hs', hch⟩ := mem_activeSubs.mp hIn
    exact hOther s hs' hch ((hFront s hs' hch).mp hs)

end Qapi.Subscription
