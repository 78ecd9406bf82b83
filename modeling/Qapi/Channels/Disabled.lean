import Qapi.Channels.Select

/-!
# Disabled channels

What `CacheUpdateChannelStatus` leaves of a disabled channel. One call cuts out one entry
of every list, and a channel whose group or model names repeat has several: such a channel
stays selectable. `disabled_excluded_iff` says that a table without repeated names is
exactly what it takes for a disabled channel to stay out until the next loading.
-/

namespace Qapi.Channels

open Qapi.Core List

/-! ## The entries of a channel -/

theorem count_entries_of_forall_ne {rows : List Channel} {id : Int} (h : ∀ c ∈ rows, c.id ≠ id)
    (g m : String) : (rows.flatMap fun c => c.entries g m).count id = 0 := by
  rw [count_eq_zero]
  intro hMem
  obtain ⟨c, hc, hEntry⟩ := mem_flatMap.mp hMem
  exact h c hc (eq_of_mem_replicate hEntry).symm

theorem count_entries_of_mem {rows : List Channel} (hNodup : (rows.map Channel.id).Nodup)
    {c : Channel} (hc : c ∈ rows) (g m : String) :
    (rows.flatMap fun c => c.entries g m).count c.id =
      (split c.group ',').count g * (split c.models ',').count m := by
  induction rows with
  | nil => cases hc
  | cons d rows ih =>
    rw [map_cons, nodup_cons] at hNodup
    rw [flatMap_cons, count_append]
    rcases mem_cons.mp hc with rfl | hRest
    · have hOthers : ∀ d ∈ rows, d.id ≠ c.id := by
        intro d hd hEq
        exact hNodup.1 (hEq ▸ mem_map_of_mem hd)
      rw [count_entries_of_forall_ne hOthers, Channel.entries, count_replicate_self,
        Nat.add_zero]
    · have hne : d.id ≠ c.id := by
        intro hEq
        exact hNodup.1 (hEq ▸ mem_map_of_mem hRest)
      have hNone : (d.entries g m).count c.id = 0 := by
        rw [count_eq_zero]
        intro hMem
        exact hne (eq_of_mem_replicate hMem).symm
      rw [hNone, Nat.zero_add, ih hNodup.2 hRest]

variable {sorter : SliceSort} {channels : Table Channel.id} {abilityGroups : List String}
  {cache : Cache}

theorem nodup_enabled (channels : Table Channel.id) :
    ((channels.rows.filter fun c => c.status = channelStatusEnabled).map Channel.id).Nodup :=
  (List.Sublist.map Channel.id filter_sublist).nodup channels.nodup

theorem count_loaded (hLoad : initChannelCache sorter channels abilityGroups = some cache)
    {c : Channel} (hc : c ∈ channels) (hEnabled : c.status = channelStatusEnabled)
    (g m : String) : (cache.group2model2channels.get g m).count c.id =
      (split c.group ',').count g * (split c.models ',').count m := by
  rw [(loaded_get hLoad g m).count_eq]
  apply count_entries_of_mem (nodup_enabled channels)
  rw [mem_filter]
  exact ⟨hc, by simpa using hEnabled⟩

def Channel.NamesDistinct (c : Channel) : Prop :=
  (split c.group ',').Nodup ∧ (split c.models ',').Nodup

instance (c : Channel) : Decidable c.NamesDistinct := inferInstanceAs (Decidable (_ ∧ _))

theorem count_loaded_le_one (hLoad : initChannelCache sorter channels abilityGroups = some cache)
    (hNames : ∀ c ∈ channels, c.status = channelStatusEnabled → c.NamesDistinct)
    (id : Int) (g m : String) : (cache.group2model2channels.get g m).count id ≤ 1 := by
  by_cases hListed : ∃ c ∈ channels, c.status = channelStatusEnabled ∧ c.id = id
  · obtain ⟨c, hc, hEnabled, rfl⟩ := hListed
    obtain ⟨hGroups, hModels⟩ := hNames c hc hEnabled
    rw [count_loaded hLoad hc hEnabled]
    calc (split c.group ',').count g * (split c.models ',').count m
        ≤ 1 * 1 := Nat.mul_le_mul (nodup_iff_count_le_one.mp hGroups g)
          (nodup_iff_count_le_one.mp hModels m)
      _ = 1 := rfl
  · rw [(loaded_get hLoad g m).count_eq, count_entries_of_forall_ne]
    · exact Nat.zero_le 1
    · intro c hc hid
      obtain ⟨hMem, hEnabled⟩ := mem_filter.mp hc
      exact hListed ⟨c, hMem, by simpa using hEnabled, hid⟩

/-! ## Runs -/

/-- A call of `CacheUpdateChannelStatus`. -/
structure StatusCall where
  id : Int
  status : Int
deriving DecidableEq, Repr

def runCalls (cache : Cache) (calls : List StatusCall) : Cache :=
  calls.foldl (fun cache call => cacheUpdateChannelStatus cache call.id call.status) cache

theorem count_updated_le (cache : Cache) (id status other : Int) (g m : String) :
    ((cacheUpdateChannelStatus cache id status).group2model2channels.get g m).count other ≤
      (cache.group2model2channels.get g m).count other := by
  rw [updated_get]
  split
  · exact List.Sublist.count_le other erase_sublist
  · exact le_refl _

theorem count_runCalls_le (cache : Cache) (calls : List StatusCall) (id : Int) (g m : String) :
    ((runCalls cache calls).group2model2channels.get g m).count id ≤
      (cache.group2model2channels.get g m).count id := by
  induction calls generalizing cache with
  | nil => exact le_refl _
  | cons call calls ih =>
    exact le_trans (ih _) (count_updated_le cache call.id call.status id g m)

theorem count_disabled (cache : Cache) (id : Int) {status : Int}
    (hStatus : status ≠ channelStatusEnabled) (g m : String) :
    ((cacheUpdateChannelStatus cache id status).group2model2channels.get g m).count id =
      (cache.group2model2channels.get g m).count id - 1 := by
  rw [updated_get, if_pos hStatus, count_erase_self]

theorem filter_disabled (cache : Cache) (id status : Int) (g m : String) :
    (((cacheUpdateChannelStatus cache id status).group2model2channels.get g m).filter
        fun other => other ≠ id) =
      (cache.group2model2channels.get g m).filter fun other => other ≠ id := by
  rw [updated_get]
  split
  · rw [← erase_filter]
    apply erase_of_not_mem
    simp
  · rfl

/-! ## What is selected is listed -/

theorem id_mem_of_lookup {ids : List Int} {found : List Channel}
    (h : lookup cache ids = .ok found) {c : Channel} (hc : c ∈ found) : c.id ∈ ids := by
  induction ids generalizing found with
  | nil =>
    cases h
    cases hc
  | cons id ids ih =>
    unfold lookup at h
    split at h
    · rename_i d hd
      cases hRest : lookup cache ids with
      | error e =>
        rw [hRest] at h
        cases h
      | ok rest =>
        rw [hRest] at h
        cases h
        rcases mem_cons.mp hc with rfl | hc
        · rw [Table.key_of_find? hd]
          exact mem_cons_self
        · exact mem_cons_of_mem _ (ih hRest hc)
    · cases h

theorem id_mem_of_selected {group model requestPath : String} {retry draw : Nat} {c : Channel}
    (h : getRandomSatisfiedChannel cache group model retry requestPath draw = .ok (some c)) :
    c.id ∈ satisfiedChannels cache group model requestPath := by
  unfold getRandomSatisfiedChannel at h
  split at h
  · cases h
  · rename_i id hIds
    split at h
    · rename_i d hd
      cases h
      rw [Table.key_of_find? hd, hIds]
      exact mem_cons_self
    · cases h
  · cases hFound : lookup cache (satisfiedChannels cache group model requestPath) with
    | error e =>
      simp only [hFound, bind, Except.bind] at h
      cases h
    | ok found =>
      simp only [hFound, bind, Except.bind] at h
      split at h
      · cases h
      · split at h
        · rename_i d hDraw
          cases h
          exact id_mem_of_lookup hFound (mem_of_mem_filter (mem_of_drawFrom hDraw))
        · cases h

/-- The channel is in no list, and no selection returns it. -/
structure Cache.Excludes (cache : Cache) (id : Int) : Prop where
  notListed : ∀ group model, id ∉ cache.group2model2channels.get group model
  notSelected : ∀ group model requestPath retry draw c,
    getRandomSatisfiedChannel cache group model retry requestPath draw = .ok (some c) → c.id ≠ id

theorem excludes_of_not_listed {id : Int}
    (h : ∀ group model, id ∉ cache.group2model2channels.get group model) : cache.Excludes id := by
  refine ⟨h, ?_⟩
  rintro group model requestPath retry draw c hGet rfl
  obtain ⟨name, hSub⟩ := satisfiedChannels_sublist cache group model requestPath
  exact h group name (hSub.mem (id_mem_of_selected hGet))

/-- Disabling a channel leaves the others where they are and keeps the channel out, whatever
calls come before and after. -/
def KeepsDisabledOut (cache : Cache) : Prop :=
  ∀ (calls : List StatusCall) (id status : Int), status ≠ channelStatusEnabled →
    (∀ g m, ((cacheUpdateChannelStatus (runCalls cache calls) id status).group2model2channels.get
        g m).filter (fun other => other ≠ id) =
      ((runCalls cache calls).group2model2channels.get g m).filter fun other => other ≠ id) ∧
    ∀ later, (runCalls (cacheUpdateChannelStatus (runCalls cache calls) id status) later).Excludes
      id

theorem keepsDisabledOut_of_count (h : ∀ id g m,
    (cache.group2model2channels.get g m).count id ≤ 1) : KeepsDisabledOut cache := by
  intro calls id status hStatus
  refine ⟨filter_disabled (runCalls cache calls) id status, fun later => ?_⟩
  apply excludes_of_not_listed
  intro g m
  -- at most one entry was loaded, none is added, and the call takes one
  have hLoaded := h id g m
  have hBefore := count_runCalls_le cache calls id g m
  have hCall := count_disabled (runCalls cache calls) id hStatus g m
  have hAfter := count_runCalls_le
    (cacheUpdateChannelStatus (runCalls cache calls) id status) later id g m
  rw [← count_eq_zero]
  omega

theorem count_le_one_of_keepsDisabledOut (h : KeepsDisabledOut cache) (id : Int) (g m : String) :
    (cache.group2model2channels.get g m).count id ≤ 1 := by
  have hDisabled : (2 : Int) ≠ channelStatusEnabled := by decide
  have hNot := ((h [] id 2 hDisabled).2 []).notListed g m
  have hCall := count_disabled cache id hDisabled g m
  rw [← count_eq_zero] at hNot
  simp only [runCalls, foldl_nil] at hNot
  omega

/-- A name that occurs twice, beside any name of the other list, makes two entries. -/
theorem namesDistinct_of_count {c : Channel}
    (h : ∀ g m, (split c.group ',').count g * (split c.models ',').count m ≤ 1) :
    c.NamesDistinct := by
  have hSome : ∀ s : String, ∃ name, 1 ≤ (split s ',').count name := by
    intro s
    have hne : split s ',' ≠ [] := by
      simp [split, splitOn_ne_nil]
    obtain ⟨name, hName⟩ := exists_mem_of_ne_nil _ hne
    exact ⟨name, count_pos_iff.mpr hName⟩
  constructor
  · rw [nodup_iff_count_le_one]
    intro g
    obtain ⟨m, hm⟩ := hSome c.models
    calc (split c.group ',').count g
        = (split c.group ',').count g * 1 := (Nat.mul_one _).symm
      _ ≤ (split c.group ',').count g * (split c.models ',').count m := Nat.mul_le_mul_left _ hm
      _ ≤ 1 := h g m
  · rw [nodup_iff_count_le_one]
    intro m
    obtain ⟨g, hg⟩ := hSome c.group
    calc (split c.models ',').count m
        = 1 * (split c.models ',').count m := (Nat.one_mul _).symm
      _ ≤ (split c.group ',').count g * (split c.models ',').count m := Nat.mul_le_mul_right _ hg
      _ ≤ 1 := h g m

/-- Disabled channels stay out if and only if no enabled channel repeats a name. -/
theorem disabled_excluded_iff
    (hLoad : initChannelCache sorter channels abilityGroups = some cache) :
    KeepsDisabledOut cache ↔
      ∀ c ∈ channels, c.status = channelStatusEnabled → c.NamesDistinct := by
  constructor
  · intro hOut c hc hEnabled
    apply namesDistinct_of_count
    intro g m
    rw [← count_loaded hLoad hc hEnabled]
    exact count_le_one_of_keepsDisabledOut hOut c.id g m
  · intro hNames
    exact keepsDisabledOut_of_count fun id g m => count_loaded_le_one hLoad hNames id g m

/-- Two channels of the group `default`, the first one with the given models. -/
def sampleChannels (models : String) : Table Channel.id :=
  ⟨[{ id := 1, models := models }, { id := 2, models := "gpt-4" }], by simp⟩

theorem single_names_stay_out : ∃ cache,
    initChannelCache SliceSort.stable (sampleChannels "gpt-4") ["default"] = some cache ∧
      KeepsDisabledOut cache := by
  have hLoads : (initChannelCache SliceSort.stable (sampleChannels "gpt-4") ["default"]).isSome := by
    decide
  obtain ⟨cache, hLoad⟩ := Option.isSome_iff_exists.mp hLoads
  have hNames : ∀ c ∈ (sampleChannels "gpt-4").rows, c.status = channelStatusEnabled →
      c.NamesDistinct := by
    decide
  exact ⟨cache, hLoad, (disabled_excluded_iff hLoad).mpr hNames⟩

/-- A channel that names its model twice is selected after it was disabled. -/
theorem repeated_model_stays_selectable : ∃ cache,
    initChannelCache SliceSort.stable (sampleChannels "gpt-4,gpt-4") ["default"] = some cache ∧
      getRandomSatisfiedChannel (cacheUpdateChannelStatus cache 1 2) "default" "gpt-4" 0 "" 0 =
        .ok (some { id := 1, models := "gpt-4,gpt-4", status := 2 }) ∧
      ¬ KeepsDisabledOut cache := by
  have hRun : (initChannelCache SliceSort.stable (sampleChannels "gpt-4,gpt-4") ["default"]).map
      (fun cache => getRandomSatisfiedChannel (cacheUpdateChannelStatus cache 1 2) "default"
        "gpt-4" 0 "" 0) = some (.ok (some { id := 1, models := "gpt-4,gpt-4", status := 2 })) := by
    decide
  obtain ⟨cache, hLoad, hGet⟩ := Option.map_eq_some_iff.mp hRun
  refine ⟨cache, hLoad, hGet, ?_⟩
  intro hOut
  have hDisabled : (2 : Int) ≠ channelStatusEnabled := by decide
  exact ((hOut [] 1 2 hDisabled).2 []).notSelected _ _ _ _ _ _ hGet rfl

end Qapi.Channels
