import IpcAgent.Resolver.CacheRun

/-!
# Which subnets are evicted, and what a record reports of it

`prune_subnets` evicts from the front of the unpinned subnets sorted by their number of
providers. How many it removes, which ones, and what is left follow from that. The delta of
a record is compared with what the record did to its peer, eviction included.
-/

namespace IpcAgent.Resolver.SubnetProviderCache
open Library

def tracked (c : SubnetProviderCache) : Finset SubnetID := c.subnetProviders.keys.toFinset

/-- The tracked subnets that may be evicted, those with the fewest providers first. -/
def candidates (o : HashOrder SubnetID) (c : SubnetProviderCache) : List SubnetID :=
  ((sortedByCount o c.subnetProviders).map Prod.fst).filter (· ∉ c.pinnedSubnets)

theorem mem_tracked (c : SubnetProviderCache) (s : SubnetID) :
    s ∈ c.tracked ↔ c.subnetProviders.lookup s ≠ none := by
  rw [tracked, List.mem_toFinset, ← AList.mem_keys, Ne, AList.lookup_eq_none, not_not]

theorem card_tracked (c : SubnetProviderCache) : c.tracked.card = c.subnetProviders.len :=
  List.toFinset_card_of_nodup c.subnetProviders.nodupKeys

/-! ## The order of eviction -/

theorem perm_sortedByCount (o : HashOrder SubnetID) (m : ProviderMap) :
    ((sortedByCount o m).map Prod.fst).Perm m.keys := by
  refine ((List.perm_insertionSort _ _).map Prod.fst).trans ?_
  rw [List.map_map]
  exact (AList.map_fst_iter m o).symm ▸ o.perm m.keys

theorem nodup_candidates (o : HashOrder SubnetID) (c : SubnetProviderCache) :
    (c.candidates o).Nodup :=
  ((perm_sortedByCount o c.subnetProviders).nodup_iff.mpr c.subnetProviders.nodupKeys).filter _

theorem toFinset_candidates (o : HashOrder SubnetID) (c : SubnetProviderCache) :
    (c.candidates o).toFinset = c.tracked \ c.pinnedSubnets := by
  ext s
  simp only [candidates, List.mem_toFinset, List.mem_filter, Finset.mem_sdiff, tracked,
    decide_eq_true_eq, (perm_sortedByCount o c.subnetProviders).mem_iff]

theorem length_candidates (o : HashOrder SubnetID) (c : SubnetProviderCache) :
    (c.candidates o).length = (c.tracked \ c.pinnedSubnets).card := by
  rw [← toFinset_candidates o c, List.toFinset_card_of_nodup (nodup_candidates o c)]

/-- Each candidate has at most as many providers as those after it. -/
theorem pairwise_candidates (o : HashOrder SubnetID) (c : SubnetProviderCache) :
    (c.candidates o).Pairwise
      (fun s s' => (c.providersOfSubnet s).card ≤ (c.providersOfSubnet s').card) := by
  refine List.Pairwise.filter _ (List.pairwise_map.mpr ?_)
  have total : Std.Total (fun a b : SubnetID × Nat => a.2 ≤ b.2) := ⟨fun a b => le_total _ _⟩
  have trans : IsTrans (SubnetID × Nat) (fun a b => a.2 ≤ b.2) := ⟨fun a b c => le_trans⟩
  refine (List.pairwise_insertionSort _ _).imp_of_mem fun {a b} ha hb le => ?_
  -- The counts that are sorted are those of the providers.
  have count : ∀ e ∈ sortedByCount o c.subnetProviders,
      (c.providersOfSubnet e.1).card = e.2 := by
    intro e he
    obtain ⟨⟨s, ps⟩, entry, rfl⟩ := List.mem_map.mp ((List.mem_insertionSort _).mp he)
    simp [providersOfSubnet, (AList.mem_iter ..).mp entry]
  rw [count a ha, count b hb]
  exact le

/-! ## What is evicted -/

/-- The loop takes the first unpinned subnets until it has enough. -/
theorem removed_pruneLoop (pinned : Finset SubnetID) (n : Nat) (ids : List SubnetID)
    (m : ProviderMap) (removed : Finset SubnetID) (room : removed.card < n) (nodup : ids.Nodup)
    (fresh : ∀ id ∈ ids, id ∉ removed) :
    (pruneLoop pinned n ids (m, removed)).2 =
      removed ∪ ((ids.filter (· ∉ pinned)).take (n - removed.card)).toFinset := by
  induction ids generalizing m removed with
  | nil => simp [pruneLoop]
  | cons id ids ih =>
    obtain ⟨out, nodup⟩ := List.nodup_cons.mp nodup
    obtain ⟨new, fresh⟩ := List.forall_mem_cons.mp fresh
    unfold pruneLoop
    by_cases hid : id ∈ pinned
    · simp only [hid, if_true, not_true, decide_false, List.filter_cons, Bool.false_eq_true,
        if_false]
      exact ih m removed room nodup fresh
    · have grown : (insert id removed).card = removed.card + 1 := Finset.card_insert_of_notMem new
      have rest : n - removed.card = n - (insert id removed).card + 1 := by omega
      simp only [hid, if_false, not_false_eq_true, decide_true, List.filter_cons, if_true, rest,
        List.take_succ_cons, List.toFinset_cons, Finset.union_insert]
      split
      · rename_i full
        simp [full]
      · rename_i more
        rw [ih _ _ (by omega) nodup, Finset.insert_union]
        intro id' mem
        rw [Finset.mem_insert, not_or]
        exact ⟨fun eq => out (eq ▸ mem), fresh id' mem⟩

theorem removed_pruneSubnets (o : HashOrder SubnetID) (c : SubnetProviderCache) :
    (c.pruneSubnets o).2 =
      ((c.candidates o).take (c.subnetProviders.len - c.maxSubnets)).toFinset := by
  unfold pruneSubnets
  simp only
  split
  · rename_i pos
    rw [removed_pruneLoop _ _ _ _ _ (by simpa using pos)
      ((perm_sortedByCount o _).nodup_iff.mpr c.subnetProviders.nodupKeys) (by simp)]
    simp [candidates]
  · rename_i none
    simp [Nat.eq_zero_of_not_pos none]

theorem card_removed (o : HashOrder SubnetID) (c : SubnetProviderCache) :
    (c.pruneSubnets o).2.card =
      min (c.tracked.card - c.maxSubnets) (c.tracked \ c.pinnedSubnets).card := by
  rw [removed_pruneSubnets, card_tracked, ← length_candidates o c, ← List.length_take]
  exact List.toFinset_card_of_nodup ((nodup_candidates o c).sublist (List.take_sublist _ _))

theorem removed_subset (o : HashOrder SubnetID) (c : SubnetProviderCache) :
    (c.pruneSubnets o).2 ⊆ c.tracked \ c.pinnedSubnets := by
  rw [removed_pruneSubnets, ← toFinset_candidates o c]
  intro s mem
  rw [List.mem_toFinset] at mem ⊢
  exact List.mem_of_mem_take mem

theorem tracked_pruneSubnets (o : HashOrder SubnetID) (c : SubnetProviderCache) :
    (c.pruneSubnets o).1.tracked = c.tracked \ (c.pruneSubnets o).2 := by
  ext s
  rw [Finset.mem_sdiff, mem_tracked, mem_tracked, lookup_pruneSubnets]
  by_cases hs : s ∈ (c.pruneSubnets o).2 <;> simp [hs]

/-- No unpinned subnet that stays had fewer providers than one that goes. -/
theorem card_removed_le_card_kept (o : HashOrder SubnetID) (c : SubnetProviderCache)
    {s s' : SubnetID} (gone : s ∈ (c.pruneSubnets o).2)
    (kept : s' ∈ (c.pruneSubnets o).1.tracked) (loose : s' ∉ c.pinnedSubnets) :
    (c.providersOfSubnet s).card ≤ (c.providersOfSubnet s').card := by
  rw [tracked_pruneSubnets, Finset.mem_sdiff] at kept
  have candidate : s' ∈ c.candidates o := by
    rw [← List.mem_toFinset, toFinset_candidates]
    exact Finset.mem_sdiff.mpr ⟨kept.1, loose⟩
  -- The candidates are split where the loop stops.
  have sorted := pairwise_candidates o c
  rw [← List.take_append_drop (c.subnetProviders.len - c.maxSubnets) (c.candidates o)]
    at sorted candidate
  rw [removed_pruneSubnets, List.mem_toFinset] at gone kept
  have later := (List.mem_append.mp candidate).resolve_left kept.2
  exact (List.pairwise_append.mp sorted).2.2 s gone s' later

/-! ## The bound -/

/-- The bound is respected, or there is nothing to evict. -/
def Bounded (c : SubnetProviderCache) : Prop :=
  c.tracked.card ≤ c.maxSubnets ∨ c.tracked ⊆ c.pinnedSubnets

theorem bounded_pruneSubnets (o : HashOrder SubnetID) (c : SubnetProviderCache) :
    (c.pruneSubnets o).1.Bounded := by
  have within : (c.pruneSubnets o).2 ⊆ c.tracked :=
    (removed_subset o c).trans Finset.sdiff_subset
  have count := card_removed o c
  unfold Bounded
  rw [tracked_pruneSubnets, pruneSubnets_max, pruneSubnets_pinned,
    Finset.card_sdiff_of_subset within]
  rcases le_total (c.tracked.card - c.maxSubnets) (c.tracked \ c.pinnedSubnets).card with le | le
  · left
    omega
  · -- All that could be removed has been.
    have all : (c.pruneSubnets o).2 = c.tracked \ c.pinnedSubnets :=
      Finset.eq_of_subset_of_card_le (removed_subset o c) (by omega)
    right
    rw [all]
    intro s mem
    simp only [Finset.mem_sdiff] at mem
    tauto

theorem bounded_of_accepts (o : HashOrder SubnetID) {c : SubnetProviderCache}
    {r : ProviderRecord} (acc : c.Accepts r) : (c.addProvider o r).1.Bounded := by
  rw [addProvider_of_accepts o acc]
  exact bounded_pruneSubnets o (c.recorded r)

theorem Bounded.setUnroutable {c : SubnetProviderCache} (h : c.Bounded) (p : PeerId) :
    (c.setUnroutable p).Bounded := by
  simpa [Bounded, tracked, SubnetProviderCache.setUnroutable] using h

/-- Only unpinning a subnet can break the bound. -/
theorem Bounded.apply {c : SubnetProviderCache} (h : c.Bounded) (w : Walks) {op : CacheOp}
    (keeps : ∀ s, op ≠ .unpinSubnet s) : (op.apply w c).Bounded := by
  cases op with
  | setUnroutable p => exact h.setUnroutable p
  | addProvider r =>
    by_cases acc : c.Accepts r
    · exact bounded_of_accepts w.subnets acc
    · by_cases route : r.peerId ∈ c.routablePeers
      · simp only [CacheOp.apply, addProvider_of_stale w.subnets route acc]
        exact h
      · simp only [CacheOp.apply, addProvider_of_not_routable w.subnets route]
        exact h
  | pruneProviders cutoff =>
    simp only [CacheOp.apply, pruneProviders]
    exact List.foldlRecOn _ _ h fun c hc p _ => hc.setUnroutable p
  | pinSubnet s => exact h.imp_right fun sub => sub.trans (Finset.subset_insert _ _)
  | unpinSubnet s => exact absurd rfl (keeps s)
  | setRoutable p => exact h

theorem bounded_run (maxSubnets : Nat) (static : List SubnetID) (ops : List (Walks × CacheOp))
    (keeps : ∀ op ∈ ops, ∀ s, op.2 ≠ .unpinSubnet s) :
    ((new maxSubnets static).run ops).Bounded :=
  List.foldlRecOn ops _ (.inl (Nat.zero_le _)) fun _ h op mem => h.apply op.1 (keeps op mem)

/-- Pruning removes as many subnets as it has to and can, the smallest unpinned ones, and
nothing else; so the bound holds after every accepted record and, unless subnets are
unpinned, all the time. -/
theorem eviction_policy :
    (∀ (c : SubnetProviderCache) (o : HashOrder SubnetID),
      let kept := (c.pruneSubnets o).1
      let removed := (c.pruneSubnets o).2
      removed.card =
        (if c.maxSubnets < c.tracked.card then
          min (c.tracked.card - c.maxSubnets) (c.tracked \ c.pinnedSubnets).card else 0) ∧
      Disjoint removed c.pinnedSubnets ∧
      (∀ s ∈ removed, ∀ s' ∈ kept.tracked, s' ∉ c.pinnedSubnets →
        (c.providersOfSubnet s).card ≤ (c.providersOfSubnet s').card) ∧
      removed = c.tracked \ kept.tracked ∧
      ∀ s, kept.subnetProviders.lookup s =
        if s ∈ removed then none else c.subnetProviders.lookup s) ∧
    (∀ (c : SubnetProviderCache) (o : HashOrder SubnetID) (r : ProviderRecord), c.Accepts r →
      (c.addProvider o r).1.Bounded) ∧
    ∀ (maxSubnets : Nat) (static : List SubnetID) (ops : List (Walks × CacheOp)),
      (∀ op ∈ ops, ∀ s, op.2 ≠ .unpinSubnet s) → ((new maxSubnets static).run ops).Bounded := by
  refine ⟨fun c o => ⟨?_, disjoint_pruneSubnets o c, ?_, ?_, lookup_pruneSubnets o c⟩,
    fun c o r acc => bounded_of_accepts o acc, bounded_run⟩
  · rw [card_removed]
    split
    · rfl
    · rename_i within
      omega
  · intro s gone s' kept loose
    exact card_removed_le_card_kept o c gone kept loose
  · rw [tracked_pruneSubnets, Finset.sdiff_sdiff_eq_self
      ((removed_subset o c).trans Finset.sdiff_subset)]

/-- More pinned subnets than slots: the unpinned one goes, the pinned ones stay. -/
theorem eviction_policy_pinned :
    let peer : PeerId := ⟨[1]⟩
    let ops : List (Walks × CacheOp) :=
      [(.plain, .setRoutable peer), (.plain, .pinSubnet ⟨"/root/t02"⟩)]
    let r : ProviderRecord := ⟨peer, [⟨"/root/t01"⟩, ⟨"/root/t02"⟩, ⟨"/root/t03"⟩], 1⟩
    let c := (new 1 [⟨"/root/t01"⟩]).run ops
    c.Bounded ∧ c.Accepts r ∧ (c.addProvider (.plain _) r).1.Bounded ∧
      (c.addProvider (.plain _) r).1.tracked.card = 2 := by
  intro peer ops r c
  have accepted : c.Accepts r := by decide +kernel
  refine ⟨eviction_policy.2.2 1 _ ops ?_, accepted, eviction_policy.2.1 c _ r accepted,
    by decide +kernel⟩
  intro op mem s
  simp only [ops, List.mem_cons, List.not_mem_nil, or_false] at mem
  rcases mem with rfl | rfl <;> simp

/-! ## What a record reports -/

/-- The delta lists, without repetition, the subnets the peer has become a provider of and
those it no longer is one of. -/
structure Reports (c c' : SubnetProviderCache) (p : PeerId) (d : ProviderDelta) : Prop where
  nodup_added : d.added.Nodup
  mem_added : ∀ s, s ∈ d.added ↔ p ∈ c'.providersOfSubnet s ∧ p ∉ c.providersOfSubnet s
  nodup_removed : d.removed.Nodup
  mem_removed : ∀ s, s ∈ d.removed ↔ p ∈ c.providersOfSubnet s ∧ p ∉ c'.providersOfSubnet s

theorem nodup_addListed (p : PeerId) (ids : List SubnetID) (acc : ProviderMap × List SubnetID)
    (nodup : acc.2.Nodup) (listed : ∀ s ∈ acc.2, p ∈ (acc.1.lookup s).getD ∅) :
    (addListed p ids acc).2.Nodup := by
  induction ids generalizing acc with
  | nil => exact nodup
  | cons id ids ih =>
    obtain ⟨m, added⟩ := acc
    unfold addListed
    have look : ((m.orInsert id ∅).lookup id).getD ∅ = (m.lookup id).getD ∅ := by
      simp [AList.lookup_orInsert]
    refine ih _ ?_ fun s mem => ?_
    · -- A subnet is added once: afterwards the peer is among its providers.
      simp only [look]
      split
      · exact nodup
      · rename_i absent
        exact List.concat_eq_append ▸ nodup.concat fun mem => absent (listed id mem)
    · by_cases hs : s = id
      · subst hs
        simp
      · have old : s ∈ added := by
          simp only at mem
          split at mem
          · exact mem
          · simpa [hs] using mem
        simpa [AList.lookup_insert_ne hs, AList.lookup_orInsert, hs] using listed s old

theorem nodup_unlisted (o : HashOrder SubnetID) (r : ProviderRecord) (m : ProviderMap) :
    (unlisted o r m).Nodup :=
  (m.nodup_map_fst_iter o).sublist (List.filter_sublist.map _)

theorem delta_of_accepts (o : HashOrder SubnetID) {c : SubnetProviderCache} {r : ProviderRecord}
    (acc : c.Accepts r) :
    (c.addProvider o r).2 = some ⟨!c.hasTimestamp r.peerId,
      (c.newlyListed r).filter (· ∉ c.evictedBy o r), unlisted o r c.subnetProviders⟩ := by
  simp [addProvider, isRoutable, acc.1, acc.2, evictedBy, acc]

theorem delta_of_stale (o : HashOrder SubnetID) {c : SubnetProviderCache} {r : ProviderRecord}
    (route : r.peerId ∈ c.routablePeers) (stale : ¬ c.Accepts r) :
    (c.addProvider o r).2 = some ⟨!c.hasTimestamp r.peerId, [], []⟩ := by
  have old : ¬ c.timestampOf r.peerId < r.timestamp := fun lt => stale ⟨route, lt⟩
  simp [addProvider, isRoutable, route, old]

theorem reports_of_stale (o : HashOrder SubnetID) {c : SubnetProviderCache} {r : ProviderRecord}
    (route : r.peerId ∈ c.routablePeers) (stale : ¬ c.Accepts r) (isNew : Bool) :
    c.Reports (c.addProvider o r).1 r.peerId ⟨isNew, [], []⟩ := by
  have same : ∀ s, (c.addProvider o r).1.providersOfSubnet s = c.providersOfSubnet s := by
    rw [addProvider_of_stale o route stale]
    exact fun _ => rfl
  constructor <;> simp [same]

/-- What is added is always reported as it is. -/
theorem mem_added_iff (o : HashOrder SubnetID) {c : SubnetProviderCache} {r : ProviderRecord}
    (acc : c.Accepts r) (s : SubnetID) :
    s ∈ (c.newlyListed r).filter (· ∉ c.evictedBy o r) ↔
      r.peerId ∈ (c.addProvider o r).1.providersOfSubnet s ∧
        r.peerId ∉ c.providersOfSubnet s := by
  rw [List.mem_filter, mem_newlyListed, mem_providers_addProvider o acc, decide_eq_true_eq]
  tauto

theorem nodup_newlyListed (c : SubnetProviderCache) (r : ProviderRecord) :
    (c.newlyListed r).Nodup :=
  nodup_addListed _ _ _ List.nodup_nil (by simp)

/-- The delta is exact if and only if the record evicts no subnet that its peer provided
before and still lists. -/
theorem reports_iff_held_kept (o : HashOrder SubnetID) (c : SubnetProviderCache)
    (r : ProviderRecord) (d : ProviderDelta) (delta : (c.addProvider o r).2 = some d) :
    c.Reports (c.addProvider o r).1 r.peerId d ↔
      ∀ s ∈ c.evictedBy o r, s ∈ r.subnetIds → r.peerId ∉ c.providersOfSubnet s := by
  have route : r.peerId ∈ c.routablePeers := by
    by_contra out
    simp [addProvider_of_not_routable o out] at delta
  by_cases acc : c.Accepts r
  · obtain rfl := Option.some.inj ((delta_of_accepts o acc).symm.trans delta)
    constructor
    · intro exact s evicted listed held
      -- The peer has lost the subnet, so it would have to be reported as removed.
      have lost : r.peerId ∉ (c.addProvider o r).1.providersOfSubnet s := fun mem =>
        ((mem_providers_addProvider o acc s).mp mem).2 evicted
      have reported := (exact.mem_removed s).mpr ⟨held, lost⟩
      exact ((mem_unlisted ..).mp reported).1 listed
    · intro kept
      refine ⟨(nodup_newlyListed c r).filter _, mem_added_iff o acc, nodup_unlisted .., ?_⟩
      intro s
      rw [mem_unlisted, mem_providers_addProvider o acc]
      constructor
      · rintro ⟨unlisted, held⟩
        exact ⟨held, fun still => unlisted still.1⟩
      · rintro ⟨held, lost⟩
        refine ⟨fun listed => lost ⟨listed, fun evicted => ?_⟩, held⟩
        exact kept s evicted listed held
  · obtain rfl := Option.some.inj ((delta_of_stale o route acc).symm.trans delta)
    simp [evictedBy, acc, reports_of_stale o route acc]

/-- A record for one more subnet than fits, which evicts the new one. -/
theorem reports_new_subnet_evicted :
    let peer : PeerId := ⟨[1]⟩
    let c := (new 1 []).run [(.plain, .setRoutable peer),
      (.plain, .addProvider ⟨peer, [⟨"/root/t01"⟩], 1⟩)]
    let r : ProviderRecord := ⟨peer, [⟨"/root/t01"⟩, ⟨"/root/t02"⟩], 2⟩
    c.evictedBy (.plain _) r = {⟨"/root/t02"⟩} ∧
      c.Reports (c.addProvider (.plain _) r).1 peer ⟨false, [], []⟩ := by
  intro peer c r
  refine ⟨by decide +kernel, (reports_iff_held_kept (.plain _) c r ⟨false, [], []⟩ ?_).mpr ?_⟩
  · decide +kernel
  · decide +kernel

/-- The same record when the walk comes to the old subnet first: the peer is no longer a
provider of it, and the delta only says that it is one of the new subnet. -/
theorem evicted_subnet_unreported :
    let peer : PeerId := ⟨[1]⟩
    let old : SubnetID := ⟨"/root/t01"⟩
    let o : HashOrder SubnetID := ⟨List.reverse, List.reverse_perm⟩
    let c := (new 1 []).run [(.plain, .setRoutable peer), (.plain, .addProvider ⟨peer, [old], 1⟩)]
    let r : ProviderRecord := ⟨peer, [old, ⟨"/root/t02"⟩], 2⟩
    peer ∈ c.providersOfSubnet old ∧ peer ∉ (c.addProvider o r).1.providersOfSubnet old ∧
      (c.addProvider o r).2 = some ⟨false, [⟨"/root/t02"⟩], []⟩ ∧
      ¬ c.Reports (c.addProvider o r).1 peer ⟨false, [⟨"/root/t02"⟩], []⟩ := by
  intro peer old o c r
  have held : peer ∈ c.providersOfSubnet old := by decide +kernel
  have lost : peer ∉ (c.addProvider o r).1.providersOfSubnet old := by decide +kernel
  refine ⟨held, lost, by decide +kernel, fun exact => ?_⟩
  exact absurd ((exact.mem_removed old).mpr ⟨held, lost⟩) (by simp)

end IpcAgent.Resolver.SubnetProviderCache
