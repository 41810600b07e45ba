import IpcAgent.Resolver.CacheRun

/-!
# Eviction leaves the pinned subnets alone

The same operations on a bounded cache and on one that never has to evict. The two agree on
the routable peers and the timestamps, hence on which records they accept; what the bounded
cache has forgotten can only be missing, and never from a subnet that stayed pinned.
-/

namespace IpcAgent.Resolver.SubnetProviderCache
open Library

/-- `b` is `u` up to evictions that spare the subnets in `P`. -/
structure Covers (P : Set SubnetID) (b u : SubnetProviderCache) : Prop where
  routable : b.routablePeers = u.routablePeers
  timestamps : ∀ p, b.peerTimestamps.lookup p = u.peerTimestamps.lookup p
  pinned : ∀ s ∈ P, s ∈ b.pinnedSubnets
  kept : ∀ s ∈ P, b.providersOfSubnet s = u.providersOfSubnet s
  subset : ∀ s, b.providersOfSubnet s ⊆ u.providersOfSubnet s

variable {P : Set SubnetID} {b u : SubnetProviderCache}

theorem Covers.new (maxBounded maxUnbounded : Nat) (static : List SubnetID)
    (h : ∀ s ∈ P, s ∈ static) : Covers P (new maxBounded static) (new maxUnbounded static) :=
  ⟨rfl, fun _ => rfl, fun s hs => by simpa [SubnetProviderCache.new] using h s hs,
    fun _ _ => rfl, fun _ => Finset.Subset.refl _⟩

theorem Covers.accepts_iff (h : Covers P b u) (r : ProviderRecord) : b.Accepts r ↔ u.Accepts r := by
  unfold Accepts timestampOf
  rw [h.routable, h.timestamps]

theorem Covers.mem_pruneProviders (h : Covers P b u) (ob ou : HashOrder PeerId)
    (cutoff : Timestamp) (p : PeerId) :
    p ∈ (b.pruneProviders ob cutoff).2 ↔ p ∈ (u.pruneProviders ou cutoff).2 := by
  rw [SubnetProviderCache.mem_pruneProviders, SubnetProviderCache.mem_pruneProviders,
    h.timestamps]

/-! ## One operation on both caches -/

theorem Covers.setRoutable (h : Covers P b u) (p : PeerId) :
    Covers P (b.setRoutable p) (u.setRoutable p) :=
  ⟨by simp [SubnetProviderCache.setRoutable, h.routable], h.timestamps, h.pinned, h.kept, h.subset⟩

/-- Making the same peers unroutable, in whatever order. -/
theorem Covers.foldl_setUnroutable (h : Covers P b u) (ps qs : List PeerId)
    (same : ∀ p, p ∈ ps ↔ p ∈ qs) :
    Covers P (ps.foldl SubnetProviderCache.setUnroutable b)
      (qs.foldl SubnetProviderCache.setUnroutable u) := by
  refine ⟨?_, fun p => ?_, fun s hs => ?_, fun s hs => ?_, fun s p hp => ?_⟩
  · ext p
    rw [mem_routable_foldl, mem_routable_foldl, h.routable, same]
  · rw [timestamps_foldl, timestamps_foldl, h.timestamps]
    simp only [same]
  · rw [pinned_foldl]
    exact h.pinned s hs
  · ext p
    rw [mem_providers_foldl, mem_providers_foldl, h.kept s hs, same]
  · rw [mem_providers_foldl] at hp ⊢
    exact ⟨fun hq => hp.1 ((same p).mpr hq), h.subset s hp.2⟩

/-- Both caches take the same record in. -/
theorem Covers.recorded (h : Covers P b u) (r : ProviderRecord) :
    Covers P (b.recorded r) (u.recorded r) := by
  refine ⟨h.routable, fun p => ?_, h.pinned, fun s hs => ?_, fun s p hp => ?_⟩
  · rw [timestamps_recorded, timestamps_recorded, h.timestamps]
  · ext p
    rw [mem_providers_recorded, mem_providers_recorded, h.kept s hs]
  · rw [mem_providers_recorded] at hp ⊢
    split_ifs at hp ⊢ with hq
    · exact hp
    · exact h.subset s hp

/-- Evicting from the bounded cache alone: pinned subnets are not among the removed. -/
theorem Covers.pruneSubnets (h : Covers P b u) (o : HashOrder SubnetID) :
    Covers P (b.pruneSubnets o).1 u := by
  refine ⟨by rw [pruneSubnets_routable, h.routable], fun p => ?_, fun s hs => ?_,
    fun s hs => ?_, fun s p hp => ?_⟩
  · rw [pruneSubnets_timestamps, h.timestamps]
  · rw [pruneSubnets_pinned]
    exact h.pinned s hs
  · have notRemoved : s ∉ (b.pruneSubnets o).2 := fun removed =>
      Finset.disjoint_left.mp (disjoint_pruneSubnets o b) removed (h.pinned s hs)
    ext p
    rw [mem_providers_pruneSubnets, h.kept s hs]
    exact and_iff_left notRemoved
  · exact h.subset s ((mem_providers_pruneSubnets o b p s).mp hp).1

theorem Covers.addProvider (h : Covers P b u) (ob ou : HashOrder SubnetID) (r : ProviderRecord)
    (hmax : u.peak (.addProvider r) ≤ u.maxSubnets) :
    Covers P (b.addProvider ob r).1 (u.addProvider ou r).1 := by
  by_cases route : r.peerId ∈ b.routablePeers
  · have route' : r.peerId ∈ u.routablePeers := h.routable ▸ route
    by_cases acc : b.Accepts r
    · have acc' := (h.accepts_iff r).mp acc
      have bound : (u.recorded r).subnetProviders.len ≤ (u.recorded r).maxSubnets := by
        simpa [peak, acc', SubnetProviderCache.recorded] using hmax
      rw [addProvider_of_accepts ob acc, addProvider_of_accepts ou acc',
        pruneSubnets_of_le ou _ bound]
      exact (h.recorded r).pruneSubnets ob
    · rw [addProvider_of_stale ob route acc,
        addProvider_of_stale ou route' (fun hu => acc ((h.accepts_iff r).mpr hu))]
      refine ⟨h.routable, fun p => ?_, h.pinned, h.kept, h.subset⟩
      simp only [AList.lookup_orInsert, h.timestamps]
  · have route' : r.peerId ∉ u.routablePeers := h.routable ▸ route
    rw [addProvider_of_not_routable ob route, addProvider_of_not_routable ou route']
    exact h

/-- One operation, walked through in any two orders, unless it unpins a subnet of `P`. -/
theorem Covers.apply (h : Covers P b u) (wb wu : Walks) (op : CacheOp)
    (hmax : u.peak op ≤ u.maxSubnets) (hpin : ∀ s ∈ P, op ≠ .unpinSubnet s) :
    Covers P (op.apply wb b) (op.apply wu u) := by
  cases op with
  | setRoutable p => exact h.setRoutable p
  | setUnroutable p => exact h.foldl_setUnroutable [p] [p] (fun _ => .rfl)
  | addProvider r => exact h.addProvider wb.subnets wu.subnets r hmax
  | pruneProviders cutoff =>
    exact h.foldl_setUnroutable _ _ (h.mem_pruneProviders wb.peers wu.peers cutoff)
  | pinSubnet id =>
    exact ⟨h.routable, h.timestamps, fun s hs => Finset.mem_insert_of_mem (h.pinned s hs),
      h.kept, h.subset⟩
  | unpinSubnet id =>
    refine ⟨h.routable, h.timestamps, fun s hs => ?_, h.kept, h.subset⟩
    refine Finset.mem_erase.mpr ⟨?_, h.pinned s hs⟩
    rintro rfl
    exact hpin s hs rfl

/-- An operation with the walks it makes through the bounded and the other cache. -/
structure PairedOp where
  op : CacheOp
  bounded : Walks
  unbounded : Walks

/-- The whole run, by induction on the operations still to come. -/
theorem Covers.run (h : Covers P b u) (ops : List PairedOp)
    (hmax : u.NeverExceeds (ops.map (fun t => (t.unbounded, t.op))))
    (hpin : ∀ t ∈ ops, ∀ s ∈ P, t.op ≠ .unpinSubnet s) :
    Covers P (b.run (ops.map (fun t => (t.bounded, t.op))))
      (u.run (ops.map (fun t => (t.unbounded, t.op)))) := by
  induction ops generalizing b u with
  | nil => exact h
  | cons t ops ih =>
    exact ih (h.apply t.bounded t.unbounded t.op hmax.1 (hpin t (by simp))) hmax.2
      (fun t' ht' => hpin t' (by simp [ht']))

/-- A bounded cache and one that is never full, after the same operations: the same routable
peers, the same timestamps, the same providers of every subnet that was pinned from the
start and never unpinned, and no provider of any subnet that the other does not have. -/
theorem eviction_isolates_pinned (maxBounded maxUnbounded : Nat) (static : List SubnetID)
    (ops : List PairedOp)
    (hmax : (new maxUnbounded static).NeverExceeds (ops.map (fun t => (t.unbounded, t.op)))) :
    let b := (new maxBounded static).run (ops.map (fun t => (t.bounded, t.op)))
    let u := (new maxUnbounded static).run (ops.map (fun t => (t.unbounded, t.op)))
    b.routablePeers = u.routablePeers ∧
    (∀ p, b.peerTimestamps.lookup p = u.peerTimestamps.lookup p) ∧
    (∀ s ∈ static, (∀ t ∈ ops, t.op ≠ .unpinSubnet s) →
      b.providersOfSubnet s = u.providersOfSubnet s) ∧
    (∀ s, b.providersOfSubnet s ⊆ u.providersOfSubnet s) := by
  intro b u
  let P : Set SubnetID := fun s => s ∈ static ∧ ∀ t ∈ ops, t.op ≠ .unpinSubnet s
  have h : Covers P b u :=
    (Covers.new maxBounded maxUnbounded static (fun _ hs => hs.1)).run ops hmax
      (fun t ht s hs => hs.2 t ht)
  exact ⟨h.routable, h.timestamps, fun s hs hpin => h.kept s ⟨hs, hpin⟩, h.subset⟩

/-- A record about two subnets in a cache with room for one: the pinned subnet stays, the
other is evicted. -/
theorem eviction_isolates_pinned_flood :
    let peer : PeerId := ⟨[1]⟩
    let pinned : SubnetID := ⟨"/root/t01"⟩
    let other : SubnetID := ⟨"/root/t02"⟩
    let ops : List PairedOp := [⟨.setRoutable peer, .plain, .plain⟩,
      ⟨.addProvider ⟨peer, [other, pinned], 7⟩, .plain, .plain⟩]
    let b := (new 1 [pinned]).run (ops.map (fun t => (t.bounded, t.op)))
    let u := (new 9 [pinned]).run (ops.map (fun t => (t.unbounded, t.op)))
    b.providersOfSubnet pinned = u.providersOfSubnet pinned ∧
      u.providersOfSubnet pinned = {peer} ∧
      b.providersOfSubnet other = ∅ ∧ u.providersOfSubnet other = {peer} := by
  intro peer pinned other ops b u
  have h := eviction_isolates_pinned 1 9 [pinned] ops (by decide)
  exact ⟨h.2.2.1 pinned (by simp) (by simp [ops]), by decide, by decide, by decide⟩

end IpcAgent.Resolver.SubnetProviderCache
