import IpcAgent.Resolver.ProviderCache

/-!
# Runs of the provider cache

The operations a cache can receive, in any order and any number, and what one of them does
to the routable peers, the timestamps and the providers. Later modules reason about runs
from these facts alone.
-/

namespace IpcAgent.Resolver
open Library

/-- The operations of the cache. -/
inductive CacheOp
  | setRoutable (p : PeerId)
  | setUnroutable (p : PeerId)
  | addProvider (r : ProviderRecord)
  | pruneProviders (cutoff : Timestamp)
  | pinSubnet (id : SubnetID)
  | unpinSubnet (id : SubnetID)

/-- The orders in which one operation walks through the tables. -/
structure Walks where
  subnets : HashOrder SubnetID
  peers : HashOrder PeerId

def Walks.plain : Walks := ⟨.plain _, .plain _⟩

def CacheOp.apply (w : Walks) (c : SubnetProviderCache) : CacheOp → SubnetProviderCache
  | setRoutable p => c.setRoutable p
  | setUnroutable p => c.setUnroutable p
  | addProvider r => (c.addProvider w.subnets r).1
  | pruneProviders cutoff => (c.pruneProviders w.peers cutoff).1
  | pinSubnet id => c.pinSubnet id
  | unpinSubnet id => c.unpinSubnet id

namespace SubnetProviderCache

/-- The cache after a whole sequence of operations, each with its own walks. -/
def run (c : SubnetProviderCache) (ops : List (Walks × CacheOp)) : SubnetProviderCache :=
  ops.foldl (fun c op => op.2.apply op.1 c) c

@[simp] theorem run_nil (c : SubnetProviderCache) : c.run [] = c := rfl

@[simp] theorem run_cons (c : SubnetProviderCache) (op : Walks × CacheOp)
    (ops : List (Walks × CacheOp)) : c.run (op :: ops) = (op.2.apply op.1 c).run ops := rfl

/-- What every operation keeps, a run keeps. -/
theorem run_invariant (P : SubnetProviderCache → Prop)
    (step : ∀ c w (op : CacheOp), P c → P (op.apply w c)) {c : SubnetProviderCache} (start : P c)
    (ops : List (Walks × CacheOp)) : P (c.run ops) :=
  List.foldlRecOn ops _ start fun c h op _ => step c op.1 op.2 h

/-! ## Pruning several peers -/

theorem mem_routable_foldl (ps : List PeerId) (c : SubnetProviderCache) (q : PeerId) :
    q ∈ (ps.foldl setUnroutable c).routablePeers ↔ q ∉ ps ∧ q ∈ c.routablePeers := by
  induction ps generalizing c with
  | nil => simp
  | cons p ps ih =>
    rw [List.foldl_cons, ih]
    simp only [setUnroutable, Finset.mem_erase, List.mem_cons]
    tauto

theorem timestamps_foldl (ps : List PeerId) (c : SubnetProviderCache) (q : PeerId) :
    (ps.foldl setUnroutable c).peerTimestamps.lookup q =
      if q ∈ ps then none else c.peerTimestamps.lookup q := by
  induction ps generalizing c with
  | nil => simp
  | cons p ps ih =>
    rw [List.foldl_cons, ih]
    by_cases hq : q = p
    · subst hq
      simp [setUnroutable]
    · simp [setUnroutable, hq, AList.lookup_erase_ne hq]

theorem mem_providers_foldl (ps : List PeerId) (c : SubnetProviderCache) (q : PeerId)
    (s : SubnetID) :
    q ∈ (ps.foldl setUnroutable c).providersOfSubnet s ↔
      q ∉ ps ∧ q ∈ c.providersOfSubnet s := by
  induction ps generalizing c with
  | nil => simp
  | cons p ps ih =>
    rw [List.foldl_cons, ih, mem_providers_setUnroutable, List.mem_cons]
    tauto

@[simp] theorem pinned_foldl (ps : List PeerId) (c : SubnetProviderCache) :
    (ps.foldl setUnroutable c).pinnedSubnets = c.pinnedSubnets := by
  induction ps generalizing c with
  | nil => rfl
  | cons p ps ih => exact (ih _).trans rfl

theorem mem_pruneProviders (o : HashOrder PeerId) (c : SubnetProviderCache)
    (cutoff : Timestamp) (p : PeerId) :
    p ∈ (c.pruneProviders o cutoff).2 ↔ ∃ t, c.peerTimestamps.lookup p = some t ∧ t < cutoff := by
  simp only [pruneProviders, List.mem_filterMap, Prod.exists, AList.mem_iter,
    Option.ite_none_right_eq_some, Option.some.injEq]
  constructor
  · rintro ⟨q, t, h, ht, rfl⟩
    exact ⟨t, h, ht⟩
  · rintro ⟨t, h, ht⟩
    exact ⟨p, t, h, ht, rfl⟩

theorem nodup_pruneProviders (o : HashOrder PeerId) (c : SubnetProviderCache)
    (cutoff : Timestamp) : (c.pruneProviders o cutoff).2.Nodup := by
  -- The pruned peers are a sublist of the keys of the walk.
  refine (List.Nodup.sublist ?_ (c.peerTimestamps.nodup_map_fst_iter o))
  have sub : ∀ l : List (PeerId × Timestamp), List.Sublist
      (l.filterMap (fun e => if e.2 < cutoff then some e.1 else none)) (l.map Prod.fst) := by
    intro l
    induction l with
    | nil => simp
    | cons e l ih =>
      by_cases h : e.2 < cutoff
      · simpa [h] using ih
      · simpa [h] using ih.cons e.1
  exact sub _

/-! ## One operation -/

/-- The record is newer than what the cache holds about its peer. -/
def Accepts (c : SubnetProviderCache) (r : ProviderRecord) : Prop :=
  r.peerId ∈ c.routablePeers ∧ c.timestampOf r.peerId < r.timestamp

instance (c : SubnetProviderCache) (r : ProviderRecord) : Decidable (c.Accepts r) :=
  inferInstanceAs (Decidable (_ ∧ _))

theorem addProvider_of_accepts (o : HashOrder SubnetID) {c : SubnetProviderCache}
    {r : ProviderRecord} (h : c.Accepts r) :
    (c.addProvider o r).1 = ((c.recorded r).pruneSubnets o).1 := by
  unfold addProvider isRoutable
  simp [h.1, h.2]

/-- The subnets evicted while the record is taken in. -/
def evictedBy (o : HashOrder SubnetID) (c : SubnetProviderCache) (r : ProviderRecord) :
    Finset SubnetID :=
  if c.Accepts r then ((c.recorded r).pruneSubnets o).2 else ∅

/-- Where the peer is listed after its record: eviction takes it out again. -/
theorem mem_providers_addProvider (o : HashOrder SubnetID) {c : SubnetProviderCache}
    {r : ProviderRecord} (acc : c.Accepts r) (s : SubnetID) :
    r.peerId ∈ (c.addProvider o r).1.providersOfSubnet s ↔
      s ∈ r.subnetIds ∧ s ∉ c.evictedBy o r := by
  rw [addProvider_of_accepts o acc, mem_providers_pruneSubnets, mem_providers_recorded, if_pos rfl,
    evictedBy, if_pos acc]

theorem addProvider_of_not_routable (o : HashOrder SubnetID) {c : SubnetProviderCache}
    {r : ProviderRecord} (h : r.peerId ∉ c.routablePeers) : c.addProvider o r = (c, none) := by
  unfold addProvider isRoutable
  simp [h]

theorem addProvider_of_stale (o : HashOrder SubnetID) {c : SubnetProviderCache}
    {r : ProviderRecord} (h : r.peerId ∈ c.routablePeers) (ht : ¬ c.Accepts r) :
    (c.addProvider o r).1 =
      { c with peerTimestamps := c.peerTimestamps.orInsert r.peerId 0 } := by
  unfold addProvider isRoutable
  have stale : ¬ c.timestampOf r.peerId < r.timestamp := fun lt => ht ⟨h, lt⟩
  simp [h, stale]

/-- A record leaves alone which peers are routable and which subnets are pinned. -/
theorem addProvider_frame (o : HashOrder SubnetID) (c : SubnetProviderCache)
    (r : ProviderRecord) :
    (c.addProvider o r).1.routablePeers = c.routablePeers ∧
      (c.addProvider o r).1.pinnedSubnets = c.pinnedSubnets := by
  by_cases route : r.peerId ∈ c.routablePeers
  · by_cases acc : c.Accepts r
    · rw [addProvider_of_accepts o acc, pruneSubnets_routable, pruneSubnets_pinned]
      exact ⟨rfl, rfl⟩
    · rw [addProvider_of_stale o route acc]
      exact ⟨rfl, rfl⟩
  · rw [addProvider_of_not_routable o route]
    exact ⟨rfl, rfl⟩

@[simp] theorem routable_addProvider (o : HashOrder SubnetID) (c : SubnetProviderCache)
    (r : ProviderRecord) : (c.addProvider o r).1.routablePeers = c.routablePeers :=
  (addProvider_frame o c r).1

@[simp] theorem pinned_addProvider (o : HashOrder SubnetID) (c : SubnetProviderCache)
    (r : ProviderRecord) : (c.addProvider o r).1.pinnedSubnets = c.pinnedSubnets :=
  (addProvider_frame o c r).2

/-- A record raises the timestamp of its peer to its own, if the peer is routable. -/
theorem timestamps_addProvider (o : HashOrder SubnetID) (c : SubnetProviderCache)
    (r : ProviderRecord) (q : PeerId) :
    (c.addProvider o r).1.peerTimestamps.lookup q =
      if q = r.peerId ∧ r.peerId ∈ c.routablePeers then
        some (max (c.timestampOf r.peerId) r.timestamp)
      else c.peerTimestamps.lookup q := by
  by_cases route : r.peerId ∈ c.routablePeers
  · by_cases acc : c.Accepts r
    · rw [addProvider_of_accepts o acc, pruneSubnets_timestamps, timestamps_recorded,
        max_eq_right acc.2.le]
      simp [route]
    · have older : r.timestamp ≤ c.timestampOf r.peerId := by
        by_contra newer
        exact acc ⟨route, not_le.mp newer⟩
      rw [addProvider_of_stale o route acc, max_eq_left older]
      simp [AList.lookup_orInsert, route, timestampOf]
  · rw [addProvider_of_not_routable o route]
    simp [route]

/-- The number of tracked subnets when the operation would prune them. -/
def peak (c : SubnetProviderCache) : CacheOp → Nat
  | .addProvider r => if c.Accepts r then (c.recorded r).subnetProviders.len
      else c.subnetProviders.len
  | _ => c.subnetProviders.len

/-- In the run from `c` no operation tracks more than `maxSubnets` subnets. -/
def NeverExceeds (c : SubnetProviderCache) : List (Walks × CacheOp) → Prop
  | [] => True
  | op :: ops => c.peak op.2 ≤ c.maxSubnets ∧ (op.2.apply op.1 c).NeverExceeds ops

instance decidableNeverExceeds (c : SubnetProviderCache) :
    (ops : List (Walks × CacheOp)) → Decidable (c.NeverExceeds ops)
  | [] => .isTrue trivial
  | op :: ops =>
    have := decidableNeverExceeds (op.2.apply op.1 c) ops
    inferInstanceAs (Decidable (_ ∧ _))

end SubnetProviderCache

end IpcAgent.Resolver
