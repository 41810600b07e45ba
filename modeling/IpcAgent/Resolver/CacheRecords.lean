import IpcAgent.Resolver.Expiry

/-!
# The record behind a provider

However often the cache has evicted subnets or forgotten peers, what it says about a peer with
a timestamp goes back to a single record of that peer: the one with this timestamp. Under the
subnets that have been pinned all along, nothing of that record is missing.
-/

namespace IpcAgent.Resolver
open Library

namespace SubnetProviderCache

/-- What the cache says of the peer of `r` is what `r` says, up to the subnets outside `P` that
were evicted. -/
structure StandsFor (P : Set SubnetID) (c : SubnetProviderCache) (r : ProviderRecord) : Prop where
  stamp : r.timestamp = c.timestampOf r.peerId
  listed : ∀ s, r.peerId ∈ c.providersOfSubnet s → s ∈ r.subnetIds
  kept : ∀ s ∈ P, s ∈ r.subnetIds → r.peerId ∈ c.providersOfSubnet s

/-- Every peer with a positive timestamp stands for one of the records in `R`. -/
def Reflects (R : ProviderRecord → Prop) (P : Set SubnetID) (c : SubnetProviderCache) : Prop :=
  ∀ p, 0 < c.timestampOf p → ∃ r, R r ∧ r.peerId = p ∧ c.StandsFor P r

variable {R : ProviderRecord → Prop} {P : Set SubnetID} {c c' : SubnetProviderCache}

theorem Reflects.mono (reflects : c.Reflects R P) {R' : ProviderRecord → Prop}
    {P' : Set SubnetID} (records : ∀ r, R r → R' r) (subnets : P' ⊆ P) : c.Reflects R' P' := by
  intro p pos
  obtain ⟨r, known, own, stands⟩ := reflects p pos
  exact ⟨r, records r known, own, stands.stamp, stands.listed,
    fun s hs => stands.kept s (subnets hs)⟩

/-- The entries of the peers that keep a timestamp may only shrink, and not in `P`. -/
theorem Reflects.frame (reflects : c.Reflects R P)
    (same : ∀ p, 0 < c'.timestampOf p → c'.timestampOf p = c.timestampOf p ∧
      (∀ s, p ∈ c'.providersOfSubnet s → p ∈ c.providersOfSubnet s) ∧
      ∀ s ∈ P, p ∈ c.providersOfSubnet s → p ∈ c'.providersOfSubnet s) : c'.Reflects R P := by
  intro p pos
  obtain ⟨stamp, fewer, kept⟩ := same p pos
  obtain ⟨r, known, rfl, stands⟩ := reflects p (stamp ▸ pos)
  refine ⟨r, known, rfl, stands.stamp.trans stamp.symm, ?_, ?_⟩
  · intro s listed
    exact stands.listed s (fewer s listed)
  · intro s hs listed
    exact kept s hs (stands.kept s hs listed)

theorem Reflects.foldl_setUnroutable (reflects : c.Reflects R P) (ps : List PeerId) :
    (ps.foldl setUnroutable c).Reflects R P := by
  refine reflects.frame fun p pos => ?_
  have kept : p ∉ ps := by
    intro mem
    simp [timestampOf, timestamps_foldl, mem] at pos
  refine ⟨by simp [timestampOf, timestamps_foldl, kept], ?_, ?_⟩
  · intro s listed
    exact ((mem_providers_foldl ps c p s).mp listed).2
  · intro s _ listed
    exact (mem_providers_foldl ps c p s).mpr ⟨kept, listed⟩

/-- Nothing of a pinned subnet is evicted while a record is taken in. -/
theorem notMem_evictedBy (o : HashOrder SubnetID) {s : SubnetID} (pinned : s ∈ c.pinnedSubnets)
    (r : ProviderRecord) : s ∉ c.evictedBy o r := by
  unfold evictedBy
  split
  · exact fun evicted => Finset.disjoint_left.mp (disjoint_pruneSubnets o _) evicted pinned
  · simp

/-- Where another peer is listed after a record: eviction takes it out as well. -/
theorem mem_providers_addProvider_of_ne (o : HashOrder SubnetID) {r : ProviderRecord}
    {p : PeerId} (other : p ≠ r.peerId) (s : SubnetID) :
    p ∈ (c.addProvider o r).1.providersOfSubnet s ↔
      p ∈ c.providersOfSubnet s ∧ s ∉ c.evictedBy o r := by
  by_cases route : r.peerId ∈ c.routablePeers
  · by_cases acc : c.Accepts r
    · rw [addProvider_of_accepts o acc, mem_providers_pruneSubnets, mem_providers_recorded,
        if_neg other, evictedBy, if_pos acc]
    · rw [addProvider_of_stale o route acc, evictedBy, if_neg acc]
      simp [providersOfSubnet]
  · rw [addProvider_of_not_routable o route, evictedBy, if_neg fun acc => route acc.1]
    simp

theorem Reflects.addProvider (reflects : c.Reflects R P) (o : HashOrder SubnetID)
    {r : ProviderRecord} (known : R r) (pinned : P ⊆ c.pinnedSubnets) :
    (c.addProvider o r).1.Reflects R P := by
  by_cases acc : c.Accepts r
  · intro p pos
    by_cases own : p = r.peerId
    · -- The record takes the place of the one before.
      refine ⟨r, known, own.symm, ?_, ?_, ?_⟩
      · rw [Membership.timestampOf_addProvider, if_pos ⟨rfl, acc⟩]
      · exact fun s listed => ((mem_providers_addProvider o acc s).mp listed).1
      · intro s hs listed
        exact (mem_providers_addProvider o acc s).mpr ⟨listed, notMem_evictedBy o (pinned hs) r⟩
    · have stamp : (c.addProvider o r).1.timestampOf p = c.timestampOf p := by
        rw [Membership.timestampOf_addProvider, if_neg fun both => own both.1]
      obtain ⟨r', known', rfl, stands⟩ := reflects p (stamp ▸ pos)
      refine ⟨r', known', rfl, stands.stamp.trans stamp.symm, ?_, ?_⟩
      · intro s listed
        exact stands.listed s ((mem_providers_addProvider_of_ne o own s).mp listed).1
      · intro s hs listed
        exact (mem_providers_addProvider_of_ne o own s).mpr
          ⟨stands.kept s hs listed, notMem_evictedBy o (pinned hs) r⟩
  · -- Nothing is listed or stamped anew.
    refine reflects.frame fun p _ => ⟨?_, ?_, ?_⟩
    · rw [Membership.timestampOf_addProvider, if_neg fun both => acc both.2]
    all_goals
      by_cases route : r.peerId ∈ c.routablePeers
      · rw [addProvider_of_stale o route acc]
        simp [providersOfSubnet]
      · rw [addProvider_of_not_routable o route]
        simp

/-- One operation, as long as the records taken in are in `R` and `P` is pinned. -/
theorem Reflects.apply (reflects : c.Reflects R P) (w : Walks) {op : CacheOp}
    (known : ∀ r, op = .addProvider r → R r) (pinned : P ⊆ c.pinnedSubnets) :
    (op.apply w c).Reflects R P := by
  cases op with
  | setUnroutable p => exact reflects.foldl_setUnroutable [p]
  | addProvider r => exact reflects.addProvider w.subnets (known r rfl) pinned
  | pruneProviders cutoff => exact reflects.foldl_setUnroutable _
  | _ => exact reflects.frame fun p _ => ⟨rfl, fun _ mem => mem, fun _ _ mem => mem⟩

/-- While a peer is routable its timestamp does not fall. -/
theorem timestampOf_le_apply (c : SubnetProviderCache) (w : Walks) (op : CacheOp) {p : PeerId}
    (routable : p ∈ (op.apply w c).routablePeers) :
    c.timestampOf p ≤ (op.apply w c).timestampOf p := by
  have kept : ∀ ps : List PeerId, p ∈ (ps.foldl setUnroutable c).routablePeers →
      c.timestampOf p ≤ (ps.foldl setUnroutable c).timestampOf p := by
    intro ps mem
    have stays := ((mem_routable_foldl ps c p).mp mem).1
    simp [timestampOf, timestamps_foldl, stays]
  cases op with
  | setRoutable q => exact le_rfl
  | setUnroutable q => exact kept [q] routable
  | addProvider r =>
    simp only [CacheOp.apply, Membership.timestampOf_addProvider]
    split
    · rename_i taken
      rw [taken.1]
      exact taken.2.2.le
    · exact le_rfl
  | pruneProviders cutoff => exact kept _ routable
  | pinSubnet id => exact le_rfl
  | unpinSubnet id => exact le_rfl

end SubnetProviderCache

/-! ## Steps of the behaviour -/

namespace Membership
open SubnetProviderCache

variable {ok : Oracle} {codec : Codec} {b : Behaviour} {R : ProviderRecord → Prop}
  {P : Set SubnetID}

/-- The tables a cache has in common with another say the same of its peers. -/
theorem SameTables.reflects {b' : Behaviour} (same : SameTables b b')
    (reflects : b.providerCache.Reflects R P) : b'.providerCache.Reflects R P := by
  refine reflects.frame fun p _ => ?_
  unfold timestampOf providersOfSubnet
  rw [same.timestamps, same.providers]
  exact ⟨rfl, fun _ mem => mem, fun _ _ mem => mem⟩

theorem reflects_step (reflects : b.providerCache.Reflects R P) (i : Moment × Input)
    (known : ∀ r, i.2.record codec b.membershipTopic = some r → R r)
    (pinned : P ⊆ b.providerCache.pinnedSubnets) :
    (b.step ok codec i).providerCache.Reflects R P := by
  refine (sameTables_step ok codec b i).reflects ?_
  unfold Behaviour.applied
  split
  · rename_i op found
    refine reflects.apply i.1.walks (fun r eq => known r ?_) pinned
    exact record_of_cacheOp codec b.membershipTopic b.maxProviderAge i r (eq ▸ found)
  · exact reflects

theorem stamped_step (stamped : b.providerCache.ListedStamped) (i : Moment × Input) :
    (b.step ok codec i).providerCache.ListedStamped := by
  have same := sameTables_step ok codec b i
  have applied : (b.applied codec i).providerCache.ListedStamped := by
    unfold Behaviour.applied
    split
    · exact stamped.apply i.1.walks _
    · exact stamped
  intro p s listed
  unfold providersOfSubnet at listed
  unfold timestampOf
  rw [same.providers] at listed
  rw [same.timestamps]
  exact applied p s listed

theorem timestampOf_le_step (i : Moment × Input) {p : PeerId}
    (routable : p ∈ (b.step ok codec i).providerCache.routablePeers) :
    b.providerCache.timestampOf p ≤ (b.step ok codec i).providerCache.timestampOf p := by
  have same := sameTables_step ok codec b i
  unfold timestampOf
  rw [same.routable] at routable
  rw [same.timestamps]
  unfold Behaviour.applied at routable ⊢
  split at routable
  · exact timestampOf_le_apply b.providerCache i.1.walks _ routable
  · exact le_rfl

/-- A record of a routable peer leaves no older timestamp behind. -/
theorem timestamp_le_step (i : Moment × Input) {r : ProviderRecord}
    (carried : i.2.record codec b.membershipTopic = some r)
    (routable : r.peerId ∈ b.providerCache.routablePeers) :
    r.timestamp ≤ (b.step ok codec i).providerCache.timestampOf r.peerId := by
  have same := sameTables_step ok codec b i
  obtain ⟨m, i⟩ := i
  cases i with
  | gossip e =>
    unfold timestampOf
    rw [same.timestamps]
    simp only [Behaviour.applied, Input.cacheOp]
    rw [carried]
    simp only [Option.map_some, CacheOp.apply]
    rw [timestamps_addProvider, if_pos ⟨rfl, routable⟩]
    exact le_max_right _ _
  | _ => cases carried

end Membership

end IpcAgent.Resolver
