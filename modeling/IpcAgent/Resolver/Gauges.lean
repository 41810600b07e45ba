import IpcAgent.Resolver.CacheInvariant
import IpcAgent.Resolver.MembershipRun

/-!
# The membership gauges

Two gauges are kept beside the provider cache. The number of routable peers is only set when
a peer becomes routable, so every removal after that is missing from it. The number of
providers is counted up and down, but a peer that discovery takes away is not counted down.
-/

namespace IpcAgent.Resolver
open Library

/-! ## How many peers the cache knows -/

namespace SubnetProviderCache

/-- The number of peers with a timestamp. -/
def numStamped (c : SubnetProviderCache) : Nat := c.peerTimestamps.len

variable {c : SubnetProviderCache}

theorem numRoutable_setUnroutable {p : PeerId} (routable : p ∈ c.routablePeers) :
    (c.setUnroutable p).numRoutable + 1 = c.numRoutable :=
  Finset.card_erase_add_one routable

theorem numStamped_setUnroutable {p : PeerId} (stamped : p ∈ c.peerTimestamps) :
    (c.setUnroutable p).numStamped + 1 = c.numStamped :=
  AList.len_erase_of_mem stamped

/-- A record of a routable peer leaves a timestamp, whether it is accepted or not. -/
theorem numStamped_addProvider (o : HashOrder SubnetID) (r : ProviderRecord) :
    (c.addProvider o r).1.numStamped =
      if r.peerId ∈ c.routablePeers ∧ r.peerId ∉ c.peerTimestamps then c.numStamped + 1
      else c.numStamped := by
  have opened : (c.peerTimestamps.orInsert r.peerId 0).len =
      if r.peerId ∉ c.peerTimestamps then c.numStamped + 1 else c.numStamped := by
    rw [AList.len_orInsert, ← ite_not]
    rfl
  by_cases route : r.peerId ∈ c.routablePeers
  · simp only [route, true_and]
    rw [← opened]
    by_cases acc : c.Accepts r
    · rw [addProvider_of_accepts o acc, numStamped, pruneSubnets_timestamps]
      exact (AList.len_insert _ _ _).trans (if_pos (AList.mem_orInsert _ _ _))
    · rw [addProvider_of_stale o route acc]
      rfl
  · rw [addProvider_of_not_routable o route, if_neg fun both => route both.1]

theorem isNew_addProvider (o : HashOrder SubnetID) (r : ProviderRecord) :
    ((c.addProvider o r).2.elim false ProviderDelta.isNew) =
      decide (r.peerId ∈ c.routablePeers ∧ r.peerId ∉ c.peerTimestamps) := by
  unfold addProvider isRoutable hasTimestamp
  by_cases route : r.peerId ∈ c.routablePeers
  · simp only [route, decide_true, if_true, true_and, decide_not]
    split <;> rfl
  · simp [route]

/-- Every pruned peer was routable and had a timestamp. -/
theorem num_foldl_setUnroutable (ps : List PeerId) (nodup : ps.Nodup)
    (known : ∀ p ∈ ps, p ∈ c.routablePeers ∧ p ∈ c.peerTimestamps) :
    (ps.foldl setUnroutable c).numRoutable + ps.length = c.numRoutable ∧
      (ps.foldl setUnroutable c).numStamped + ps.length = c.numStamped := by
  induction ps generalizing c with
  | nil => exact ⟨rfl, rfl⟩
  | cons p ps ih =>
    obtain ⟨fresh, nodup⟩ := List.nodup_cons.mp nodup
    obtain ⟨first, rest⟩ := List.forall_mem_cons.mp known
    have kept : ∀ q ∈ ps, q ∈ (c.setUnroutable p).routablePeers ∧
        q ∈ (c.setUnroutable p).peerTimestamps := by
      intro q mem
      have other : q ≠ p := fun eq => fresh (eq ▸ mem)
      exact ⟨Finset.mem_erase.mpr ⟨other, (rest q mem).1⟩,
        AList.mem_erase.mpr ⟨other, (rest q mem).2⟩⟩
    obtain ⟨routable, stamped⟩ := ih nodup kept
    have := numRoutable_setUnroutable first.1
    have := numStamped_setUnroutable first.2
    simp only [List.foldl_cons, List.length_cons]
    omega

theorem num_pruneProviders (h : c.StampedRoutable) (o : HashOrder PeerId) (cutoff : Timestamp) :
    (c.pruneProviders o cutoff).1.numRoutable + (c.pruneProviders o cutoff).2.length =
        c.numRoutable ∧
      (c.pruneProviders o cutoff).1.numStamped + (c.pruneProviders o cutoff).2.length =
        c.numStamped := by
  refine num_foldl_setUnroutable _ (nodup_pruneProviders o c cutoff) fun p pruned => ?_
  obtain ⟨t, found, -⟩ := (mem_pruneProviders o c cutoff p).mp pruned
  have stamped : p ∈ c.peerTimestamps := AList.lookup_isSome.mp (by simp [found])
  exact ⟨h p stamped, stamped⟩

end SubnetProviderCache

namespace Membership
open SubnetProviderCache

/-! ## Drift -/

/-- By how much the gauges are too high. -/
structure Drift where
  routable : Nat
  providers : Nat
deriving DecidableEq

/-- The drift after a cache operation: setting the one gauge puts it right; neither is told of
a removal by discovery, and the one not of an expiry. -/
def Drift.after (w : Walks) (c : SubnetProviderCache) (d : Drift) : CacheOp → Drift
  | .setRoutable _ => { d with routable := 0 }
  | .setUnroutable p =>
    ⟨if p ∈ c.routablePeers then d.routable + 1 else d.routable,
      if p ∈ c.peerTimestamps then d.providers + 1 else d.providers⟩
  | .pruneProviders cutoff =>
    { d with routable := d.routable + (c.pruneProviders w.peers cutoff).2.length }
  | _ => d

namespace Behaviour

variable (ok : Oracle) (codec : Codec)

def driftBy (b : Behaviour) (d : Drift) (i : Moment × Input) : Drift :=
  match Input.cacheOp codec b.membershipTopic b.maxProviderAge i with
  | some op => d.after i.1.walks b.providerCache op
  | none => d

/-- The drift at the end of a run: the routable peers removed since a peer was last made
routable, and the providers that discovery took away. -/
def drift (b : Behaviour) (d : Drift) : List (Moment × Input) → Drift
  | [] => d
  | i :: inputs => drift (b.step ok codec i) (b.driftBy codec d i) inputs

/-- The gauges are too high by the drift. -/
structure Drifts (b : Behaviour) (d : Drift) : Prop where
  routable : b.routableGauge = b.providerCache.numRoutable + d.routable
  providers : b.providerGauge = b.providerCache.numStamped + d.providers
  stamped : b.providerCache.StampedRoutable

end Behaviour

/-- The gauges and the tables they count are the same. -/
structure SameGauges (b b' : Behaviour) : Prop extends SameTables b b' where
  routableGauge : b'.routableGauge = b.routableGauge
  providerGauge : b'.providerGauge = b.providerGauge

instance : Std.Refl SameGauges := ⟨fun b => ⟨refl_of SameTables b, rfl, rfl⟩⟩

instance : IsTrans Behaviour SameGauges where
  trans _ _ _ h h' := ⟨trans_of SameTables h.toSameTables h'.toSameTables,
    h'.routableGauge.trans h.routableGauge, h'.providerGauge.trans h.providerGauge⟩

theorem SameGauges.ignores : Ignores SameGauges where
  inner b g := ⟨SameTables.ignores.inner b g, rfl, rfl⟩
  subnetIds b ids := ⟨SameTables.ignores.subnetIds b ids, rfl, rfl⟩
  votingTopics b topics := ⟨SameTables.ignores.votingTopics b topics, rfl, rfl⟩
  preemptiveTopics b topics := ⟨SameTables.ignores.preemptiveTopics b topics, rfl, rfl⟩
  pinned b ids := ⟨SameTables.ignores.pinned b ids, rfl, rfl⟩
  timer b last next interval := ⟨SameTables.ignores.timer b last next interval, rfl, rfl⟩

section Steps

variable {ok : Oracle} {codec : Codec} {b b' : Behaviour} {d : Drift}

theorem Behaviour.Drifts.same (drifts : b.Drifts d) (same : SameGauges b b') : b'.Drifts d := by
  obtain ⟨routable, providers, stamped⟩ := drifts
  unfold numRoutable at routable
  unfold numStamped at providers
  unfold StampedRoutable at stamped
  rw [← same.routable, ← same.routableGauge] at routable
  rw [← same.timestamps, ← same.providerGauge] at providers
  rw [← same.timestamps, ← same.routable] at stamped
  exact ⟨routable, providers, stamped⟩

theorem sameGauges_of_published (published : Published b b') : SameGauges b b' := by
  obtain ⟨_, _, _, _, rfl⟩ := published
  exact ⟨⟨rfl, rfl, rfl, rfl, rfl⟩, rfl, rfl⟩

theorem Behaviour.Drifts.publishForNewPeer (drifts : b.Drifts d) (now : Timestamp) :
    (b.publishForNewPeer now).Drifts d :=
  drifts.same (sameGauges_of_published (published_publishForNewPeer now b))

theorem gauges_foldl_reportPruned (ps : List PeerId) (b : Behaviour) :
    (ps.foldl Behaviour.reportPruned b).providerGauge = b.providerGauge - ps.length ∧
      (ps.foldl Behaviour.reportPruned b).routableGauge = b.routableGauge ∧
      (ps.foldl Behaviour.reportPruned b).providerCache = b.providerCache := by
  induction ps generalizing b with
  | nil => simp
  | cons p ps ih =>
    obtain ⟨providers, routable, cache⟩ := ih (b.reportPruned p)
    refine ⟨?_, routable, cache⟩
    rw [List.foldl_cons, providers, List.length_cons]
    simp only [Behaviour.reportPruned, Behaviour.push]
    omega

theorem Behaviour.Drifts.pruneMembership (drifts : b.Drifts d) (m : Moment) :
    (b.pruneMembership m.now m.walks.peers).Drifts
      (d.after m.walks b.providerCache (.pruneProviders (m.now.sub b.maxProviderAge))) := by
  obtain ⟨routable, providers, stamped⟩ := drifts
  have pruned := num_pruneProviders stamped m.walks.peers (m.now.sub b.maxProviderAge)
  have keeps := stamped.apply m.walks (.pruneProviders (m.now.sub b.maxProviderAge))
  obtain ⟨fewer, same, cache⟩ := gauges_foldl_reportPruned
    (b.providerCache.pruneProviders m.walks.peers (m.now.sub b.maxProviderAge)).2
    { b with providerCache :=
        (b.providerCache.pruneProviders m.walks.peers (m.now.sub b.maxProviderAge)).1 }
  unfold Behaviour.pruneMembership
  dsimp only at fewer same ⊢
  refine ⟨?_, ?_, ?_⟩
  · rw [same, cache, routable]
    simp only [Drift.after]
    omega
  · rw [fewer, cache, providers]
    simp only [Drift.after]
    omega
  · rw [cache]
    exact keeps

theorem Behaviour.Drifts.setUnroutable (drifts : b.Drifts d) (w : Walks) (p : PeerId) :
    (b.setUnroutable p).Drifts (d.after w b.providerCache (.setUnroutable p)) := by
  obtain ⟨routable, providers, stamped⟩ := drifts
  refine ⟨?_, ?_, stamped.setUnroutable p⟩
  · simp only [Behaviour.setUnroutable, Behaviour.push, Drift.after, routable]
    split
    · have := numRoutable_setUnroutable ‹p ∈ b.providerCache.routablePeers›
      omega
    · rw [numRoutable, numRoutable, SubnetProviderCache.setUnroutable,
        Finset.erase_eq_of_notMem ‹_›]
  · simp only [Behaviour.setUnroutable, Behaviour.push, Drift.after, providers]
    split
    · have := numStamped_setUnroutable ‹p ∈ b.providerCache.peerTimestamps›
      omega
    · rw [numStamped, numStamped, SubnetProviderCache.setUnroutable, AList.erase_of_notMem ‹_›]

theorem Behaviour.Drifts.setRoutable (drifts : b.Drifts d) (w : Walks) (now : Timestamp)
    (p : PeerId) :
    (b.setRoutable now p).Drifts (d.after w b.providerCache (.setRoutable p)) := by
  have set : Behaviour.Drifts { b with
      providerCache := b.providerCache.setRoutable p
      routableGauge := (b.providerCache.setRoutable p).numRoutable } { d with routable := 0 } :=
    ⟨(Int.add_zero _).symm, drifts.providers, drifts.stamped.apply w (.setRoutable p)⟩
  exact set.publishForNewPeer now

theorem Behaviour.Drifts.handleProviderRecord (drifts : b.Drifts d) (now : Timestamp)
    (o : HashOrder SubnetID) (r : ProviderRecord) : (b.handleProviderRecord now o r).Drifts d := by
  obtain ⟨routable, providers, stamped⟩ := drifts
  have counted := numStamped_addProvider (c := b.providerCache) o r
  have isNew := isNew_addProvider (c := b.providerCache) o r
  have same : (b.providerCache.addProvider o r).1.numRoutable = b.providerCache.numRoutable :=
    congrArg Finset.card (routable_addProvider o b.providerCache r)
  have keeps := stamped.addProvider o r
  rw [← same] at routable
  -- The gauge is counted up just when the record leaves the first timestamp of its peer.
  have up : (b.providerCache.addProvider o r).1.numStamped =
      if (b.providerCache.addProvider o r).2.elim false ProviderDelta.isNew
      then b.providerCache.numStamped + 1 else b.providerCache.numStamped := by
    rw [isNew, counted]
    simp only [decide_eq_true_eq]
  unfold Behaviour.handleProviderRecord
  dsimp only
  cases answered : (b.providerCache.addProvider o r).2 with
  | none =>
    have kept : (b.providerCache.addProvider o r).1.numStamped = b.providerCache.numStamped := by
      simpa [answered] using up
    exact ⟨routable, providers.trans (by rw [kept]), keeps⟩
  | some delta =>
    cases first : delta.isNew with
    | false =>
      have kept : (b.providerCache.addProvider o r).1.numStamped = b.providerCache.numStamped := by
        simpa [answered, first] using up
      simp only [first, Bool.false_eq_true, if_false]
      exact ⟨routable, providers.trans (by rw [kept]), keeps⟩
    | true =>
      have more : (b.providerCache.addProvider o r).1.numStamped =
          b.providerCache.numStamped + 1 := by
        simpa [answered, first] using up
      simp only [first, if_true]
      refine Behaviour.Drifts.publishForNewPeer ⟨routable, ?_, keeps⟩ now
      dsimp only
      omega

theorem Behaviour.Drifts.gossip (drifts : b.Drifts d) (m : Moment) (e : GossipsubEvent) :
    (b.handleGossipsubEvent codec m e).Drifts d := by
  have done := gossiped codec m b e
  generalize b.handleGossipsubEvent codec m e = b' at done
  generalize Input.record codec b.membershipTopic (.gossip e) = carried at done
  cases done with
  | ignored => exact drifts
  | newPeer => exact drifts.publishForNewPeer m.now
  | record r => exact drifts.handleProviderRecord m.now m.walks.subnets r
  | reported event => exact ⟨drifts.routable, drifts.providers, drifts.stamped⟩

theorem driftBy_gossip (m : Moment) (e : GossipsubEvent) :
    b.driftBy codec d (m, .gossip e) = d := by
  simp only [Behaviour.driftBy, Input.cacheOp]
  cases Input.record codec b.membershipTopic (.gossip e) <;> rfl

theorem Behaviour.Drifts.step (drifts : b.Drifts d) (i : Moment × Input) :
    (b.step ok codec i).Drifts (b.driftBy codec d i) := by
  obtain ⟨m, i⟩ := i
  cases i with
  | emit => exact ⟨drifts.1, drifts.2, drifts.3⟩
  | tick =>
    have published := published_perform ok m.now
      { b with publishInterval := b.publishInterval.tick }
    have ticked : Behaviour.Drifts { b with publishInterval := b.publishInterval.tick } d :=
      ⟨drifts.1, drifts.2, drifts.3⟩
    have pruned := (ticked.same (sameGauges_of_published published)).pruneMembership m
    obtain ⟨_, _, _, _, done⟩ := published
    change (Behaviour.pruneMembership m.now m.walks.peers (Behaviour.perform _ _)).Drifts _
    rw [done] at pruned ⊢
    exact pruned
  | gossip e =>
    rw [driftBy_gossip]
    exact drifts.gossip m e
  | discovery e =>
    cases e with
    | added p addresses => exact drifts.setRoutable m.walks m.now p
    | removed p => exact drifts.setUnroutable m.walks p
  | request r => exact drifts.same (within_action ok codec SameGauges.ignores m.now r b)

theorem Behaviour.Drifts.run (drifts : b.Drifts d) (inputs : List (Moment × Input)) :
    (b.run ok codec inputs).Drifts (b.drift ok codec d inputs) := by
  induction inputs generalizing b d with
  | nil => exact drifts
  | cons i inputs ih => exact ih (drifts.step i)

theorem drifts_new {start : Timestamp} {nc : NetworkConfig} {mc : Config}
    (built : new ok codec start nc mc = .ok b) : b.Drifts ⟨0, 0⟩ := by
  have fresh : (initial start nc mc).Drifts ⟨0, 0⟩ := ⟨rfl, rfl, fun p stamped => by cases stamped⟩
  exact fresh.same (related_new ok codec SameGauges.ignores built)

end Steps

/-- Each gauge is accurate exactly while there is nothing it was not told of: for the routable
peers, no routable peer was removed, by discovery or by expiry, since a peer was last made
routable; for the providers, discovery has never taken a provider away. -/
theorem gauges_accurate_iff_no_drift (ok : Oracle) (codec : Codec) (start : Timestamp)
    (nc : NetworkConfig) (mc : Config) (b : Behaviour)
    (built : new ok codec start nc mc = .ok b) (inputs : List (Moment × Input)) :
    let reached := b.run ok codec inputs
    let drift := b.drift ok codec ⟨0, 0⟩ inputs
    (reached.routableGauge = reached.providerCache.numRoutable ↔ drift.routable = 0) ∧
      (reached.providerGauge = reached.providerCache.numStamped ↔ drift.providers = 0) := by
  intro reached drift
  have drifts : reached.Drifts drift := (drifts_new built).run inputs
  rw [drifts.routable, drifts.providers]
  omega

/-- One peer is seen and announces itself. -/
theorem gauges_accurate_for_provider :
    let codec : Codec := ⟨id, fun data => some ⟨⟨[1]⟩, [⟨"/root/t01"⟩], data.length⟩, fun _ => none⟩
    let ok : Oracle := fun _ _ => true
    ∃ b, new ok codec 0 ⟨⟨[0]⟩, "net"⟩ ⟨[], 10, 60, 5, 30⟩ = .ok b ∧
      let reached := b.run ok codec [(⟨0, .plain⟩, .discovery (.added ⟨[1]⟩ [])),
        (⟨1, .plain⟩, .gossip (.message (membershipTopicOf "net") [0]))]
      reached.routableGauge = reached.providerCache.numRoutable ∧
        reached.providerGauge = reached.providerCache.numStamped := by
  intro codec ok
  have accurate := gauges_accurate_iff_no_drift ok codec 0 ⟨⟨[0]⟩, "net"⟩ ⟨[], 10, 60, 5, 30⟩ _ rfl
    [(⟨0, .plain⟩, .discovery (.added ⟨[1]⟩ [])),
      (⟨1, .plain⟩, .gossip (.message (membershipTopicOf "net") [0]))]
  exact ⟨_, rfl, accurate.1.mpr (by decide +kernel), accurate.2.mpr (by decide +kernel)⟩

/-- Discovery takes the peer away again: the cache knows nobody, and both gauges say 1. -/
theorem gauges_stay_up :
    let codec : Codec := ⟨id, fun data => some ⟨⟨[1]⟩, [⟨"/root/t01"⟩], data.length⟩, fun _ => none⟩
    let ok : Oracle := fun _ _ => true
    ∃ b, new ok codec 0 ⟨⟨[0]⟩, "net"⟩ ⟨[], 10, 60, 5, 30⟩ = .ok b ∧
      let reached := b.run ok codec [(⟨0, .plain⟩, .discovery (.added ⟨[1]⟩ [])),
        (⟨1, .plain⟩, .gossip (.message (membershipTopicOf "net") [0])),
        (⟨2, .plain⟩, .discovery (.removed ⟨[1]⟩))]
      reached.routableGauge = 1 ∧ reached.providerCache.numRoutable = 0 ∧
        reached.providerGauge = 1 ∧ reached.providerCache.numStamped = 0 := by
  intro codec ok
  exact ⟨_, rfl, by decide +kernel⟩

end Membership

end IpcAgent.Resolver
