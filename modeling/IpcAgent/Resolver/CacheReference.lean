import IpcAgent.Library.Newest
import IpcAgent.Resolver.CacheRun
import Mathlib.Order.Nat

/-!
# The provider cache against its history

What the cache is for: at any moment the providers of a subnet are the routable peers whose
newest record lists it. `PeerHistory` says this for one peer from the sequence of operations
alone, with no tables; `AgreesAt` relates it to a cache, and one operation at a time keeps
the two in step as long as nothing is evicted.
-/

namespace IpcAgent.Resolver
open Library

/-- What the operations so far say about one peer: whether it is routable, and the records
it had considered, oldest first, since it was last made unroutable. -/
structure PeerHistory where
  routable : Bool
  considered : List ProviderRecord

namespace PeerHistory

/-- The greatest timestamp considered, 0 if there is none. -/
def newestTimestamp (h : PeerHistory) : Timestamp :=
  newest ProviderRecord.timestamp h.considered

/-- The first record that carries the greatest timestamp, if that is greater than 0. -/
def current (h : PeerHistory) : Option ProviderRecord :=
  firstNewest ProviderRecord.timestamp h.considered

/-- Some record has been considered, and none that reaches the cutoff. -/
def Expired (h : PeerHistory) (cutoff : Timestamp) : Prop :=
  h.considered ≠ [] ∧ h.newestTimestamp < cutoff

instance (h : PeerHistory) (cutoff : Timestamp) : Decidable (h.Expired cutoff) :=
  inferInstanceAs (Decidable (_ ∧ _))

def step (p : PeerId) (h : PeerHistory) : CacheOp → PeerHistory
  | .setRoutable q => if q = p then { h with routable := true } else h
  | .setUnroutable q => if q = p then ⟨false, []⟩ else h
  | .addProvider r =>
    if r.peerId = p ∧ h.routable then { h with considered := h.considered ++ [r] } else h
  | .pruneProviders cutoff => if h.Expired cutoff then ⟨false, []⟩ else h
  | .pinSubnet _ | .unpinSubnet _ => h

/-- The history of a peer after a sequence of operations on a new cache. -/
def after (ops : List CacheOp) (p : PeerId) : PeerHistory := ops.foldl (step p) ⟨false, []⟩

end PeerHistory

namespace SubnetProviderCache

/-- The cache knows of peer `p` what its history says, the subnets apart. -/
structure KnowsAt (c : SubnetProviderCache) (p : PeerId) (h : PeerHistory) : Prop where
  routable : p ∈ c.routablePeers ↔ h.routable = true
  timestamp : c.peerTimestamps.lookup p =
    if h.considered = [] then none else some h.newestTimestamp
  unroutable : h.routable = false → h.considered = []

/-- The cache holds of peer `p` what its history says. -/
structure AgreesAt (c : SubnetProviderCache) (p : PeerId) (h : PeerHistory) : Prop
    extends KnowsAt c p h where
  providers : ∀ s, p ∈ c.providersOfSubnet s ↔ ∃ r, h.current = some r ∧ s ∈ r.subnetIds

variable {c c' : SubnetProviderCache} {p : PeerId} {h : PeerHistory}

/-- An operation that leaves alone what the cache knows of the peer keeps the agreement. -/
theorem KnowsAt.frame (known : c.KnowsAt p h)
    (routable : p ∈ c'.routablePeers ↔ p ∈ c.routablePeers)
    (timestamp : c'.peerTimestamps.lookup p = c.peerTimestamps.lookup p) : c'.KnowsAt p h where
  routable := routable.trans known.routable
  timestamp := timestamp.trans known.timestamp
  unroutable := known.unroutable

/-- A peer of which the cache knows nothing has an empty history. -/
theorem KnowsAt.forgotten (routable : p ∉ c.routablePeers)
    (timestamp : c.peerTimestamps.lookup p = none) : c.KnowsAt p ⟨false, []⟩ where
  routable := by simpa using routable
  timestamp := by simpa using timestamp
  unroutable _ := rfl

theorem KnowsAt.timestampOf (known : c.KnowsAt p h) : c.timestampOf p = h.newestTimestamp := by
  unfold SubnetProviderCache.timestampOf
  rw [known.timestamp]
  by_cases hp : h.considered = []
  · simp [hp, PeerHistory.newestTimestamp]
  · simp [hp]

theorem KnowsAt.mem_pruneProviders (known : c.KnowsAt p h) (o : HashOrder PeerId)
    (cutoff : Timestamp) : p ∈ (c.pruneProviders o cutoff).2 ↔ h.Expired cutoff := by
  rw [SubnetProviderCache.mem_pruneProviders, known.timestamp]
  by_cases hp : h.considered = [] <;> simp [hp, PeerHistory.Expired]

/-! ## What the cache knows, one operation at a time -/

theorem KnowsAt.setRoutable (known : c.KnowsAt p h) (q : PeerId) :
    (c.setRoutable q).KnowsAt p (h.step p (.setRoutable q)) := by
  by_cases hq : q = p
  · simp only [PeerHistory.step, hq, if_true]
    exact ⟨by simp [SubnetProviderCache.setRoutable], known.timestamp, by simp⟩
  · simp only [PeerHistory.step, hq, if_false]
    exact known.frame (by simp [SubnetProviderCache.setRoutable, Ne.symm hq]) rfl

theorem KnowsAt.setUnroutable (known : c.KnowsAt p h) (q : PeerId) :
    (c.setUnroutable q).KnowsAt p (h.step p (.setUnroutable q)) := by
  by_cases hq : q = p
  · subst hq
    simp only [PeerHistory.step, if_true]
    exact .forgotten (by simp [SubnetProviderCache.setUnroutable])
      (by simp [SubnetProviderCache.setUnroutable])
  · simp only [PeerHistory.step, hq, if_false]
    exact known.frame (by simp [SubnetProviderCache.setUnroutable, Ne.symm hq])
      (AList.lookup_erase_ne (Ne.symm hq))

theorem KnowsAt.pruneProviders (known : c.KnowsAt p h) (o : HashOrder PeerId)
    (cutoff : Timestamp) :
    (c.pruneProviders o cutoff).1.KnowsAt p (h.step p (.pruneProviders cutoff)) := by
  have routable := mem_routable_foldl (c.pruneProviders o cutoff).2 c p
  have timestamp := timestamps_foldl (c.pruneProviders o cutoff).2 c p
  simp only [known.mem_pruneProviders o cutoff] at routable timestamp
  by_cases hx : h.Expired cutoff
  · simp only [hx, not_true, false_and, if_true, iff_false] at routable timestamp
    simp only [PeerHistory.step, hx, if_true]
    exact .forgotten routable timestamp
  · simp only [hx, not_false_eq_true, true_and, if_false] at routable timestamp
    simp only [PeerHistory.step, hx, if_false]
    exact known.frame routable timestamp

theorem KnowsAt.accepts_iff {r : ProviderRecord} (known : c.KnowsAt r.peerId h) :
    c.Accepts r ↔ h.routable = true ∧ h.newestTimestamp < r.timestamp := by
  unfold Accepts
  rw [known.routable, known.timestampOf]

/-- Whether it is newer or stale, a record of a routable peer is considered. -/
theorem KnowsAt.considered {r : ProviderRecord} (known : c.KnowsAt r.peerId h)
    (o : HashOrder SubnetID) (route : r.peerId ∈ c.routablePeers) :
    (c.addProvider o r).1.KnowsAt r.peerId { h with considered := h.considered ++ [r] } := by
  by_cases acc : c.Accepts r
  · rw [addProvider_of_accepts o acc]
    refine ⟨?_, ?_, fun hr => absurd (known.routable.mp route) (by simpa using hr)⟩
    · rw [pruneSubnets_routable]
      exact known.routable
    · rw [pruneSubnets_timestamps, timestamps_recorded]
      have newer := (known.accepts_iff.mp acc).2
      simp only [PeerHistory.newestTimestamp] at newer
      simp [PeerHistory.newestTimestamp, max_eq_right newer.le]
  · rw [addProvider_of_stale o route acc]
    refine ⟨known.routable, ?_, fun hr => absurd (known.routable.mp route) (by simpa using hr)⟩
    have older : r.timestamp ≤ newest ProviderRecord.timestamp h.considered := by
      by_contra lt
      exact acc (known.accepts_iff.mpr ⟨known.routable.mp route, not_le.mp lt⟩)
    have kept : c.timestampOf r.peerId = newest ProviderRecord.timestamp h.considered :=
      known.timestampOf
    unfold SubnetProviderCache.timestampOf at kept
    simp [AList.lookup_orInsert, PeerHistory.newestTimestamp, max_eq_left older, kept]

theorem KnowsAt.addProvider (known : c.KnowsAt p h) (o : HashOrder SubnetID)
    (r : ProviderRecord) : (c.addProvider o r).1.KnowsAt p (h.step p (.addProvider r)) := by
  by_cases route : r.peerId ∈ c.routablePeers
  · by_cases hp : r.peerId = p
    · subst hp
      simp only [PeerHistory.step, known.routable.mp route, and_self, if_true]
      exact known.routable.mp route ▸ known.considered o route
    · simp only [PeerHistory.step, hp, false_and, if_false]
      by_cases acc : c.Accepts r
      · rw [addProvider_of_accepts o acc]
        exact known.frame (by rw [pruneSubnets_routable]; exact .rfl)
          (by simp [pruneSubnets_timestamps, timestamps_recorded, Ne.symm hp])
      · rw [addProvider_of_stale o route acc]
        exact known.frame .rfl (by simp [AList.lookup_orInsert, Ne.symm hp])
  · rw [addProvider_of_not_routable o route]
    have skipped : ¬ (r.peerId = p ∧ h.routable = true) := by
      rintro ⟨rfl, hr⟩
      exact route (known.routable.mpr hr)
    simpa only [PeerHistory.step, skipped, if_false] using known

/-- One operation keeps what the cache knows and the history in step. -/
theorem KnowsAt.apply (known : c.KnowsAt p h) (w : Walks) (op : CacheOp) :
    (op.apply w c).KnowsAt p (h.step p op) := by
  cases op with
  | setRoutable q => exact known.setRoutable q
  | setUnroutable q => exact known.setUnroutable q
  | addProvider r => exact known.addProvider w.subnets r
  | pruneProviders cutoff => exact known.pruneProviders w.peers cutoff
  | pinSubnet id => exact known.frame .rfl rfl
  | unpinSubnet id => exact known.frame .rfl rfl

/-! ## The providers, while nothing is evicted -/

/-- A newer record takes over as the current one, a stale one changes nothing. -/
theorem AgreesAt.mem_providers_addProvider (agree : c.AgreesAt p h) (o : HashOrder SubnetID)
    (r : ProviderRecord) (hmax : c.peak (.addProvider r) ≤ c.maxSubnets) (s : SubnetID) :
    p ∈ (c.addProvider o r).1.providersOfSubnet s ↔
      ∃ r', (h.step p (.addProvider r)).current = some r' ∧ s ∈ r'.subnetIds := by
  by_cases acc : c.Accepts r
  · -- Nothing is evicted, so the record is taken in as it is.
    have bound : (c.recorded r).subnetProviders.len ≤ (c.recorded r).maxSubnets := by
      simpa [peak, acc, SubnetProviderCache.recorded] using hmax
    rw [addProvider_of_accepts o acc, pruneSubnets_of_le o _ bound, mem_providers_recorded]
    by_cases hp : r.peerId = p
    · subst hp
      obtain ⟨hr, newer⟩ := agree.accepts_iff.mp acc
      simp only [PeerHistory.newestTimestamp] at newer
      simp [PeerHistory.step, hr, PeerHistory.current, firstNewest_append_singleton, newer]
    · simpa [PeerHistory.step, hp, Ne.symm hp] using agree.providers s
  · have unchanged : (c.addProvider o r).1.providersOfSubnet s = c.providersOfSubnet s := by
      by_cases route : r.peerId ∈ c.routablePeers
      · rw [addProvider_of_stale o route acc]
        rfl
      · rw [addProvider_of_not_routable o route]
    rw [unchanged, agree.providers s]
    by_cases hp : r.peerId = p ∧ h.routable = true
    · obtain ⟨rfl, hr⟩ := hp
      have older : ¬ newest ProviderRecord.timestamp h.considered < r.timestamp := fun lt =>
        acc (agree.accepts_iff.mpr ⟨hr, lt⟩)
      simp [PeerHistory.step, hr, PeerHistory.current, firstNewest_append_singleton, older]
    · simp only [PeerHistory.step, hp, if_false]

/-- One operation keeps the cache and the history in step. -/
theorem AgreesAt.apply (agree : c.AgreesAt p h) (w : Walks) (op : CacheOp)
    (hmax : c.peak op ≤ c.maxSubnets) : (op.apply w c).AgreesAt p (h.step p op) := by
  refine ⟨agree.toKnowsAt.apply w op, fun s => ?_⟩
  cases op with
  | setRoutable q =>
    have same : (h.step p (.setRoutable q)).current = h.current := by
      simp only [PeerHistory.step]
      split <;> rfl
    rw [same]
    exact agree.providers s
  | setUnroutable q =>
    simp only [CacheOp.apply, mem_providers_setUnroutable, PeerHistory.step]
    by_cases hq : q = p
    · simp [hq, PeerHistory.current]
    · simpa [hq, Ne.symm hq] using agree.providers s
  | addProvider r => exact agree.mem_providers_addProvider w.subnets r hmax s
  | pruneProviders cutoff =>
    have providers := mem_providers_foldl (c.pruneProviders w.peers cutoff).2 c p s
    rw [agree.mem_pruneProviders] at providers
    simp only [CacheOp.apply, PeerHistory.step]
    refine providers.trans ?_
    by_cases hx : h.Expired cutoff
    · simp [hx, PeerHistory.current]
    · simpa [hx] using agree.providers s
  | pinSubnet id => exact agree.providers s
  | unpinSubnet id => exact agree.providers s

/-- The whole run, by induction on the operations still to come. -/
theorem AgreesAt.run (agree : c.AgreesAt p h) (ops : List (Walks × CacheOp))
    (hmax : c.NeverExceeds ops) :
    (c.run ops).AgreesAt p ((ops.map Prod.snd).foldl (PeerHistory.step p) h) := by
  induction ops generalizing c h with
  | nil => exact agree
  | cons op ops ih => exact ih (agree.apply op.1 op.2 hmax.1) hmax.2

/-- While nothing is evicted, the providers of a subnet are the routable peers whose newest
record lists it, and pruning at a cutoff makes unroutable, and returns once each, exactly
the peers whose considered records are all older. -/
theorem providerCache_correct (maxSubnets : Nat) (static : List SubnetID)
    (ops : List (Walks × CacheOp)) (hmax : (new maxSubnets static).NeverExceeds ops) :
    let c := (new maxSubnets static).run ops
    let hist := PeerHistory.after (ops.map Prod.snd)
    (∀ p, p ∈ c.routablePeers ↔ (hist p).routable = true) ∧
    (∀ p s, p ∈ c.providersOfSubnet s ↔
      (hist p).routable = true ∧ ∃ r, (hist p).current = some r ∧ s ∈ r.subnetIds) ∧
    (∀ (o : HashOrder PeerId) (cutoff : Timestamp),
      (c.pruneProviders o cutoff).2.Nodup ∧
      (∀ p, p ∈ (c.pruneProviders o cutoff).2 ↔ (hist p).Expired cutoff) ∧
      (∀ p, (p ∈ c.routablePeers ∧ p ∉ (c.pruneProviders o cutoff).1.routablePeers) ↔
        (hist p).Expired cutoff)) := by
  intro c hist
  have fresh : ∀ p, (new maxSubnets static).AgreesAt p ⟨false, []⟩ := fun p =>
    ⟨.forgotten (by simp [new]) rfl, fun s => by simp [providersOfSubnet_new, PeerHistory.current]⟩
  have agree : ∀ p, c.AgreesAt p (hist p) := fun p => (fresh p).run ops hmax
  have routable_of_considered : ∀ p, (hist p).considered ≠ [] → (hist p).routable = true := by
    intro p hp
    by_contra hr
    exact hp ((agree p).unroutable (by simpa using hr))
  refine ⟨fun p => (agree p).routable, fun p s => ?_, fun o cutoff =>
    ⟨nodup_pruneProviders o c cutoff, fun p => (agree p).mem_pruneProviders o cutoff,
      fun p => ?_⟩⟩
  · rw [(agree p).providers s]
    refine ⟨?_, And.right⟩
    rintro ⟨r, hr, hs⟩
    refine ⟨routable_of_considered p ?_, r, hr, hs⟩
    intro nil
    simp [PeerHistory.current, nil] at hr
  · have after : p ∈ (c.pruneProviders o cutoff).1.routablePeers ↔ _ :=
      mem_routable_foldl (c.pruneProviders o cutoff).2 c p
    rw [after, (agree p).mem_pruneProviders o cutoff, (agree p).routable]
    constructor
    · rintro ⟨hr, hn⟩
      by_contra hx
      exact hn ⟨hx, hr⟩
    · intro hx
      exact ⟨routable_of_considered p hx.1, fun hn => hn.1 hx⟩

/-- A record that repeats a subnet, one that ties on the timestamp and a late one. -/
theorem providerCache_correct_reordered :
    let peer : PeerId := ⟨[1]⟩
    let s : SubnetID := ⟨"/root/t01"⟩
    let s' : SubnetID := ⟨"/root/t02"⟩
    let ops : List (Walks × CacheOp) := [(.plain, .setRoutable peer),
      (.plain, .addProvider ⟨peer, [s, s], 5⟩), (.plain, .addProvider ⟨peer, [s'], 5⟩),
      (.plain, .addProvider ⟨peer, [], 3⟩)]
    let c := (new 1 []).run ops
    peer ∈ c.providersOfSubnet s ∧ peer ∉ c.providersOfSubnet s' ∧
      peer ∈ (c.pruneProviders (.plain _) 6).2 ∧ peer ∉ (c.pruneProviders (.plain _) 5).2 := by
  intro peer s s' ops c
  obtain ⟨-, providers, pruned⟩ := providerCache_correct 1 [] ops (by decide +kernel)
  have first : (PeerHistory.after (ops.map Prod.snd) peer).current =
      some ⟨peer, [s, s], 5⟩ := by decide +kernel
  have routable : (PeerHistory.after (ops.map Prod.snd) peer).routable = true := by
    decide +kernel
  refine ⟨?_, ?_, ?_, ?_⟩
  · rw [providers peer s, first]
    simp [routable]
  · rw [providers peer s', first]
    simp [s, s']
  · rw [(pruned _ 6).2.1]
    decide +kernel
  · rw [(pruned _ 5).2.1]
    decide +kernel

end SubnetProviderCache

end IpcAgent.Resolver
