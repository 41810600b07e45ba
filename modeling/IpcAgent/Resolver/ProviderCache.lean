import IpcAgent.Library.HashMap
import IpcAgent.Types
import Mathlib.Data.List.Sort

/-!
# The subnet provider cache

`ipld/resolver/src/provider_cache.rs`. The cache tracks which peers provide which subnets,
in three tables that every operation updates in place. Sets of peers and of subnets are
finite sets; each walk over a table takes the order of that walk as an argument.
-/

namespace IpcAgent.Resolver
open Library

/-- Seconds since the Unix epoch. The cache only compares timestamps. -/
abbrev Timestamp := Nat

structure ProviderRecord where
  peerId : PeerId
  subnetIds : List SubnetID
  timestamp : Timestamp
deriving DecidableEq

/-- Change in the supported subnets of a peer. -/
structure ProviderDelta where
  isNew : Bool
  added : List SubnetID
  removed : List SubnetID
deriving DecidableEq

def ProviderDelta.isEmpty (d : ProviderDelta) : Bool := d.added.isEmpty && d.removed.isEmpty

abbrev ProviderMap := HashMap SubnetID (Finset PeerId)

structure SubnetProviderCache where
  maxSubnets : Nat
  pinnedSubnets : Finset SubnetID
  routablePeers : Finset PeerId
  subnetProviders : ProviderMap
  peerTimestamps : HashMap PeerId Timestamp

namespace SubnetProviderCache

def new (maxSubnets : Nat) (staticSubnets : List SubnetID) : SubnetProviderCache where
  maxSubnets := maxSubnets
  pinnedSubnets := staticSubnets.toFinset
  routablePeers := ∅
  subnetProviders := ∅
  peerTimestamps := ∅

def pinSubnet (c : SubnetProviderCache) (id : SubnetID) : SubnetProviderCache :=
  { c with pinnedSubnets := insert id c.pinnedSubnets }

def unpinSubnet (c : SubnetProviderCache) (id : SubnetID) : SubnetProviderCache :=
  { c with pinnedSubnets := c.pinnedSubnets.erase id }

def setRoutable (c : SubnetProviderCache) (p : PeerId) : SubnetProviderCache :=
  { c with routablePeers := insert p c.routablePeers }

def setUnroutable (c : SubnetProviderCache) (p : PeerId) : SubnetProviderCache :=
  { c with
    routablePeers := c.routablePeers.erase p
    peerTimestamps := c.peerTimestamps.erase p
    subnetProviders := c.subnetProviders.mapVal (fun _ providers => providers.erase p) }

def numRoutable (c : SubnetProviderCache) : Nat := c.routablePeers.card

def isRoutable (c : SubnetProviderCache) (p : PeerId) : Bool := p ∈ c.routablePeers

def hasTimestamp (c : SubnetProviderCache) (p : PeerId) : Bool := p ∈ c.peerTimestamps

/-- The known providers of a subnet. The source lists them in hash order. -/
def providersOfSubnet (c : SubnetProviderCache) (id : SubnetID) : Finset PeerId :=
  (c.subnetProviders.lookup id).getD ∅

/-- The value `peer_timestamps.entry(p).or_default()` points to. -/
def timestampOf (c : SubnetProviderCache) (p : PeerId) : Timestamp :=
  (c.peerTimestamps.lookup p).getD 0

/-! ## Pruning subnets -/

/-- The loop of `prune_subnets` over the subnets by increasing number of providers. -/
def pruneLoop (pinned : Finset SubnetID) (toPrune : Nat) :
    List SubnetID → ProviderMap × Finset SubnetID → ProviderMap × Finset SubnetID
  | [], acc => acc
  | id :: ids, (providers, removed) =>
    if id ∈ pinned then pruneLoop pinned toPrune ids (providers, removed)
    else if (insert id removed).card = toPrune then (providers.erase id, insert id removed)
    else pruneLoop pinned toPrune ids (providers.erase id, insert id removed)

/-- The subnets sorted by their number of providers. `sort_by_key` is stable, so subnets
with equally many providers stay in the order of the walk. -/
def sortedByCount (o : HashOrder SubnetID) (providers : ProviderMap) : List (SubnetID × Nat) :=
  ((providers.iter o).map (fun e => (e.1, e.2.card))).insertionSort (fun a b => a.2 ≤ b.2)

/-- Keep at most `maxSubnets` subnets, and return the removed ones. -/
def pruneSubnets (o : HashOrder SubnetID) (c : SubnetProviderCache) :
    SubnetProviderCache × Finset SubnetID :=
  let toPrune := c.subnetProviders.len - c.maxSubnets
  if 0 < toPrune then
    let pruned := pruneLoop c.pinnedSubnets toPrune
      ((sortedByCount o c.subnetProviders).map Prod.fst) (c.subnetProviders, ∅)
    ({ c with subnetProviders := pruned.1 }, pruned.2)
  else (c, ∅)

/-! ## Adding a provider -/

/-- Remove the peer from the subnets it no longer supports. -/
def dropUnlisted (r : ProviderRecord) (providers : ProviderMap) : ProviderMap :=
  providers.mapVal (fun id peers => if id ∈ r.subnetIds then peers else peers.erase r.peerId)

/-- The subnets `dropUnlisted` takes the peer out of, in the order of the walk. -/
def unlisted (o : HashOrder SubnetID) (r : ProviderRecord) (providers : ProviderMap) :
    List SubnetID :=
  ((providers.iter o).filter (fun e => e.1 ∉ r.subnetIds ∧ r.peerId ∈ e.2)).map Prod.fst

/-- Add the peer to the subnets it supports now, collecting those it is new to. -/
def addListed (p : PeerId) : List SubnetID → ProviderMap × List SubnetID →
    ProviderMap × List SubnetID
  | [], acc => acc
  | id :: ids, (providers, added) =>
    let entry := providers.orInsert id ∅
    let peers := (entry.lookup id).getD ∅
    addListed p ids
      (entry.insert id (insert p peers), if p ∈ peers then added else added ++ [id])

/-- The cache after a newer record has been taken in, just before `prune_subnets`. -/
def recorded (c : SubnetProviderCache) (r : ProviderRecord) : SubnetProviderCache :=
  { c with
    peerTimestamps := (c.peerTimestamps.orInsert r.peerId 0).insert r.peerId r.timestamp
    subnetProviders :=
      (addListed r.peerId r.subnetIds (dropUnlisted r c.subnetProviders, [])).1 }

/-- The subnets a newer record adds the peer to, before any pruning. -/
def newlyListed (c : SubnetProviderCache) (r : ProviderRecord) : List SubnetID :=
  (addListed r.peerId r.subnetIds (dropUnlisted r c.subnetProviders, [])).2

/-- Try to add a provider: `none` if the peer is not routable, else what has changed. -/
def addProvider (o : HashOrder SubnetID) (c : SubnetProviderCache) (r : ProviderRecord) :
    SubnetProviderCache × Option ProviderDelta :=
  if c.isRoutable r.peerId then
    let isNew := !c.hasTimestamp r.peerId
    if c.timestampOf r.peerId < r.timestamp then
      let pruned := (c.recorded r).pruneSubnets o
      let added := (c.newlyListed r).filter (fun id => id ∉ pruned.2)
      (pruned.1, some ⟨isNew, added, unlisted o r c.subnetProviders⟩)
    else
      -- A stale record still leaves a default timestamp behind.
      ({ c with peerTimestamps := c.peerTimestamps.orInsert r.peerId 0 },
        some ⟨isNew, [], []⟩)
  else (c, none)

/-- Prune the providers without an update since the cutoff, and return them. -/
def pruneProviders (o : HashOrder PeerId) (c : SubnetProviderCache) (cutoff : Timestamp) :
    SubnetProviderCache × List PeerId :=
  let toPrune := (c.peerTimestamps.iter o).filterMap
    (fun e => if e.2 < cutoff then some e.1 else none)
  (toPrune.foldl setUnroutable c, toPrune)

/-! ## What the operations do to the providers -/

theorem providersOfSubnet_new (maxSubnets : Nat) (static : List SubnetID) (s : SubnetID) :
    (new maxSubnets static).providersOfSubnet s = ∅ := rfl

theorem mem_providers_setUnroutable (c : SubnetProviderCache) (p q : PeerId) (s : SubnetID) :
    q ∈ (c.setUnroutable p).providersOfSubnet s ↔ q ≠ p ∧ q ∈ c.providersOfSubnet s := by
  unfold providersOfSubnet setUnroutable
  simp only [AList.lookup_mapVal]
  cases c.subnetProviders.lookup s <;> simp

theorem mem_providers_dropUnlisted (r : ProviderRecord) (m : ProviderMap) (q : PeerId)
    (s : SubnetID) :
    q ∈ ((dropUnlisted r m).lookup s).getD ∅ ↔
      q ∈ (m.lookup s).getD ∅ ∧ (q = r.peerId → s ∈ r.subnetIds) := by
  unfold dropUnlisted
  simp only [AList.lookup_mapVal]
  cases m.lookup s with
  | none => simp
  | some peers =>
    by_cases hs : s ∈ r.subnetIds
    · simp [hs]
    · simp [hs, and_comm]

theorem mem_providers_addListed (p q : PeerId) (s : SubnetID) (ids : List SubnetID)
    (acc : ProviderMap × List SubnetID) :
    q ∈ ((addListed p ids acc).1.lookup s).getD ∅ ↔
      q ∈ (acc.1.lookup s).getD ∅ ∨ (q = p ∧ s ∈ ids) := by
  induction ids generalizing acc with
  | nil => simp [addListed]
  | cons id ids ih =>
    obtain ⟨m, added⟩ := acc
    rw [addListed, ih]
    by_cases hs : s = id
    · subst hs
      simp only [AList.lookup_insert, AList.lookup_orInsert, if_true, Option.getD_some,
        Finset.mem_insert, List.mem_cons, true_or, and_true]
      tauto
    · simp only [AList.lookup_insert_ne hs, AList.lookup_orInsert, hs, if_false, List.mem_cons,
        false_or]

/-- A newer record makes its peer a provider of exactly the subnets it lists, and changes
nothing for the other peers. -/
theorem mem_providers_recorded (c : SubnetProviderCache) (r : ProviderRecord) (q : PeerId)
    (s : SubnetID) :
    q ∈ (c.recorded r).providersOfSubnet s ↔
      if q = r.peerId then s ∈ r.subnetIds else q ∈ c.providersOfSubnet s := by
  unfold providersOfSubnet recorded
  simp only [mem_providers_addListed, mem_providers_dropUnlisted]
  by_cases hq : q = r.peerId
  · simp only [hq, forall_const, true_and, if_true]
    tauto
  · simp [hq]

/-! ## What a newer record reports -/

theorem mem_addListed_snd (p : PeerId) (s : SubnetID) (ids : List SubnetID)
    (acc : ProviderMap × List SubnetID) :
    s ∈ (addListed p ids acc).2 ↔ s ∈ acc.2 ∨ (s ∈ ids ∧ p ∉ (acc.1.lookup s).getD ∅) := by
  induction ids generalizing acc with
  | nil => simp [addListed]
  | cons id ids ih =>
    obtain ⟨m, added⟩ := acc
    rw [addListed, ih]
    by_cases hs : s = id
    · -- From here on the peer is listed under this subnet.
      subst hs
      simp only [AList.lookup_insert, AList.lookup_orInsert, if_true, Option.getD_some,
        Finset.mem_insert, true_or, not_true, and_false, or_false, List.mem_cons, true_and]
      split <;> simp_all
    · have tail : s ∈ (if p ∈ ((m.orInsert id ∅).lookup id).getD ∅ then added
          else added ++ [id]) ↔ s ∈ added := by
        split <;> simp [hs]
      rw [tail, AList.lookup_insert_ne hs, AList.lookup_orInsert, if_neg hs, List.mem_cons]
      simp only [hs, false_or]

theorem mem_newlyListed (c : SubnetProviderCache) (r : ProviderRecord) (s : SubnetID) :
    s ∈ c.newlyListed r ↔ s ∈ r.subnetIds ∧ r.peerId ∉ c.providersOfSubnet s := by
  unfold newlyListed providersOfSubnet
  rw [mem_addListed_snd, mem_providers_dropUnlisted]
  simp only [List.not_mem_nil, false_or]
  constructor
  · rintro ⟨listed, absent⟩
    exact ⟨listed, fun mem => absent ⟨mem, fun _ => listed⟩⟩
  · rintro ⟨listed, absent⟩
    exact ⟨listed, fun mem => absent mem.1⟩

theorem mem_unlisted (o : HashOrder SubnetID) (r : ProviderRecord) (m : ProviderMap)
    (s : SubnetID) :
    s ∈ unlisted o r m ↔ s ∉ r.subnetIds ∧ r.peerId ∈ (m.lookup s).getD ∅ := by
  simp only [unlisted, List.mem_map, List.mem_filter, Prod.exists, exists_and_right,
    exists_eq_right, AList.mem_iter, decide_eq_true_eq]
  cases m.lookup s <;> simp

theorem timestamps_recorded (c : SubnetProviderCache) (r : ProviderRecord) (q : PeerId) :
    (c.recorded r).peerTimestamps.lookup q =
      if q = r.peerId then some r.timestamp else c.peerTimestamps.lookup q := by
  unfold recorded
  by_cases hq : q = r.peerId
  · subst hq
    simp
  · simp [hq, AList.lookup_insert_ne hq, AList.lookup_orInsert]

/-! ## What pruning does -/

/-- The loop only forgets subnets: it returns them, and none of them is pinned. -/
theorem pruneLoop_spec (pinned : Finset SubnetID) (n : Nat) (m₀ : ProviderMap)
    (ids : List SubnetID) (acc : ProviderMap × Finset SubnetID)
    (hacc : ∀ s, acc.1.lookup s = if s ∈ acc.2 then none else m₀.lookup s)
    (hpin : Disjoint acc.2 pinned) :
    (∀ s, (pruneLoop pinned n ids acc).1.lookup s =
      if s ∈ (pruneLoop pinned n ids acc).2 then none else m₀.lookup s) ∧
    Disjoint (pruneLoop pinned n ids acc).2 pinned := by
  induction ids generalizing acc with
  | nil => exact ⟨hacc, hpin⟩
  | cons id ids ih =>
    obtain ⟨m, removed⟩ := acc
    unfold pruneLoop
    by_cases hid : id ∈ pinned
    · simp only [hid, if_true]
      exact ih _ hacc hpin
    · have hacc' : ∀ s, (m.erase id).lookup s =
          if s ∈ insert id removed then none else m₀.lookup s := by
        intro s
        by_cases hs : s = id
        · subst hs
          simp
        · simp [hs, AList.lookup_erase_ne hs, hacc s]
      have hpin' : Disjoint (insert id removed) pinned := by
        simpa [Finset.disjoint_insert_left, hid] using hpin
      simp only [hid, if_false]
      split
      · exact ⟨hacc', hpin'⟩
      · exact ih _ hacc' hpin'

theorem lookup_pruneSubnets (o : HashOrder SubnetID) (c : SubnetProviderCache) (s : SubnetID) :
    (c.pruneSubnets o).1.subnetProviders.lookup s =
      if s ∈ (c.pruneSubnets o).2 then none else c.subnetProviders.lookup s := by
  unfold pruneSubnets
  simp only
  split
  · exact (pruneLoop_spec _ _ c.subnetProviders _ _ (by simp) (by simp)).1 s
  · simp

theorem disjoint_pruneSubnets (o : HashOrder SubnetID) (c : SubnetProviderCache) :
    Disjoint (c.pruneSubnets o).2 c.pinnedSubnets := by
  unfold pruneSubnets
  simp only
  split
  · exact (pruneLoop_spec _ _ c.subnetProviders _ _ (by simp) (by simp)).2
  · simp

theorem mem_providers_pruneSubnets (o : HashOrder SubnetID) (c : SubnetProviderCache)
    (q : PeerId) (s : SubnetID) :
    q ∈ (c.pruneSubnets o).1.providersOfSubnet s ↔
      q ∈ c.providersOfSubnet s ∧ s ∉ (c.pruneSubnets o).2 := by
  unfold providersOfSubnet
  rw [lookup_pruneSubnets]
  by_cases hs : s ∈ (c.pruneSubnets o).2 <;> simp [hs]

@[simp] theorem pruneSubnets_routable (o : HashOrder SubnetID) (c : SubnetProviderCache) :
    (c.pruneSubnets o).1.routablePeers = c.routablePeers := by
  unfold pruneSubnets; simp only; split <;> rfl

@[simp] theorem pruneSubnets_timestamps (o : HashOrder SubnetID) (c : SubnetProviderCache) :
    (c.pruneSubnets o).1.peerTimestamps = c.peerTimestamps := by
  unfold pruneSubnets; simp only; split <;> rfl

@[simp] theorem pruneSubnets_pinned (o : HashOrder SubnetID) (c : SubnetProviderCache) :
    (c.pruneSubnets o).1.pinnedSubnets = c.pinnedSubnets := by
  unfold pruneSubnets; simp only; split <;> rfl

@[simp] theorem pruneSubnets_max (o : HashOrder SubnetID) (c : SubnetProviderCache) :
    (c.pruneSubnets o).1.maxSubnets = c.maxSubnets := by
  unfold pruneSubnets; simp only; split <;> rfl

/-- Nothing is evicted while the bound is respected. -/
theorem pruneSubnets_of_le (o : HashOrder SubnetID) (c : SubnetProviderCache)
    (h : c.subnetProviders.len ≤ c.maxSubnets) : c.pruneSubnets o = (c, ∅) := by
  unfold pruneSubnets
  simp [Nat.sub_eq_zero_of_le h]

end SubnetProviderCache

end IpcAgent.Resolver
