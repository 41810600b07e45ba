import IpcAgent.Resolver.CacheRun

/-!
# The tables of the provider cache fit together

The cache keeps what it knows of a peer in three tables. A peer is listed as a provider only
if it has a timestamp, and it has a timestamp only if it is routable; between two expiries a
timestamp only grows.
-/

namespace IpcAgent.Resolver.SubnetProviderCache
open Library

/-- Only peers with a positive timestamp are listed. -/
def ListedStamped (c : SubnetProviderCache) : Prop :=
  ∀ p s, p ∈ c.providersOfSubnet s → 0 < c.timestampOf p

/-- Only routable peers have a timestamp. -/
def StampedRoutable (c : SubnetProviderCache) : Prop :=
  ∀ p ∈ c.peerTimestamps, p ∈ c.routablePeers

variable {c c' : SubnetProviderCache}

/-- What is listed may shrink, as long as the peers that stay keep their timestamps. -/
theorem ListedStamped.mono (h : c.ListedStamped)
    (le : ∀ p s, p ∈ c'.providersOfSubnet s →
      p ∈ c.providersOfSubnet s ∧ c.timestampOf p ≤ c'.timestampOf p) : c'.ListedStamped := by
  intro p s mem
  obtain ⟨old, stamp⟩ := le p s mem
  exact (h p s old).trans_le stamp

theorem mem_timestamps_of_pos {p : PeerId} (pos : 0 < c.timestampOf p) : p ∈ c.peerTimestamps := by
  unfold timestampOf at pos
  cases look : c.peerTimestamps.lookup p with
  | none => simp [look] at pos
  | some t => exact AList.lookup_isSome.mp (by simp [look])

/-! ## One operation -/

theorem ListedStamped.setUnroutable (h : c.ListedStamped) (p : PeerId) :
    (c.setUnroutable p).ListedStamped := by
  refine h.mono fun q s mem => ?_
  obtain ⟨hq, old⟩ := (mem_providers_setUnroutable c p q s).mp mem
  refine ⟨old, ?_⟩
  simp [timestampOf, SubnetProviderCache.setUnroutable, AList.lookup_erase_ne hq]

theorem ListedStamped.addProvider (h : c.ListedStamped) (o : HashOrder SubnetID)
    (r : ProviderRecord) : (c.addProvider o r).1.ListedStamped := by
  intro p s mem
  unfold timestampOf
  rw [timestamps_addProvider]
  by_cases acc : c.Accepts r
  · rw [addProvider_of_accepts o acc, mem_providers_pruneSubnets, mem_providers_recorded] at mem
    by_cases hp : p = r.peerId
    · simpa [hp, acc.1] using .inr (Nat.zero_lt_of_lt acc.2)
    · simpa [hp, timestampOf] using h p s (by simpa [hp] using mem.1)
  · -- The lists stay as they are, and no timestamp falls.
    have old : p ∈ c.providersOfSubnet s := by
      by_cases route : r.peerId ∈ c.routablePeers
      · rwa [addProvider_of_stale o route acc] at mem
      · rwa [addProvider_of_not_routable o route] at mem
    have pos := h p s old
    split
    · rename_i own
      rw [own.1] at pos
      simp [pos]
    · exact pos

theorem StampedRoutable.setUnroutable (h : c.StampedRoutable) (p : PeerId) :
    (c.setUnroutable p).StampedRoutable := by
  intro q stamped
  obtain ⟨hq, old⟩ := AList.mem_erase.mp stamped
  exact Finset.mem_erase.mpr ⟨hq, h q old⟩

theorem StampedRoutable.addProvider (h : c.StampedRoutable) (o : HashOrder SubnetID)
    (r : ProviderRecord) : (c.addProvider o r).1.StampedRoutable := by
  intro p stamped
  rw [routable_addProvider]
  rw [← AList.lookup_isSome, timestamps_addProvider] at stamped
  split at stamped
  · rename_i own
    exact own.1 ▸ own.2
  · exact h p (AList.lookup_isSome.mp stamped)

theorem ListedStamped.apply (h : c.ListedStamped) (w : Walks) (op : CacheOp) :
    (op.apply w c).ListedStamped := by
  cases op with
  | setUnroutable p => exact h.setUnroutable p
  | addProvider r => exact h.addProvider w.subnets r
  | pruneProviders cutoff =>
    simp only [CacheOp.apply, pruneProviders]
    exact List.foldlRecOn _ _ h fun c hc p _ => hc.setUnroutable p
  | _ => exact h

theorem StampedRoutable.apply (h : c.StampedRoutable) (w : Walks) (op : CacheOp) :
    (op.apply w c).StampedRoutable := by
  cases op with
  | setRoutable p =>
    intro q stamped
    exact Finset.mem_insert_of_mem (h q stamped)
  | setUnroutable p => exact h.setUnroutable p
  | addProvider r => exact h.addProvider w.subnets r
  | pruneProviders cutoff =>
    simp only [CacheOp.apply, pruneProviders]
    exact List.foldlRecOn _ _ h fun c hc p _ => hc.setUnroutable p
  | _ => exact h

/-! ## Timestamps -/

/-- The operation may take a peer's timestamp away. -/
def Forgets : CacheOp → Prop
  | .setUnroutable _ | .pruneProviders _ => True
  | _ => False

theorem timestamps_apply_of_not_forgets (c : SubnetProviderCache) (w : Walks) {op : CacheOp}
    (keeps : ¬ Forgets op) {p : PeerId} {t : Timestamp}
    (stamped : c.peerTimestamps.lookup p = some t) :
    ∃ t', (op.apply w c).peerTimestamps.lookup p = some t' ∧ t ≤ t' := by
  cases op with
  | setUnroutable q => exact absurd trivial keeps
  | pruneProviders cutoff => exact absurd trivial keeps
  | addProvider r =>
    simp only [CacheOp.apply, timestamps_addProvider]
    split
    · rename_i own
      have known : c.timestampOf r.peerId = t := by
        rw [← own.1]
        simp [timestampOf, stamped]
      exact ⟨_, rfl, known ▸ le_max_left _ _⟩
    · exact ⟨t, stamped, le_rfl⟩
  | _ => exact ⟨t, stamped, le_rfl⟩

/-- After any operations on a new cache, every listed peer has a timestamp and every peer with
a timestamp is routable; and no further operation lowers a timestamp or takes one away, unless
it makes peers unroutable. -/
theorem tables_consistent (maxSubnets : Nat) (static : List SubnetID)
    (ops : List (Walks × CacheOp)) :
    let c := (new maxSubnets static).run ops
    (∀ s p, p ∈ c.providersOfSubnet s → p ∈ c.peerTimestamps) ∧
    (∀ p ∈ c.peerTimestamps, p ∈ c.routablePeers) ∧
    ∀ w op, ¬ Forgets op → ∀ p t, c.peerTimestamps.lookup p = some t →
      ∃ t', (op.apply w c).peerTimestamps.lookup p = some t' ∧ t ≤ t' := by
  intro c
  have listed : c.ListedStamped := run_invariant ListedStamped
    (fun c w op h => h.apply w op) (fun p s mem => by simp [providersOfSubnet_new] at mem) ops
  have routable : c.StampedRoutable := run_invariant StampedRoutable
    (fun c w op h => h.apply w op) (fun p stamped => absurd stamped (AList.notMem_empty p)) ops
  refine ⟨?_, routable, ?_⟩
  · intro s p mem
    exact mem_timestamps_of_pos (listed p s mem)
  · intro w op keeps p t stamped
    exact timestamps_apply_of_not_forgets c w keeps stamped

end IpcAgent.Resolver.SubnetProviderCache
