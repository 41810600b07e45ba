import IpcAgent.Resolver.Readmission

/-!
# Silent providers

A provider is pruned when its timestamp is older than the maximum age. The timestamp is the
one its peer has signed, though, not the time at which the record was taken in.
-/

namespace IpcAgent.Resolver.Membership
open Library SubnetProviderCache

section Accepted

variable (ok : Oracle) (codec : Codec)

/-- The record a step takes in, if it is newer than what is known of its peer. -/
def Behaviour.acceptedBy (b : Behaviour) (i : Moment × Input) : Option ProviderRecord :=
  (i.2.record codec b.membershipTopic).filter (fun r => b.providerCache.Accepts r)

/-- The records taken in during a run, each with the local time at which it was. -/
def Behaviour.accepted (b : Behaviour) : List (Moment × Input) → List (Timestamp × ProviderRecord)
  | [] => []
  | i :: inputs => ((b.acceptedBy codec i).map (fun r => (i.1.now, r))).toList ++
      Behaviour.accepted (b.step ok codec i) inputs

end Accepted

/-- Every positive timestamp comes from a record that was taken in. -/
def Attributed (log : List (Timestamp × ProviderRecord)) (c : SubnetProviderCache) : Prop :=
  ∀ p, 0 < c.timestampOf p → ∃ e ∈ log, e.2.peerId = p ∧ e.2.timestamp = c.timestampOf p

section Steps

variable {ok : Oracle} {codec : Codec} {log : List (Timestamp × ProviderRecord)}
  {c : SubnetProviderCache} {b : Behaviour}

/-- Timestamps may be taken away. -/
theorem Attributed.mono (attributed : Attributed log c) {c' : SubnetProviderCache}
    (kept : ∀ p, 0 < c'.timestampOf p → c'.timestampOf p = c.timestampOf p) :
    Attributed log c' := by
  intro p pos
  have same := kept p pos
  rw [same] at pos ⊢
  exact attributed p pos

theorem Attributed.append (attributed : Attributed log c)
    (more : List (Timestamp × ProviderRecord)) : Attributed (log ++ more) c := by
  intro p pos
  obtain ⟨e, mem, own, stamp⟩ := attributed p pos
  exact ⟨e, List.mem_append_left _ mem, own, stamp⟩

theorem Attributed.foldl_setUnroutable (attributed : Attributed log c) (ps : List PeerId) :
    Attributed log (ps.foldl setUnroutable c) := by
  refine attributed.mono fun p pos => ?_
  unfold timestampOf at pos ⊢
  rw [timestamps_foldl] at pos ⊢
  split at pos
  · exact absurd pos (Nat.lt_irrefl 0)
  · rename_i kept
    rw [if_neg kept]

theorem timestampOf_addProvider (o : HashOrder SubnetID) (r : ProviderRecord) (p : PeerId) :
    (c.addProvider o r).1.timestampOf p =
      if p = r.peerId ∧ c.Accepts r then r.timestamp else c.timestampOf p := by
  unfold timestampOf
  rw [timestamps_addProvider]
  by_cases own : p = r.peerId ∧ r.peerId ∈ c.routablePeers
  · obtain ⟨rfl, route⟩ := own
    rw [if_pos ⟨rfl, route⟩, Option.getD_some]
    by_cases newer : c.timestampOf r.peerId < r.timestamp
    · rw [if_pos ⟨rfl, route, newer⟩, max_eq_right newer.le]
    · rw [if_neg fun both => newer both.2.2, max_eq_left (not_lt.mp newer)]
      rfl
  · have other : ¬ (p = r.peerId ∧ c.Accepts r) := fun both => own ⟨both.1, both.2.1⟩
    rw [if_neg own, if_neg other]

theorem Attributed.addProvider (attributed : Attributed log c) (now : Timestamp)
    (o : HashOrder SubnetID) (r : ProviderRecord) :
    Attributed (log ++ if c.Accepts r then [(now, r)] else []) (c.addProvider o r).1 := by
  intro p pos
  rw [timestampOf_addProvider] at pos ⊢
  split at pos
  · rename_i taken
    rw [if_pos taken, if_pos taken.2]
    exact ⟨(now, r), by simp, taken.1.symm, rfl⟩
  · rename_i other
    rw [if_neg other]
    exact attributed.append _ p pos

/-- What the cache operation of a step does to the timestamps. -/
theorem Attributed.applied (attributed : Attributed log b.providerCache) (i : Moment × Input) :
    Attributed (log ++ ((b.acceptedBy codec i).map (fun r => (i.1.now, r))).toList)
      (b.applied codec i).providerCache := by
  obtain ⟨m, i⟩ := i
  cases i with
  | tick => exact (attributed.foldl_setUnroutable _).append _
  | discovery e =>
    cases e with
    | added p addresses => exact attributed.append _
    | removed p => exact (attributed.foldl_setUnroutable [p]).append _
  | emit => exact attributed.append _
  | request r => exact attributed.append _
  | gossip e =>
    cases found : Input.record codec b.membershipTopic (.gossip e) with
    | none =>
      simp only [Behaviour.applied, Input.cacheOp, found, Option.map_none]
      exact attributed.append _
    | some r =>
      have taken := attributed.addProvider m.now m.walks.subnets r
      simp only [Behaviour.applied, Behaviour.acceptedBy, Input.cacheOp, found, Option.map_some,
        CacheOp.apply]
      by_cases acc : b.providerCache.Accepts r
      · simpa [Option.filter, acc] using taken
      · simpa [Option.filter, acc] using taken

theorem Attributed.step (attributed : Attributed log b.providerCache) (i : Moment × Input) :
    Attributed (log ++ ((b.acceptedBy codec i).map (fun r => (i.1.now, r))).toList)
      (b.step ok codec i).providerCache := by
  have same := sameTables_step ok codec b i
  refine (attributed.applied i).mono fun p _ => ?_
  unfold timestampOf
  rw [same.timestamps]

theorem Attributed.run (attributed : Attributed log b.providerCache)
    (inputs : List (Moment × Input)) :
    Attributed (log ++ b.accepted ok codec inputs) (b.run ok codec inputs).providerCache := by
  induction inputs generalizing b log with
  | nil => exact attributed.append []
  | cons i inputs ih =>
    unfold Behaviour.accepted
    rw [← List.append_assoc]
    exact ih (attributed.step i)

theorem attributed_new {start : Timestamp} {nc : NetworkConfig} {mc : Config}
    (built : new ok codec start nc mc = .ok b) : Attributed [] b.providerCache := by
  intro p pos
  have same := related_new ok codec SameTables.ignores built
  unfold timestampOf at pos
  rw [same.timestamps] at pos
  exact absurd pos (Nat.lt_irrefl 0)

end Steps

/-- Whoever is listed after pruning has a timestamp that is not too old. -/
theorem cutoff_le_of_listed {c : SubnetProviderCache} (stamped : c.ListedStamped)
    {o : HashOrder PeerId} {cutoff : Timestamp} {p : PeerId} {s : SubnetID}
    (listed : p ∈ (c.pruneProviders o cutoff).1.providersOfSubnet s) :
    0 < c.timestampOf p ∧ cutoff ≤ c.timestampOf p := by
  have kept : p ∉ (c.pruneProviders o cutoff).2 ∧ p ∈ c.providersOfSubnet s :=
    (mem_providers_foldl _ c p s).mp listed
  have pos := stamped p s kept.2
  refine ⟨pos, not_lt.mp fun old => kept.1 ((mem_pruneProviders o c cutoff p).mpr ?_)⟩
  obtain ⟨t, found⟩ := Option.isSome_iff_exists.mp (AList.lookup_isSome.mpr
    (mem_timestamps_of_pos pos))
  refine ⟨t, found, ?_⟩
  simpa [timestampOf, found] using old

/-- Right after the timer has pruned the old providers, whoever is still listed has had a
record accepted within the maximum age, provided that none of its records was dated after its
acceptance. -/
theorem silent_providers_expire (ok : Oracle) (codec : Codec) (start : Timestamp)
    (nc : NetworkConfig) (mc : Config) (b : Behaviour)
    (built : new ok codec start nc mc = .ok b) (inputs : List (Moment × Input)) (m : Moment)
    (p : PeerId) (s : SubnetID)
    (notAhead : ∀ e ∈ b.accepted ok codec inputs, e.2.peerId = p → e.2.timestamp ≤ e.1)
    (listed : p ∈ (b.run ok codec (inputs ++ [(m, .tick)])).providersOfSubnet s) :
    ∃ e ∈ b.accepted ok codec inputs, e.2.peerId = p ∧ m.now.sub mc.maxProviderAge ≤ e.1 := by
  have tracks : Tracks _ mc.maxProviderAge p _ (b.run ok codec inputs) :=
    (tracks_new built p).run inputs
  have attributed : Attributed _ (b.run ok codec inputs).providerCache :=
    (attributed_new built).run inputs
  have pruned : p ∈ ((b.run ok codec inputs).providerCache.pruneProviders m.walks.peers
      (m.now.sub mc.maxProviderAge)).1.providersOfSubnet s := by
    have ticked : b.run ok codec (inputs ++ [(m, .tick)]) =
        (b.run ok codec inputs).step ok codec (m, .tick) := List.foldl_concat ..
    rw [ticked] at listed
    unfold Behaviour.providersOfSubnet providersOfSubnet at listed
    rw [(sameTables_step ok codec _ _).providers] at listed
    rw [← tracks.maxAge]
    exact listed
  obtain ⟨pos, recent⟩ := cutoff_le_of_listed tracks.stamped pruned
  obtain ⟨e, mem, own, stamp⟩ := attributed p pos
  refine ⟨e, mem, own, ?_⟩
  calc m.now.sub mc.maxProviderAge
      ≤ (b.run ok codec inputs).providerCache.timestampOf p := recent
    _ = e.2.timestamp := stamp.symm
    _ ≤ e.1 := notAhead e mem own

/-- With a maximum age of 30, a provider that was heard of at time 50 is still listed after the
tick at time 60. -/
theorem recent_provider_listed :
    let codec : Codec := ⟨id, fun _ => some ⟨⟨[1]⟩, [⟨"/root/t01"⟩], 50⟩, fun _ => none⟩
    let ok : Oracle := fun _ _ => true
    let inputs : List (Moment × Input) := [(⟨0, .plain⟩, .discovery (.added ⟨[1]⟩ [])),
      (⟨50, .plain⟩, .gossip (.message (membershipTopicOf "net") [0]))]
    ∃ b, new ok codec 0 ⟨⟨[0]⟩, "net"⟩ ⟨[], 10, 60, 5, 30⟩ = .ok b ∧
      ∃ e ∈ b.accepted ok codec inputs, e.2.peerId = ⟨[1]⟩ ∧
        Timestamp.sub 60 30 ≤ e.1 := by
  intro codec ok inputs
  exact ⟨_, rfl, silent_providers_expire ok codec 0 ⟨⟨[0]⟩, "net"⟩ ⟨[], 10, 60, 5, 30⟩ _ rfl inputs
    ⟨60, .plain⟩ ⟨[1]⟩ ⟨"/root/t01"⟩ (by decide +kernel) (by decide +kernel)⟩

/-- The only record of a peer arrives at time 1 and is dated 1000. With a maximum age of 30 the
peer is still listed after the tick at time 60. -/
theorem silent_provider_listed :
    let codec : Codec := ⟨id, fun _ => some ⟨⟨[1]⟩, [⟨"/root/t01"⟩], 1000⟩, fun _ => none⟩
    let ok : Oracle := fun _ _ => true
    let inputs : List (Moment × Input) := [(⟨0, .plain⟩, .discovery (.added ⟨[1]⟩ [])),
      (⟨1, .plain⟩, .gossip (.message (membershipTopicOf "net") [0]))]
    ∃ b, new ok codec 0 ⟨⟨[0]⟩, "net"⟩ ⟨[], 10, 60, 5, 30⟩ = .ok b ∧
      ⟨[1]⟩ ∈ (b.run ok codec (inputs ++ [(⟨60, .plain⟩, .tick)])).providersOfSubnet
        ⟨"/root/t01"⟩ ∧
      ∀ e ∈ b.accepted ok codec inputs, ¬ Timestamp.sub 60 30 ≤ e.1 := by
  intro codec ok inputs
  exact ⟨_, rfl, by decide +kernel, by decide +kernel⟩

end IpcAgent.Resolver.Membership
