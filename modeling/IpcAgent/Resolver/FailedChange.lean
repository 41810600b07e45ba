import IpcAgent.Resolver.Subscriptions

/-!
# Changes of the provided subnets that fail

`voting_topics` is kept next to `subnet_ids`. Adding and removing a subnet change the two
after the only call that can refuse the change. Replacing the list empties it first and makes
its calls after that, so a refused call leaves it empty, whatever topics are still held.
-/

namespace IpcAgent.Resolver.Membership
open Library

/-- The calls that change what Gossipsub is subscribed to. -/
def Call.IsSubscription : Call → Prop
  | subscribe _ | unsubscribe _ => True
  | sign | publish _ _ => False

namespace Behaviour

variable (codec : Codec) (b : Behaviour)

def votingHash (id : SubnetID) : TopicHash := ⟨codec.sha256 (b.votingTopic id)⟩

/-- The voting topics are those of the provided subnets. -/
def Consistent : Prop := b.votingTopics = (b.subnetIds.map (b.votingHash codec)).toFinset

instance : Decidable (b.Consistent codec) := inferInstanceAs (Decidable (_ = _))

/-- The topics to leave when the list of subnets is replaced, in the order of the calls. -/
def leaving (ids : List SubnetID) : List TopicHash :=
  (b.subnetIds.filter (· ∉ ids)).map (b.votingHash codec)

/-- A call that was refused leaves nothing behind but its place in the count. -/
def refused : Behaviour := { b with inner := ⟨b.inner.subscribed, b.inner.calls + 1⟩ }

end Behaviour

/-- The calls that succeeded before another one was refused leave no voting topic behind: they
have left topics only, and all that were held. -/
def Request.Clears (codec : Codec) (b : Behaviour) (succeeded : Nat) : Request → Prop
  | setProvidedSubnets ids =>
    succeeded ≤ (b.leaving codec ids).length ∧
      b.votingTopics ⊆ ((b.leaving codec ids).take succeeded).toFinset
  | _ => True

/-! ## One call -/

section Calls

variable {ok : Oracle} {codec : Codec} {c e : Call} {b b' : Behaviour} {id : SubnetID}
  {now : Timestamp}

theorem run_call (ok : Oracle) (c : Call) (b : Behaviour) :
    (Behaviour.call ok c).run.run b =
      if ok b.inner.calls c then (.ok (), { b with inner := b.refused.inner.after c })
      else (.error c, b.refused) := by
  refine (runs_get b).run_bind.trans ((runs_modify _ b).run_bind.trans ?_)
  split <;> rfl

theorem Stops.of_call (stops : Stops (Behaviour.call ok c) b e b') : e = c ∧ b' = b.refused := by
  unfold Stops at stops
  rw [run_call] at stops
  split at stops
  · cases stops
  · cases stops
    exact ⟨rfl, rfl⟩

theorem Runs.of_call (runs : Runs (Behaviour.call ok c) b () b') :
    b' = { b with inner := b.refused.inner.after c } := by
  unfold Runs at runs
  rw [run_call] at runs
  split at runs
  · cases runs
    rfl
  · cases runs

theorem stops_votingSubscribe (stops : Stops (Behaviour.votingSubscribe ok codec id) b e b') :
    e = .subscribe (b.votingHash codec id) ∧ b' = b.refused := by
  have called := Stops.of_runs_bind (runs_get b) stops
  exact Stops.of_call (Stops.of_bind_modify called)

theorem stops_votingUnsubscribe (stops : Stops (Behaviour.votingUnsubscribe ok codec id) b e b') :
    e = .unsubscribe (b.votingHash codec id) ∧ b' = b.refused := by
  have called := Stops.of_runs_bind (runs_get b) stops
  exact Stops.of_call (Stops.of_bind_modify called)

theorem runs_votingSubscribe_eq (runs : Runs (Behaviour.votingSubscribe ok codec id) b () b') :
    b' = b.votingSubscribed codec id := by
  obtain ⟨_, _, got, runs⟩ := Runs.of_bind runs
  cases got
  obtain ⟨⟨⟩, t, called, changed⟩ := Runs.of_bind runs
  cases changed
  rw [Runs.of_call called]
  rfl

theorem runs_votingUnsubscribe_eq (runs : Runs (Behaviour.votingUnsubscribe ok codec id) b () b') :
    b' = b.votingUnsubscribed codec id := by
  obtain ⟨_, _, got, runs⟩ := Runs.of_bind runs
  cases got
  obtain ⟨⟨⟩, t, called, changed⟩ := Runs.of_bind runs
  cases changed
  rw [Runs.of_call called]
  rfl

/-- Publishing does not fail because of a subscription. -/
theorem stops_publishMembership (stops : Stops (Behaviour.publishMembership ok now) b e b') :
    ¬ e.IsSubscription := by
  rcases Stops.of_bind stops with signing | ⟨⟨⟩, t, -, later⟩
  · rw [(Stops.of_call signing).1]
    exact id
  · have publishing := Stops.of_runs_bind (runs_get t) later
    rw [(Stops.of_call (Stops.of_bind_modify publishing)).1]
    exact id

end Calls

/-! ## The loops -/

/-- After a number of calls, the records hold these voting topics and the list is as before. -/
structure Called (b b' : Behaviour) (calls : Nat) (topics : Finset TopicHash) : Prop where
  name : b'.networkName = b.networkName
  subnetIds : b'.subnetIds = b.subnetIds
  votingTopics : b'.votingTopics = topics
  calls : b'.inner.calls = b.inner.calls + calls

theorem Called.trans {b t b' : Behaviour} {n m : Nat} {topics topics' : Finset TopicHash}
    (first : Called b t n topics) (next : Called t b' m topics') :
    Called b b' (n + m) topics' := by
  refine ⟨next.name.trans first.name, next.subnetIds.trans first.subnetIds, next.votingTopics, ?_⟩
  rw [next.calls, first.calls, Nat.add_assoc]

section Loops

variable (codec : Codec)

theorem votingHash_congr (b b' : Behaviour) (name : b'.networkName = b.networkName) :
    b'.votingHash codec = b.votingHash codec := by
  funext id
  unfold Behaviour.votingHash Behaviour.votingTopic
  rw [name]

theorem called_foldl_left (ids l : List SubnetID) (b : Behaviour) :
    Called b (l.foldl (Behaviour.left codec ids) b) (l.filter (· ∉ ids)).length
      (b.votingTopics \ ((l.filter (· ∉ ids)).map (b.votingHash codec)).toFinset) := by
  induction l generalizing b with
  | nil => exact ⟨rfl, rfl, by simp, rfl⟩
  | cons id l ih =>
    rw [List.foldl_cons]
    by_cases kept : id ∈ ids
    · simpa [Behaviour.left, kept] using ih b
    · have rest := ih (b.votingUnsubscribed codec id)
      rw [votingHash_congr codec b (b.votingUnsubscribed codec id) rfl] at rest
      simp only [Behaviour.left, if_neg kept]
      refine ⟨rest.name, rest.subnetIds, rest.votingTopics.trans ?_, rest.calls.trans ?_⟩
      · ext t
        simp only [Behaviour.votingUnsubscribed, Behaviour.unsubscribed, Finset.mem_sdiff,
          Finset.mem_erase, List.mem_toFinset, List.filter_cons, kept, not_false_eq_true,
          decide_true, if_true, List.map_cons, List.mem_cons, not_or]
        exact ⟨fun h => ⟨h.1.2, h.1.1, h.2⟩, fun h => ⟨⟨h.2.1, h.1⟩, h.2.2⟩⟩
      · simp only [Behaviour.votingUnsubscribed, Behaviour.unsubscribed, List.filter_cons, kept,
          not_false_eq_true, decide_true, if_true, List.length_cons]
        omega

theorem called_foldl_joined (old l : List SubnetID) (b : Behaviour) :
    Called b (l.foldl (Behaviour.joined codec old) b) (l.filter (· ∉ old)).length
      (b.votingTopics ∪ ((l.filter (· ∉ old)).map (b.votingHash codec)).toFinset) := by
  induction l generalizing b with
  | nil => exact ⟨rfl, rfl, by simp, rfl⟩
  | cons id l ih =>
    rw [List.foldl_cons]
    by_cases kept : id ∈ old
    · simpa [Behaviour.joined, kept] using ih b
    · have rest := ih (b.votingSubscribed codec id)
      rw [votingHash_congr codec b (b.votingSubscribed codec id) rfl] at rest
      simp only [Behaviour.joined, if_neg kept]
      refine ⟨rest.name, rest.subnetIds, rest.votingTopics.trans ?_, rest.calls.trans ?_⟩
      · simp [Behaviour.votingSubscribed, kept, Finset.insert_union, Behaviour.votingHash]
      · simp only [Behaviour.votingSubscribed, Behaviour.subscribed, List.filter_cons, kept,
          not_false_eq_true, decide_true, if_true, List.length_cons]
        omega

end Loops

section Requests

variable {ok : Oracle} {codec : Codec} {now : Timestamp} {b b' : Behaviour} {e : Call}

theorem leave_eq (ids : List SubnetID) (t : Behaviour) (id : SubnetID) (t' : Behaviour)
    (runs : Runs (if id ∈ ids then pure () else Behaviour.votingUnsubscribe ok codec id) t () t') :
    t' = Behaviour.left codec ids t id := by
  unfold Behaviour.left
  split at runs <;> rename_i kept
  · cases runs
    rw [if_pos kept]
  · rw [if_neg kept]
    exact runs_votingUnsubscribe_eq runs

theorem join_eq (old : List SubnetID) (t : Behaviour) (id : SubnetID) (t' : Behaviour)
    (runs : Runs (if id ∈ old then pure () else Behaviour.votingSubscribe ok codec id) t () t') :
    t' = Behaviour.joined codec old t id := by
  unfold Behaviour.joined
  split at runs <;> rename_i kept
  · cases runs
    rw [if_pos kept]
  · rw [if_neg kept]
    exact runs_votingSubscribe_eq runs

/-- Where the replacement of the list can be refused: on leaving a topic, or on joining one
after all those to leave have been left. -/
theorem stops_setProvidedSubnets {ids : List SubnetID} (subscription : e.IsSubscription)
    (stops : Stops (Behaviour.setProvidedSubnets ok codec now ids) b e b') :
    (∃ first rest, b.subnetIds = first ++ rest ∧
      b' = (first.foldl (Behaviour.left codec ids) { b with subnetIds := [] }).refused) ∨
    ∃ first : List SubnetID, b' = (first.foldl (Behaviour.joined codec b.subnetIds)
        (b.subnetIds.foldl (Behaviour.left codec ids) { b with subnetIds := [] })).refused := by
  have taken := Stops.of_runs_bind (runs_get b) stops
  have emptied := Stops.of_runs_bind (runs_modify _ b) taken
  rcases Stops.of_bind emptied with leaving | ⟨⟨⟩, t, left, later⟩
  · obtain ⟨first, id, rest, split, stopped⟩ :=
      Stops.of_forM (leave_eq ids) leaving
    split at stopped <;> [cases stopped; skip]
    exact .inl ⟨first, id :: rest, split, (stops_votingUnsubscribe stopped).2⟩
  · obtain rfl := Runs.of_forM (leave_eq ids) left
    rcases Stops.of_bind later with joining | ⟨⟨⟩, t, -, publishing⟩
    · obtain ⟨first, id, rest, -, stopped⟩ := Stops.of_forM (join_eq b.subnetIds) joining
      split at stopped <;> [cases stopped; skip]
      exact .inr ⟨first, (stops_votingSubscribe stopped).2⟩
    · have publishing := Stops.of_runs_bind (runs_modify _ t) publishing
      exact absurd subscription (stops_publishMembership publishing)

/-- A change that is recorded and published after its call can only be refused by the call. -/
theorem Stops.of_change {change : Action Unit} {f : Behaviour → Behaviour}
    (subscription : e.IsSubscription)
    (stops : Stops (do change; modify f; Behaviour.publishMembership ok now) b e b') :
    Stops change b e b' := by
  rcases Stops.of_bind stops with refused | ⟨⟨⟩, t, -, later⟩
  · exact refused
  · have publishing := Stops.of_runs_bind (runs_modify _ t) later
    exact absurd subscription (stops_publishMembership publishing)

/-- While the list is empty, every topic that is held is one too many. -/
theorem Called.consistent_refused_iff {n : Nat} {topics : Finset TopicHash}
    (called : Called { b with subnetIds := [] } b' n topics) :
    b'.refused.Consistent codec ↔ topics = ∅ := by
  unfold Behaviour.Consistent
  simp only [Behaviour.refused, called.votingTopics, called.subnetIds]
  rfl

theorem Called.succeeded {n : Nat} {topics : Finset TopicHash}
    (called : Called { b with subnetIds := [] } b' n topics) :
    b'.refused.inner.calls - b.inner.calls - 1 = n := by
  have calls := called.calls
  simp only [Behaviour.refused] at calls ⊢
  omega

theorem consistent_setProvidedSubnets_iff {ids : List SubnetID} (subscription : e.IsSubscription)
    (stops : Stops (Behaviour.setProvidedSubnets ok codec now ids) b e b') :
    b'.Consistent codec ↔
      (Request.setProvidedSubnets ids).Clears codec b (b'.inner.calls - b.inner.calls - 1) := by
  have emptied : ({ b with subnetIds := [] } : Behaviour).votingHash codec = b.votingHash codec :=
    votingHash_congr codec b _ rfl
  rcases stops_setProvidedSubnets subscription stops with
    ⟨first, rest, split, rfl⟩ | ⟨first, rfl⟩
  · have called := called_foldl_left codec ids first { b with subnetIds := [] }
    have leaving : b.leaving codec ids = (first.filter (· ∉ ids)).map (b.votingHash codec) ++
        (rest.filter (· ∉ ids)).map (b.votingHash codec) := by
      rw [Behaviour.leaving, split, List.filter_append, List.map_append]
    have done : (b.leaving codec ids).take (first.filter (· ∉ ids)).length =
        (first.filter (· ∉ ids)).map (b.votingHash codec) := by
      rw [leaving, ← List.length_map (b.votingHash codec), List.take_left]
    rw [called.consistent_refused_iff, called.succeeded, Request.Clears, done, emptied,
      Finset.sdiff_eq_empty_iff_subset]
    refine (and_iff_right ?_).symm
    rw [leaving, List.length_append, List.length_map]
    exact Nat.le_add_right _ _
  · have left := called_foldl_left codec ids b.subnetIds { b with subnetIds := [] }
    have called := left.trans (called_foldl_joined codec b.subnetIds first _)
    -- The first topic that is joined stays, so none may have been.
    rw [called.consistent_refused_iff, called.succeeded, Request.Clears, Finset.union_eq_empty,
      left.votingTopics, emptied, Finset.sdiff_eq_empty_iff_subset, Behaviour.leaving,
      List.length_map, List.toFinset_eq_empty_iff, List.map_eq_nil_iff, ← List.length_eq_zero_iff]
    constructor
    · rintro ⟨sub, none⟩
      rw [none, Nat.add_zero]
      exact ⟨le_rfl, by rwa [List.take_of_length_le (by simp)]⟩
    · rintro ⟨le, sub⟩
      have none : (first.filter (· ∉ b.subnetIds)).length = 0 := by omega
      rw [none, Nat.add_zero, List.take_of_length_le (by simp)] at sub
      exact ⟨sub, none⟩

/-- A refused call leaves the records as they are. -/
theorem consistent_refused (consistent : b.Consistent codec) : b.refused.Consistent codec :=
  consistent

/-- After a refused subscription the voting topics are those of the provided subnets, unless
the list was to be replaced and some topic is still held, or already. -/
theorem consistent_iff_clears (ok : Oracle) (codec : Codec) (now : Timestamp) (b b' : Behaviour)
    (r : Request) (e : Call) (consistent : b.Consistent codec) (subscription : e.IsSubscription)
    (stops : Stops (r.action ok codec now) b e b') :
    b'.Consistent codec ↔ r.Clears codec b (b'.inner.calls - b.inner.calls - 1) := by
  cases r with
  | setProvidedSubnets ids => exact consistent_setProvidedSubnets_iff subscription stops
  | addProvidedSubnet id =>
    refine iff_of_true ?_ trivial
    have stops := Stops.of_runs_bind (runs_get b) stops
    split at stops <;> [cases stops; skip]
    rw [(stops_votingSubscribe (Stops.of_change subscription stops)).2]
    exact consistent_refused consistent
  | removeProvidedSubnet id =>
    refine iff_of_true ?_ trivial
    have stops := Stops.of_runs_bind (runs_get b) stops
    split at stops <;> [skip; cases stops]
    rw [(stops_votingUnsubscribe (Stops.of_change subscription stops)).2]
    exact consistent_refused consistent
  | publishVote vote =>
    have calling := Stops.of_runs_bind (runs_get b) stops
    rw [(Stops.of_call calling).1] at subscription
    cases subscription
  | publishPreemptive id data =>
    have calling := Stops.of_runs_bind (runs_get b) stops
    rw [(Stops.of_call calling).1] at subscription
    cases subscription
  | pinSubnet id =>
    refine iff_of_true ?_ trivial
    have calling := Stops.of_runs_bind (runs_get b) (Stops.of_bind_modify stops)
    rw [(Stops.of_call (Stops.of_bind_modify calling)).2]
    exact consistent_refused consistent
  | unpinSubnet id =>
    refine iff_of_true ?_ trivial
    have calling := Stops.of_runs_bind (runs_get b) (Stops.of_bind_modify stops)
    rw [(Stops.of_call (Stops.of_bind_modify calling)).2]
    exact consistent_refused consistent

/-- Gossipsub refuses one topic. -/
def refusing (topic : TopicHash) : Oracle := fun _ c => c ≠ .subscribe topic

/-- A node that provides one subnet. -/
def providing (ok : Oracle) (codec : Codec) (id : SubnetID) : Behaviour :=
  let mc : Config := ⟨[], 10, 60, 5, 30⟩
  ((initial 0 ⟨⟨[0]⟩, "net"⟩ mc).perform (setup ok codec mc)).perform
    (Behaviour.addProvidedSubnet ok codec 1 id)

/-- The first subnet was to be given up for the second: nothing is held, and nothing listed. -/
theorem consistent_iff_clears_exchanged :
    let codec : Codec := ⟨id, fun _ => none, fun _ => none⟩
    let second : SubnetID := ⟨"/root/t02"⟩
    let topic : TopicHash := ⟨"/ipc/ipld/votes/net/_root_t02"⟩
    let ok := refusing topic
    let b := providing ok codec ⟨"/root/t01"⟩
    let action := (Request.setProvidedSubnets [second]).action ok codec 2
    b.votingTopics.card = 1 ∧ b.Consistent codec ∧
      Stops action b (.subscribe topic) (b.perform action) ∧
      (b.perform action).Consistent codec := by
  intro codec second topic ok b action
  have consistent : b.Consistent codec := by decide +kernel
  have stops : Stops action b (.subscribe topic) (b.perform action) :=
    stops_of_fst (by decide +kernel)
  have cleared := consistent_iff_clears ok codec 2 b (b.perform action)
    (.setProvidedSubnets [second]) (.subscribe topic) consistent trivial stops
  refine ⟨by decide +kernel, consistent, stops, cleared.mpr ⟨?_, ?_⟩⟩
  · decide +kernel
  · decide +kernel

/-- The second subnet was to be added to the first: the list is empty and the topic of the
first is still held, so that neither removing the subnet nor an empty list leaves it. -/
theorem topic_held_without_subnet :
    let codec : Codec := ⟨id, fun _ => none, fun _ => none⟩
    let first : SubnetID := ⟨"/root/t01"⟩
    let topic : TopicHash := ⟨"/ipc/ipld/votes/net/_root_t02"⟩
    let ok := refusing topic
    let b := providing ok codec first
    let action := (Request.setProvidedSubnets [first, ⟨"/root/t02"⟩]).action ok codec 2
    let b' := b.perform action
    let later := (b'.perform (Behaviour.removeProvidedSubnet ok codec 3 first)).perform
      (Behaviour.setProvidedSubnets ok codec 4 [])
    b.Consistent codec ∧ Stops action b (.subscribe topic) b' ∧ ¬ b'.Consistent codec ∧
      b'.subnetIds = [] ∧ later.votingTopics = {b.votingHash codec first} ∧
      b.votingHash codec first ∈ later.inner.subscribed := by
  intro codec first topic ok b action b' later
  refine ⟨by decide +kernel, stops_of_fst ?_, ?_, ?_, ?_, ?_⟩ <;> decide +kernel

end Requests

end IpcAgent.Resolver.Membership
