import IpcAgent.Resolver.MembershipRun

/-!
# The event stream of the membership behaviour

What each input of a run puts into the outbox, and what a reader of the events learns from
them: replaying the stream gives the providers the cache holds, as long as no subnet is
evicted.
-/

namespace IpcAgent.Resolver.Membership
open Library SubnetProviderCache

/-- What the behaviour reports of an operation on its cache. -/
def cacheEvents (w : Walks) (c : SubnetProviderCache) : CacheOp → List Event
  | .setUnroutable p => [.removed p]
  | .addProvider r => (Behaviour.recordEvent r (c.addProvider w.subnets r).2).toList
  | .pruneProviders cutoff => (c.pruneProviders w.peers cutoff).2.map .removed
  | .setRoutable _ | .pinSubnet _ | .unpinSubnet _ => []

namespace Behaviour

/-- What the behaviour reports of gossip outside the membership topic. -/
def heard (codec : Codec) (b : Behaviour) : Input → List Event
  | .gossip (.message topic data) =>
    if topic = b.membershipTopic then []
    else if topic ∈ b.votingTopics then ((codec.voteRecord data).map .receivedVote).toList
    else ((b.preemptiveTopics.lookup topic).map (.receivedPreemptive · data)).toList
  | _ => []

/-- The events an input raises. -/
def raised (codec : Codec) (b : Behaviour) (i : Moment × Input) : List Event :=
  match Input.cacheOp codec b.membershipTopic b.maxProviderAge i with
  | some op => cacheEvents i.1.walks b.providerCache op
  | none => b.heard codec i.2

end Behaviour

/-! ## What a step does to the outbox -/

def SameOutbox (b b' : Behaviour) : Prop := b'.outbox = b.outbox

instance : Std.Refl SameOutbox := ⟨fun _ => rfl⟩

instance : IsTrans Behaviour SameOutbox := ⟨fun _ _ _ h h' => h'.trans h⟩

theorem SameOutbox.ignores : Ignores SameOutbox :=
  ⟨fun _ _ => rfl, fun _ _ => rfl, fun _ _ => rfl, fun _ _ => rfl, fun _ _ => rfl,
    fun _ _ _ _ => rfl⟩

theorem outbox_publishForNewPeer (now : Timestamp) (b : Behaviour) :
    (b.publishForNewPeer now).outbox = b.outbox := by
  obtain ⟨_, _, _, _, done⟩ := published_publishForNewPeer now b
  rw [done]

theorem outbox_handleProviderRecord (now : Timestamp) (o : HashOrder SubnetID) (b : Behaviour)
    (r : ProviderRecord) :
    (b.handleProviderRecord now o r).outbox =
      b.outbox ++ (Behaviour.recordEvent r (b.providerCache.addProvider o r).2).toList := by
  simp only [Behaviour.handleProviderRecord]
  split
  · split
    · rw [outbox_publishForNewPeer]
    · rfl
  · rfl

theorem outbox_foldl_reportPruned (ps : List PeerId) (b : Behaviour) :
    (ps.foldl Behaviour.reportPruned b).outbox = b.outbox ++ ps.map .removed := by
  induction ps generalizing b with
  | nil => simp
  | cons p ps ih =>
    rw [List.foldl_cons, ih]
    simp [Behaviour.reportPruned, Behaviour.push]

theorem outbox_tick (ok : Oracle) (m : Moment) (b : Behaviour) :
    (b.tick ok m).outbox = b.outbox ++
      (b.providerCache.pruneProviders m.walks.peers (m.now.sub b.maxProviderAge)).2.map
        .removed := by
  obtain ⟨n, last, next, interval, done⟩ :=
    published_perform ok m.now { b with publishInterval := b.publishInterval.tick }
  simp only [Behaviour.tick, Behaviour.pruneMembership, outbox_foldl_reportPruned, done]

theorem outbox_handleMessage (codec : Codec) (m : Moment) (b : Behaviour) (topic : TopicHash)
    (data : List UInt8) :
    (b.handleMessage codec m.now m.walks.subnets topic data).outbox =
      b.outbox ++ b.raised codec (m, .gossip (.message topic data)) := by
  simp only [Behaviour.handleMessage, Behaviour.raised, Input.cacheOp, Input.record,
    Behaviour.heard]
  by_cases ht : topic = b.membershipTopic
  · simp only [ht, if_true]
    cases codec.providerRecord data with
    | none => simp
    | some r => exact outbox_handleProviderRecord m.now m.walks.subnets b r
  · simp only [ht, if_false, Option.map_none]
    split_ifs
    · cases codec.voteRecord data <;> simp [Behaviour.push]
    · cases b.preemptiveTopics.lookup topic <;> simp [Behaviour.push]

/-- A step appends the events of its input to the outbox, unless it takes one out. -/
theorem outbox_step (ok : Oracle) (codec : Codec) (b : Behaviour) (i : Moment × Input)
    (notEmit : i.2 ≠ .emit) :
    (b.step ok codec i).outbox = b.outbox ++ b.raised codec i := by
  obtain ⟨m, i⟩ := i
  cases i with
  | emit => exact absurd rfl notEmit
  | tick => exact outbox_tick ok m b
  | request r =>
    have same : SameOutbox b (b.step ok codec (m, .request r)) :=
      within_action ok codec SameOutbox.ignores m.now r b
    rw [same]
    simp [Behaviour.raised, Input.cacheOp, Input.record, Behaviour.heard]
  | discovery e =>
    cases e with
    | added p addrs =>
      simp only [Behaviour.step, Behaviour.handleDiscoveryEvent, Behaviour.setRoutable,
        outbox_publishForNewPeer]
      simp [Behaviour.raised, Input.cacheOp, cacheEvents]
    | removed p => rfl
  | gossip e =>
    cases e with
    | message topic data => exact outbox_handleMessage codec m b topic data
    | subscribed p topic =>
      simp only [Behaviour.step, Behaviour.handleGossipsubEvent, Behaviour.handleSubscriber]
      have same : (if topic = b.membershipTopic then b.publishForNewPeer m.now else b).outbox =
          b.outbox := by
        split_ifs
        · exact outbox_publishForNewPeer m.now b
        · rfl
      rw [same]
      simp [Behaviour.raised, Input.cacheOp, Input.record, Behaviour.heard]
    | _ =>
      simp [Behaviour.step, Behaviour.handleGossipsubEvent, Behaviour.raised, Input.cacheOp,
        Input.record, Behaviour.heard]

/-! ## Runs with the events they have handed out -/

/-- A run: the behaviour, and the events taken out of its outbox so far. -/
structure Trace where
  behaviour : Behaviour
  emitted : List Event

namespace Trace

variable (ok : Oracle) (codec : Codec)

/-- The event a step takes out of the outbox. -/
def handedOut (t : Trace) : Input → List Event
  | .emit => t.behaviour.outbox.head?.toList
  | _ => []

def step (t : Trace) (i : Moment × Input) : Trace :=
  ⟨t.behaviour.step ok codec i, t.emitted ++ t.handedOut i.2⟩

/-- All events put into the outbox so far, in their order. -/
def pushed (t : Trace) : List Event := t.emitted ++ t.behaviour.outbox

theorem pushed_step (t : Trace) (i : Moment × Input) :
    (t.step ok codec i).pushed = t.pushed ++ t.behaviour.raised codec i := by
  obtain ⟨m, i⟩ := i
  by_cases emit : i = .emit
  · subst emit
    cases out : t.behaviour.outbox <;>
      simp [pushed, step, handedOut, Behaviour.step, out, Behaviour.raised, Input.cacheOp,
        Input.record, Behaviour.heard]
  · have kept : t.handedOut i = [] := by
      cases i with
      | emit => exact absurd rfl emit
      | _ => rfl
    simp [pushed, step, kept, outbox_step ok codec t.behaviour (m, i) emit]

end Trace

def Behaviour.trace (ok : Oracle) (codec : Codec) (b : Behaviour)
    (inputs : List (Moment × Input)) : Trace :=
  inputs.foldl (Trace.step ok codec) ⟨b, []⟩

theorem behaviour_trace (ok : Oracle) (codec : Codec) (b : Behaviour)
    (inputs : List (Moment × Input)) :
    (b.trace ok codec inputs).behaviour = b.run ok codec inputs := by
  have key : ∀ (l : List (Moment × Input)) (t : Trace),
      (l.foldl (Trace.step ok codec) t).behaviour = t.behaviour.run ok codec l := by
    intro l
    induction l with
    | nil => intro t; rfl
    | cons i l ih => intro t; exact ih _
  exact key inputs ⟨b, []⟩

/-! ## Replaying the stream -/

/-- The subnets of each peer, as a reader of the events knows them. -/
abbrev Associations := PeerId → Finset SubnetID

def Event.replay (known : Associations) : Event → Associations
  | .updated p d => Function.update known p ((known p \ d.removed.toFinset) ∪ d.added.toFinset)
  | .removed p => Function.update known p ∅
  | .skipped _ | .receivedVote _ | .receivedPreemptive _ _ => known

/-- The reader knows exactly the providers the cache holds. -/
def Mirrors (known : Associations) (c : SubnetProviderCache) : Prop :=
  ∀ p s, s ∈ known p ↔ p ∈ c.providersOfSubnet s

/-- An update that is not reported would not have told anything. -/
theorem replay_recordEvent (known : Associations) (r : ProviderRecord) (d : ProviderDelta) :
    (Behaviour.recordEvent r (some d)).toList.foldl Event.replay known =
      Event.replay known (.updated r.peerId d) := by
  by_cases empty : (d.isEmpty && !d.isNew) = true
  · obtain ⟨added, removed⟩ : d.added = [] ∧ d.removed = [] := by
      simpa [ProviderDelta.isEmpty] using (Bool.and_eq_true_iff.mp empty).1
    simp [Behaviour.recordEvent, empty, Event.replay, added, removed]
  · simp [Behaviour.recordEvent, empty]

variable {known : Associations} {c : SubnetProviderCache}

theorem Mirrors.removed (mirrors : Mirrors known c) (ps : List PeerId) :
    Mirrors ((ps.map .removed).foldl Event.replay known) (ps.foldl setUnroutable c) := by
  induction ps generalizing known c with
  | nil => exact mirrors
  | cons p ps ih =>
    refine ih fun q s => ?_
    rw [mem_providers_setUnroutable]
    by_cases hq : q = p
    · subst hq
      simp [Event.replay]
    · simpa [Event.replay, hq] using mirrors q s

theorem Mirrors.addProvider (mirrors : Mirrors known c) (w : Walks) (r : ProviderRecord)
    (bound : c.peak (.addProvider r) ≤ c.maxSubnets) :
    Mirrors ((cacheEvents w c (.addProvider r)).foldl Event.replay known)
      (c.addProvider w.subnets r).1 := by
  by_cases route : r.peerId ∈ c.routablePeers
  · by_cases acc : c.Accepts r
    · have fits : (c.recorded r).subnetProviders.len ≤ (c.recorded r).maxSubnets := by
        simpa [peak, acc, recorded] using bound
      have answer : (c.addProvider w.subnets r).2 = some ⟨!c.hasTimestamp r.peerId,
          c.newlyListed r, unlisted w.subnets r c.subnetProviders⟩ := by
        simp [SubnetProviderCache.addProvider, isRoutable, acc.1, acc.2,
          pruneSubnets_of_le w.subnets _ fits]
      rw [cacheEvents, answer, replay_recordEvent, addProvider_of_accepts _ acc,
        pruneSubnets_of_le w.subnets _ fits]
      intro q s
      rw [mem_providers_recorded]
      by_cases hq : q = r.peerId
      · -- What was dropped is not listed, what is listed was there or is added.
        subst hq
        have held := mirrors r.peerId s
        simp only [Event.replay, Function.update_self, Finset.mem_union, Finset.mem_sdiff,
          List.mem_toFinset, mem_unlisted, mem_newlyListed, if_true]
        unfold providersOfSubnet at held ⊢
        tauto
      · simpa [Event.replay, hq] using mirrors q s
    · have stale : ¬ c.timestampOf r.peerId < r.timestamp := fun lt => acc ⟨route, lt⟩
      have answer : (c.addProvider w.subnets r).2 = some ⟨!c.hasTimestamp r.peerId, [], []⟩ := by
        simp [SubnetProviderCache.addProvider, isRoutable, route, stale]
      have same : Event.replay known (.updated r.peerId ⟨!c.hasTimestamp r.peerId, [], []⟩) =
          known := by simp [Event.replay]
      rw [cacheEvents, answer, replay_recordEvent, same, addProvider_of_stale _ route acc]
      exact mirrors
  · rw [cacheEvents, addProvider_of_not_routable _ route]
    exact mirrors

/-- The events of an operation tell what it does to the providers. -/
theorem Mirrors.apply (mirrors : Mirrors known c) (w : Walks) (op : CacheOp)
    (bound : c.peak op ≤ c.maxSubnets) :
    Mirrors ((cacheEvents w c op).foldl Event.replay known) (op.apply w c) := by
  cases op with
  | setUnroutable p => exact mirrors.removed [p]
  | addProvider r => exact mirrors.addProvider w r bound
  | pruneProviders cutoff => exact mirrors.removed _
  | _ => exact mirrors

/-- Other gossip says nothing about providers. -/
theorem replay_heard (codec : Codec) (b : Behaviour) (i : Input) :
    (b.heard codec i).foldl Event.replay known = known := by
  unfold Behaviour.heard
  split
  · split_ifs
    · rfl
    · cases codec.voteRecord _ <;> rfl
    · cases b.preemptiveTopics.lookup _ <;> rfl
  · rfl

/-- In the run from `b` no step tracks more than `maxSubnets` subnets. -/
def Behaviour.NeverExceeds (ok : Oracle) (codec : Codec) (b : Behaviour) :
    List (Moment × Input) → Prop
  | [] => True
  | i :: inputs =>
    (Input.cacheOp codec b.membershipTopic b.maxProviderAge i).elim True
        (fun op => b.providerCache.peak op ≤ b.providerCache.maxSubnets) ∧
      (b.step ok codec i).NeverExceeds ok codec inputs

instance Behaviour.decidableNeverExceeds (ok : Oracle) (codec : Codec) (b : Behaviour) :
    (inputs : List (Moment × Input)) → Decidable (b.NeverExceeds ok codec inputs)
  | [] => .isTrue trivial
  | i :: inputs =>
    have := decidableNeverExceeds ok codec (b.step ok codec i) inputs
    have : Decidable ((Input.cacheOp codec b.membershipTopic b.maxProviderAge i).elim True
        (fun op => b.providerCache.peak op ≤ b.providerCache.maxSubnets)) :=
      match Input.cacheOp codec b.membershipTopic b.maxProviderAge i with
      | some _ => inferInstanceAs (Decidable (_ ≤ _))
      | none => .isTrue trivial
    inferInstanceAs (Decidable (_ ∧ _))

theorem mirrors_step (ok : Oracle) (codec : Codec) (b : Behaviour) (i : Moment × Input)
    (mirrors : Mirrors known b.providerCache)
    (bound : (Input.cacheOp codec b.membershipTopic b.maxProviderAge i).elim True
      (fun op => b.providerCache.peak op ≤ b.providerCache.maxSubnets)) :
    Mirrors ((b.raised codec i).foldl Event.replay known) (b.step ok codec i).providerCache := by
  have same := sameTables_step ok codec b i
  have applied : Mirrors ((b.raised codec i).foldl Event.replay known)
      (b.applied codec i).providerCache := by
    unfold Behaviour.raised Behaviour.applied
    cases op : Input.cacheOp codec b.membershipTopic b.maxProviderAge i with
    | none =>
      simp only [replay_heard]
      exact mirrors
    | some op' =>
      rw [op] at bound
      exact mirrors.apply i.1.walks op' bound
  intro p s
  rw [applied p s]
  unfold providersOfSubnet
  rw [same.providers]

/-- The run of a trace, by induction on the inputs still to come. -/
theorem mirrors_run (ok : Oracle) (codec : Codec) (inputs : List (Moment × Input)) (t : Trace)
    (mirrors : Mirrors (t.pushed.foldl Event.replay known) t.behaviour.providerCache)
    (bound : t.behaviour.NeverExceeds ok codec inputs) :
    Mirrors ((inputs.foldl (Trace.step ok codec) t).pushed.foldl Event.replay known)
      (inputs.foldl (Trace.step ok codec) t).behaviour.providerCache := by
  induction inputs generalizing t with
  | nil => exact mirrors
  | cons i inputs ih =>
    refine ih (t.step ok codec i) ?_ bound.2
    rw [Trace.pushed_step, List.foldl_append]
    exact mirrors_step ok codec t.behaviour i mirrors bound.1

/-- As long as no subnet is evicted, replaying all events pushed so far gives the providers
the cache holds. -/
theorem events_replay_to_cache (ok : Oracle) (codec : Codec) (start : Timestamp)
    (nc : NetworkConfig) (mc : Config) (b : Behaviour)
    (built : new ok codec start nc mc = .ok b) (inputs : List (Moment × Input))
    (bound : b.NeverExceeds ok codec inputs) (p : PeerId) (s : SubnetID) :
    s ∈ (b.trace ok codec inputs).pushed.foldl Event.replay (fun _ => ∅) p ↔
      p ∈ (b.run ok codec inputs).providersOfSubnet s := by
  have outbox : b.outbox = [] := related_new ok codec SameOutbox.ignores built
  have tables := related_new ok codec SameTables.ignores built
  have fresh : Mirrors (fun _ => ∅) b.providerCache := by
    intro q s
    unfold providersOfSubnet
    rw [tables.providers]
    simp [initial, SubnetProviderCache.new]
  have atStart :
      Mirrors ((Trace.mk b []).pushed.foldl Event.replay fun _ => ∅) b.providerCache := by
    simpa [Trace.pushed, outbox] using fresh
  have mirrors := mirrors_run ok codec inputs ⟨b, []⟩ atStart bound p s
  rw [← behaviour_trace]
  exact mirrors

/-- A peer announces one subnet, then another one in its place. -/
theorem events_replay_to_cache_switch :
    let first : SubnetID := ⟨"/root/t01"⟩
    let second : SubnetID := ⟨"/root/t02"⟩
    let codec : Codec := ⟨id, fun data =>
      some ⟨⟨[1]⟩, [if data.length = 1 then first else second], data.length⟩, fun _ => none⟩
    let inputs : List (Moment × Input) := [(⟨0, .plain⟩, .discovery (.added ⟨[1]⟩ [])),
      (⟨1, .plain⟩, .gossip (.message (membershipTopicOf "net") [0])),
      (⟨2, .plain⟩, .gossip (.message (membershipTopicOf "net") [0, 0]))]
    ∃ b, new (fun _ _ => true) codec 0 ⟨⟨[0]⟩, "net"⟩ ⟨[], 10, 60, 5, 30⟩ = .ok b ∧
      (b.trace (fun _ _ => true) codec inputs).pushed =
        [.updated ⟨[1]⟩ ⟨true, [first], []⟩, .updated ⟨[1]⟩ ⟨false, [second], [first]⟩] ∧
      ∀ s, s ∈ (b.trace (fun _ _ => true) codec inputs).pushed.foldl Event.replay (fun _ => ∅)
          ⟨[1]⟩ ↔ ⟨[1]⟩ ∈ (b.run (fun _ _ => true) codec inputs).providersOfSubnet s := by
  intro first second codec inputs
  refine ⟨_, rfl, by decide +kernel, fun s => ?_⟩
  exact events_replay_to_cache (fun _ _ => true) codec 0 ⟨⟨[0]⟩, "net"⟩ ⟨[], 10, 60, 5, 30⟩ _ rfl
    inputs (by decide +kernel) ⟨[1]⟩ s

end IpcAgent.Resolver.Membership
