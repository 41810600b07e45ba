import IpcAgent.Library.Fallible
import IpcAgent.Resolver.CacheReference
import IpcAgent.Resolver.Membership

/-!
# Runs of the membership behaviour

A run is any interleaving of what discovery reports, gossip, requests, ticks of the publish
timer and events handed out. `Input.cacheOp` says which cache operation, if any, a step
amounts to; that a step does just this to the cache is all that reasoning about providers
needs to know of the behaviour.
-/

namespace IpcAgent.Resolver.Membership
open Library

/-- What can happen to the behaviour. -/
inductive Input
  | emit
  | tick
  | gossip (e : GossipsubEvent)
  | discovery (e : Discovery.Event)
  | request (r : Request)

section Run

variable (ok : Oracle) (codec : Codec)

/-- `Service::handle_discovery_event`. -/
def Behaviour.handleDiscoveryEvent (now : Timestamp) (b : Behaviour) : Discovery.Event → Behaviour
  | .added peer _ => b.setRoutable now peer
  | .removed peer => b.setUnroutable peer

def Behaviour.step (b : Behaviour) : Moment × Input → Behaviour
  | (_, .emit) => { b with outbox := b.outbox.tail }
  | (m, .tick) => b.tick ok m
  | (m, .gossip e) => b.handleGossipsubEvent codec m e
  | (m, .discovery e) => b.handleDiscoveryEvent m.now e
  | (m, .request r) => b.perform (r.action ok codec m.now)

def Behaviour.run (b : Behaviour) (inputs : List (Moment × Input)) : Behaviour :=
  inputs.foldl (Behaviour.step ok codec) b

/-- The steps a call of `poll` is made of. -/
def Behaviour.pollInputs (b : Behaviour) (m : Moment) (ready : List (Moment × GossipsubAction)) :
    List (Moment × Input) :=
  match b.outbox with
  | _ :: _ => [(m, .emit)]
  | [] => (if b.publishInterval.deadline ≤ m.now then [(m, .tick)] else []) ++ gossiped ready
where
  gossiped : List (Moment × GossipsubAction) → List (Moment × Input)
    | (m, .generateEvent e) :: ready => (m, .gossip e) :: gossiped ready
    | _ => []

theorem pollGossipsub_eq_run (ready : List (Moment × GossipsubAction)) (b : Behaviour) :
    Behaviour.pollGossipsub codec ready b =
      b.run ok codec (Behaviour.pollInputs.gossiped ready) := by
  fun_induction Behaviour.pollGossipsub codec ready b with
  | case1 b m e ready ih => exact ih
  | case2 ready b other =>
    cases ready with
    | nil => rfl
    | cons a ready =>
      obtain ⟨m, a⟩ := a
      cases a with
      | other => rfl
      | generateEvent e => exact absurd rfl (other m e ready)

/-- A poll is a run of its steps. -/
theorem poll_eq_run (b : Behaviour) (m : Moment) (ready : List (Moment × GossipsubAction)) :
    (b.poll ok codec m ready).1 = b.run ok codec (b.pollInputs m ready) := by
  unfold Behaviour.poll Behaviour.pollInputs
  cases hout : b.outbox with
  | cons e outbox => simp [Behaviour.run, Behaviour.step, hout]
  | nil =>
    simp only [pollGossipsub_eq_run ok]
    unfold Behaviour.run
    rw [List.foldl_append]
    split <;> rfl

end Run

/-! ## What a step does to the cache -/

/-- The peer a discovery event is about. -/
def Input.discovered : Input → Option PeerId
  | .discovery (.added p _) => some p
  | .discovery (.removed p) => some p
  | _ => none

/-- The provider record an input carries, in a behaviour with the given membership topic. -/
def Input.record (codec : Codec) (topic : TopicHash) : Input → Option ProviderRecord
  | .gossip (.message t data) => if t = topic then codec.providerRecord data else none
  | _ => none

/-- The cache operation an input amounts to. -/
def Input.cacheOp (codec : Codec) (topic : TopicHash) (maxAge : Nat) :
    Moment × Input → Option CacheOp
  | (m, .tick) => some (.pruneProviders (m.now.sub maxAge))
  | (_, .discovery (.added p _)) => some (.setRoutable p)
  | (_, .discovery (.removed p)) => some (.setUnroutable p)
  | (_, i) => (i.record codec topic).map .addProvider

/-- What requests leave alone: the topic, the maximum age and the tables of the cache. Only
the pinned subnets may change. -/
structure SameTables (b b' : Behaviour) : Prop where
  topic : b'.membershipTopic = b.membershipTopic
  maxAge : b'.maxProviderAge = b.maxProviderAge
  routable : b'.providerCache.routablePeers = b.providerCache.routablePeers
  timestamps : b'.providerCache.peerTimestamps = b.providerCache.peerTimestamps
  providers : b'.providerCache.subnetProviders = b.providerCache.subnetProviders

instance : Std.Refl SameTables := ⟨fun _ => ⟨rfl, rfl, rfl, rfl, rfl⟩⟩

instance : IsTrans Behaviour SameTables where
  trans _ _ _ h h' := ⟨h'.topic.trans h.topic, h'.maxAge.trans h.maxAge,
    h'.routable.trans h.routable, h'.timestamps.trans h.timestamps,
    h'.providers.trans h.providers⟩

section Calls

variable {R : Behaviour → Behaviour → Prop} [Std.Refl R] [IsTrans Behaviour R] (ok : Oracle)
  (counted : ∀ b n, R b { b with inner := { b.inner with calls := n } })

include counted

theorem within_call {c : Call} (made : ∀ b, R b { b with inner := b.inner.after c }) :
    Within R (Behaviour.call ok c) :=
  within_bind within_get fun _ => within_bind (within_modify fun b => counted b _) fun _ =>
    within_ite (within_modify made) (within_throw c)

/-- The shape of the four ways to subscribe and unsubscribe: a call, then some bookkeeping. -/
theorem within_call_modify (topic : Behaviour → Call) (f : Behaviour → Behaviour → Behaviour)
    (made : ∀ b₀ b, R b { b with inner := b.inner.after (topic b₀) })
    (hf : ∀ b₀ b, R b (f b₀ b)) :
    Within R (do
      let b₀ ← get
      Behaviour.call ok (topic b₀)
      modify (f b₀) : Action Unit) :=
  within_bind within_get fun b₀ =>
    within_bind (within_call ok counted (made b₀)) fun _ => within_modify (hf b₀)

theorem within_publishMembership (now : Timestamp)
    (timer : ∀ b last next interval, R b { b with
      lastPublishTimestamp := last, nextPublishTimestamp := next, publishInterval := interval }) :
    Within R (Behaviour.publishMembership ok now) :=
  within_bind (within_call ok counted fun b => refl_of R b) fun _ => within_bind within_get fun _ =>
    within_bind (within_call ok counted fun b => refl_of R b) fun _ =>
      within_modify fun b => timer b _ _ _

end Calls

/-- The behaviour may have made calls and published since. -/
def Published (b b' : Behaviour) : Prop :=
  ∃ n last next interval, b' = { b with
    inner := { b.inner with calls := n }
    lastPublishTimestamp := last
    nextPublishTimestamp := next
    publishInterval := interval }

instance : Std.Refl Published := ⟨fun _ => ⟨_, _, _, _, rfl⟩⟩

instance : IsTrans Behaviour Published where
  trans := by
    rintro _ _ _ ⟨_, _, _, _, rfl⟩ ⟨_, _, _, _, rfl⟩
    exact ⟨_, _, _, _, rfl⟩

/-- However it ends, publishing changes no more than the number of calls and the times. -/
theorem published_perform (ok : Oracle) (now : Timestamp) (b : Behaviour) :
    Published b (b.perform (Behaviour.publishMembership ok now)) :=
  within_publishMembership ok (fun _ _ => ⟨_, _, _, _, rfl⟩) now
    (fun _ _ _ _ => ⟨_, _, _, _, rfl⟩) b

/-- `R` does not look at what requests change: the subscriptions, the pinned subnets and the
times of publishing. -/
structure Ignores (R : Behaviour → Behaviour → Prop) : Prop where
  inner : ∀ b g, R b { b with inner := g }
  subnetIds : ∀ b ids, R b { b with subnetIds := ids }
  votingTopics : ∀ b topics, R b { b with votingTopics := topics }
  preemptiveTopics : ∀ b topics, R b { b with preemptiveTopics := topics }
  pinned : ∀ b ids, R b { b with
    providerCache := { b.providerCache with pinnedSubnets := ids } }
  timer : ∀ b last next interval, R b { b with
    lastPublishTimestamp := last, nextPublishTimestamp := next, publishInterval := interval }

theorem Ignores.counted {R : Behaviour → Behaviour → Prop} (ignores : Ignores R) (b : Behaviour)
    (n : Nat) : R b { b with inner := { b.inner with calls := n } } := ignores.inner b _

theorem SameTables.ignores : Ignores SameTables :=
  ⟨fun _ _ => ⟨rfl, rfl, rfl, rfl, rfl⟩, fun _ _ => ⟨rfl, rfl, rfl, rfl, rfl⟩,
    fun _ _ => ⟨rfl, rfl, rfl, rfl, rfl⟩, fun _ _ => ⟨rfl, rfl, rfl, rfl, rfl⟩,
    fun _ _ => ⟨rfl, rfl, rfl, rfl, rfl⟩, fun _ _ _ _ => ⟨rfl, rfl, rfl, rfl, rfl⟩⟩

theorem runs_of_new {ok : Oracle} {codec : Codec} {now : Timestamp} {nc : NetworkConfig}
    {mc : Config} {b : Behaviour} (built : new ok codec now nc mc = .ok b) :
    Runs (setup ok codec mc) (initial now nc mc) () b := by
  unfold new at built
  split at built
  · cases built
  · split at built
    · rename_i done
      cases built
      exact done
    · cases built

section Requests

variable {R : Behaviour → Behaviour → Prop} [Std.Refl R] [IsTrans Behaviour R] (ok : Oracle)
  (codec : Codec) (ignores : Ignores R)

include ignores

theorem within_publish (now : Timestamp) : Within R (Behaviour.publishMembership ok now) :=
  within_publishMembership ok ignores.counted now ignores.timer

theorem within_votingSubscribe (id : SubnetID) :
    Within R (Behaviour.votingSubscribe ok codec id) :=
  within_call_modify ok ignores.counted (fun b => .subscribe ⟨codec.sha256 (b.votingTopic id)⟩) _
    (fun _ b => ignores.inner b _) fun _ b => ignores.votingTopics b _

theorem within_votingUnsubscribe (id : SubnetID) :
    Within R (Behaviour.votingUnsubscribe ok codec id) :=
  within_call_modify ok ignores.counted (fun b => .unsubscribe ⟨codec.sha256 (b.votingTopic id)⟩) _
    (fun _ b => ignores.inner b _) fun _ b => ignores.votingTopics b _

theorem within_preemptiveSubscribe (id : SubnetID) :
    Within R (Behaviour.preemptiveSubscribe ok codec id) :=
  within_call_modify ok ignores.counted
    (fun b => .subscribe ⟨codec.sha256 (b.preemptiveTopic id)⟩) _ (fun _ b => ignores.inner b _)
    fun _ b => ignores.preemptiveTopics b _

theorem within_preemptiveUnsubscribe (id : SubnetID) :
    Within R (Behaviour.preemptiveUnsubscribe ok codec id) :=
  within_call_modify ok ignores.counted
    (fun b => .unsubscribe ⟨codec.sha256 (b.preemptiveTopic id)⟩) _ (fun _ b => ignores.inner b _)
    fun _ b => ignores.preemptiveTopics b _

theorem within_setProvidedSubnets (now : Timestamp) (ids : List SubnetID) :
    Within R (Behaviour.setProvidedSubnets ok codec now ids) := by
  refine within_bind within_get fun b => within_bind (within_modify ?_) fun _ =>
    within_bind (within_forM ?_ _) fun _ => within_bind (within_forM ?_ _) fun _ =>
      within_bind (within_modify ?_) fun _ => within_publish ok ignores now
  · exact fun b => ignores.subnetIds b _
  · exact fun id => within_ite (within_pure ()) (within_votingUnsubscribe ok codec ignores id)
  · exact fun id => within_ite (within_pure ()) (within_votingSubscribe ok codec ignores id)
  · exact fun b => ignores.subnetIds b _

theorem within_pinSubnet (id : SubnetID) : Within R (Behaviour.pinSubnet ok codec id) :=
  within_bind (within_preemptiveSubscribe ok codec ignores id) fun _ =>
    within_modify fun b => ignores.pinned b _

/-- Requests may pin and unpin subnets, but never touch the tables of the cache. -/
theorem within_action (now : Timestamp) (r : Request) : Within R (r.action ok codec now) := by
  have moved : ∀ f : Behaviour → List SubnetID,
      Within R (do
        modify (fun b => { b with subnetIds := f b })
        Behaviour.publishMembership ok now : Action Unit) := fun f =>
    within_bind (within_modify fun b => ignores.subnetIds b _) fun _ =>
      within_publish ok ignores now
  cases r with
  | setProvidedSubnets ids => exact within_setProvidedSubnets ok codec ignores now ids
  | addProvidedSubnet id =>
    exact within_bind within_get fun b => within_ite (within_pure ())
      (within_bind (within_votingSubscribe ok codec ignores id) fun _ => moved _)
  | removeProvidedSubnet id =>
    exact within_bind within_get fun b => within_ite
      (within_bind (within_votingUnsubscribe ok codec ignores id) fun _ => moved _)
      (within_pure ())
  | publishVote vote =>
    exact within_bind within_get fun _ => within_call ok ignores.counted fun b => ignores.inner b _
  | publishPreemptive id data =>
    exact within_bind within_get fun _ => within_call ok ignores.counted fun b => ignores.inner b _
  | pinSubnet id => exact within_pinSubnet ok codec ignores id
  | unpinSubnet id =>
    exact within_bind (within_preemptiveUnsubscribe ok codec ignores id) fun _ =>
      within_modify fun b => ignores.pinned b _

theorem within_setup (mc : Config) : Within R (setup ok codec mc) :=
  within_bind within_get fun _ =>
    within_bind (within_call ok ignores.counted fun b => ignores.inner b _) fun _ =>
      within_forM (within_pinSubnet ok codec ignores) _

/-- A new behaviour is the initial one up to its subscriptions. -/
theorem related_new {now : Timestamp} {nc : NetworkConfig} {mc : Config} {b : Behaviour}
    (built : new ok codec now nc mc = .ok b) : R (initial now nc mc) b := by
  have related := within_setup ok codec ignores mc (initial now nc mc)
  rwa [runs_of_new built] at related

end Requests

section Steps

variable (ok : Oracle) (codec : Codec)

theorem published_publishForNewPeer (now : Timestamp) (b : Behaviour) :
    Published b (b.publishForNewPeer now) := by
  unfold Behaviour.publishForNewPeer
  split_ifs <;> exact ⟨_, _, _, _, rfl⟩

/-- What a gossip event can do, by the record it carries: nothing, put the next publish early,
take the record in, or report something. -/
inductive Gossiped (m : Moment) (b : Behaviour) : Option ProviderRecord → Behaviour → Prop
  | ignored : Gossiped m b none b
  | newPeer : Gossiped m b none (b.publishForNewPeer m.now)
  | record (r : ProviderRecord) :
    Gossiped m b (some r) (b.handleProviderRecord m.now m.walks.subnets r)
  | reported (event : Event) : Gossiped m b none (b.push event)

theorem gossiped (m : Moment) (b : Behaviour) (e : GossipsubEvent) :
    Gossiped m b (Input.record codec b.membershipTopic (.gossip e))
      (b.handleGossipsubEvent codec m e) := by
  cases e with
  | subscribed p topic =>
    simp only [Behaviour.handleGossipsubEvent, Behaviour.handleSubscriber]
    split
    · exact .newPeer
    · exact .ignored
  | unsubscribed => exact .ignored
  | gossipsubNotSupported p => exact .ignored
  | message topic data =>
    simp only [Behaviour.handleGossipsubEvent, Behaviour.handleMessage, Input.record]
    split_ifs
    · cases codec.providerRecord data with
      | none => exact .ignored
      | some r => exact .record r
    · cases codec.voteRecord data with
      | none => exact .ignored
      | some v => exact .reported _
    · cases b.preemptiveTopics.lookup topic with
      | none => exact .ignored
      | some id => exact .reported _

/-- The behaviour with only the cache operation of an input carried out. -/
def Behaviour.applied (b : Behaviour) (i : Moment × Input) : Behaviour :=
  match Input.cacheOp codec b.membershipTopic b.maxProviderAge i with
  | some op => { b with providerCache := op.apply i.1.walks b.providerCache }
  | none => b

/-- `R` does not look at what goes on in the background: the events, the gauges and what
publishing changes. -/
structure Background (R : Behaviour → Behaviour → Prop) : Prop where
  published : ∀ b b', Published b b' → R b b'
  reported : ∀ b events routable providers, R b { b with
    outbox := events, routableGauge := routable, providerGauge := providers }

section Related

variable {R : Behaviour → Behaviour → Prop} [IsTrans Behaviour R] (background : Background R)

include background

theorem related_foldl_reportPruned (ps : List PeerId) {b b' : Behaviour} (start : R b b') :
    R b (ps.foldl Behaviour.reportPruned b') := by
  induction ps generalizing b' with
  | nil => exact start
  | cons p ps ih =>
    exact ih (trans_of R start (background.reported b' _ b'.routableGauge _))

theorem related_tick (m : Moment) (b : Behaviour) :
    R (b.applied codec (m, .tick)) (b.step ok codec (m, .tick)) := by
  obtain ⟨n, last, next, interval, done⟩ :=
    published_perform ok m.now { b with publishInterval := b.publishInterval.tick }
  simp only [Behaviour.step, Behaviour.tick, Behaviour.pruneMembership, done]
  exact related_foldl_reportPruned background _ (background.published _ _ ⟨_, _, _, _, rfl⟩)

theorem related_handleProviderRecord (now : Timestamp) (o : HashOrder SubnetID) (b : Behaviour)
    (r : ProviderRecord) :
    R { b with providerCache := (b.providerCache.addProvider o r).1 }
      (b.handleProviderRecord now o r) := by
  simp only [Behaviour.handleProviderRecord]
  split
  · split
    · refine trans_of R ?_ (background.published _ _ (published_publishForNewPeer now _))
      exact background.reported _ _ b.routableGauge _
    · exact background.reported _ _ b.routableGauge b.providerGauge
  · exact background.reported _ _ b.routableGauge b.providerGauge

theorem related_gossip (m : Moment) (b : Behaviour) (e : GossipsubEvent) :
    R (b.applied codec (m, .gossip e)) (b.step ok codec (m, .gossip e)) := by
  have done := gossiped codec m b e
  simp only [Behaviour.step, Behaviour.applied, Input.cacheOp]
  generalize b.handleGossipsubEvent codec m e = b' at done
  generalize Input.record codec b.membershipTopic (.gossip e) = carried at done
  cases done with
  | ignored => exact background.published b b (refl_of Published b)
  | newPeer => exact background.published _ _ (published_publishForNewPeer m.now b)
  | record r => exact related_handleProviderRecord background m.now m.walks.subnets b r
  | reported event => exact background.reported b _ b.routableGauge b.providerGauge

/-- Requests apart, a step is its cache operation, as far as `R` can tell. -/
theorem related_step (b : Behaviour) (m : Moment) {i : Input}
    (notRequest : ∀ r, i ≠ .request r) :
    R (b.applied codec (m, i)) (b.step ok codec (m, i)) := by
  cases i with
  | emit => exact background.reported b _ b.routableGauge b.providerGauge
  | tick => exact related_tick ok codec background m b
  | gossip e => exact related_gossip ok codec background m b e
  | request r => exact absurd rfl (notRequest r)
  | discovery e =>
    cases e with
    | removed p => exact background.reported _ _ b.routableGauge b.providerGauge
    | added p addrs =>
      refine trans_of R ?_ (background.published _ _ (published_publishForNewPeer m.now _))
      exact background.reported _ b.outbox _ b.providerGauge

end Related

theorem SameTables.background : Background SameTables where
  published := by
    rintro _ _ ⟨_, _, _, _, rfl⟩
    exact ⟨rfl, rfl, rfl, rfl, rfl⟩
  reported _ _ _ _ := ⟨rfl, rfl, rfl, rfl, rfl⟩

/-- A step does to the tables what its cache operation does. -/
theorem sameTables_step (b : Behaviour) (i : Moment × Input) :
    SameTables (b.applied codec i) (b.step ok codec i) := by
  obtain ⟨m, i⟩ := i
  by_cases request : ∃ r, i = .request r
  · obtain ⟨r, rfl⟩ := request
    exact within_action ok codec SameTables.ignores m.now r b
  · exact related_step ok codec SameTables.background b m (not_exists.mp request)

end Steps

end IpcAgent.Resolver.Membership
