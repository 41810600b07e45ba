import IpcAgent.Resolver.CacheRun
import IpcAgent.Resolver.Discovery

/-!
# Subnet membership

`ipld/resolver/src/behaviour/membership.rs`. The behaviour gossips the subnets of the node
and keeps the provider cache up to date with what discovery and the gossip of other nodes
report. Gossipsub and the signing of records stay outside: any of their calls may fail, as
an oracle over the calls made so far decides. Clock readings are arguments; the wall clock
and the publish timer advance together, in whole seconds.
-/

namespace IpcAgent.Resolver
open Library

namespace Timestamp

/-- `Timestamp + Duration`, which saturates. -/
def add (t : Timestamp) (seconds : Nat) : Timestamp := min (t + seconds) 0xffffffffffffffff

/-- `Timestamp - Duration`. -/
def sub (t : Timestamp) (seconds : Nat) : Timestamp := t - seconds

end Timestamp

structure VoteRecord where
  publicKey : PublicKey
  subnetId : SubnetID
  cid : Cid
  claim : String
  timestamp : Timestamp
deriving DecidableEq

namespace Membership

inductive Event
  | updated (peer : PeerId) (delta : ProviderDelta)
  | removed (peer : PeerId)
  | skipped (peer : PeerId)
  | receivedVote (vote : VoteRecord)
  | receivedPreemptive (subnet : SubnetID) (data : List UInt8)
deriving DecidableEq

structure Config where
  staticSubnets : List SubnetID
  maxSubnets : Nat
  publishInterval : Nat
  minTimeBetweenPublish : Nat
  maxProviderAge : Nat

structure TopicHash where
  text : String
deriving DecidableEq

/-- The hash of a `Sha256Topic`, and the decoding of signed records. -/
structure Codec where
  sha256 : String → String
  providerRecord : List UInt8 → Option ProviderRecord
  voteRecord : List UInt8 → Option VoteRecord

/-- A signed vote: the record, and the protobuf encoding of its envelope. -/
structure SignedVote where
  record : VoteRecord
  encoding : List UInt8
deriving DecidableEq

/-- What is published: the encoding of the envelope around a record that the node has signed there
and then, or bytes that it was given. -/
inductive Data
  | own (record : ProviderRecord)
  | bytes (data : List UInt8)
deriving DecidableEq

/-- The calls to other crates that may fail. -/
inductive Call
  | sign
  | subscribe (topic : TopicHash)
  | unsubscribe (topic : TopicHash)
  | publish (topic : TopicHash) (data : Data)
deriving DecidableEq

/-- Whether the n-th call succeeds. -/
abbrev Oracle := Nat → Call → Bool

/-- What Gossipsub is subscribed to; `calls` counts the calls made so far. -/
structure Gossipsub where
  subscribed : Finset TopicHash
  calls : Nat

def Gossipsub.after (g : Gossipsub) : Call → Gossipsub
  | .subscribe topic => { g with subscribed := insert topic g.subscribed }
  | .unsubscribe topic => { g with subscribed := g.subscribed.erase topic }
  | .publish _ _ | .sign => g

/-- A timer by its period and the time of its next tick. -/
structure Interval where
  period : Nat
  deadline : Nat

def Interval.reset (i : Interval) (now : Nat) : Interval := { i with deadline := now + i.period }

/-- A late tick does not shift the ones after it. -/
def Interval.tick (i : Interval) : Interval := { i with deadline := i.deadline + i.period }

structure Behaviour where
  inner : Gossipsub
  outbox : List Event
  localPeerId : PeerId
  networkName : String
  membershipTopic : TopicHash
  subnetIds : List SubnetID
  votingTopics : Finset TopicHash
  preemptiveTopics : HashMap TopicHash SubnetID
  providerCache : SubnetProviderCache
  publishInterval : Interval
  minTimeBetweenPublish : Nat
  lastPublishTimestamp : Timestamp
  nextPublishTimestamp : Timestamp
  maxProviderAge : Nat
  /-- `stats::MEMBERSHIP_ROUTABLE_PEERS`. -/
  routableGauge : Int
  /-- `stats::MEMBERSHIP_PROVIDER_PEERS`. -/
  providerGauge : Int

/-- Code that may stop early; what it did to the behaviour until then stays. -/
abbrev Action := ExceptT Call (StateM Behaviour)

def pubsubMembership : String := "/ipc/membership"
def pubsubVotes : String := "/ipc/ipld/votes"
def pubsubPreemptive : String := "/ipc/ipld/pre-emptive"

/-- `str::replace('/', "_")`. -/
def flatten (s : String) : String := s.map (fun c => if c = '/' then '_' else c)

/-- The hash of an `IdentTopic` is its text. -/
def membershipTopicOf (networkName : String) : TopicHash :=
  ⟨pubsubMembership ++ "/" ++ networkName⟩

namespace Behaviour

def preemptiveTopic (b : Behaviour) (id : SubnetID) : String :=
  pubsubPreemptive ++ "/" ++ flatten b.networkName ++ "/" ++ flatten id.text

def votingTopic (b : Behaviour) (id : SubnetID) : String :=
  pubsubVotes ++ "/" ++ flatten b.networkName ++ "/" ++ flatten id.text

def push (b : Behaviour) (e : Event) : Behaviour := { b with outbox := b.outbox ++ [e] }

def providersOfSubnet (b : Behaviour) (id : SubnetID) : Finset PeerId :=
  b.providerCache.providersOfSubnet id

/-! ## New peers -/

/-- Publish soon after a new peer was seen, unless that has just happened or is due anyway. -/
def publishForNewPeer (now : Timestamp) (b : Behaviour) : Behaviour :=
  if b.subnetIds.isEmpty then b
  else if b.lastPublishTimestamp > now.sub b.minTimeBetweenPublish then b
  else if b.nextPublishTimestamp ≤ now.add b.minTimeBetweenPublish then b
  else
    { b with
      nextPublishTimestamp := now.add b.minTimeBetweenPublish
      publishInterval :=
        { b.publishInterval with deadline := now + b.minTimeBetweenPublish } }

def setRoutable (now : Timestamp) (b : Behaviour) (p : PeerId) : Behaviour :=
  let cache := b.providerCache.setRoutable p
  publishForNewPeer now { b with providerCache := cache, routableGauge := cache.numRoutable }

def setUnroutable (b : Behaviour) (p : PeerId) : Behaviour :=
  push { b with providerCache := b.providerCache.setUnroutable p } (.removed p)

/-! ## Incoming gossip -/

/-- The event for what the cache answers to a record. -/
def recordEvent (r : ProviderRecord) : Option ProviderDelta → Option Event
  | none => some (.skipped r.peerId)
  | some d => if d.isEmpty && !d.isNew then none else some (.updated r.peerId d)

def handleProviderRecord (now : Timestamp) (o : HashOrder SubnetID) (b : Behaviour)
    (r : ProviderRecord) : Behaviour :=
  let answer := b.providerCache.addProvider o r
  let b := { b with
    providerCache := answer.1
    outbox := b.outbox ++ (recordEvent r answer.2).toList }
  match answer.2 with
  | some d =>
    if d.isNew then publishForNewPeer now { b with providerGauge := b.providerGauge + 1 } else b
  | none => b

def handleMessage (codec : Codec) (now : Timestamp) (o : HashOrder SubnetID) (b : Behaviour)
    (topic : TopicHash) (data : List UInt8) : Behaviour :=
  if topic = b.membershipTopic then
    match codec.providerRecord data with
    | some r => b.handleProviderRecord now o r
    | none => b
  else if topic ∈ b.votingTopics then
    match codec.voteRecord data with
    | some v => b.push (.receivedVote v)
    | none => b
  else
    match b.preemptiveTopics.lookup topic with
    | some id => b.push (.receivedPreemptive id data)
    | none => b

def handleSubscriber (now : Timestamp) (b : Behaviour) (topic : TopicHash) : Behaviour :=
  if topic = b.membershipTopic then b.publishForNewPeer now else b

/-! ## Expiry -/

/-- One round of the loop over the pruned peers. -/
def reportPruned (b : Behaviour) (p : PeerId) : Behaviour :=
  push { b with providerGauge := b.providerGauge - 1 } (.removed p)

/-- Forget the peers without an update for `maxProviderAge`. -/
def pruneMembership (now : Timestamp) (o : HashOrder PeerId) (b : Behaviour) : Behaviour :=
  let pruned := b.providerCache.pruneProviders o (now.sub b.maxProviderAge)
  pruned.2.foldl reportPruned { b with providerCache := pruned.1 }

/-! ## Subscriptions -/

section Requests

variable (ok : Oracle) (codec : Codec)

def call (c : Call) : Action Unit := do
  let n := (← get).inner.calls
  modify (fun b => { b with inner := { b.inner with calls := n + 1 } })
  if ok n c then
    modify (fun b => { b with inner := b.inner.after c })
  else throw c

def preemptiveSubscribe (id : SubnetID) : Action Unit := do
  let topic : TopicHash := ⟨codec.sha256 ((← get).preemptiveTopic id)⟩
  call ok (.subscribe topic)
  modify (fun b => { b with preemptiveTopics := b.preemptiveTopics.insert topic id })

def preemptiveUnsubscribe (id : SubnetID) : Action Unit := do
  let topic : TopicHash := ⟨codec.sha256 ((← get).preemptiveTopic id)⟩
  call ok (.unsubscribe topic)
  modify (fun b => { b with preemptiveTopics := b.preemptiveTopics.erase topic })

def votingSubscribe (id : SubnetID) : Action Unit := do
  let topic : TopicHash := ⟨codec.sha256 ((← get).votingTopic id)⟩
  call ok (.subscribe topic)
  modify (fun b => { b with votingTopics := insert topic b.votingTopics })

def votingUnsubscribe (id : SubnetID) : Action Unit := do
  let topic : TopicHash := ⟨codec.sha256 ((← get).votingTopic id)⟩
  call ok (.unsubscribe topic)
  modify (fun b => { b with votingTopics := b.votingTopics.erase topic })

/-- Gossip the signed list of provided subnets. -/
def publishMembership (now : Timestamp) : Action Unit := do
  call ok .sign
  let b ← get
  call ok (.publish b.membershipTopic (.own ⟨b.localPeerId, b.subnetIds, now⟩))
  modify (fun b => { b with
    lastPublishTimestamp := now
    nextPublishTimestamp := now.add b.publishInterval.period
    publishInterval := b.publishInterval.reset now })

def setProvidedSubnets (now : Timestamp) (ids : List SubnetID) : Action Unit := do
  let old := (← get).subnetIds
  modify (fun b => { b with subnetIds := [] })
  old.forM (fun id => if id ∈ ids then pure () else votingUnsubscribe ok codec id)
  ids.forM (fun id => if id ∈ old then pure () else votingSubscribe ok codec id)
  modify (fun b => { b with subnetIds := ids })
  publishMembership ok now

def addProvidedSubnet (now : Timestamp) (id : SubnetID) : Action Unit := do
  if id ∈ (← get).subnetIds then pure ()
  else
    votingSubscribe ok codec id
    modify (fun b => { b with subnetIds := b.subnetIds ++ [id] })
    publishMembership ok now

def removeProvidedSubnet (now : Timestamp) (id : SubnetID) : Action Unit := do
  if id ∈ (← get).subnetIds then
    votingUnsubscribe ok codec id
    modify (fun b => { b with subnetIds := b.subnetIds.filter (· ≠ id) })
    publishMembership ok now
  else pure ()

def pinSubnet (id : SubnetID) : Action Unit := do
  preemptiveSubscribe ok codec id
  modify (fun b => { b with providerCache := b.providerCache.pinSubnet id })

def unpinSubnet (id : SubnetID) : Action Unit := do
  preemptiveUnsubscribe ok codec id
  modify (fun b => { b with providerCache := b.providerCache.unpinSubnet id })

def publishVote (vote : SignedVote) : Action Unit := do
  let topic : TopicHash := ⟨codec.sha256 ((← get).votingTopic vote.record.subnetId)⟩
  call ok (.publish topic (.bytes vote.encoding))

def publishPreemptive (id : SubnetID) (data : List UInt8) : Action Unit := do
  let topic : TopicHash := ⟨codec.sha256 ((← get).preemptiveTopic id)⟩
  call ok (.publish topic (.bytes data))

/-- An error of the action is logged and otherwise ignored. -/
def perform (b : Behaviour) (action : Action Unit) : Behaviour := (action.run.run b).2

end Requests

end Behaviour

/-- The requests of a client that the service passes on to this behaviour. -/
inductive Request
  | setProvidedSubnets (ids : List SubnetID)
  | addProvidedSubnet (id : SubnetID)
  | removeProvidedSubnet (id : SubnetID)
  | publishVote (vote : SignedVote)
  | publishPreemptive (id : SubnetID) (data : List UInt8)
  | pinSubnet (id : SubnetID)
  | unpinSubnet (id : SubnetID)

def Request.action (ok : Oracle) (codec : Codec) (now : Timestamp) : Request → Action Unit
  | setProvidedSubnets ids => Behaviour.setProvidedSubnets ok codec now ids
  | addProvidedSubnet id => Behaviour.addProvidedSubnet ok codec now id
  | removeProvidedSubnet id => Behaviour.removeProvidedSubnet ok codec now id
  | publishVote vote => Behaviour.publishVote ok codec vote
  | publishPreemptive id data => Behaviour.publishPreemptive ok codec id data
  | pinSubnet id => Behaviour.pinSubnet ok codec id
  | unpinSubnet id => Behaviour.unpinSubnet ok codec id

/-! ## Polling -/

inductive GossipsubEvent
  | subscribed (peer : PeerId) (topic : TopicHash)
  | unsubscribed
  | gossipsubNotSupported (peer : PeerId)
  | message (topic : TopicHash) (data : List UInt8)

/-- What one call of Gossipsub's `poll` returns, unless it is pending. -/
inductive GossipsubAction
  | generateEvent (e : GossipsubEvent)
  | other

/-- A reading of the clock, and the orders of the walks made at that time. -/
structure Moment where
  now : Timestamp
  walks : Walks

namespace Behaviour

def handleGossipsubEvent (codec : Codec) (m : Moment) (b : Behaviour) :
    GossipsubEvent → Behaviour
  | .subscribed _ topic => b.handleSubscriber m.now topic
  | .unsubscribed => b
  | .gossipsubNotSupported _ => b
  | .message topic data => b.handleMessage codec m.now m.walks.subnets topic data

/-- Republish our record and prune the old ones of others. -/
def tick (ok : Oracle) (m : Moment) (b : Behaviour) : Behaviour :=
  let b := { b with publishInterval := b.publishInterval.tick }
  (b.perform (publishMembership ok m.now)).pruneMembership m.now m.walks.peers

/-- The loop over what Gossipsub returns, up to the first action that is no event. -/
def pollGossipsub (codec : Codec) : List (Moment × GossipsubAction) → Behaviour → Behaviour
  | (m, .generateEvent e) :: ready, b =>
    pollGossipsub codec ready (b.handleGossipsubEvent codec m e)
  | _, b => b

def poll (ok : Oracle) (codec : Codec) (m : Moment) (ready : List (Moment × GossipsubAction))
    (b : Behaviour) : Behaviour × Option Event :=
  match b.outbox with
  | e :: outbox => ({ b with outbox := outbox }, some e)
  | [] =>
    let b := if b.publishInterval.deadline ≤ m.now then b.tick ok m else b
    (pollGossipsub codec ready b, none)

end Behaviour

/-! ## Construction -/

inductive ConfigError
  | invalidNetwork (name : String)
  | subscription

/-- The behaviour before it has subscribed to anything. -/
def initial (now : Timestamp) (nc : NetworkConfig) (mc : Config) : Behaviour where
  inner := ⟨∅, 0⟩
  outbox := []
  localPeerId := nc.localPeerId
  networkName := nc.networkName
  membershipTopic := membershipTopicOf nc.networkName
  subnetIds := []
  votingTopics := ∅
  preemptiveTopics := ∅
  -- The static subnets are pinned below, which subscribes to them as well.
  providerCache := .new mc.maxSubnets []
  publishInterval := ⟨mc.publishInterval, now + mc.publishInterval⟩
  minTimeBetweenPublish := mc.minTimeBetweenPublish
  lastPublishTimestamp := 0
  nextPublishTimestamp := now.add mc.publishInterval
  maxProviderAge := mc.maxProviderAge
  routableGauge := 0
  providerGauge := 0

def setup (ok : Oracle) (codec : Codec) (mc : Config) : Action Unit := do
  Behaviour.call ok (.subscribe (← get).membershipTopic)
  mc.staticSubnets.forM (Behaviour.pinSubnet ok codec)

def new (ok : Oracle) (codec : Codec) (now : Timestamp) (nc : NetworkConfig) (mc : Config) :
    Except ConfigError Behaviour :=
  if nc.networkName.isEmpty then .error (.invalidNetwork nc.networkName)
  else
    match (setup ok codec mc).run.run (initial now nc mc) with
    | (.ok (), b) => .ok b
    | (.error _, _) => .error .subscription

end Membership

end IpcAgent.Resolver
