import IpcAgent.Resolver.MembershipRun
import Mathlib.Data.List.Lex

/-!
# The resolver service

`ipld/resolver/src/service.rs`. The service drives the behaviours, passes what one of them
reports on to the others, and keeps track of the running resolutions. Bitswap stays outside:
the identifier it gives a query is an argument of the step that starts the query.
-/

namespace IpcAgent

/-- The peers by their bytes: one of the orders a shuffle can leave them in. -/
def Library.SetOrder.byBytes : Library.SetOrder PeerId :=
  .sortedBy (fun p => p.bytes.map UInt8.toNat) (by
    rintro ⟨a⟩ ⟨b⟩ h
    exact congrArg PeerId.mk (List.map_injective_iff.mpr (fun x y h => UInt8.toNat_inj.mp h) h))

namespace Resolver
open Library

/-- `libp2p_bitswap::QueryId`. -/
structure QueryId where
  id : Nat
deriving DecidableEq

/-- The sending end of the channel a client waits on. -/
structure ResponseChannel where
  id : Nat
deriving DecidableEq

inductive ResolveError
  | noKnownPeers (subnet : SubnetID)
  /-- What Bitswap reports. -/
  | failed (message : String)
deriving DecidableEq

abbrev ResolveResult := Except ResolveError Unit

/-- State of a query. The fallback peers can be used if the current attempt fails. -/
structure Query where
  cid : Cid
  subnetId : SubnetID
  fallbackPeerIds : List PeerId
  responseChannel : ResponseChannel
deriving DecidableEq

/-- A query handed to Bitswap. -/
structure Sync where
  id : QueryId
  cid : Cid
  peers : List PeerId
deriving DecidableEq

/-- The events pushed to the clients. -/
inductive ServiceEvent
  | receivedVote (vote : VoteRecord)
  | receivedPreemptive (subnet : SubnetID) (data : List UInt8)

structure Service where
  discovery : Discovery.Behaviour
  membership : Membership.Behaviour
  /-- The queries handed to Bitswap so far. -/
  syncs : List Sync
  queries : HashMap QueryId Query
  /-- The peers inserted into the Bloom filter. -/
  backgroundLookupFilter : Finset PeerId
  maxPeersPerQuery : Nat
  /-- What was sent on the response channels so far. -/
  responses : List (ResponseChannel × ResolveResult)
  /-- What was broadcast so far. -/
  events : List ServiceEvent

namespace Service

def new (discovery : Discovery.Behaviour) (membership : Membership.Behaviour)
    (maxPeersPerQuery : Nat) : Service where
  discovery := discovery
  membership := membership
  syncs := []
  queries := ∅
  backgroundLookupFilter := ∅
  maxPeersPerQuery := maxPeersPerQuery
  responses := []
  events := []

/-! ## Events of the behaviours -/

def handleDiscoveryEvent (now : Timestamp) (s : Service) (e : Discovery.Event) : Service :=
  { s with membership := s.membership.handleDiscoveryEvent now e }

/-- `isNew` is the answer of the Bloom filter, `known` what Kademlia knows of the peer. -/
def handleMembershipEvent (isNew : Finset PeerId → PeerId → Bool) (known : List Multiaddr)
    (s : Service) : Membership.Event → Service
  | .skipped peer =>
    let filter := insert peer s.backgroundLookupFilter
    if isNew s.backgroundLookupFilter peer then
      { s with
        backgroundLookupFilter := filter
        discovery := s.discovery.backgroundLookup known peer }
    else { s with backgroundLookupFilter := filter }
  | .updated _ _ => s
  | .removed _ => s
  | .receivedVote vote => { s with events := s.events ++ [.receivedVote vote] }
  | .receivedPreemptive subnet data =>
    { s with events := s.events ++ [.receivedPreemptive subnet data] }

/-! ## Resolution -/

def sendResolveResult (s : Service) (channel : ResponseChannel) (result : ResolveResult) :
    Service :=
  { s with responses := s.responses ++ [(channel, result)] }

/-- `content::Behaviour::resolve`, which Bitswap answers with the given identifier. -/
def resolve (s : Service) (id : QueryId) (cid : Cid) (peers : List PeerId) : Service :=
  { s with syncs := s.syncs ++ [⟨id, cid, peers⟩] }

/-- The peers to query now, and those to fall back on. -/
def splitPeersForQuery (s : Service) (peers : List PeerId) : List PeerId × List PeerId :=
  let size := min s.maxPeersPerQuery peers.length
  (peers.take size, peers.drop size)

/-- Hand the first batch of peers to Bitswap and remember the query. -/
def attempt (s : Service) (id : QueryId) (query : Query) (peers : List PeerId) : Service :=
  let (peers, fallback) := s.splitPeersForQuery peers
  let s := s.resolve id query.cid peers
  { s with queries := s.queries.insert id { query with fallbackPeerIds := fallback } }

/-- Start a resolution. `shuffle` is the order the providers are left in, and `isConnected`
says to which of them there is a connection. -/
def startQuery (s : Service) (shuffle : SetOrder PeerId) (isConnected : PeerId → Bool)
    (id : QueryId) (cid : Cid) (subnet : SubnetID) (channel : ResponseChannel) : Service :=
  let peers := shuffle.arrange (s.membership.providersOfSubnet subnet)
  if peers.isEmpty then s.sendResolveResult channel (.error (.noKnownPeers subnet))
  else
    let (connected, known) := peers.partition isConnected
    s.attempt id ⟨cid, subnet, [], channel⟩ (connected ++ known)

/-- What to do with a query whose attempt has ended. -/
def resolveQuery (s : Service) (id : QueryId) (query : Query) (result : Except String Unit) :
    Service :=
  match result with
  | .ok () => s.sendResolveResult query.responseChannel (.ok ())
  | .error e =>
    if query.fallbackPeerIds.isEmpty then
      s.sendResolveResult query.responseChannel (.error (.failed e))
    else s.attempt id query query.fallbackPeerIds

/-- Bitswap has ended a query; `next` identifies the query of a further attempt. -/
def handleComplete (s : Service) (ended next : QueryId) (result : Except String Unit) : Service :=
  match s.queries.lookup ended with
  | some query => { s with queries := s.queries.erase ended }.resolveQuery next query result
  | none => s

/-! ## Steps -/

/-- What can happen to the service. -/
inductive Input
  | pollDiscovery (ticked : Option PeerId) (ready : List Discovery.KadAction)
  | pollMembership (ready : List (Membership.Moment × Membership.GossipsubAction))
      (known : List Multiaddr)
  | identified (peer : PeerId) (info : Discovery.Info)
  | complete (ended next : QueryId) (result : Except String Unit)
  | resolve (shuffle : SetOrder PeerId) (isConnected : PeerId → Bool) (id : QueryId) (cid : Cid)
      (subnet : SubnetID) (channel : ResponseChannel)
  | request (r : Membership.Request)

/-- The libraries around the service. -/
structure Env where
  ok : Membership.Oracle
  codec : Membership.Codec
  isNew : Finset PeerId → PeerId → Bool

def step (env : Env) (s : Service) : Membership.Moment × Input → Service
  | (m, .pollDiscovery ticked ready) =>
    let polled := s.discovery.poll ticked ready
    let s := { s with discovery := polled.behaviour }
    match polled.emitted with
    | some e => s.handleDiscoveryEvent m.now e
    | none => s
  | (m, .pollMembership ready known) =>
    let polled := s.membership.poll env.ok env.codec m ready
    let s := { s with membership := polled.1 }
    match polled.2 with
    | some e => s.handleMembershipEvent env.isNew known e
    | none => s
  | (_, .identified peer info) => { s with discovery := s.discovery.addIdentified peer info }
  | (_, .complete ended next result) => s.handleComplete ended next result
  | (_, .resolve shuffle isConnected id cid subnet channel) =>
    s.startQuery shuffle isConnected id cid subnet channel
  | (m, .request r) =>
    { s with membership := s.membership.perform (r.action env.ok env.codec m.now) }

end Service

end Resolver

end IpcAgent
