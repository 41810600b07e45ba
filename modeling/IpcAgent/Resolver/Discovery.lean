import IpcAgent.Types
import Mathlib.Data.List.Basic

/-!
# Peer discovery

`ipld/resolver/src/behaviour/discovery.rs`. The behaviour turns what Kademlia reports into
events for the service. Kademlia itself stays outside: `KadAction` is what its `poll`
returns, in whatever order it likes, and `KadCall` what the behaviour asks of it.
-/

namespace IpcAgent.Resolver

/-- The settings every behaviour of the node shares. -/
structure NetworkConfig where
  localPeerId : PeerId
  networkName : String

namespace Discovery

inductive Event
  | added (peer : PeerId) (addresses : List Multiaddr)
  | removed (peer : PeerId)
deriving DecidableEq

structure Config where
  staticAddresses : List Multiaddr
  targetConnections : Nat
  enableKademlia : Bool

inductive ConfigError
  | invalidNetwork (name : String)
  | invalidBootstrapAddress (addr : Multiaddr)
  | noBootstrapAddress
  /-- `PeerId::from_multihash(mh).unwrap()` on a multihash that is no peer id. -/
  | panic

/-- The part of an `Identify` record the behaviour reads. -/
structure Info where
  protocols : List String
  listenAddrs : List Multiaddr
deriving DecidableEq

/-- What the behaviour asks of Kademlia. -/
inductive KadCall
  | addAddress (peer : PeerId) (addr : Multiaddr)
  | getClosestPeers (peer : PeerId)
  | bootstrap
deriving DecidableEq

inductive QueryResult
  | bootstrap
  | other

inductive KademliaEvent
  | unroutablePeer (peer : PeerId)
  | inboundRequest
  | outboundQueryProgressed (result : QueryResult) (last : Bool)
  | routablePeer (peer : PeerId) (address : Multiaddr)
  | pendingRoutablePeer (peer : PeerId) (address : Multiaddr)
  | routingUpdated (peer : PeerId) (addresses : List Multiaddr) (oldPeer : Option PeerId)

/-- What one call of Kademlia's `poll` returns, unless it is pending. -/
inductive KadAction
  | generateEvent (e : KademliaEvent)
  | other

/-- What the swarm tells the behaviour of its connections. -/
inductive FromSwarm
  | connectionEstablished (otherEstablished : Nat)
  | connectionClosed (remainingEstablished : Nat)
  | other

structure Behaviour where
  peerId : PeerId
  staticAddresses : List (PeerId × Multiaddr)
  protocolName : String
  /-- The calls made to Kademlia so far, `none` if it is disabled. -/
  inner : Option (List KadCall)
  numConnections : Nat
  targetConnections : Nat
  /-- Seconds between random lookups. -/
  lookupPeriod : Nat
  bootstrapBuffer : Option (List (PeerId × Info))
  outbox : List Event

/-! ## Construction -/

/-- Split each static address into the peer it ends with and the rest. -/
def parseStatic (fromMultihash : List UInt8 → Option PeerId) :
    List Multiaddr → Except ConfigError (List (PeerId × Multiaddr))
  | [] => .ok []
  | multiaddr :: rest =>
    match multiaddr.getLast? with
    | some (.p2p mh) =>
      match fromMultihash mh with
      | some peer => do
        let parsed ← parseStatic fromMultihash rest
        return (peer, multiaddr.dropLast) :: parsed
      | none => .error .panic
    | _ => .error (.invalidBootstrapAddress multiaddr)

/-- `bootstraps` is whether Kademlia's `bootstrap` finds an address to start from. -/
def new (fromMultihash : List UInt8 → Option PeerId) (bootstraps : Bool) (nc : NetworkConfig)
    (dc : Config) : Except ConfigError Behaviour := do
  if nc.networkName.isEmpty then throw (.invalidNetwork nc.networkName)
  let staticAddresses ← parseStatic fromMultihash dc.staticAddresses
  let behaviour : Behaviour :=
    { peerId := nc.localPeerId
      staticAddresses := staticAddresses
      protocolName := "/ipc/" ++ nc.networkName ++ "/kad/1.0.0"
      inner := none
      numConnections := 0
      targetConnections := dc.targetConnections
      lookupPeriod := 1
      bootstrapBuffer := none
      outbox := [] }
  if dc.enableKademlia then
    if staticAddresses.isEmpty then return { behaviour with inner := some [] }
    else if bootstraps then
      let calls := staticAddresses.map (fun e => KadCall.addAddress e.1 e.2)
      return { behaviour with
        inner := some (calls ++ [.bootstrap])
        bootstrapBuffer := some [] }
    else throw .noBootstrapAddress
  else
    -- Make sure static peers are reported as routable.
    return { behaviour with outbox := staticAddresses.map (fun e => .added e.1 [e.2]) }

namespace Behaviour

/-- Make a call to Kademlia, if it is enabled. -/
def ask (b : Behaviour) (call : KadCall) : Behaviour :=
  { b with inner := b.inner.map (· ++ [call]) }

def isStatic (b : Behaviour) (p : PeerId) : Bool := b.staticAddresses.any (fun e => e.1 == p)

/-- `inner` is what Kademlia knows of the peer. -/
def addressesOfPeer (b : Behaviour) (inner : List Multiaddr) (p : PeerId) : List Multiaddr :=
  (b.staticAddresses.filter (fun e => e.1 == p)).map Prod.snd ++ inner

def backgroundLookup (b : Behaviour) (inner : List Multiaddr) (p : PeerId) : Behaviour :=
  if (b.addressesOfPeer inner p).isEmpty then b.ask (.getClosestPeers p) else b

def addAddress (b : Behaviour) (p : PeerId) (addr : Multiaddr) : Behaviour :=
  b.ask (.addAddress p addr)

def addIdentified (b : Behaviour) (p : PeerId) (info : Info) : Behaviour :=
  if info.protocols.contains b.protocolName then
    match b.bootstrapBuffer with
    | some buffer =>
      if buffer.length < b.targetConnections ∧ !buffer.any (fun e => e.1 == p) then
        { b with bootstrapBuffer := some (buffer ++ [(p, info)]) }
      else b
    | none => info.listenAddrs.foldl (fun b addr => b.addAddress p addr) b
  else b

/-- The swarm closes only what it has established, so the count does not fall below zero. -/
def onSwarmEvent (b : Behaviour) : FromSwarm → Behaviour
  | .connectionEstablished otherEstablished =>
    if otherEstablished = 0 then { b with numConnections := b.numConnections + 1 } else b
  | .connectionClosed remainingEstablished =>
    if remainingEstablished = 0 then { b with numConnections := b.numConnections - 1 } else b
  | .other => b

/-! ## Polling -/

def push (b : Behaviour) (e : Event) : Behaviour := { b with outbox := b.outbox ++ [e] }

/-- The arms of the `match` on a Kademlia event. -/
def handleKademliaEvent (b : Behaviour) : KademliaEvent → Behaviour
  | .unroutablePeer _ => b
  | .inboundRequest => b
  | .outboundQueryProgressed .bootstrap true =>
    match b.bootstrapBuffer with
    | some buffer =>
      buffer.foldl (fun b e => b.addIdentified e.1 e.2) { b with bootstrapBuffer := none }
    | none => b
  | .outboundQueryProgressed _ _ => b
  | .routablePeer _ _ => b
  | .pendingRoutablePeer peer address => b.push (.added peer [address])
  | .routingUpdated peer addresses oldPeer =>
    let b := match oldPeer with
      | some old => if b.isStatic old then b.push (.removed old) else b
      | none => b
    b.push (.added peer addresses)

/-- The loop over what Kademlia returns, up to the first action that is no event. The
second component lists the events that were handled. -/
def pollKademlia : List KadAction → Behaviour → Behaviour × List KademliaEvent
  | .generateEvent e :: ready, b =>
    let polled := pollKademlia ready (b.handleKademliaEvent e)
    (polled.1, e :: polled.2)
  | _, b => (b, [])

/-- The lookup interval has ticked and a random peer was drawn. -/
def tick (b : Behaviour) (random : PeerId) : Behaviour :=
  let b := if b.numConnections < b.targetConnections then b.ask (.getClosestPeers random) else b
  { b with lookupPeriod := min (b.lookupPeriod * 2) 60 }

end Behaviour

/-- The outcome of one `poll`: the event that is handed out, if any, and the Kademlia
events it took in. -/
structure Polled where
  behaviour : Behaviour
  emitted : Option Event
  handled : List KademliaEvent

/-- `ticked` carries the random peer if the lookup interval is due, `ready` is what
Kademlia returns until it is pending. -/
def Behaviour.poll (b : Behaviour) (ticked : Option PeerId) (ready : List KadAction) : Polled :=
  match b.outbox with
  | e :: outbox => ⟨{ b with outbox := outbox }, some e, []⟩
  | [] =>
    let b := match ticked with
      | some random => b.tick random
      | none => b
    -- A disabled Kademlia is always pending.
    let polled := Behaviour.pollKademlia (if b.inner.isSome then ready else []) b
    ⟨polled.1, none, polled.2⟩

end Discovery

end IpcAgent.Resolver
