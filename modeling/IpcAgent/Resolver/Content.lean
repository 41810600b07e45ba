import IpcAgent.Library.Gcra
import IpcAgent.Library.HashMap
import IpcAgent.Types
import Mathlib.Data.Rat.Floor

/-!
# Serving content

`ipld/resolver/src/behaviour/content.rs` and `limiter.rs`, and the tasks of `service.rs` that
pass the responses on. Bitswap stays outside: it may answer any request it was given, at any
time. Times are in seconds; entries of the rate limiter do not expire.
-/

namespace IpcAgent.Resolver
open Library

/-! ## The rate limiter -/

structure RateLimiter (κ : Type) where
  cache : HashMap κ (GcraState ℚ)

namespace RateLimiter

variable {κ : Type} [DecidableEq κ]

/-- The bucket of a key, an unused one if the key is new. -/
def bucket (r : RateLimiter κ) (key : κ) : GcraState ℚ := (r.cache.lookup key).getD ⟨none⟩

/-- Try to add a certain amount of resources consumed to a key. -/
def addAt (r : RateLimiter κ) (limit : RateLimit ℚ) (key : κ) (cost : Nat) (now : ℚ) :
    RateLimiter κ × Bool :=
  let checked := (r.bucket key).checkAndModifyAt limit now cost
  (⟨r.cache.insert key checked.1⟩, checked.2)

@[simp] theorem bucket_addAt_self (r : RateLimiter κ) (limit : RateLimit ℚ) (key : κ)
    (cost : Nat) (now : ℚ) : (r.addAt limit key cost now).1.bucket key =
      ((r.bucket key).checkAndModifyAt limit now cost).1 := by
  simp [addAt, bucket]

theorem bucket_addAt_of_ne (r : RateLimiter κ) (limit : RateLimit ℚ) {key key' : κ}
    (ne : key' ≠ key) (cost : Nat) (now : ℚ) :
    (r.addAt limit key cost now).1.bucket key' = r.bucket key' := by
  simp [addAt, bucket, AList.lookup_insert_ne ne]

end RateLimiter

namespace Content

/-- `usize::try_into::<u32>().unwrap_or(u32::MAX)`. -/
def toU32 (n : Nat) : Nat := min n 0xffffffff

structure Config where
  rateLimitBytes : Nat
  rateLimitPeriod : ℚ

/-- A limit of 0 bytes, or over a period of 0, is no limit. -/
def rateLimitOf (bytes : Nat) (period : ℚ) : Option (RateLimit ℚ) :=
  if h : 0 < bytes ∧ 0 < period then some ⟨bytes, period, Nat.cast_pos.mpr h.1, h.2⟩ else none

structure Behaviour where
  /-- Where peers connected from, so that the limit applies to the address. -/
  peerAddresses : HashMap PeerId Multiaddr
  rateLimiter : RateLimiter Multiaddr
  rateLimitPeriod : ℚ
  rateLimit : Option (RateLimit ℚ)
  /-- The peers of the `BitswapForward` events to be handed out. -/
  outbox : List PeerId

/-- What the swarm says about connections. -/
inductive ConnectedPoint
  | dialer (address : Multiaddr)
  | listener (sendBackAddr : Multiaddr)
deriving DecidableEq

inductive FromSwarm
  | connectionEstablished (peer : PeerId) (endpoint : ConnectedPoint) (otherEstablished : Nat)
  | connectionClosed (peer : PeerId) (remainingEstablished : Nat)
  | other
deriving DecidableEq

/-- The loop over the components of an address, the last one first. -/
def selectLoop : List Protocol → List Protocol → List Protocol
  | [], keep => keep
  | .ip4 a :: _, _ => [.ip4 a]
  | .ip6 a :: _, _ => [.ip6 a]
  | .p2p _ :: rest, keep => selectLoop rest keep
  | .tcp _ :: rest, keep => selectLoop rest keep
  | .udp _ :: rest, keep => selectLoop rest keep
  | .other s :: rest, keep => selectLoop rest (keep ++ [.other s])

/-- The parts of an address that stay the same if the peer opens another connection. -/
def selectNonEphemeral (addr : Multiaddr) : Multiaddr := (selectLoop addr.reverse []).reverse

example : selectNonEphemeral [.ip4 0x5fd9c261, .tcp 8008, .p2p [1]] = [.ip4 0x5fd9c261] := rfl
example : selectNonEphemeral [.other "udt", .other "memory/10", .p2p [1]] =
    [.other "udt", .other "memory/10"] := rfl

/-- The addresses after an event: that of the first connection is kept until the last one is
closed. -/
def FromSwarm.addresses (e : FromSwarm) (known : HashMap PeerId Multiaddr) :
    HashMap PeerId Multiaddr :=
  match e with
  | .connectionEstablished peer endpoint otherEstablished =>
    if otherEstablished = 0 then
      let addr := match endpoint with
        | .dialer address => address
        | .listener sendBackAddr => selectNonEphemeral sendBackAddr
      known.insert peer addr
    else known
  | .connectionClosed peer remainingEstablished =>
    if remainingEstablished = 0 then known.erase peer else known
  | .other => known

namespace Behaviour

def new (config : Config) : Behaviour where
  peerAddresses := ∅
  rateLimiter := ⟨∅⟩
  rateLimitPeriod := config.rateLimitPeriod
  rateLimit := rateLimitOf config.rateLimitBytes config.rateLimitPeriod
  outbox := []

/-- What both checks do: add the bytes to the address the peer connected from, if there is a
limit and the address is known. -/
def charge (now : ℚ) (b : Behaviour) (peer : PeerId) (bytes : Nat) : Behaviour × Bool :=
  match b.rateLimit with
  | none => (b, true)
  | some limit =>
    match b.peerAddresses.lookup peer with
    | none => (b, true)
    | some addr =>
      let added := b.rateLimiter.addAt limit addr (toU32 bytes) now
      ({ b with rateLimiter := added.1 }, added.2)

/-- Whether the peer has not yet exhausted its rate limit; the identifier counts. -/
def checkRateLimit (now : ℚ) (b : Behaviour) (peer : PeerId) (cid : Cid) : Behaviour × Bool :=
  b.charge now peer cid.bytes.length

/-- Whether there was room for the bytes is ignored: they are served already. -/
def rateLimitUsed (now : ℚ) (b : Behaviour) (peer : PeerId) (bytes : Nat) : Behaviour :=
  (b.charge now peer bytes).1

/-- Update the rate limit to a new value, keeping the period as it is. -/
def updateRateLimit (b : Behaviour) (bytes : Nat) : Behaviour :=
  { b with rateLimit := rateLimitOf bytes b.rateLimitPeriod }

def onSwarmEvent (b : Behaviour) (e : FromSwarm) : Behaviour :=
  { b with peerAddresses := e.addresses b.peerAddresses }

end Behaviour

/-! ## Requests and responses -/

inductive BitswapResponse
  | have_ (yes : Bool)
  | block (data : List UInt8)
deriving DecidableEq

/-- A request that Bitswap has been given; `counted` if the response comes to a task of the
service, which reports its size. -/
structure Pending where
  peer : PeerId
  counted : Bool
deriving DecidableEq

/-- The behaviour within the service. -/
structure Node where
  content : Behaviour
  pending : List Pending
  /-- The `RateLimitUsed` requests in the channel of the service. -/
  reports : List (PeerId × Nat)
  /-- The sizes of the blocks sent so far, and to whom. -/
  served : List (PeerId × Nat)

inductive Input
  | swarm (e : FromSwarm)
  /-- `RequestResponseHandlerEvent::Request`. -/
  | request (peer : PeerId) (cid : Cid)
  /-- The service takes a `BitswapForward` event and spawns a task. -/
  | forward
  /-- Bitswap answers one of its requests, or drops it. -/
  | answer (k : Nat) (response : Option BitswapResponse)
  /-- The service takes a `RateLimitUsed` request. -/
  | used
  | updateRateLimit (bytes : Nat)
deriving DecidableEq

namespace Node

def new (config : Config) : Node := ⟨.new config, [], [], []⟩

/-- `on_connection_handler_event` for a request. -/
def onRequest (now : ℚ) (n : Node) (peer : PeerId) (cid : Cid) : Node :=
  match n.content.rateLimit with
  | none => { n with pending := n.pending ++ [⟨peer, false⟩] }
  | some _ =>
    let checked := n.content.checkRateLimit now peer cid
    if checked.2 then
      -- The response channel is replaced by one whose other end is in the event.
      { n with content := { checked.1 with outbox := checked.1.outbox ++ [peer] } }
    else { n with content := checked.1 }

/-- `Service::handle_content_event` for the oldest `BitswapForward`. -/
def forward (n : Node) : Node :=
  match n.content.outbox with
  | [] => n
  | peer :: outbox =>
    { n with
      content := { n.content with outbox := outbox }
      pending := n.pending ++ [⟨peer, true⟩] }

/-- A response is reported, if it is a block and counted, and passed on. -/
def respond (n : Node) (p : Pending) : BitswapResponse → Node
  | .have_ _ => n
  | .block data =>
    { n with
      reports := if p.counted then n.reports ++ [(p.peer, data.length)] else n.reports
      served := n.served ++ [(p.peer, data.length)] }

def answer (n : Node) (k : Nat) (response : Option BitswapResponse) : Node :=
  match n.pending[k]? with
  | none => n
  | some p =>
    let n := { n with pending := n.pending.eraseIdx k }
    match response with
    | none => n
    | some response => n.respond p response

/-- `Service::handle_request` for the oldest `RateLimitUsed`. -/
def used (now : ℚ) (n : Node) : Node :=
  match n.reports with
  | [] => n
  | (peer, bytes) :: reports =>
    { n with content := n.content.rateLimitUsed now peer bytes, reports := reports }

def step (n : Node) : ℚ × Input → Node
  | (_, .swarm e) => { n with content := n.content.onSwarmEvent e }
  | (now, .request peer cid) => n.onRequest now peer cid
  | (_, .forward) => n.forward
  | (_, .answer k response) => n.answer k response
  | (now, .used) => n.used now
  | (_, .updateRateLimit bytes) => { n with content := n.content.updateRateLimit bytes }

def run (n : Node) (inputs : List (ℚ × Input)) : Node := inputs.foldl step n

end Node

end Content

end IpcAgent.Resolver
