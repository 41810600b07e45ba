import IpcAgent.Resolver.Discovery

/-!
# The event stream of discovery

The membership cache knows who is reachable only from the events of this behaviour. The
stream is determined by the Kademlia events taken in, in their order; from that follows when
it tracks the peers with a known address.
-/

namespace IpcAgent.Resolver.Discovery

/-- What can happen to the behaviour. -/
inductive Input
  | poll (ticked : Option PeerId) (ready : List KadAction)
  | identified (peer : PeerId) (info : Info)
  | lookup (peer : PeerId) (known : List Multiaddr)
  | swarm (event : FromSwarm)

/-- A run: the behaviour, the events handed out and the Kademlia events taken in. -/
structure Trace where
  behaviour : Behaviour
  emitted : List Event
  handled : List KademliaEvent

def Trace.step (t : Trace) : Input → Trace
  | .poll ticked ready =>
    let polled := t.behaviour.poll ticked ready
    ⟨polled.behaviour, t.emitted ++ polled.emitted.toList, t.handled ++ polled.handled⟩
  | .identified peer info => { t with behaviour := t.behaviour.addIdentified peer info }
  | .lookup peer known => { t with behaviour := t.behaviour.backgroundLookup known peer }
  | .swarm event => { t with behaviour := t.behaviour.onSwarmEvent event }

def Behaviour.run (b : Behaviour) (inputs : List Input) : Trace :=
  inputs.foldl Trace.step ⟨b, [], []⟩

/-- Every event so far, in the order the service sees them. -/
def Trace.stream (t : Trace) : List Event := t.emitted ++ t.behaviour.outbox

/-! ## What each step does to the stream -/

/-- The events one Kademlia event gives rise to. -/
def Behaviour.generated (b : Behaviour) : KademliaEvent → List Event
  | .pendingRoutablePeer peer address => [.added peer [address]]
  | .routingUpdated peer addresses (some old) =>
    if b.isStatic old then [.removed old, .added peer addresses] else [.added peer addresses]
  | .routingUpdated peer addresses none => [.added peer addresses]
  | _ => []

/-- Two behaviours with the same outbox and the same static addresses. -/
structure SameEvents (b b' : Behaviour) : Prop where
  outbox : b'.outbox = b.outbox
  static : b'.staticAddresses = b.staticAddresses

theorem SameEvents.refl (b : Behaviour) : SameEvents b b := ⟨rfl, rfl⟩

theorem SameEvents.trans {a b c : Behaviour} (h : SameEvents a b) (h' : SameEvents b c) :
    SameEvents a c :=
  ⟨h'.outbox.trans h.outbox, h'.static.trans h.static⟩

theorem sameEvents_addIdentified (b : Behaviour) (p : PeerId) (info : Info) :
    SameEvents b (b.addIdentified p info) := by
  unfold Behaviour.addIdentified
  split
  · split
    · split <;> exact ⟨rfl, rfl⟩
    · exact List.foldlRecOn _ _ (.refl b) fun _ same _ _ => same.trans ⟨rfl, rfl⟩
  · exact .refl b

theorem sameEvents_tick (b : Behaviour) (random : PeerId) : SameEvents b (b.tick random) := by
  unfold Behaviour.tick
  simp only
  split <;> exact ⟨rfl, rfl⟩

theorem sameEvents_backgroundLookup (b : Behaviour) (known : List Multiaddr) (p : PeerId) :
    SameEvents b (b.backgroundLookup known p) := by
  unfold Behaviour.backgroundLookup
  split <;> exact ⟨rfl, rfl⟩

theorem sameEvents_onSwarmEvent (b : Behaviour) (event : FromSwarm) :
    SameEvents b (b.onSwarmEvent event) := by
  unfold Behaviour.onSwarmEvent
  cases event with
  | connectionEstablished n => simp only; split <;> exact ⟨rfl, rfl⟩
  | connectionClosed n => simp only; split <;> exact ⟨rfl, rfl⟩
  | other => exact .refl b

/-- The event of the last step of a bootstrap query. -/
def KademliaEvent.endsBootstrap : KademliaEvent → Bool
  | .outboundQueryProgressed .bootstrap last => last
  | _ => false

theorem eq_of_endsBootstrap {e : KademliaEvent} (ends : e.endsBootstrap = true) :
    e = .outboundQueryProgressed .bootstrap true := by
  unfold KademliaEvent.endsBootstrap at ends
  split at ends
  · rw [ends]
  · cases ends

/-- All other events are reported and no more. -/
theorem handleKademliaEvent_of_other (b : Behaviour) {e : KademliaEvent}
    (other : e.endsBootstrap = false) :
    b.handleKademliaEvent e = { b with outbox := b.outbox ++ b.generated e } := by
  cases e with
  | outboundQueryProgressed result last =>
    cases result <;> cases last
    case bootstrap.true => cases other
    all_goals simp [Behaviour.handleKademliaEvent, Behaviour.generated]
  | routingUpdated peer addresses old =>
    cases old with
    | none => rfl
    | some old =>
      by_cases static : b.isStatic old = true <;>
        simp [Behaviour.handleKademliaEvent, Behaviour.generated, Behaviour.push, static]
  | pendingRoutablePeer peer address => rfl
  | _ => simp [Behaviour.handleKademliaEvent, Behaviour.generated]

theorem handleKademliaEvent_spec (b : Behaviour) (e : KademliaEvent) :
    (b.handleKademliaEvent e).outbox = b.outbox ++ b.generated e ∧
      (b.handleKademliaEvent e).staticAddresses = b.staticAddresses := by
  cases ends : e.endsBootstrap with
  | false =>
    rw [handleKademliaEvent_of_other b ends]
    exact ⟨rfl, rfl⟩
  | true =>
    obtain rfl := eq_of_endsBootstrap ends
    -- The buffered records only reach Kademlia.
    have same : SameEvents b
        (b.handleKademliaEvent (.outboundQueryProgressed .bootstrap true)) := by
      simp only [Behaviour.handleKademliaEvent]
      split
      · exact List.foldlRecOn _ _ ⟨rfl, rfl⟩
          fun b' same r _ => same.trans (sameEvents_addIdentified b' r.1 r.2)
      · exact .refl b
    exact ⟨by simpa [Behaviour.generated] using same.outbox, same.static⟩

theorem generated_congr {b b' : Behaviour} (h : b'.staticAddresses = b.staticAddresses) :
    b'.generated = b.generated := by
  funext e
  unfold Behaviour.generated Behaviour.isStatic
  rw [h]

theorem pollKademlia_spec (ready : List KadAction) (b : Behaviour) :
    (Behaviour.pollKademlia ready b).1.outbox =
        b.outbox ++ (Behaviour.pollKademlia ready b).2.flatMap b.generated ∧
      (Behaviour.pollKademlia ready b).1.staticAddresses = b.staticAddresses := by
  induction ready generalizing b with
  | nil => simp [Behaviour.pollKademlia]
  | cons action ready ih =>
    cases action with
    | other => simp [Behaviour.pollKademlia]
    | generateEvent e =>
      obtain ⟨out, static⟩ := handleKademliaEvent_spec b e
      obtain ⟨out', static'⟩ := ih (b.handleKademliaEvent e)
      rw [generated_congr static] at out'
      simp only [Behaviour.pollKademlia, List.flatMap_cons]
      exact ⟨by rw [out', out, List.append_assoc], static'.trans static⟩

/-- The stream is the outbox of the start and what the handled events generate. -/
structure Trace.Explained (start : Behaviour) (t : Trace) : Prop where
  stream : t.stream = start.outbox ++ t.handled.flatMap start.generated
  static : t.behaviour.staticAddresses = start.staticAddresses

theorem Trace.Explained.quiet {start : Behaviour} {t : Trace} (h : t.Explained start)
    {b : Behaviour} (same : SameEvents t.behaviour b) :
    Trace.Explained start { t with behaviour := b } where
  stream := by
    have := h.stream
    unfold Trace.stream at this ⊢
    rw [same.outbox]
    exact this
  static := same.static.trans h.static

theorem Trace.Explained.pollKademlia {start : Behaviour} {t : Trace} (h : t.Explained start)
    (empty : t.behaviour.outbox = []) {b : Behaviour} (same : SameEvents t.behaviour b)
    (ready : List KadAction) :
    Trace.Explained start ⟨(Behaviour.pollKademlia ready b).1, t.emitted,
      t.handled ++ (Behaviour.pollKademlia ready b).2⟩ := by
  obtain ⟨out, static⟩ := pollKademlia_spec ready b
  have unchanged : b.staticAddresses = start.staticAddresses := same.static.trans h.static
  refine ⟨?_, static.trans unchanged⟩
  have stream : t.emitted = start.outbox ++ t.handled.flatMap start.generated := by
    simpa [Trace.stream, empty] using h.stream
  simp only [Trace.stream, List.flatMap_append]
  rw [out, same.outbox, empty, generated_congr unchanged, List.nil_append, stream,
    List.append_assoc]

theorem Trace.Explained.step {start : Behaviour} {t : Trace} (h : t.Explained start) (i : Input) :
    (t.step i).Explained start := by
  cases i with
  | identified p info => exact h.quiet (sameEvents_addIdentified _ p info)
  | lookup p known => exact h.quiet (sameEvents_backgroundLookup _ known p)
  | swarm event => exact h.quiet (sameEvents_onSwarmEvent _ event)
  | poll ticked ready =>
    cases hout : t.behaviour.outbox with
    | cons e outbox =>
      -- The oldest event moves from the outbox to the service.
      have stream := h.stream
      simp only [Trace.step, Behaviour.poll, hout]
      refine ⟨?_, h.static⟩
      simpa [Trace.stream, hout] using stream
    | nil =>
      simp only [Trace.step, Behaviour.poll, hout, Option.toList_none, List.append_nil]
      cases ticked with
      | none => exact h.pollKademlia hout (.refl _) _
      | some random => exact h.pollKademlia hout (sameEvents_tick _ random) _

theorem explained_run (b : Behaviour) (inputs : List Input) : (b.run inputs).Explained b := by
  have start : Trace.Explained b ⟨b, [], []⟩ := ⟨by simp [Trace.stream], rfl⟩
  unfold Behaviour.run
  generalize (⟨b, [], []⟩ : Trace) = t at start
  induction inputs generalizing t with
  | nil => exact start
  | cons i inputs ih => exact ih _ (start.step i)

/-! ## How a node starts -/

/-- Three ways to start: with nobody to bootstrap from, with a bootstrap from the static
addresses, and without Kademlia. -/
inductive Starts (dc : Config) (b : Behaviour) : Prop
  | alone (kademlia : dc.enableKademlia = true) (static : b.staticAddresses = [])
    (inner : b.inner = some []) (buffer : b.bootstrapBuffer = none) (outbox : b.outbox = [])
  | bootstrapping (kademlia : dc.enableKademlia = true)
    (inner : b.inner =
      some (b.staticAddresses.map (fun e => .addAddress e.1 e.2) ++ [.bootstrap]))
    (buffer : b.bootstrapBuffer = some []) (outbox : b.outbox = [])
  | fixed (kademlia : dc.enableKademlia = false) (inner : b.inner = none)
    (buffer : b.bootstrapBuffer = none)
    (outbox : b.outbox = b.staticAddresses.map (fun e => .added e.1 [e.2]))

/-- A node that has just been built. -/
structure Built (fromMultihash : List UInt8 → Option PeerId) (dc : Config) (b : Behaviour) :
    Prop where
  starts : Starts dc b
  static : parseStatic fromMultihash dc.staticAddresses = .ok b.staticAddresses
  targetConnections : b.targetConnections = dc.targetConnections
  numConnections : b.numConnections = 0

theorem built_new {fromMultihash : List UInt8 → Option PeerId} {bootstraps : Bool}
    {nc : NetworkConfig} {dc : Config} {b : Behaviour}
    (ok : new fromMultihash bootstraps nc dc = .ok b) : Built fromMultihash dc b := by
  unfold new at ok
  simp only [bind, Except.bind, pure, Except.pure, throw, throwThe, MonadExceptOf.throw] at ok
  split at ok
  · cases ok
  · split at ok
    · cases ok
    · rename_i parsed static
      split at ok
      · rename_i kademlia
        split at ok
        · rename_i empty
          cases ok
          exact ⟨.alone kademlia (List.isEmpty_iff.mp empty) rfl rfl rfl, static, rfl, rfl⟩
        · split at ok
          · cases ok
            exact ⟨.bootstrapping kademlia rfl rfl rfl, static, rfl, rfl⟩
          · cases ok
      · rename_i disabled
        cases ok
        exact ⟨.fixed (Bool.eq_false_iff.mpr disabled) rfl rfl rfl, static, rfl, rfl⟩

/-! ## What stays as it is -/

/-- Two behaviours that differ no more than by what they have asked of Kademlia and what they
have yet to say or to add. -/
structure SameNode (b b' : Behaviour) : Prop where
  protocolName : b'.protocolName = b.protocolName
  targetConnections : b'.targetConnections = b.targetConnections
  numConnections : b'.numConnections = b.numConnections
  enabled : b'.inner.isSome = b.inner.isSome

theorem SameNode.refl (b : Behaviour) : SameNode b b := ⟨rfl, rfl, rfl, rfl⟩

theorem SameNode.trans {a b c : Behaviour} (h : SameNode a b) (h' : SameNode b c) :
    SameNode a c where
  protocolName := h'.protocolName.trans h.protocolName
  targetConnections := h'.targetConnections.trans h.targetConnections
  numConnections := h'.numConnections.trans h.numConnections
  enabled := h'.enabled.trans h.enabled

theorem sameNode_ask (b : Behaviour) (call : KadCall) : SameNode b (b.ask call) :=
  ⟨rfl, rfl, rfl, by simp [Behaviour.ask]⟩

theorem sameNode_addIdentified (b : Behaviour) (p : PeerId) (info : Info) :
    SameNode b (b.addIdentified p info) := by
  unfold Behaviour.addIdentified
  split
  · split
    · split <;> exact ⟨rfl, rfl, rfl, rfl⟩
    · exact List.foldlRecOn info.listenAddrs _ (.refl b)
        fun b' same addr _ => same.trans (sameNode_ask b' (.addAddress p addr))
  · exact .refl b

theorem sameNode_tick (b : Behaviour) (random : PeerId) : SameNode b (b.tick random) := by
  unfold Behaviour.tick
  simp only
  split
  · exact (sameNode_ask b (.getClosestPeers random)).trans ⟨rfl, rfl, rfl, rfl⟩
  · exact ⟨rfl, rfl, rfl, rfl⟩

theorem sameNode_backgroundLookup (b : Behaviour) (known : List Multiaddr) (p : PeerId) :
    SameNode b (b.backgroundLookup known p) := by
  unfold Behaviour.backgroundLookup
  split
  · exact sameNode_ask b (.getClosestPeers p)
  · exact .refl b

theorem sameNode_handleKademliaEvent (b : Behaviour) (e : KademliaEvent) :
    SameNode b (b.handleKademliaEvent e) := by
  cases ends : e.endsBootstrap with
  | false =>
    rw [handleKademliaEvent_of_other b ends]
    exact ⟨rfl, rfl, rfl, rfl⟩
  | true =>
    obtain rfl := eq_of_endsBootstrap ends
    simp only [Behaviour.handleKademliaEvent]
    split
    · exact List.foldlRecOn _ _ ⟨rfl, rfl, rfl, rfl⟩
        fun b' same r _ => same.trans (sameNode_addIdentified b' r.1 r.2)
    · exact .refl b

theorem sameNode_pollKademlia (ready : List KadAction) (b : Behaviour) :
    SameNode b (Behaviour.pollKademlia ready b).1 := by
  fun_induction Behaviour.pollKademlia ready b with
  | case1 e ready b polled ih => exact (sameNode_handleKademliaEvent b e).trans ih
  | case2 => exact .refl _

theorem sameNode_poll (b : Behaviour) (ticked : Option PeerId) (ready : List KadAction) :
    SameNode b (b.poll ticked ready).behaviour := by
  unfold Behaviour.poll
  split
  · exact ⟨rfl, rfl, rfl, rfl⟩
  · cases ticked with
    | none => exact sameNode_pollKademlia _ b
    | some random => exact (sameNode_tick b random).trans (sameNode_pollKademlia _ _)

theorem onSwarmEvent_eq (b : Behaviour) (event : FromSwarm) :
    ∃ n, b.onSwarmEvent event = { b with numConnections := n } := by
  unfold Behaviour.onSwarmEvent
  split
  · split
    · exact ⟨_, rfl⟩
    · exact ⟨_, rfl⟩
  · split
    · exact ⟨_, rfl⟩
    · exact ⟨_, rfl⟩
  · exact ⟨_, rfl⟩

/-! ## When the stream tracks the reachable peers -/

/-- The peer a Kademlia event reports as evicted. -/
def KademliaEvent.evicted : KademliaEvent → Option PeerId
  | .routingUpdated _ _ old => old
  | _ => none

/-- A static peer is never reported as removed, and an evicted peer that is not static is
reported as removed before the peer that replaced it is reported as added. -/
def Trace.TracksAddresses (t : Trace) : Prop :=
  (∀ p, t.behaviour.isStatic p = true → .removed p ∉ t.stream) ∧
  ∀ peer addresses old, .routingUpdated peer addresses (some old) ∈ t.handled →
    t.behaviour.isStatic old = false →
    ∃ before between after,
      t.stream = before ++ .removed old :: between ++ .added peer addresses :: after

/-- Only evicted static peers are reported as removed. -/
theorem mem_generated_removed (b : Behaviour) (e : KademliaEvent) (p : PeerId) :
    .removed p ∈ b.generated e ↔ e.evicted = some p ∧ b.isStatic p = true := by
  cases e with
  | routingUpdated peer addrs old =>
    cases old with
    | none => simp [Behaviour.generated, KademliaEvent.evicted]
    | some old =>
      by_cases static : b.isStatic old = true
      · simp only [Behaviour.generated, static, if_true, KademliaEvent.evicted]
        constructor
        · intro h
          obtain rfl : p = old := by simpa using h
          exact ⟨rfl, static⟩
        · rintro ⟨h, -⟩
          simp [Option.some.inj h]
      · simp only [Behaviour.generated, static, KademliaEvent.evicted]
        constructor
        · intro h
          simp at h
        · rintro ⟨h, hp⟩
          rw [Option.some.inj h] at static
          exact absurd hp static
  | outboundQueryProgressed result last =>
    cases result <;> cases last <;> simp [Behaviour.generated, KademliaEvent.evicted]
  | _ => simp [Behaviour.generated, KademliaEvent.evicted]

theorem new_outbox {fromMultihash : List UInt8 → Option PeerId} {bootstraps : Bool}
    {nc : NetworkConfig} {dc : Config} {b : Behaviour}
    (h : new fromMultihash bootstraps nc dc = .ok b) (p : PeerId) : .removed p ∉ b.outbox := by
  cases (built_new h).starts with
  | alone _ _ _ _ outbox => simp [outbox]
  | bootstrapping _ _ _ outbox => simp [outbox]
  | fixed _ _ _ outbox => simp [outbox]

theorem removed_mem_stream {b : Behaviour} (start : ∀ p, .removed p ∉ b.outbox)
    (inputs : List Input) (p : PeerId) :
    .removed p ∈ (b.run inputs).stream ↔
      (∃ e ∈ (b.run inputs).handled, e.evicted = some p) ∧ b.isStatic p = true := by
  rw [(explained_run b inputs).stream, List.mem_append, List.mem_flatMap]
  simp only [start p, false_or, mem_generated_removed]
  grind

theorem isStatic_run (b : Behaviour) (inputs : List Input) (p : PeerId) :
    (b.run inputs).behaviour.isStatic p = b.isStatic p := by
  unfold Behaviour.isStatic
  rw [(explained_run b inputs).static]

/-- The test in front of `Event::Removed` is the wrong way round: an evicted peer is reported
exactly if it is static. So the stream tracks the addresses as long as Kademlia evicts no one,
and from the first eviction on it does not. -/
theorem tracksAddresses_iff_no_eviction (fromMultihash : List UInt8 → Option PeerId)
    (bootstraps : Bool) (nc : NetworkConfig) (dc : Config) (b : Behaviour)
    (built : new fromMultihash bootstraps nc dc = .ok b) (inputs : List Input) :
    (b.run inputs).TracksAddresses ↔ ∀ e ∈ (b.run inputs).handled, e.evicted = none := by
  have removed := removed_mem_stream (new_outbox built) inputs
  constructor
  · rintro ⟨never, reported⟩ e handled
    cases evicted : e.evicted with
    | none => rfl
    | some old =>
      exfalso
      cases static : b.isStatic old with
      | true =>
        exact never old ((isStatic_run b inputs old).trans static)
          ((removed old).mpr ⟨⟨e, handled, evicted⟩, static⟩)
      | false =>
        cases e with
        | routingUpdated peer addresses old' =>
          obtain rfl : old' = some old := evicted
          obtain ⟨before, between, after, stream⟩ :=
            reported peer addresses old handled ((isStatic_run b inputs old).trans static)
          have mem : .removed old ∈ (b.run inputs).stream := by
            rw [stream]
            simp
          exact absurd ((removed old).mp mem).2 (by simp [static])
        | _ => cases evicted
  · intro none_evicted
    constructor
    · intro p _ mem
      obtain ⟨⟨e, handled, evicted⟩, -⟩ := (removed p).mp mem
      exact absurd (none_evicted e handled) (by simp [evicted])
    · intro peer addresses old handled _
      exact absurd (none_evicted _ handled) (by simp [KademliaEvent.evicted])

theorem tracksAddresses_bootstrap :
    ∃ b, new (fun mh => some ⟨mh⟩) true ⟨⟨[0]⟩, "net"⟩
        ⟨[[.ip4 167772161, .tcp 4001, .p2p [1]]], 10, true⟩ = .ok b ∧
      (b.run [.poll none [.generateEvent
        (.routingUpdated ⟨[1]⟩ [[.ip4 167772161, .tcp 4001]] none)]]).TracksAddresses := by
  refine ⟨_, rfl, (tracksAddresses_iff_no_eviction (fun mh => some ⟨mh⟩) true ⟨⟨[0]⟩, "net"⟩
    ⟨[[.ip4 167772161, .tcp 4001, .p2p [1]]], 10, true⟩ _ rfl _).mpr ?_⟩
  simp [Behaviour.run, Trace.step, Behaviour.poll, Behaviour.pollKademlia,
    KademliaEvent.evicted]

/-- A static peer loses its place in the routing table and is reported as removed; a peer that
is not static loses its place and is not. -/
theorem evictions_misreported :
    ∃ b, new (fun mh => some ⟨mh⟩) true ⟨⟨[0]⟩, "net"⟩
        ⟨[[.ip4 167772161, .tcp 4001, .p2p [1]]], 10, true⟩ = .ok b ∧
      ¬ (b.run [.poll none [.generateEvent
        (.routingUpdated ⟨[2]⟩ [[.tcp 1]] (some ⟨[1]⟩))]]).TracksAddresses ∧
      ¬ (b.run [.poll none [.generateEvent
        (.routingUpdated ⟨[3]⟩ [[.tcp 1]] (some ⟨[2]⟩))]]).TracksAddresses := by
  refine ⟨_, rfl, fun tracks => ?_, fun tracks => ?_⟩
  · exact tracks.1 ⟨[1]⟩ (by decide) (by decide)
  · obtain ⟨before, between, after, stream⟩ :=
      tracks.2 ⟨[3]⟩ [[.tcp 1]] ⟨[2]⟩ (by simp [Behaviour.run, Trace.step, Behaviour.poll,
        Behaviour.pollKademlia]) (by decide)
    have mem : Event.removed ⟨[2]⟩ ∈ before ++ .removed ⟨[2]⟩ :: between ++
        .added ⟨[3]⟩ [[.tcp 1]] :: after := by simp
    rw [← stream] at mem
    exact absurd mem (by decide)

end IpcAgent.Resolver.Discovery
