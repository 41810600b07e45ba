import IpcAgent.Library.Owners
import IpcAgent.Resolver.DiscoveryEvents
import IpcAgent.Resolver.ServingLimit

/-!
# Connections

`ipld/resolver/src/behaviour/mod.rs` bundles the behaviours of a node; the swarm tells all of
them of the connections it opens and closes. Discovery counts the peers it is connected to and
content remembers where they connected from. Both look at the first connection of a peer and at
its last one only.
-/

namespace IpcAgent.Resolver
open Library

namespace Bundle

/-- A connection, by the peer at its other end and its number. -/
structure Connection where
  peer : PeerId
  id : Nat
deriving DecidableEq

/-- What the swarm tells of connections, with the number of the other ones of the peer. -/
inductive FromSwarm
  | connectionEstablished (c : Connection) (endpoint : Content.ConnectedPoint)
      (otherEstablished : Nat)
  | connectionClosed (c : Connection) (remainingEstablished : Nat)
  | other
deriving DecidableEq

/-- What discovery reads of an event. -/
def FromSwarm.discovery : FromSwarm → Discovery.FromSwarm
  | .connectionEstablished _ _ others => .connectionEstablished others
  | .connectionClosed _ remaining => .connectionClosed remaining
  | .other => .other

/-- What content reads of an event. -/
def FromSwarm.content : FromSwarm → Content.FromSwarm
  | .connectionEstablished c endpoint others => .connectionEstablished c.peer endpoint others
  | .connectionClosed c remaining => .connectionClosed c.peer remaining
  | .other => .other

end Bundle

/-- The behaviours that keep track of connections. -/
structure Bundle where
  discovery : Discovery.Trace
  content : Content.Node

namespace Bundle

/-- What can happen to the bundle. -/
inductive Input
  | swarm (e : FromSwarm)
  | discovery (i : Discovery.Input)
  | content (now : ℚ) (i : Content.Input)

def step (n : Bundle) : Input → Bundle
  | .swarm e =>
    { discovery :=
        { n.discovery with behaviour := n.discovery.behaviour.onSwarmEvent e.discovery }
      content := { n.content with content := n.content.content.onSwarmEvent e.content } }
  | .discovery i => { n with discovery := n.discovery.step i }
  | .content now i => { n with content := n.content.step (now, i) }

def run (n : Bundle) (inputs : List Input) : Bundle := inputs.foldl step n

def numConnections (n : Bundle) : Nat := n.discovery.behaviour.numConnections

def peerAddresses (n : Bundle) : HashMap PeerId Multiaddr := n.content.content.peerAddresses

/-! ## The connections of the swarm -/

def openAfter (l : List Connection) : Input → List Connection
  | .swarm (.connectionEstablished c _ _) => c :: l
  | .swarm (.connectionClosed c _) => l.erase c
  | _ => l

/-- What the swarm says is true of its open connections, and it says so to all behaviours. -/
def Consistent (l : List Connection) : Input → Prop
  | .swarm (.connectionEstablished c _ others) => others = holdings Connection.peer l c.peer
  | .swarm (.connectionClosed c remaining) =>
    c ∈ l ∧ remaining = holdings Connection.peer (l.erase c) c.peer
  | .discovery (.swarm _) => False
  | .content _ (.swarm _) => False
  | _ => True

/-- The peers with an open connection. -/
def connected (inputs : List Input) : Finset PeerId :=
  owners Connection.peer (inputs.foldl openAfter [])

/-- The subtraction of `num_connections -= 1` stays above zero. -/
def NoUnderflow (n : Bundle) : Input → Prop
  | .swarm (.connectionClosed _ 0) => 0 < n.numConnections
  | _ => True

/-- The first connection of a peer since it last had none. -/
def OpenedFirst (inputs : List Input) (p : PeerId) (endpoint : Content.ConnectedPoint) : Prop :=
  ∃ before c others after,
    inputs = before ++ .swarm (.connectionEstablished c endpoint others) :: after ∧ c.peer = p ∧
    p ∉ connected before ∧ ∀ later, later <+: after →
      p ∈ connected (before ++ .swarm (.connectionEstablished c endpoint others) :: later)

end Bundle

/-! ## What the behaviours do -/

namespace Content

/-- The address that a connection is remembered by. -/
def ConnectedPoint.peerAddr : ConnectedPoint → Multiaddr
  | .dialer address => address
  | .listener sendBackAddr => selectNonEphemeral sendBackAddr

@[simp] theorem Behaviour.peerAddresses_charge (now : ℚ) (b : Behaviour) (peer : PeerId)
    (bytes : Nat) : (b.charge now peer bytes).1.peerAddresses = b.peerAddresses := by
  rw [charge_frame]

theorem Node.peerAddresses_step (n : Node) (now : ℚ) {i : Input} (other : ∀ e, i ≠ .swarm e) :
    (n.step (now, i)).content.peerAddresses = n.content.peerAddresses := by
  cases i with
  | swarm e => exact absurd rfl (other e)
  | request peer cid =>
    change (n.onRequest now peer cid).content.peerAddresses = _
    unfold onRequest
    cases n.content.rateLimit with
    | none => rfl
    | some limit =>
      dsimp only
      split <;> exact Behaviour.peerAddresses_charge now n.content peer _
  | forward =>
    simp only [step, forward]
    split <;> rfl
  | answer k response =>
    simp only [step, answer]
    split
    · rfl
    · cases response with
      | none => rfl
      | some response => cases response <;> rfl
  | used =>
    simp only [step, used]
    split
    · rfl
    · exact Behaviour.peerAddresses_charge now n.content _ _
  | updateRateLimit bytes => rfl

end Content

namespace Discovery

theorem numConnections_step (t : Trace) {i : Input} (other : ∀ e, i ≠ .swarm e) :
    (t.step i).behaviour.numConnections = t.behaviour.numConnections := by
  cases i with
  | poll ticked ready => exact (sameNode_poll t.behaviour ticked ready).numConnections
  | identified p info => exact (sameNode_addIdentified t.behaviour p info).numConnections
  | lookup p known => exact (sameNode_backgroundLookup t.behaviour known p).numConnections
  | swarm e => exact absurd rfl (other e)

end Discovery

namespace Bundle

variable {n : Bundle} {l l' : List Connection} {i : Input} {p : PeerId} {count count' : Nat}
  {addresses addresses' : HashMap PeerId Multiaddr}

/-- What a step does to the open connections and to the books. -/
inductive Books (l : List Connection) (count : Nat) (addresses : HashMap PeerId Multiaddr) :
    List Connection → Nat → HashMap PeerId Multiaddr → Prop
  | same : Books l count addresses l count addresses
  | first (c : Connection) (endpoint : Content.ConnectedPoint)
      (none : holdings Connection.peer l c.peer = 0) :
    Books l count addresses (c :: l) (count + 1) (addresses.insert c.peer endpoint.peerAddr)
  | further (c : Connection) (some : holdings Connection.peer l c.peer ≠ 0) :
    Books l count addresses (c :: l) count addresses
  | last (c : Connection) (mem : c ∈ l)
      (none : holdings Connection.peer (l.erase c) c.peer = 0) :
    Books l count addresses (l.erase c) (count - 1) (addresses.erase c.peer)
  | remaining (c : Connection) (mem : c ∈ l)
      (some : holdings Connection.peer (l.erase c) c.peer ≠ 0) :
    Books l count addresses (l.erase c) count addresses

theorem established_first (n : Bundle) (c : Connection) (endpoint : Content.ConnectedPoint) :
    (n.step (.swarm (.connectionEstablished c endpoint 0))).numConnections =
        n.numConnections + 1 ∧
      (n.step (.swarm (.connectionEstablished c endpoint 0))).peerAddresses =
        n.peerAddresses.insert c.peer endpoint.peerAddr := by
  cases endpoint <;> exact ⟨rfl, rfl⟩

theorem established_further (n : Bundle) (c : Connection) (endpoint : Content.ConnectedPoint)
    {others : Nat} (further : others ≠ 0) :
    n.step (.swarm (.connectionEstablished c endpoint others)) = n := by
  simp [step, FromSwarm.discovery, FromSwarm.content, Discovery.Behaviour.onSwarmEvent,
    Content.Behaviour.onSwarmEvent, Content.FromSwarm.addresses, further]

theorem closed_remaining (n : Bundle) (c : Connection) {remaining : Nat} (more : remaining ≠ 0) :
    n.step (.swarm (.connectionClosed c remaining)) = n := by
  simp [step, FromSwarm.discovery, FromSwarm.content, Discovery.Behaviour.onSwarmEvent,
    Content.Behaviour.onSwarmEvent, Content.FromSwarm.addresses, more]

theorem books_swarm (n : Bundle) {e : FromSwarm} (consistent : Consistent l (.swarm e)) :
    Books l n.numConnections n.peerAddresses (openAfter l (.swarm e))
      (n.step (.swarm e)).numConnections (n.step (.swarm e)).peerAddresses := by
  cases e with
  | connectionEstablished c endpoint others =>
    obtain rfl : others = _ := consistent
    by_cases none : holdings Connection.peer l c.peer = 0
    · rw [none, (established_first n c endpoint).1, (established_first n c endpoint).2]
      exact .first c endpoint none
    · rw [established_further n c endpoint none]
      exact .further c none
  | connectionClosed c remaining =>
    obtain ⟨mem, rfl⟩ := consistent
    by_cases none : holdings Connection.peer (l.erase c) c.peer = 0
    · rw [none]
      exact .last c mem none
    · rw [closed_remaining n c none]
      exact .remaining c mem none
  | other => exact .same

theorem books_step (n : Bundle) (consistent : Consistent l i) :
    Books l n.numConnections n.peerAddresses (openAfter l i) (n.step i).numConnections
      (n.step i).peerAddresses := by
  cases i with
  | swarm e => exact books_swarm n consistent
  | discovery i =>
    have other : ∀ e, i ≠ .swarm e := by
      rintro e rfl
      exact consistent
    have count : (n.step (.discovery i)).numConnections = n.numConnections :=
      Discovery.numConnections_step n.discovery other
    rw [count]
    exact .same
  | content now i =>
    have other : ∀ e, i ≠ .swarm e := by
      rintro e rfl
      exact consistent
    have addresses : (n.step (.content now i)).peerAddresses = n.peerAddresses :=
      Content.Node.peerAddresses_step n.content now other
    rw [addresses]
    exact .same

/-! ## Runs -/

/-- Both behaviours know the peers with an open connection. -/
structure Booked (l : List Connection) (count : Nat) (addresses : HashMap PeerId Multiaddr) :
    Prop where
  count : count = (owners Connection.peer l).card
  known : ∀ p, p ∈ addresses ↔ p ∈ owners Connection.peer l

theorem Booked.step (booked : Booked l count addresses)
    (books : Books l count addresses l' count' addresses') : Booked l' count' addresses' := by
  obtain ⟨count_eq, known⟩ := booked
  cases books with
  | same => exact ⟨count_eq, known⟩
  | first c endpoint none =>
    refine ⟨?_, fun p => ?_⟩
    · rw [owners_cons, Finset.card_insert_of_notMem (notMem_owners none), count_eq]
    · rw [AList.mem_insert, owners_cons, Finset.mem_insert, known]
  | further c some =>
    rw [← owners_cons_of_further some] at count_eq known
    exact ⟨count_eq, known⟩
  | last c mem none =>
    refine ⟨?_, fun p => ?_⟩
    · rw [owners_erase_of_last mem none, Finset.card_erase_of_mem (mem_owners_of_mem mem), count_eq]
    · rw [AList.mem_erase, owners_erase_of_last mem none, Finset.mem_erase, known]
  | remaining c mem some =>
    rw [← owners_erase_of_remaining mem some] at count_eq known
    exact ⟨count_eq, known⟩

/-- A peer that stays connected keeps its address. -/
theorem Books.lookup_eq (books : Books l count addresses l' count' addresses')
    (before : p ∈ owners Connection.peer l) (after : p ∈ owners Connection.peer l') :
    addresses'.lookup p = addresses.lookup p := by
  cases books with
  | first c endpoint none =>
    refine AList.lookup_insert_ne ?_
    rintro rfl
    exact notMem_owners none before
  | last c mem none =>
    refine AList.lookup_erase_ne ?_
    rintro rfl
    exact notMem_owners none after
  | same => rfl
  | further c some => rfl
  | remaining c mem some => rfl

theorem Booked.noUnderflow (booked : Booked l n.numConnections n.peerAddresses)
    (consistent : Consistent l i) : n.NoUnderflow i := by
  unfold NoUnderflow
  split
  · rw [booked.count, Finset.card_pos]
    exact ⟨_, mem_owners_of_mem consistent.1⟩
  · trivial

theorem booked_run {inputs : List Input} (consistent : Along openAfter Consistent l inputs)
    (start : Booked l n.numConnections n.peerAddresses) :
    Booked (inputs.foldl openAfter l) (n.run inputs).numConnections (n.run inputs).peerAddresses ∧
      Along Bundle.step NoUnderflow n inputs := by
  induction inputs generalizing l n with
  | nil => exact ⟨start, trivial⟩
  | cons i inputs ih =>
    obtain ⟨booked, rest⟩ := ih consistent.2 (start.step (books_step n consistent.1))
    exact ⟨booked, start.noUnderflow consistent.1, rest⟩

/-! ## The first connection -/

section

variable {inputs : List Input} {endpoint : Content.ConnectedPoint}

theorem connected_snoc (inputs : List Input) (i : Input) : connected (inputs ++ [i]) =
    owners Connection.peer (openAfter (inputs.foldl openAfter []) i) := by
  rw [connected, List.foldl_append]
  rfl

/-- A peer becomes connected by a connection that is opened. -/
theorem established_of_new (before : p ∉ owners Connection.peer l)
    (after : p ∈ owners Connection.peer (openAfter l i)) :
    ∃ c endpoint others, i = .swarm (.connectionEstablished c endpoint others) ∧ c.peer = p := by
  unfold openAfter at after
  split at after
  · rename_i c endpoint others
    rw [owners_cons, Finset.mem_insert] at after
    exact ⟨c, endpoint, others, rfl, (after.resolve_right before).symm⟩
  · exact absurd (owners_erase_subset after) before
  · exact absurd after before

/-- Every connected peer has a first connection. -/
theorem exists_openedFirst (inputs : List Input) (mem : p ∈ connected inputs) :
    ∃ endpoint, OpenedFirst inputs p endpoint := by
  induction inputs using List.reverseRecOn with
  | nil => simp [connected, owners] at mem
  | append_singleton inputs i ih =>
    by_cases before : p ∈ connected inputs
    · obtain ⟨endpoint, earlier, c, others, after, rfl, peer, none, stays⟩ := ih before
      refine ⟨endpoint, earlier, c, others, after ++ [i], by simp, peer, none, ?_⟩
      intro later pre
      rcases List.prefix_concat_iff.mp pre with rfl | pre
      · simpa using mem
      · exact stays later pre
    · rw [connected_snoc] at mem
      obtain ⟨c, endpoint, others, rfl, peer⟩ := established_of_new before mem
      refine ⟨endpoint, inputs, c, others, [], rfl, peer, before, ?_⟩
      intro later pre
      rw [List.prefix_nil.mp pre, connected_snoc]
      exact mem

theorem lookup_run_of_connected (consistent : Along openAfter Consistent l inputs)
    (stays : ∀ later, later <+: inputs → p ∈ owners Connection.peer (later.foldl openAfter l)) :
    (n.run inputs).peerAddresses.lookup p = n.peerAddresses.lookup p := by
  induction inputs generalizing l n with
  | nil => rfl
  | cons i inputs ih =>
    have rest := ih (n := n.step i) consistent.2 fun later pre =>
      stays (i :: later) (List.cons_prefix_cons.mpr ⟨rfl, pre⟩)
    have here := (books_step n consistent.1).lookup_eq (stays [] List.nil_prefix)
      (stays [i] (List.cons_prefix_cons.mpr ⟨rfl, List.nil_prefix⟩))
    exact rest.trans here

theorem lookup_of_openedFirst (consistent : Along openAfter Consistent [] inputs)
    (opened : OpenedFirst inputs p endpoint) :
    (n.run inputs).peerAddresses.lookup p = some endpoint.peerAddr := by
  obtain ⟨before, c, others, after, rfl, rfl, none, stays⟩ := opened
  obtain ⟨-, established, consistent⟩ := along_append.mp consistent
  -- It is the only connection of the peer, so it is the one that counts.
  have first : others = 0 := by
    rw [connected, mem_owners] at none
    obtain rfl : others = _ := established
    omega
  subst first
  have kept := lookup_run_of_connected (p := c.peer)
    (n := (n.run before).step (.swarm (.connectionEstablished c endpoint 0))) consistent
    fun later pre => by simpa [connected] using stays later pre
  rw [(established_first (n.run before) c endpoint).2, AList.lookup_insert] at kept
  rw [run, List.foldl_append]
  exact kept

end

theorem booked_start {fromMultihash : List UInt8 → Option PeerId} {bootstraps : Bool}
    {nc : NetworkConfig} {dc : Discovery.Config} {d : Discovery.Behaviour}
    (built : Discovery.new fromMultihash bootstraps nc dc = .ok d) (config : Content.Config) :
    let start : Bundle := ⟨⟨d, [], []⟩, .new config⟩
    Booked [] start.numConnections start.peerAddresses := by
  intro start
  refine ⟨(Discovery.built_new built).numConnections, fun p => ?_⟩
  simp [start, peerAddresses, Content.Node.new, Content.Behaviour.new, owners]

/-- The count of discovery is that of the connected peers, and never falls below zero; content
knows just these peers, each by the first of the connections it has had since it had none. -/
theorem connections_booked (fromMultihash : List UInt8 → Option PeerId) (bootstraps : Bool)
    (nc : NetworkConfig) (dc : Discovery.Config) (d : Discovery.Behaviour)
    (built : Discovery.new fromMultihash bootstraps nc dc = .ok d) (config : Content.Config)
    (inputs : List Input) (consistent : Along openAfter Consistent [] inputs) :
    let start : Bundle := ⟨⟨d, [], []⟩, .new config⟩
    let n := start.run inputs
    n.numConnections = (connected inputs).card ∧
    Along Bundle.step NoUnderflow start inputs ∧
    (∀ p, p ∈ n.peerAddresses ↔ p ∈ connected inputs) ∧
    ∀ p addr, n.peerAddresses.lookup p = some addr ↔
      ∃ endpoint, OpenedFirst inputs p endpoint ∧ addr = endpoint.peerAddr := by
  intro start n
  obtain ⟨booked, noUnderflow⟩ := booked_run consistent (booked_start built config)
  refine ⟨booked.count, noUnderflow, booked.known, fun p addr => ?_⟩
  constructor
  · intro known
    have mem : p ∈ n.peerAddresses := AList.lookup_isSome.mp (by rw [known]; rfl)
    obtain ⟨endpoint, opened⟩ := exists_openedFirst inputs ((booked.known p).mp mem)
    have first := lookup_of_openedFirst (n := start) consistent opened
    exact ⟨endpoint, opened, Option.some.inj (known.symm.trans first)⟩
  · rintro ⟨endpoint, opened, rfl⟩
    exact lookup_of_openedFirst consistent opened

/-- Two connections of one peer, the first of which is closed again. -/
theorem second_connection_kept :
    let p : PeerId := ⟨[7]⟩
    let inputs : List Input :=
      [.swarm (.connectionEstablished ⟨p, 0⟩ (.listener [.ip4 1, .tcp 50000]) 0),
        .swarm (.connectionEstablished ⟨p, 1⟩ (.dialer [.ip4 1, .tcp 4001]) 1),
        .swarm (.connectionClosed ⟨p, 0⟩ 1)]
    ∃ d, Discovery.new (fun mh => some ⟨mh⟩) true ⟨⟨[0]⟩, "net"⟩ ⟨[], 10, true⟩ = .ok d ∧
      (Bundle.run ⟨⟨d, [], []⟩, .new ⟨100, 10⟩⟩ inputs).numConnections = (connected inputs).card ∧
      connected inputs = {p} ∧
      ∃ endpoint, OpenedFirst inputs p endpoint ∧ [.ip4 1] = endpoint.peerAddr := by
  intro p inputs
  have consistent : Along openAfter Consistent [] inputs :=
    ⟨rfl, rfl, ⟨.tail _ (.head _), rfl⟩, trivial⟩
  have booked := connections_booked (fun mh => some ⟨mh⟩) true ⟨⟨[0]⟩, "net"⟩ ⟨[], 10, true⟩ _ rfl
    ⟨100, 10⟩ inputs consistent
  exact ⟨_, rfl, booked.1, rfl, (booked.2.2.2 p [.ip4 1]).mp rfl⟩

end Bundle

end IpcAgent.Resolver
