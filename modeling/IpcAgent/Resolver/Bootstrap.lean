import IpcAgent.Library.Gate
import IpcAgent.Resolver.DiscoveryEvents

/-!
# Identified peers during the bootstrap

While Kademlia is bootstrapping, the behaviour is a gate: it holds back the records of the
`Identify` protocol, the first one of each peer and not more than it wants connections, and
passes them on at the last step of the bootstrap query.
-/

namespace IpcAgent.Resolver.Discovery
open Library

/-- An `Identify` record and the peer it is from. -/
abbrev Record := PeerId × Info

/-- What Kademlia is to learn from a record. -/
def addressesOf (r : Record) : List (PeerId × Multiaddr) := r.2.listenAddrs.map (fun a => (r.1, a))

def KadCall.address : KadCall → Option (PeerId × Multiaddr)
  | .addAddress p addr => some (p, addr)
  | _ => none

def Input.record : Input → Option Record
  | .identified p info => some (p, info)
  | _ => none

def Trace.bootstrapped (t : Trace) : Bool := t.handled.any KademliaEvent.endsBootstrap

namespace Behaviour

/-- The addresses passed to Kademlia so far. -/
def passed (b : Behaviour) : List (PeerId × Multiaddr) :=
  (b.inner.getD []).filterMap KadCall.address

def supports (b : Behaviour) (r : Record) : Bool := r.2.protocols.contains b.protocolName

/-- The records of a run that support the protocol. -/
def supported (b : Behaviour) (inputs : List Input) : List Record :=
  (inputs.filterMap Input.record).filter b.supports

/-! ## What is passed to Kademlia -/

/-- Make calls to Kademlia, if it is enabled. -/
def askAll (b : Behaviour) (calls : List KadCall) : Behaviour :=
  { b with inner := b.inner.map (· ++ calls) }

@[simp] theorem askAll_nil (b : Behaviour) : b.askAll [] = b := by simp [askAll]

theorem askAll_askAll (b : Behaviour) (calls calls' : List KadCall) :
    (b.askAll calls).askAll calls' = b.askAll (calls ++ calls') := by
  simp [askAll, Function.comp_def]

theorem passed_askAll {b : Behaviour} (enabled : b.inner.isSome = true) (calls : List KadCall) :
    (b.askAll calls).passed = b.passed ++ calls.filterMap KadCall.address := by
  obtain ⟨made, inner⟩ := Option.isSome_iff_exists.mp enabled
  simp [passed, askAll, inner]

theorem passed_ask {b : Behaviour} (enabled : b.inner.isSome = true) {call : KadCall}
    (other : call.address = none) : (b.ask call).passed = b.passed := by
  have asked := passed_askAll enabled [call]
  simp only [List.filterMap_cons, other, List.filterMap_nil, List.append_nil] at asked
  exact asked

theorem foldl_addAddress (b : Behaviour) (p : PeerId) (addrs : List Multiaddr) :
    addrs.foldl (fun b addr => b.addAddress p addr) b = b.askAll (addrs.map (.addAddress p)) := by
  induction addrs generalizing b with
  | nil => simp
  | cons addr addrs ih => rw [List.foldl_cons, ih, List.map_cons]; exact askAll_askAll b [_] _

/-- The calls that pass on a record. -/
def calls (r : Record) : List KadCall := r.2.listenAddrs.map (.addAddress r.1)

theorem filterMap_address_calls (r : Record) :
    (calls r).filterMap KadCall.address = addressesOf r := by
  rw [calls, List.filterMap_map, addressesOf, ← List.filterMap_eq_map]
  rfl

variable {b : Behaviour} {r : Record}

theorem addIdentified_of_unsupported (unsupported : b.supports r = false) :
    b.addIdentified r.1 r.2 = b := by
  unfold addIdentified
  exact if_neg (Bool.eq_false_iff.mp unsupported)

theorem addIdentified_of_held {buffer : List Record} (supports : b.supports r = true)
    (held : b.bootstrapBuffer = some buffer) :
    (b.addIdentified r.1 r.2).bootstrapBuffer = some
      (if buffer.length < b.targetConnections ∧ buffer.any (fun e => e.1 == r.1) = false
        then buffer ++ [r] else buffer) ∧
      (b.addIdentified r.1 r.2).inner = b.inner := by
  unfold addIdentified
  rw [if_pos (show r.2.protocols.contains b.protocolName = true from supports), held]
  simp only [Bool.not_eq_eq_eq_not, Bool.not_true]
  split_ifs
  · exact ⟨rfl, rfl⟩
  · exact ⟨held, rfl⟩

theorem addIdentified_of_released (supports : b.supports r = true)
    (released : b.bootstrapBuffer = none) : b.addIdentified r.1 r.2 = b.askAll (calls r) := by
  unfold addIdentified
  rw [if_pos (show r.2.protocols.contains b.protocolName = true from supports), released]
  exact foldl_addAddress b r.1 r.2.listenAddrs

/-- The buffered records, once the buffer has been taken. -/
theorem foldl_addIdentified (released : b.bootstrapBuffer = none) {records : List Record}
    (supports : ∀ r ∈ records, b.supports r = true) :
    records.foldl (fun b r => b.addIdentified r.1 r.2) b = b.askAll (records.flatMap calls) := by
  induction records generalizing b with
  | nil => simp
  | cons r records ih =>
    rw [List.foldl_cons, addIdentified_of_released (supports r List.mem_cons_self) released,
      ih (b := b.askAll (calls r)) released fun r' mem => supports r' (List.mem_cons_of_mem r mem),
      askAll_askAll, List.flatMap_cons]

end Behaviour

/-! ## The behaviour as a gate -/

/-- The behaviour has passed on and holds back what a gate for records would. -/
structure Follows (start : Behaviour) (g : Gate Record) (b : Behaviour) : Prop where
  protocolName : b.protocolName = start.protocolName
  targetConnections : b.targetConnections = start.targetConnections
  enabled : b.inner.isSome = true
  supported : ∀ r ∈ g.before, start.supports r = true
  buffer : b.bootstrapBuffer = g.held Prod.fst start.targetConnections
  passed : b.passed =
    start.passed ++ (g.passed Prod.fst start.targetConnections).flatMap addressesOf

namespace Follows

variable {start b b' : Behaviour} {g : Gate Record} {r : Record}

theorem supports_eq (follows : Follows start g b) (r : Record) :
    b.supports r = start.supports r := by
  unfold Behaviour.supports
  rw [follows.protocolName]

/-- Something has happened that concerns the gate only. -/
theorem advance {g' : Gate Record} (follows : Follows start g b) (same : SameNode b b')
    (supported : ∀ r ∈ g'.before, start.supports r = true)
    (buffer : b'.bootstrapBuffer = g'.held Prod.fst start.targetConnections)
    (passed : b'.passed =
      start.passed ++ (g'.passed Prod.fst start.targetConnections).flatMap addressesOf) :
    Follows start g' b' where
  protocolName := same.protocolName.trans follows.protocolName
  targetConnections := same.targetConnections.trans follows.targetConnections
  enabled := same.enabled.trans follows.enabled
  supported := supported
  buffer := buffer
  passed := passed

theorem quiet (follows : Follows start g b) (same : SameNode b b')
    (buffer : b'.bootstrapBuffer = b.bootstrapBuffer) (passed : b'.passed = b.passed) :
    Follows start g b' :=
  follows.advance same follows.supported (buffer.trans follows.buffer)
    (passed.trans follows.passed)

theorem ask (follows : Follows start g b) (call : KadCall) (other : call.address = none) :
    Follows start g (b.ask call) :=
  follows.quiet (sameNode_ask b call) rfl (Behaviour.passed_ask follows.enabled other)

/-- Records that are passed on. -/
theorem passed_askAll (follows : Follows start g b) (records : List Record) :
    (b.askAll (records.flatMap Behaviour.calls)).passed =
      b.passed ++ records.flatMap addressesOf := by
  rw [Behaviour.passed_askAll follows.enabled, List.filterMap_flatMap]
  exact congrArg _ (List.flatMap_congr fun r _ => Behaviour.filterMap_address_calls r)

/-- A record is offered to the gate. -/
theorem offer (follows : Follows start g b) (supports : start.supports r = true) :
    Follows start (g.offer r) (b.addIdentified r.1 r.2) := by
  have here : b.supports r = true := (follows.supports_eq r).trans supports
  have supported : ∀ r' ∈ (g.offer r).before, start.supports r' = true := by
    intro r' mem
    obtain mem | rfl := Gate.mem_before_offer mem
    · exact follows.supported r' mem
    · exact supports
  have buffer := follows.buffer
  cases held : g.held Prod.fst start.targetConnections with
  | some kept =>
    rw [held] at buffer
    obtain ⟨kept', inner⟩ := Behaviour.addIdentified_of_held here buffer
    refine follows.advance (sameNode_addIdentified b r.1 r.2) supported ?_ ?_
    · rw [kept', Gate.held_offer held, follows.targetConnections]
    · have passed : (b.addIdentified r.1 r.2).passed = b.passed := by
        rw [Behaviour.passed, inner, Behaviour.passed]
      rw [passed, follows.passed, Gate.passed_offer held]
  | none =>
    rw [held] at buffer
    obtain ⟨held', passed⟩ := Gate.offer_of_released (a := r) held
    refine follows.advance (sameNode_addIdentified b r.1 r.2) supported ?_ ?_
    · rw [Behaviour.addIdentified_of_released here buffer, held']
      exact buffer
    · have passes := follows.passed_askAll [r]
      rw [List.flatMap_singleton] at passes
      rw [Behaviour.addIdentified_of_released here buffer, passes, passed, follows.passed,
        List.flatMap_append, List.append_assoc]

/-- The last step of the bootstrap query releases the gate. -/
theorem release (follows : Follows start g b) :
    Follows start g.release
      (b.handleKademliaEvent (.outboundQueryProgressed .bootstrap true)) := by
  have same := sameNode_handleKademliaEvent b (.outboundQueryProgressed .bootstrap true)
  have buffer := follows.buffer
  have passed : g.release.passed Prod.fst start.targetConnections =
      g.passed Prod.fst start.targetConnections ++ b.bootstrapBuffer.getD [] := by
    rw [Gate.passed_release, buffer]
  cases held : b.bootstrapBuffer with
  | none =>
    have same : b.handleKademliaEvent (.outboundQueryProgressed .bootstrap true) = b := by
      simp [Behaviour.handleKademliaEvent, held]
    rw [same]
    refine follows.advance (.refl b) follows.supported (held.trans Gate.held_release.symm) ?_
    rw [passed, held, Option.getD_none, List.append_nil, follows.passed]
  | some kept =>
    have supports : ∀ r ∈ kept, b.supports r = true := by
      intro r mem
      rw [follows.supports_eq]
      exact follows.supported r (Gate.mem_before_of_held (buffer.symm.trans held) mem)
    have replay : b.handleKademliaEvent (.outboundQueryProgressed .bootstrap true) =
        Behaviour.askAll { b with bootstrapBuffer := none } (kept.flatMap Behaviour.calls) := by
      simp only [Behaviour.handleKademliaEvent, held]
      exact Behaviour.foldl_addIdentified rfl supports
    refine follows.advance same follows.supported ?_ ?_
    · rw [replay]
      rfl
    · rw [replay, passed, held, Option.getD_some, List.flatMap_append, ← List.append_assoc,
        ← follows.passed]
      exact follows.passed_askAll kept

theorem handleKademliaEvent (follows : Follows start g b) (e : KademliaEvent) :
    Follows start (g.releaseIf e.endsBootstrap) (b.handleKademliaEvent e) := by
  cases ends : e.endsBootstrap with
  | false =>
    rw [handleKademliaEvent_of_other b ends]
    exact follows.quiet ⟨rfl, rfl, rfl, rfl⟩ rfl rfl
  | true =>
    obtain rfl := eq_of_endsBootstrap ends
    exact follows.release

theorem pollKademlia (follows : Follows start g b) (ready : List KadAction) :
    Follows start
      (g.releaseIf ((Behaviour.pollKademlia ready b).2.any KademliaEvent.endsBootstrap))
      (Behaviour.pollKademlia ready b).1 := by
  induction ready generalizing b g with
  | nil => exact follows
  | cons action ready ih =>
    cases action with
    | other => exact follows
    | generateEvent e =>
      have next := ih (follows.handleKademliaEvent e)
      rw [Gate.releaseIf_releaseIf] at next
      exact next

theorem tick (follows : Follows start g b) (random : PeerId) :
    Follows start g (b.tick random) := by
  unfold Behaviour.tick
  simp only
  split
  · exact (follows.ask (.getClosestPeers random) rfl).quiet ⟨rfl, rfl, rfl, rfl⟩ rfl rfl
  · exact follows.quiet ⟨rfl, rfl, rfl, rfl⟩ rfl rfl

theorem poll (follows : Follows start g b) (ticked : Option PeerId) (ready : List KadAction) :
    Follows start (g.releaseIf ((b.poll ticked ready).handled.any KademliaEvent.endsBootstrap))
      (b.poll ticked ready).behaviour := by
  unfold Behaviour.poll
  split
  · exact follows.quiet ⟨rfl, rfl, rfl, rfl⟩ rfl rfl
  · cases ticked with
    | none => exact follows.pollKademlia _
    | some random => exact (follows.tick random).pollKademlia _

end Follows

/-! ## Runs -/

/-- The Kademlia events a step takes in. -/
def Trace.handledBy (t : Trace) : Input → List KademliaEvent
  | .poll ticked ready => (t.behaviour.poll ticked ready).handled
  | _ => []

/-- What a step offers to the gate, and whether it releases it. -/
def gateAfter (start : Behaviour) (t : Trace) (g : Gate Record) (i : Input) : Gate Record :=
  ((start.supported [i]).foldl Gate.offer g).releaseIf
    ((t.handledBy i).any KademliaEvent.endsBootstrap)

theorem Follows.step {start : Behaviour} {g : Gate Record} {t : Trace}
    (follows : Follows start g t.behaviour) (i : Input) :
    Follows start (gateAfter start t g i) (t.step i).behaviour := by
  cases i with
  | identified p info =>
    cases supports : start.supports (p, info) with
    | true =>
      have one : start.supported [.identified p info] = [(p, info)] := by
        simp [Behaviour.supported, Input.record, supports]
      rw [gateAfter, one]
      exact follows.offer supports
    | false =>
      have none : start.supported [.identified p info] = [] := by
        simp [Behaviour.supported, Input.record, supports]
      rw [← follows.supports_eq] at supports
      rw [gateAfter, none]
      change Follows start g (t.behaviour.addIdentified p info)
      rwa [Behaviour.addIdentified_of_unsupported supports]
  | poll ticked ready => exact follows.poll ticked ready
  | lookup p known =>
    change Follows start g (t.behaviour.backgroundLookup known p)
    unfold Behaviour.backgroundLookup
    split
    · exact follows.ask (.getClosestPeers p) rfl
    · exact follows
  | swarm event =>
    obtain ⟨n, eq⟩ := onSwarmEvent_eq t.behaviour event
    change Follows start g (t.behaviour.onSwarmEvent event)
    rw [eq]
    exact ⟨follows.protocolName, follows.targetConnections, follows.enabled, follows.supported,
      follows.buffer, follows.passed⟩

section

variable {b : Behaviour} {t : Trace} {i : Input} {before since : List Record}

theorem bootstrapped_step (t : Trace) (i : Input) : (t.step i).bootstrapped =
    (t.bootstrapped || (t.handledBy i).any KademliaEvent.endsBootstrap) := by
  cases i <;> simp [Trace.bootstrapped, Trace.step, Trace.handledBy]

theorem gateAfter_closed (still : (t.step i).bootstrapped = false) :
    gateAfter b t ⟨before, none⟩ i = ⟨before ++ b.supported [i], none⟩ := by
  rw [bootstrapped_step, Bool.or_eq_false_iff] at still
  rw [gateAfter, still.2, Gate.foldl_offer_closed]
  rfl

theorem gateAfter_released :
    gateAfter b t ⟨before, some since⟩ i = ⟨before, some (since ++ b.supported [i])⟩ := by
  rw [gateAfter, Gate.foldl_offer_released]
  cases (t.handledBy i).any KademliaEvent.endsBootstrap <;> rfl

/-- A step that releases the gate offers nothing to it. -/
theorem gateAfter_ending (not_yet : t.bootstrapped = false)
    (ended : (t.step i).bootstrapped = true) :
    gateAfter b t ⟨before, none⟩ i = ⟨before, some []⟩ := by
  rw [bootstrapped_step, not_yet, Bool.false_or] at ended
  cases i with
  | poll ticked ready =>
    rw [gateAfter, ended]
    rfl
  | _ => cases ended

@[simp] theorem supported_nil (b : Behaviour) : b.supported [] = [] := rfl

theorem supported_append (b : Behaviour) (inputs inputs' : List Input) :
    b.supported (inputs ++ inputs') = b.supported inputs ++ b.supported inputs' := by
  simp [Behaviour.supported]

theorem run_snoc (b : Behaviour) (inputs : List Input) (i : Input) :
    b.run (inputs ++ [i]) = (b.run inputs).step i := by
  simp [Behaviour.run]

/-- Until the end of the bootstrap, the gate is closed to all records so far. -/
theorem follows_closed (start : Follows b .closed b) (inputs : List Input)
    (still : (b.run inputs).bootstrapped = false) :
    Follows b ⟨b.supported inputs, none⟩ (b.run inputs).behaviour := by
  induction inputs using List.reverseRecOn with
  | nil => exact start
  | append_singleton inputs i ih =>
    rw [run_snoc] at still ⊢
    have earlier := still
    rw [bootstrapped_step, Bool.or_eq_false_iff] at earlier
    rw [supported_append, ← gateAfter_closed still]
    exact (ih earlier.1).step i

/-- From the step that ends the bootstrap, it is open to all further ones. -/
theorem follows_released (start : Follows b .closed b) (inputs : List Input) (i : Input)
    (not_yet : (b.run inputs).bootstrapped = false)
    (ended : (b.run (inputs ++ [i])).bootstrapped = true) (later : List Input) :
    Follows b ⟨b.supported inputs, some (b.supported later)⟩
      (b.run (inputs ++ i :: later)).behaviour := by
  induction later using List.reverseRecOn with
  | nil =>
    have ends := (follows_closed start inputs not_yet).step i
    rw [run_snoc] at ended ⊢
    rwa [gateAfter_ending not_yet ended] at ends
  | append_singleton later j ih =>
    have next := ih.step j
    rw [gateAfter_released, ← run_snoc] at next
    rwa [supported_append, ← List.cons_append, ← List.append_assoc]

end

/-! ## Construction -/

section

variable {fromMultihash : List UInt8 → Option PeerId} {bootstraps : Bool} {nc : NetworkConfig}
  {dc : Config} {b : Behaviour}

theorem parseStatic_ne_nil {addrs : List Multiaddr} {parsed : List (PeerId × Multiaddr)}
    (ok : parseStatic fromMultihash addrs = .ok parsed) (given : addrs ≠ []) : parsed ≠ [] := by
  rintro rfl
  cases addrs with
  | nil => exact given rfl
  | cons addr addrs =>
    simp only [parseStatic] at ok
    split at ok
    · split at ok
      · cases rest : parseStatic fromMultihash addrs with
        | error e => simp [rest, bind, Except.bind] at ok
        | ok parsed => simp [rest, bind, Except.bind, pure, Except.pure] at ok
      · cases ok
    · cases ok

/-- With a static address, the node starts with a bootstrap. -/
theorem new_bootstrapping (built : new fromMultihash bootstraps nc dc = .ok b)
    (kademlia : dc.enableKademlia = true) (static : dc.staticAddresses ≠ []) :
    b.inner = some (b.staticAddresses.map (fun e => .addAddress e.1 e.2) ++ [.bootstrap]) ∧
      b.bootstrapBuffer = some [] := by
  have built := built_new built
  cases built.starts with
  | alone _ none => exact absurd none (parseStatic_ne_nil built.static static)
  | bootstrapping _ inner buffer _ => exact ⟨inner, buffer⟩
  | fixed disabled =>
    rw [kademlia] at disabled
    cases disabled

theorem follows_new (built : new fromMultihash bootstraps nc dc = .ok b)
    (kademlia : dc.enableKademlia = true) (static : dc.staticAddresses ≠ []) :
    Follows b .closed b := by
  obtain ⟨inner, buffer⟩ := new_bootstrapping built kademlia static
  refine ⟨rfl, rfl, by simp [inner], by simp [Gate.closed], ?_, ?_⟩
  · simp [buffer, Gate.held, Gate.closed]
  · simp [Gate.passed, Gate.closed]

theorem passed_new (built : new fromMultihash bootstraps nc dc = .ok b)
    (kademlia : dc.enableKademlia = true) (static : dc.staticAddresses ≠ []) :
    b.passed = b.staticAddresses := by
  obtain ⟨inner, -⟩ := new_bootstrapping built kademlia static
  simp [Behaviour.passed, inner, KadCall.address, Function.comp_def]

end

/-- Until the last step of the bootstrap query, Kademlia knows the static addresses only, and
the buffer has the first supporting records of the first peers that sent one, up to the wanted
number of connections. At that step the buffered addresses are passed on, in their order, and
from then on those of every supporting record. -/
theorem records_held_back_until_bootstrapped (fromMultihash : List UInt8 → Option PeerId)
    (bootstraps : Bool) (nc : NetworkConfig) (dc : Config) (b : Behaviour)
    (built : new fromMultihash bootstraps nc dc = .ok b) (kademlia : dc.enableKademlia = true)
    (static : dc.staticAddresses ≠ []) (inputs : List Input) :
    ((b.run inputs).bootstrapped = false →
      (b.run inputs).behaviour.passed = b.staticAddresses ∧
      ∃ buffer, (b.run inputs).behaviour.bootstrapBuffer = some buffer ∧
        buffer.length ≤ dc.targetConnections ∧ (buffer.map Prod.fst).Nodup ∧
        buffer = firsts Prod.fst dc.targetConnections (b.supported inputs)) ∧
    ∀ before i later, inputs = before ++ i :: later → (b.run before).bootstrapped = false →
      (b.run (before ++ [i])).bootstrapped = true →
      ∃ buffer, (b.run before).behaviour.bootstrapBuffer = some buffer ∧
        (b.run (before ++ [i])).behaviour.passed =
          b.staticAddresses ++ buffer.flatMap addressesOf ∧
        (b.run inputs).behaviour.passed = b.staticAddresses ++ buffer.flatMap addressesOf ++
          (b.supported later).flatMap addressesOf := by
  have start := follows_new built kademlia static
  have target := (built_new built).targetConnections
  have passed := passed_new built kademlia static
  constructor
  · intro still
    have follows := follows_closed start inputs still
    refine ⟨?_, firsts Prod.fst dc.targetConnections (b.supported inputs), ?_, length_firsts_le,
      nodup_firsts, rfl⟩
    · simpa [Gate.passed, passed] using follows.passed
    · rw [follows.buffer, Gate.held, target]
  · rintro before i later rfl not_yet ended
    have follows := follows_closed start before not_yet
    have released := follows_released start before i not_yet ended
    refine ⟨_, follows.buffer, ?_, ?_⟩
    · simpa [Gate.passed, passed] using (released []).passed
    · simpa [Gate.passed, passed] using (released later).passed

/-- A node that wants one connection: of two peers that identify themselves during the
bootstrap, the second one is known only after it has done so again. -/
theorem second_peer_known_later :
    let record : Info := ⟨["/ipc/net/kad/1.0.0"], [[.ip4 167772162, .tcp 4001]]⟩
    let before : List Input := [.identified ⟨[2]⟩ record, .identified ⟨[3]⟩ record]
    let last : Input := .poll none [.generateEvent (.outboundQueryProgressed .bootstrap true)]
    ∃ b, new (fun mh => some ⟨mh⟩) true ⟨⟨[0]⟩, "net"⟩
        ⟨[[.ip4 167772161, .tcp 4001, .p2p [1]]], 1, true⟩ = .ok b ∧
      ∃ buffer, (b.run before).behaviour.bootstrapBuffer = some buffer ∧
        (b.run (before ++ [last])).behaviour.passed =
          b.staticAddresses ++ buffer.flatMap addressesOf ∧
        (b.run (before ++ last :: [.identified ⟨[3]⟩ record])).behaviour.passed =
          b.staticAddresses ++ buffer.flatMap addressesOf ++
            [(⟨[3]⟩, [.ip4 167772162, .tcp 4001])] := by
  intro record before last
  refine ⟨_, rfl, ?_⟩
  exact (records_held_back_until_bootstrapped (fun mh => some ⟨mh⟩) true ⟨⟨[0]⟩, "net"⟩
    ⟨[[.ip4 167772161, .tcp 4001, .p2p [1]]], 1, true⟩ _ rfl rfl (by simp) _).2 before last
    [.identified ⟨[3]⟩ record] rfl (by decide) (by decide)

end IpcAgent.Resolver.Discovery
