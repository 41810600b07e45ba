import IpcAgent.Resolver.Announcements
import IpcAgent.Resolver.CacheRecords
import IpcAgent.Resolver.SignedRecord

/-!
# A network of nodes

Any number of nodes, each with its own key, that start, restart and take their steps in any
order. What arrives at a node is up to the network: any bytes on any topic, delivered late,
repeatedly or never. All that is assumed is that signatures cannot be forged and that the key
of a node signs provider records in `publish_membership` only.
-/

namespace IpcAgent.Resolver
open Library IpcAgent.Resolver.Membership

/-- What may be signed outside the nodes with these keys. Their own keys may sign votes, and
whatever else is not in the domain of the records. -/
def Signing.Foreign (keys : Set PublicKey) : Signing → Prop
  | record .provider key _ _ => key ∉ keys
  | record .vote _ _ _ => True
  | other key m _ => key ∈ keys → m.domain ≠ domainSep

/-- The provider record signed with the key. -/
def Signing.recordOf (key : PublicKey) : Signing → Option ProviderRecord
  | record .provider key' r _ => if key' = key then some r else none
  | _ => none

/-- A node that runs: its state, and the answers of the libraries it calls. -/
structure Node where
  ok : Oracle
  behaviour : Behaviour

def Node.step (codec : Codec) (node : Node) (i : Moment × Membership.Input) : Node :=
  { node with behaviour := node.behaviour.step node.ok codec i }

/-- The nodes that have been started, and all the signatures made so far. -/
structure Network (ι : Type) where
  nodes : ι → Option Node
  ledger : List Signing

namespace Network

/-- What the nodes share, and the key of each of them. -/
structure Setting (ι : Type) where
  encodings : Encodings
  sha256 : String → String
  /-- Which signatures verify once those of the ledger have been made. -/
  verify : List Signing → Verify
  sound : ∀ ledger, Verifies (ledger.map (Signing.signed encodings)) (verify ledger)
  keys : ι → PublicKey
  keys_injective : Function.Injective keys

variable {ι : Type}

namespace Setting

variable (S : Setting ι)

/-- `NetworkConfig::local_peer_id`. -/
def peer (n : ι) : PeerId := S.encodings.toPeerId (S.keys n)

def codec (ledger : List Signing) : Codec := S.encodings.codec S.sha256 (S.verify ledger)

end Setting

/-- What can happen in a network. -/
inductive Input (S : Setting ι)
  /-- A node starts, or starts again with nothing but its key. -/
  | start (n : ι) (ok : Oracle) (now : Timestamp) (networkName : String) (mc : Config)
  | act (n : ι) (i : Moment × Membership.Input) (signature : Signature)
  | sign (s : Signing) (foreign : s.Foreign (Set.range S.keys))

variable [DecidableEq ι] (S : Setting ι)

/-- The record a node signs in a step. -/
def announces (N : Network ι) (p : ι) : Input S → Option ProviderRecord
  | .act n i _ =>
    if n = p then
      (N.nodes p).bind fun node => node.behaviour.signs node.ok (S.codec N.ledger) i
    else none
  | _ => none

def signings (N : Network ι) : Input S → List Signing
  | .start _ _ _ _ _ => []
  | .act n i signature => ((N.announces S n (.act n i signature)).map
      (.record .provider (S.keys n) · signature)).toList
  | .sign s _ => [s]

def nodesAfter (N : Network ι) : Input S → ι → Option Node
  | .start n ok now networkName mc =>
    match Membership.new ok (S.codec N.ledger) now ⟨S.peer n, networkName⟩ mc with
    | .ok b => Function.update N.nodes n (some ⟨ok, b⟩)
    | .error _ => N.nodes
  | .act n i _ =>
    Function.update N.nodes n ((N.nodes n).map (Node.step (S.codec N.ledger) · i))
  | .sign _ _ => N.nodes

def step (N : Network ι) (i : Input S) : Network ι where
  nodes := N.nodesAfter S i
  ledger := N.ledger ++ N.signings S i

/-- A network after a run in which every node is started from scratch. -/
def run (inputs : List (Input S)) : Network ι := inputs.foldl (step S) ⟨fun _ => none, []⟩

/-- The provider records of a node, in the order it has signed them. -/
def recordsOf (N : Network ι) (p : ι) : List ProviderRecord :=
  N.ledger.filterMap (Signing.recordOf (S.keys p))

variable {S}

@[simp] theorem run_nil : run S [] = ⟨fun _ => none, []⟩ := rfl

@[simp] theorem run_concat (inputs : List (Input S)) (i : Input S) :
    run S (inputs ++ [i]) = (run S inputs).step S i := List.foldl_concat ..

/-! ## One step -/

variable {N : Network ι} {n p : ι} {i : Input S} {node : Node}

/-- Where a node comes from that runs after a step. -/
inductive Came (N : Network ι) (n : ι) : Input S → Node → Prop
  | stayed {i : Input S} {node : Node} (here : N.nodes n = some node)
      (idle : N.announces S n i = none) : Came N n i node
  | started {ok : Oracle} {now : Timestamp} {networkName : String} {mc : Config} {b : Behaviour}
      (built : Membership.new ok (S.codec N.ledger) now ⟨S.peer n, networkName⟩ mc = .ok b) :
      Came N n (.start n ok now networkName mc) ⟨ok, b⟩
  | acted {j : Moment × Membership.Input} {signature : Signature} {node : Node}
      (here : N.nodes n = some node) :
      Came N n (.act n j signature) (node.step (S.codec N.ledger) j)

theorem came_of_step (running : (N.step S i).nodes n = some node) : Came N n i node := by
  cases i with
  | start n' ok now networkName mc =>
    cases built : Membership.new ok (S.codec N.ledger) now ⟨S.peer n', networkName⟩ mc with
    | error e => exact .stayed (by simpa [step, nodesAfter, built] using running) rfl
    | ok b =>
      simp only [step, nodesAfter, built] at running
      by_cases same : n = n'
      · subst same
        obtain rfl : (⟨ok, b⟩ : Node) = node := by simpa using running
        exact .started built
      · exact .stayed (by simpa [same] using running) rfl
  | act n' j signature =>
    simp only [step, nodesAfter] at running
    by_cases same : n = n'
    · subst same
      rw [Function.update_self] at running
      obtain ⟨old, here, rfl⟩ := Option.map_eq_some_iff.mp running
      exact .acted here
    · exact .stayed (by simpa [same] using running) (if_neg (Ne.symm same))
  | sign s foreign => exact .stayed running rfl

theorem recordsOf_step : (N.step S i).recordsOf S p =
    N.recordsOf S p ++ (N.announces S p i).toList := by
  have made : (N.signings S i).filterMap (Signing.recordOf (S.keys p)) =
      (N.announces S p i).toList := by
    cases i with
    | start n' ok now networkName mc => rfl
    | act n' j signature =>
      by_cases same : n' = p
      · subst same
        simp only [signings]
        cases N.announces S n' (.act n' j signature) <;> simp [Signing.recordOf]
      · have apart : S.keys n' ≠ S.keys p := fun eq => same (S.keys_injective eq)
        simp only [signings]
        cases N.announces S n' (.act n' j signature) <;>
          simp [announces, same, Signing.recordOf, apart]
    | sign s foreign =>
      cases s with
      | record kind key r signature =>
        cases kind with
        | provider =>
          have other : key ≠ S.keys p := fun eq => foreign ⟨p, eq.symm⟩
          simp [signings, announces, Signing.recordOf, other]
        | vote => rfl
      | other key m signature => rfl
  rw [recordsOf, step, List.filterMap_append, made]
  rfl

omit [DecidableEq ι] in
theorem mem_recordsOf {r : ProviderRecord} :
    r ∈ N.recordsOf S p ↔ ∃ signature, .record .provider (S.keys p) r signature ∈ N.ledger := by
  unfold recordsOf
  rw [List.mem_filterMap]
  constructor
  · rintro ⟨s, mem, found⟩
    unfold Signing.recordOf at found
    split at found
    · obtain ⟨rfl, same⟩ := Option.ite_none_right_eq_some.mp found
      obtain rfl := Option.some.inj same
      exact ⟨_, mem⟩
    · cases found
  · rintro ⟨signature, mem⟩
    exact ⟨_, mem, if_pos rfl⟩

/-- A record a node signs lists what it provides after the step, and is dated to the step. -/
theorem eq_of_announces {r : ProviderRecord} (announced : N.announces S p i = some r)
    (own : ∀ node, N.nodes p = some node → node.behaviour.localPeerId = S.peer p) :
    ∃ j signature node, i = .act p j signature ∧ (N.step S i).nodes p = some node ∧
      r = ⟨S.peer p, node.behaviour.subnetIds, j.1.now⟩ := by
  cases i with
  | act n' j signature =>
    obtain ⟨rfl, found⟩ := Option.ite_none_right_eq_some.mp announced
    obtain ⟨node, here, signs⟩ := Option.bind_eq_some_iff.mp found
    refine ⟨j, signature, node.step (S.codec N.ledger) j, rfl, ?_, ?_⟩
    · simp only [step, nodesAfter, here, Function.update_self, Option.map_some]
    · rw [← own node here]
      exact eq_of_signs signs
  | _ => cases announced

/-! ## What is read was signed -/

/-- The key of a node signs nothing in the domain of the records but records. -/
def Apart (S : Setting ι) (N : Network ι) : Prop :=
  ∀ p m signature, .other (S.keys p) m signature ∈ N.ledger → m.domain ≠ domainSep

theorem Apart.step (apart : N.Apart S) : (N.step S i).Apart S := by
  intro p m signature mem
  rcases List.mem_append.mp mem with old | new
  · exact apart p m signature old
  · cases i with
    | start n' ok now networkName mc => cases new
    | act n' j sig =>
      simp only [signings] at new
      cases found : N.announces S n' (.act n' j sig) <;> simp [found] at new
    | sign s foreign =>
      obtain rfl := List.mem_singleton.mp new
      exact foreign ⟨p, rfl⟩

omit [DecidableEq ι] in
/-- What a node reads as a record of a node was signed by that node. -/
theorem mem_recordsOf_of_read (apart : N.Apart S) {bytes : List UInt8} {r : ProviderRecord}
    (read : (S.codec N.ledger).providerRecord bytes = some r) (own : r.peerId = S.peer p) :
    r ∈ N.recordsOf S p := by
  rw [mem_recordsOf]
  obtain ⟨sr, accepted, rfl⟩ := Encodings.read_eq_some.mp read
  obtain ⟨env, -, accepted⟩ := SignedRecord.fromBytes_eq_ok.mp accepted
  obtain ⟨⟨type, verified⟩, decoded, checked, -⟩ :=
    SignedRecord.fromSignedEnvelope_eq_ok.mp accepted
  have key : env.key = S.keys p :=
    S.encodings.eq_of_checkSigningKey checked (S.encodings.checkSigningKey_provider.mpr own)
  obtain ⟨signature, made⟩ := (S.sound N.ledger).unforgeable _ _ _ verified
  obtain ⟨signing, mem, eq⟩ := List.mem_map.mp made
  cases signing with
  | other key' m signature' =>
    obtain rfl : key' = env.key := congrArg Signed.key eq
    have domain : m.domain = domainSep := congrArg (fun x => Signable.domain (Signed.message x)) eq
    exact absurd domain (apart p m signature' (key ▸ mem))
  | record kind key' r signature' =>
    have message := congrArg Signed.message eq
    obtain rfl : kind = .provider := S.encodings.payloadType_injective
      ((congrArg Signable.payloadType message).trans type)
    have payload : (S.encodings.record .provider).cbor.encode r = env.payload :=
      congrArg Signable.payload message
    rw [← payload, Serialization.decode_encode, Option.some.injEq] at decoded
    obtain rfl : key' = env.key := congrArg Signed.key eq
    exact ⟨signature', key ▸ decoded ▸ mem⟩

/-! ## Whole runs -/

/-- If the record names a node, this node has signed it. -/
def Genuine (S : Setting ι) (N : Network ι) (r : ProviderRecord) : Prop :=
  ∀ p, r.peerId = S.peer p → r ∈ N.recordsOf S p

theorem Genuine.step {r : ProviderRecord} (genuine : N.Genuine S r) : (N.step S i).Genuine S r := by
  intro p own
  rw [recordsOf_step]
  exact List.mem_append_left _ (genuine p own)

omit [DecidableEq ι] in
theorem genuine_of_record (apart : N.Apart S) {j : Membership.Input} {topic : TopicHash}
    {r : ProviderRecord} (carried : j.record (S.codec N.ledger) topic = some r) :
    N.Genuine S r := by
  intro p own
  unfold Input.record at carried
  split at carried
  · obtain ⟨-, read⟩ := Option.ite_none_right_eq_some.mp carried
    exact mem_recordsOf_of_read apart read own
  · cases carried

/-- The subnet was pinned at the node whenever the node was running. -/
def PinnedAt (S : Setting ι) (inputs : List (Input S)) (n : ι) (s : SubnetID) : Prop :=
  ∀ before, before <+: inputs → ∀ node, (run S before).nodes n = some node →
    s ∈ node.behaviour.providerCache.pinnedSubnets

/-- What a node knows after a run goes back to records that were signed. -/
structure Informed (S : Setting ι) (inputs : List (Input S)) (n : ι) (node : Node) : Prop where
  peer : node.behaviour.localPeerId = S.peer n
  stamped : node.behaviour.providerCache.ListedStamped
  reflects : node.behaviour.providerCache.Reflects ((run S inputs).Genuine S)
    {s | PinnedAt S inputs n s}

variable {inputs : List (Input S)}

theorem apart_run : (run S inputs).Apart S := by
  induction inputs using List.reverseRecOn with
  | nil => simp [Apart]
  | append_singleton inputs i ih =>
    rw [run_concat]
    exact ih.step

theorem informed_of_new {ok : Oracle} {codec : Codec} {now : Timestamp} {networkName : String}
    {mc : Config} {b : Behaviour}
    (built : Membership.new ok codec now ⟨S.peer n, networkName⟩ mc = .ok b) :
    Informed S inputs n ⟨ok, b⟩ := by
  have tables := related_new ok codec SameTables.ignores built
  have unstamped : ∀ q, b.providerCache.timestampOf q = 0 := by
    intro q
    unfold SubnetProviderCache.timestampOf
    rw [tables.timestamps]
    rfl
  refine ⟨related_new ok codec SamePeer.ignores built, ?_, ?_⟩
  · intro q s listed
    unfold SubnetProviderCache.providersOfSubnet at listed
    rw [tables.providers] at listed
    cases listed
  · intro q pos
    exact absurd pos (by simp [unstamped])

/-- By induction on the run: records come in only with messages, and those of the nodes have
been signed by then. -/
theorem informed_run (running : (run S inputs).nodes n = some node) : Informed S inputs n node := by
  induction inputs using List.reverseRecOn generalizing node with
  | nil => cases running
  | append_singleton inputs i ih =>
    have fewer : {s | PinnedAt S (inputs ++ [i]) n s} ⊆ {s | PinnedAt S inputs n s} := by
      intro s pinned before initial
      exact pinned before (initial.trans (List.prefix_append _ _))
    have more : ∀ r, (run S inputs).Genuine S r → (run S (inputs ++ [i])).Genuine S r := by
      intro r genuine
      rw [run_concat]
      exact genuine.step
    rw [run_concat] at running
    cases came_of_step running with
    | stayed here =>
      have old := ih here
      exact ⟨old.peer, old.stamped, old.reflects.mono more fewer⟩
    | started built => exact informed_of_new built
    | @acted j signature node here =>
      have old := ih here
      refine ⟨?_, stamped_step old.stamped j, ?_⟩
      · exact (samePeer_step _ _ _ j).trans old.peer
      · refine SubnetProviderCache.Reflects.mono (reflects_step old.reflects j ?_ ?_) more fewer
        · exact fun r carried => genuine_of_record apart_run carried
        · intro s pinned
          exact pinned inputs List.prefix_rfl node here

/-- The record says what the node provided right after one of its own steps. -/
def Declared (S : Setting ι) (inputs : List (Input S)) (p : ι) (r : ProviderRecord) : Prop :=
  ∃ before j signature after node, inputs = before ++ .act p j signature :: after ∧
    (run S (before ++ [.act p j signature])).nodes p = some node ∧
    r = ⟨S.peer p, node.behaviour.subnetIds, j.1.now⟩

theorem declared_of_mem_recordsOf {r : ProviderRecord} (signed : r ∈ (run S inputs).recordsOf S p) :
    Declared S inputs p r := by
  induction inputs using List.reverseRecOn with
  | nil => cases signed
  | append_singleton inputs i ih =>
    rw [run_concat, recordsOf_step] at signed
    rcases List.mem_append.mp signed with old | new
    · obtain ⟨before, j, signature, after, node, rfl, there, eq⟩ := ih old
      exact ⟨before, j, signature, after ++ [i], node, by simp, there, eq⟩
    · have own : ∀ node, (run S inputs).nodes p = some node →
          node.behaviour.localPeerId = S.peer p := fun node here => (informed_run here).peer
      obtain ⟨j, signature, node, rfl, there, eq⟩ :=
        eq_of_announces (Option.mem_toList.mp new) own
      exact ⟨inputs, j, signature, [], node, rfl, by rwa [run_concat], eq⟩

/-! ## Nodes that have heard the latest record -/

/-- The node has handled the record while its peer was routable, and the peer has stayed
routable since. -/
def Heard (S : Setting ι) (inputs : List (Input S)) (n : ι) (r : ProviderRecord) : Prop :=
  ∃ before j signature after, inputs = before ++ .act n j signature :: after ∧
    (∃ node, (run S before).nodes n = some node ∧
      r.peerId ∈ node.behaviour.providerCache.routablePeers ∧
      j.2.record (S.codec (run S before).ledger) node.behaviour.membershipTopic = some r) ∧
    ∀ later, later <+: after → ∃ node,
      (run S (before ++ .act n j signature :: later)).nodes n = some node ∧
      r.peerId ∈ node.behaviour.providerCache.routablePeers

theorem timestamp_le_of_heard {r : ProviderRecord} (heard : Heard S inputs n r)
    (running : (run S inputs).nodes n = some node) :
    r.timestamp ≤ node.behaviour.providerCache.timestampOf r.peerId := by
  obtain ⟨before, j, signature, after, rfl, ⟨first, here, routable, carried⟩, since⟩ := heard
  -- By induction on what has happened since the record was handled.
  induction after using List.reverseRecOn generalizing node with
  | nil =>
    rw [run_concat] at running
    obtain rfl : first.step (S.codec (run S before).ledger) j = node := by
      simpa [step, nodesAfter, here] using running
    exact timestamp_le_step j carried routable
  | append_singleton after i ih =>
    have older : ∀ {node}, (run S (before ++ .act n j signature :: after)).nodes n = some node →
        r.timestamp ≤ node.behaviour.providerCache.timestampOf r.peerId := fun there =>
      ih there fun later initial => since later (initial.trans (List.prefix_append _ _))
    obtain ⟨last, lasting, stillRoutable⟩ := since (after ++ [i]) List.prefix_rfl
    obtain rfl : node = last := Option.some.inj (running.symm.trans lasting)
    rw [← List.cons_append, ← List.append_assoc, run_concat] at running
    cases came_of_step running with
    | stayed there => exact older there
    | started built =>
      have tables := related_new _ _ SameTables.ignores built
      rw [tables.routable] at stillRoutable
      cases stillRoutable
    | acted there => exact (older there).trans (timestampOf_le_step _ stillRoutable)

theorem eq_or_lt_of_last {l : List ProviderRecord} {r r' : ProviderRecord}
    (increasing : l.Pairwise fun r r' => r.timestamp < r'.timestamp)
    (last : l.getLast? = some r) (mem : r' ∈ l) : r' = r ∨ r'.timestamp < r.timestamp := by
  obtain ⟨before, rfl⟩ := List.getLast?_eq_some_iff.mp last
  rcases List.mem_append.mp mem with old | new
  · exact .inr ((List.pairwise_append.mp increasing).2.2 r' old r (List.mem_singleton_self r))
  · exact .inl (List.mem_singleton.mp new)

/-- What a node knows of a peer whose latest record it has heard. -/
theorem standsFor_of_heard {r : ProviderRecord}
    (increasing : ((run S inputs).recordsOf S p).Pairwise fun r r' => r.timestamp < r'.timestamp)
    (last : ((run S inputs).recordsOf S p).getLast? = some r) (dated : 0 < r.timestamp)
    (heard : Heard S inputs n r) (running : (run S inputs).nodes n = some node) :
    r.peerId = S.peer p ∧
      node.behaviour.providerCache.StandsFor {s | PinnedAt S inputs n s} r := by
  obtain ⟨_, _, _, _, _, -, -, eq⟩ := declared_of_mem_recordsOf (List.mem_of_getLast? last)
  have own : r.peerId = S.peer p := by rw [eq]
  have recent := timestamp_le_of_heard heard running
  obtain ⟨r', genuine, same, stands⟩ :=
    (informed_run running).reflects r.peerId (dated.trans_le recent)
  -- The node cannot have seen anything newer, so this is the record it goes by.
  have newest := eq_or_lt_of_last increasing last (genuine p (same.trans own))
  have stamp := stands.stamp
  rw [same] at stamp
  obtain rfl : r' = r := newest.resolve_right fun older =>
    absurd (recent.trans_eq stamp.symm) (not_le.mpr older)
  exact ⟨own, stands⟩

/-! ## What the latest record says -/

def Input.starts (p : ι) : Input S → Bool
  | .start n _ _ _ _ => n = p
  | _ => false

theorem nodes_eq_none (unstarted : inputs.countP (Input.starts p) = 0) :
    (run S inputs).nodes p = none := by
  induction inputs using List.reverseRecOn with
  | nil => rfl
  | append_singleton inputs i ih =>
    rw [List.countP_append, Nat.add_eq_zero_iff] at unstarted
    have none := ih unstarted.1
    rw [run_concat]
    cases came : ((run S inputs).step S i).nodes p with
    | none => rfl
    | some node =>
      cases came_of_step came with
      | stayed here => rw [none] at here; cases here
      | started built => simp [Input.starts] at unstarted
      | acted here => rw [none] at here; cases here

theorem recordsOf_eq_nil (unstarted : inputs.countP (Input.starts p) = 0) :
    (run S inputs).recordsOf S p = [] := by
  induction inputs using List.reverseRecOn with
  | nil => rfl
  | append_singleton inputs i ih =>
    rw [List.countP_append, Nat.add_eq_zero_iff] at unstarted
    have none : (run S inputs).announces S p i = none := by
      cases i with
      | act n j signature => simp [announces, nodes_eq_none unstarted.1]
      | _ => rfl
    rw [run_concat, recordsOf_step, ih unstarted.1, none]
    rfl

/-- The latest record of a node lists what it provides, if it has been started once and has
never failed to sign or to subscribe. -/
theorem subnetIds_of_last {r : ProviderRecord} (once : inputs.countP (Input.starts p) ≤ 1)
    (running : (run S inputs).nodes p = some node) (subscribes : Subscribes node.ok)
    (signable : ∀ k, node.ok k .sign = true)
    (last : ((run S inputs).recordsOf S p).getLast? = some r) :
    node.behaviour.subnetIds = r.subnetIds := by
  induction inputs using List.reverseRecOn generalizing node with
  | nil => cases running
  | append_singleton inputs i ih =>
    rw [List.countP_append] at once
    have before : inputs.countP (Input.starts p) ≤ 1 := by omega
    rw [run_concat] at running last
    rw [recordsOf_step] at last
    cases came_of_step running with
    | stayed here idle =>
      rw [idle, Option.toList_none, List.append_nil] at last
      exact ih before here subscribes signable last
    | @started ok now networkName mc b built =>
      have first : inputs.countP (Input.starts p) = 0 := by
        have counted : [Input.start (S := S) p ok now networkName mc].countP (Input.starts p) = 1 :=
          by simp [Input.starts]
        omega
      rw [recordsOf_eq_nil first] at last
      cases last
    | @acted j signature node here =>
      have announces : (run S inputs).announces S p (.act p j signature) =
          node.behaviour.signs node.ok (S.codec (run S inputs).ledger) j := by
        simp [announces, here]
      rw [announces] at last
      cases signs : node.behaviour.signs node.ok (S.codec (run S inputs).ledger) j with
      | none =>
        rw [signs, Option.toList_none, List.append_nil] at last
        exact (subnetIds_step_of_unsigned subscribes signable _ j signs).trans
          (ih before here subscribes signable last)
      | some r' =>
        rw [signs, Option.toList_some, List.getLast?_concat] at last
        rw [← Option.some.inj last, eq_of_signs signs]
        rfl

/-! ## A network of two -/

/-- Two nodes in the network in which nothing but the signatures made verifies. -/
def pair (e : Encodings) : Setting Bool where
  encodings := e
  sha256 := id
  verify ledger := fun k m s => decide (⟨k, m, s⟩ ∈ ledger.map (Signing.signed e))
  sound _ := verifies_ledger _
  keys n := ⟨1, [if n then 1 else 0]⟩
  keys_injective := by decide

section Pair

variable (e : Encodings)

/-- What the provider signs in the run below. -/
def pairRecord : ProviderRecord := ⟨(pair e).peer true, [⟨"/root/t01"⟩], 5⟩

/-- One node pins a subnet and learns of the other, which then provides the subnet. -/
def pairStart : List (Input (pair e)) :=
  let ok : Oracle := fun _ _ => true
  [.start true ok 0 "net" ⟨[], 10, 60, 5, 30⟩,
    .start false ok 0 "net" ⟨[⟨"/root/t01"⟩], 10, 60, 5, 30⟩,
    .act false (⟨1, .plain⟩, .discovery (.added ((pair e).peer true) [])) [],
    .act true (⟨5, .plain⟩, .request (.addProvidedSubnet ⟨"/root/t01"⟩)) [9]]

/-- The record of the provider on the wire. -/
def pairMessage : Moment × Membership.Input :=
  (⟨6, .plain⟩, .gossip (.message (membershipTopicOf "net") (e.envelope.encode
    (SignedRecord.new (e.record .provider) ((pair e).keys true) (pairRecord e) [9]).envelope)))

def pairRun : List (Input (pair e)) := pairStart e ++ [.act false (pairMessage e) []]

theorem read_pairMessage :
    (pairMessage e).2.record ((pair e).codec (run (pair e) (pairStart e)).ledger)
      (membershipTopicOf "net") = some (pairRecord e) := by
  have own : (e.record .provider).checkSigningKey (pairRecord e) ((pair e).keys true) = true :=
    e.checkSigningKey_provider.mpr rfl
  have made := ((pair e).sound (run (pair e) (pairStart e)).ledger).complete
    ⟨(pair e).keys true, SignedRecord.signable (e.record .provider) (pairRecord e), [9]⟩
    (List.mem_singleton_self _)
  simp only [pairMessage, Input.record, if_true]
  exact Encodings.read_eq_some.mpr ⟨_, SignedRecord.fromBytes_new own made, rfl⟩

/-- The listener once it has handled the message. -/
theorem pairRun_listener : ∃ node before, (run (pair e) (pairRun e)).nodes false = some node ∧
    (run (pair e) (pairStart e)).nodes false = some before ∧
    node = before.step ((pair e).codec (run (pair e) (pairStart e)).ledger) (pairMessage e) ∧
    before.behaviour.membershipTopic = membershipTopicOf "net" ∧
    before.behaviour.providerCache.routablePeers = {(pair e).peer true} ∧
    before.behaviour.providerCache.pinnedSubnets = {⟨"/root/t01"⟩} :=
  ⟨_, _, rfl, rfl, rfl, rfl, rfl, rfl⟩

theorem routable_step_gossip {ok : Oracle} {codec : Codec} {b : Behaviour} (m : Moment)
    (g : GossipsubEvent) : (b.step ok codec (m, .gossip g)).providerCache.routablePeers =
      b.providerCache.routablePeers := by
  rw [(sameTables_step ok codec b (m, .gossip g)).routable]
  simp only [Behaviour.applied, Input.cacheOp]
  split
  · rename_i op found
    obtain ⟨r, -, rfl⟩ := Option.map_eq_some_iff.mp found
    exact SubnetProviderCache.routable_addProvider ..
  · rfl

theorem heard_pairRun : Heard (pair e) (pairRun e) false (pairRecord e) := by
  obtain ⟨node, before, there, here, rfl, topic, routable, -⟩ := pairRun_listener e
  have known : (pairRecord e).peerId ∈ before.behaviour.providerCache.routablePeers := by
    rw [routable]
    exact Finset.mem_singleton_self _
  refine ⟨pairStart e, pairMessage e, [], [], rfl, ⟨before, here, known, ?_⟩, ?_⟩
  · rw [topic]
    exact read_pairMessage e
  · intro later initial
    obtain rfl := List.prefix_nil.mp initial
    refine ⟨_, there, ?_⟩
    exact (routable_step_gossip _ _).symm ▸ known

theorem pinned_pairRun : PinnedAt (pair e) (pairRun e) false ⟨"/root/t01"⟩ := by
  have later : ∀ node, (run (pair e) (pairRun e)).nodes false = some node →
      ⟨"/root/t01"⟩ ∈ node.behaviour.providerCache.pinnedSubnets := by
    intro node there
    obtain ⟨_, before, same, -, rfl, -, -, pinned⟩ := pairRun_listener e
    obtain rfl := Option.some.inj (same.symm.trans there)
    have kept := related_step before.ok ((pair e).codec (run (pair e) (pairStart e)).ledger)
      SameSubscriptions.background before.behaviour (pairMessage e).1 (i := (pairMessage e).2)
      (by simp [pairMessage])
    have applied := sameSubscriptions_applied ((pair e).codec (run (pair e) (pairStart e)).ledger)
      before.behaviour (pairMessage e)
    have eq := kept.pinned.trans (applied.pinned.trans pinned)
    exact eq ▸ Finset.mem_singleton_self _
  intro before initial node running
  simp only [pairRun, pairStart, List.cons_append, List.nil_append, List.prefix_cons_iff,
    List.prefix_nil] at initial
  rcases initial with rfl | ⟨_, rfl, rfl | ⟨_, rfl, rfl | ⟨_, rfl, rfl | ⟨_, rfl,
    rfl | ⟨_, rfl, rfl⟩⟩⟩⟩⟩
  · cases running
  · cases running
  · cases running
    exact Finset.mem_singleton_self _
  · cases running
    exact Finset.mem_singleton_self _
  · cases running
    exact Finset.mem_singleton_self _
  · exact later node running

end Pair

/-! ## Who is listed -/

/-- Whoever a node lists as a provider of a subnet has provided it: the timestamp the node
holds of a peer is the time of a step of this peer, after which the peer provided every subnet
it is listed under. -/
theorem listings_authentic (S : Setting ι) (inputs : List (Input S)) (n p : ι) (node : Node)
    (running : (run S inputs).nodes n = some node) (s : SubnetID)
    (listed : S.peer p ∈ node.behaviour.providersOfSubnet s) :
    ∃ before m i signature after provider,
      inputs = before ++ .act p (m, i) signature :: after ∧
      m.now = node.behaviour.providerCache.timestampOf (S.peer p) ∧
      (run S (before ++ [.act p (m, i) signature])).nodes p = some provider ∧
      s ∈ provider.behaviour.subnetIds := by
  have informed := informed_run running
  obtain ⟨r, genuine, own, stands⟩ := informed.reflects _ (informed.stamped _ s listed)
  obtain ⟨before, ⟨m, i⟩, signature, after, provider, eq, there, rfl⟩ :=
    declared_of_mem_recordsOf (genuine p own)
  exact ⟨before, m, i, signature, after, provider, eq, stands.stamp, there, stands.listed s listed⟩

/-- One node has handled the record of the other. -/
theorem listings_authentic_pair :
    ∃ (S : Setting Bool) (inputs : List (Input S)) (node : Node),
      (run S inputs).nodes false = some node ∧
      S.peer true ∈ node.behaviour.providersOfSubnet ⟨"/root/t01"⟩ ∧
      ∃ (before : List (Input S)) (m : Moment) (i : Membership.Input) (signature : Signature)
          (after : List (Input S)) (provider : Node),
        inputs = before ++ .act true (m, i) signature :: after ∧
        m.now = node.behaviour.providerCache.timestampOf (S.peer true) ∧
        (run S (before ++ [.act true (m, i) signature])).nodes true = some provider ∧
        ⟨"/root/t01"⟩ ∈ provider.behaviour.subnetIds := by
  obtain ⟨e⟩ := nonempty_encodings
  obtain ⟨node, -, running, -⟩ := pairRun_listener e
  have stands := (standsFor_of_heard (p := true) (List.pairwise_singleton _ _) rfl
    (Nat.succ_pos 4) (heard_pairRun e) running).2
  have listed := stands.kept _ (pinned_pairRun e) (List.mem_singleton_self _)
  exact ⟨pair e, pairRun e, node, running, listed,
    listings_authentic (pair e) (pairRun e) false true node running _ listed⟩

/-- The nodes agree on what a node provides, once they have heard of it. Let a node have been
started once, let its calls to sign and to subscribe never fail, and let its records be dated in
the order in which it has signed them, none like the one before and none at 0. Then any node that
has handled its latest record, with the provider routable ever since, lists it under no subnet
that it does not provide, and under all those it provides that stay pinned. -/
theorem listings_converge (S : Setting ι) (inputs : List (Input S)) (n p : ι)
    (node provider : Node) (running : (run S inputs).nodes n = some node)
    (providing : (run S inputs).nodes p = some provider)
    (once : inputs.countP (Input.starts p) ≤ 1) (subscribes : Subscribes provider.ok)
    (signable : ∀ k, provider.ok k .sign = true)
    (increasing : ((run S inputs).recordsOf S p).Pairwise fun r r' => r.timestamp < r'.timestamp)
    (r : ProviderRecord) (last : ((run S inputs).recordsOf S p).getLast? = some r)
    (dated : 0 < r.timestamp) (heard : Heard S inputs n r) (s : SubnetID) :
    (S.peer p ∈ node.behaviour.providersOfSubnet s → s ∈ provider.behaviour.subnetIds) ∧
    (PinnedAt S inputs n s → s ∈ provider.behaviour.subnetIds →
      S.peer p ∈ node.behaviour.providersOfSubnet s) := by
  obtain ⟨own, stands⟩ := standsFor_of_heard increasing last dated heard running
  rw [subnetIds_of_last once providing subscribes signable last, ← own]
  exact ⟨stands.listed s, fun pinned => stands.kept s pinned⟩

/-- The other node provides the subnet, and is listed. -/
theorem listings_converge_pair :
    ∃ (S : Setting Bool) (inputs : List (Input S)) (node provider : Node),
      (run S inputs).nodes false = some node ∧ (run S inputs).nodes true = some provider ∧
      ⟨"/root/t01"⟩ ∈ provider.behaviour.subnetIds ∧
      S.peer true ∈ node.behaviour.providersOfSubnet ⟨"/root/t01"⟩ := by
  obtain ⟨e⟩ := nonempty_encodings
  obtain ⟨node, -, running, -⟩ := pairRun_listener e
  refine ⟨pair e, pairRun e, node, _, running, rfl, List.mem_singleton_self _, ?_⟩
  exact (listings_converge (pair e) (pairRun e) false true node _ running rfl (Nat.le_refl 1)
    (fun _ _ => ⟨rfl, rfl⟩) (fun _ => rfl) (List.pairwise_singleton _ _) (pairRecord e) rfl
    (Nat.succ_pos 4) (heard_pairRun e) _).2 (pinned_pairRun e) (List.mem_singleton_self _)

end Network

end IpcAgent.Resolver
