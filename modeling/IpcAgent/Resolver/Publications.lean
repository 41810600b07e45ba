import IpcAgent.Resolver.ClientEvents

/-!
# What is published arrives

`publish_vote` and `publish_preemptive`, from the request of a client of one node to what the
clients of the other nodes hear. Gossipsub hands a message to the nodes that are subscribed to
its topic.
-/

namespace IpcAgent.Resolver
open Library IpcAgent.Resolver.Membership

/-- `SignedVoteRecord`: a record comes with an envelope that it can be read from again. -/
structure SignedVoteRecord (e : Encodings) (verify : Verify) extends SignedRecord VoteRecord where
  valid : SignedRecord.fromSignedEnvelope (e.record .vote) verify envelope = .ok toSignedRecord

namespace SignedVoteRecord

variable {e : Encodings} {verify : Verify}

/-- `VoteRecord::signed`, given the signature that the key has made. -/
def signed (v : VoteRecord) (signature : Signature)
    (made : verify v.publicKey (SignedRecord.signable (e.record .vote) v) signature = true) :
    SignedVoteRecord e verify where
  toSignedRecord := .new (e.record .vote) v.publicKey v signature
  valid := SignedRecord.fromSignedEnvelope_eq_ok.mpr
    ⟨⟨rfl, made⟩, (e.record .vote).cbor.decode_encode v, e.checkSigningKey_vote.mpr rfl, rfl⟩

/-- What is written for a record is read as this record. -/
theorem read_encode (sr : SignedVoteRecord e verify) :
    e.read verify .vote (e.envelope.encode sr.envelope) = some sr.record :=
  Encodings.read_eq_some.mpr ⟨sr.toSignedRecord,
    SignedRecord.fromBytes_eq_ok.mpr ⟨sr.envelope, e.envelope.decode_encode _, sr.valid⟩, rfl⟩

end SignedVoteRecord

/-- What a client can ask a node to publish. -/
inductive Publication (e : Encodings) (verify : Verify)
  | vote (record : SignedVoteRecord e verify)
  | preemptive (subnet : SubnetID) (data : List UInt8)

namespace Publication

variable {e : Encodings} {verify : Verify}

/-- The topic it is published on. -/
def on : Publication e verify → Topic
  | vote sr => .voting sr.record.subnetId
  | preemptive subnet _ => .preemptive subnet

/-- The data handed to Gossipsub. -/
def data : Publication e verify → List UInt8
  | vote sr => e.envelope.encode sr.envelope
  | preemptive _ data => data

/-- The request that is passed on to the membership behaviour. -/
def request : Publication e verify → Request
  | vote sr => .publishVote ⟨sr.record, e.envelope.encode sr.envelope⟩
  | preemptive subnet data => .publishPreemptive subnet data

/-- What the clients of the other nodes are to hear. -/
def event : Publication e verify → ServiceEvent
  | vote sr => .receivedVote sr.record
  | preemptive subnet data => .receivedPreemptive subnet data

/-- The node provides the subnet of a vote, or has pinned the subnet of the data. -/
def WantedBy (b : Behaviour) : Publication e verify → Prop
  | vote sr => sr.record.subnetId ∈ b.subnetIds
  | preemptive subnet _ => subnet ∈ b.providerCache.pinnedSubnets

theorem wantedBy_iff {p : Publication e verify} {b : Behaviour} :
    p.WantedBy b ↔ p.on ∈ Topic.wanted {id | id ∈ b.subnetIds} b.providerCache.pinnedSubnets := by
  cases p <;> exact .rfl

/-- The only call that the request makes is to publish the data on the topic. -/
theorem action_request (ok : Oracle) (codec : Codec) (now : Timestamp) (p : Publication e verify)
    (sender : Behaviour) :
    (p.request.action ok codec now).run.run sender =
      (Behaviour.call ok (.publish (Topic.hash codec sender.networkName p.on)
        (.bytes p.data))).run.run sender := by
  cases p <;> rfl

end Publication

/-! ## The receiver -/

namespace Membership

theorem hears_append (ok : Oracle) (codec : Codec) (b : Behaviour)
    (inputs inputs' : List (Moment × Input)) :
    b.hears ok codec (inputs ++ inputs') =
      b.hears ok codec inputs ++ (b.run ok codec inputs).hears ok codec inputs' := by
  induction inputs generalizing b with
  | nil => rfl
  | cons i inputs ih =>
    rw [List.cons_append, Behaviour.hears, ih, Behaviour.hears, List.append_assoc]
    rfl

section Aligned

variable {e : Encodings} {sha256 : String → String} {verify : Verify} {network : String}
  {S : Set SubnetID} {b : Behaviour} {p : Publication e verify}
  (sep : Set.InjOn (Topic.hash (e.codec sha256 verify) network) (Topic.among S))
  (aligned : Aligned (e.codec sha256 verify) network S b) (known : p.on ∈ Topic.among S)

include sep aligned known

/-- Topics of the network are subscribed to as wanted. -/
theorem Aligned.subscribed_iff :
    Topic.hash (e.codec sha256 verify) network p.on ∈ b.inner.subscribed ↔ p.WantedBy b := by
  obtain ⟨provided, pinned, -, -, -, -, subscribed⟩ := aligned
  rw [Publication.wantedBy_iff, subscribed]
  constructor
  · rintro ⟨t, wanted, eq⟩
    exact sep (Topic.wanted_subset_among provided pinned wanted) known eq ▸ wanted
  · exact fun wanted => ⟨_, wanted, rfl⟩

theorem Aligned.ne_membershipTopic :
    Topic.hash (e.codec sha256 verify) network p.on ≠ b.membershipTopic := by
  obtain ⟨-, -, -, membership, -, -, -⟩ := aligned
  rw [membership]
  intro eq
  have same := sep known Topic.membership_mem_among eq
  cases p <;> cases same

theorem Aligned.mem_votingTopics :
    Topic.hash (e.codec sha256 verify) network p.on ∈ b.votingTopics ↔
      ∃ id ∈ b.subnetIds, p.on = .voting id := by
  obtain ⟨provided, -, -, -, voting, -, -⟩ := aligned
  rw [voting, Topic.exists_votes]
  constructor
  · rintro ⟨id, mem, eq⟩
    exact ⟨id, mem, (sep (Topic.voting_mem_among.mpr (provided id mem)) known eq).symm⟩
  · rintro ⟨id, mem, eq⟩
    exact ⟨id, mem, congrArg _ eq.symm⟩

theorem Aligned.lookup_preemptiveTopics (id : SubnetID) :
    b.preemptiveTopics.lookup (Topic.hash (e.codec sha256 verify) network p.on) = some id ↔
      id ∈ b.providerCache.pinnedSubnets ∧ p.on = .preemptive id := by
  obtain ⟨-, pinned, -, -, -, preemptive, -⟩ := aligned
  rw [preemptive]
  refine and_congr_right fun mem => ?_
  constructor
  · exact fun eq => (sep (Topic.preemptive_mem_among.mpr (pinned id mem)) known eq).symm
  · exact fun eq => congrArg _ eq.symm

/-- The node raises the event of what it wants, and nothing for the rest. -/
theorem Aligned.heard_message (topic : TopicHash)
    (same : topic = Topic.hash (e.codec sha256 verify) network p.on) :
    (p.WantedBy b → (b.heard (e.codec sha256 verify) (.gossip (.message topic p.data))).filterMap
      ServiceEvent.of = [p.event]) ∧
    (¬ p.WantedBy b → (b.heard (e.codec sha256 verify)
      (.gossip (.message topic p.data))).filterMap ServiceEvent.of = []) := by
  subst same
  have other := aligned.ne_membershipTopic sep known
  have voting := aligned.mem_votingTopics sep known
  have preemptive := aligned.lookup_preemptiveTopics sep known
  simp only [Behaviour.heard, if_neg other]
  cases p with
  | vote sr =>
    have read : (e.codec sha256 verify).voteRecord (Publication.vote sr).data = some sr.record :=
      sr.read_encode
    refine ⟨fun wanted => ?_, fun unwanted => ?_⟩
    · rw [if_pos (voting.mpr ⟨_, wanted, rfl⟩), read]
      rfl
    · have left : ¬ ∃ id ∈ b.subnetIds, (Publication.vote sr).on = .voting id := by
        rintro ⟨id, mem, eq⟩
        have same : sr.record.subnetId = id := Topic.voting.inj eq
        exact unwanted (same ▸ mem : sr.record.subnetId ∈ b.subnetIds)
      rw [if_neg (voting.not.mpr left)]
      cases found : b.preemptiveTopics.lookup _ with
      | none => rfl
      | some id => cases ((preemptive id).mp found).2
  | preemptive subnet data =>
    have left := voting.not.mpr (by
      rintro ⟨id, -, eq⟩
      cases eq)
    rw [if_neg left]
    refine ⟨fun wanted => ?_, fun unwanted => ?_⟩
    · rw [(preemptive subnet).mpr ⟨wanted, rfl⟩]
      rfl
    · cases found : b.preemptiveTopics.lookup _ with
      | none => rfl
      | some id =>
        obtain ⟨mem, eq⟩ := (preemptive id).mp found
        exact absurd (Topic.preemptive.inj eq ▸ mem) unwanted

end Aligned

end Membership

namespace Publication

variable {e : Encodings} {verify : Verify}

/-- A publication reaches the nodes that want it, and them only. A request to publish comes down
to one call, with one topic and some data. Any node of the same network is subscribed to this topic
just while it wants the publication; if a message with this topic and data comes in then, the
clients are to hear just what was published, and if it comes in at any other time they hear
nothing. -/
theorem publications_arrive (sha256 : String → String) (p : Publication e verify)
    (sender : Behaviour) (ok ok' : Oracle) (subscribes : Subscribes ok') (start : Timestamp)
    (nc : NetworkConfig) (mc : Config) (b : Behaviour)
    (built : Membership.new ok' (e.codec sha256 verify) start nc mc = .ok b)
    (network : nc.networkName = sender.networkName) (inputs : List (Moment × Membership.Input))
    (sep : Set.InjOn (Topic.hash (e.codec sha256 verify) nc.networkName)
      (Topic.among (declared mc inputs ∪ {id | id ∈ p.on.subnet}))) (m : Moment) :
    ∃ topic data,
      (∀ now, (p.request.action ok (e.codec sha256 verify) now).run.run sender =
        (Behaviour.call ok (.publish topic (.bytes data))).run.run sender) ∧
      let receiver := b.run ok' (e.codec sha256 verify) inputs
      (topic ∈ receiver.inner.subscribed ↔ p.WantedBy receiver) ∧
      (p.WantedBy receiver → b.hears ok' (e.codec sha256 verify)
          (inputs ++ [(m, .gossip (.message topic data))]) =
        b.hears ok' (e.codec sha256 verify) inputs ++ [p.event]) ∧
      (¬ p.WantedBy receiver → b.hears ok' (e.codec sha256 verify)
          (inputs ++ [(m, .gossip (.message topic data))]) =
        b.hears ok' (e.codec sha256 verify) inputs) := by
  refine ⟨Topic.hash (e.codec sha256 verify) nc.networkName p.on, p.data, fun now => ?_, ?_⟩
  · rw [network]
    exact p.action_request ok _ now sender
  · intro receiver
    have aligned : Aligned (e.codec sha256 verify) nc.networkName _ receiver :=
      (aligned_new subscribes sep built rfl fun id mem => .inl (.inl mem)).run subscribes sep
        inputs fun i mem id named => .inl (.inr ⟨i, mem, named⟩)
    have known : p.on ∈ Topic.among (declared mc inputs ∪ {id | id ∈ p.on.subnet}) :=
      fun id mem => .inr mem
    obtain ⟨wanted, unwanted⟩ := aligned.heard_message sep known _ rfl
    refine ⟨aligned.subscribed_iff sep known, fun wants => ?_, fun rejects => ?_⟩
    · rw [hears_append, Behaviour.hears, wanted wants]
      rfl
    · rw [hears_append, Behaviour.hears, unwanted rejects]
      exact List.append_nil _

/-- A vote that one node publishes, and another node that provides its subnet. -/
theorem publications_arrive_vote :
    let vote : VoteRecord := ⟨⟨1, [7]⟩, ⟨"/root/t01"⟩, ⟨[1]⟩, "valid", 1⟩
    let codec (e : Encodings) := e.codec ("#" ++ ·) fun _ _ _ => true
    let sender := initial 0 ⟨⟨[1]⟩, "net"⟩ ⟨[], 10, 60, 5, 30⟩
    let inputs : List (Moment × Membership.Input) :=
      [(⟨1, .plain⟩, .request (.addProvidedSubnet ⟨"/root/t01"⟩))]
    ∃ (e : Encodings) (p : Publication e fun _ _ _ => true) (b : Behaviour) (topic : TopicHash)
        (data : List UInt8),
      (p.request.action (fun _ _ => true) (codec e) 2).run.run sender =
        (Behaviour.call (fun _ _ => true) (.publish topic (.bytes data))).run.run sender ∧
      Membership.new (fun _ _ => true) (codec e) 0 ⟨⟨[0]⟩, "net"⟩ ⟨[], 10, 60, 5, 30⟩ = .ok b ∧
      b.hears (fun _ _ => true) (codec e)
          (inputs ++ [(⟨2, .plain⟩, .gossip (.message topic data))]) =
        b.hears (fun _ _ => true) (codec e) inputs ++ [.receivedVote vote] := by
  intro vote codec sender inputs
  obtain ⟨e⟩ := nonempty_encodings
  let p : Publication e fun _ _ _ => true := .vote (.signed vote [9] rfl)
  have sep : Set.InjOn (Topic.hash (codec e) "net")
      (Topic.among (declared ⟨[], 10, 60, 5, 30⟩ inputs ∪ {id | id ∈ p.on.subnet})) := by
    refine Topic.injOn_hash (fun s t => (String.append_right_inj "#").mp) ?_ ?_
    · intro s eq
      have eq := congrArg String.toList eq
      simp [codec, Encodings.codec, membershipTopicOf, pubsubMembership] at eq
    · have only : ∀ id ∈ declared ⟨[], 10, 60, 5, 30⟩ inputs ∪ {id | id ∈ p.on.subnet},
          id = ⟨"/root/t01"⟩ := by
        rintro id ((mem | ⟨i, mem, named⟩) | mem)
        · cases mem
        · rw [List.mem_singleton.mp mem] at named
          exact List.mem_singleton.mp named
        · exact (Option.some.inj mem).symm
      intro id mem
      rw [only id mem]
      decide
  obtain ⟨topic, data, publishes, -, arrives, -⟩ := publications_arrive ("#" ++ ·) p sender
    (fun _ _ => true) (fun _ _ => true) (fun _ _ => ⟨rfl, rfl⟩) 0 ⟨⟨[0]⟩, "net"⟩
    ⟨[], 10, 60, 5, 30⟩ _ rfl rfl inputs sep ⟨2, .plain⟩
  exact ⟨e, p, _, topic, data, publishes 2, rfl, arrives (List.mem_singleton_self _)⟩

end Publication

end IpcAgent.Resolver
