import IpcAgent.Library.Run
import IpcAgent.Resolver.MembershipEvents
import IpcAgent.Resolver.Subscriptions

/-!
# Votes and the topics they arrive on

A vote names its subnet, and a message its topic. Nothing in `handle_message` compares the
two: whether a vote stays within its subnet is up to those who gossip it.
-/

namespace IpcAgent.Resolver.Membership
open Library

namespace Input

/-- The vote an input carries. -/
def vote (codec : Codec) : Input → Option VoteRecord
  | .gossip (.message _ data) => codec.voteRecord data
  | _ => none

/-- The topic an input arrives on. -/
def topic : Input → Option TopicHash
  | .gossip (.message topic _) => some topic
  | _ => none

end Input

namespace Behaviour

variable (ok : Oracle) (codec : Codec)

/-- The input makes the node put a vote into its outbox. -/
def TakesVote (b : Behaviour) (i : Moment × Input) (v : VoteRecord) : Prop :=
  ∃ events, (b.step ok codec i).outbox = b.outbox ++ events ∧ .receivedVote v ∈ events

/-- A vote the node takes in is about a subnet it provides, and came on the topic of this
subnet. -/
def KeepsVote (b : Behaviour) (i : Moment × Input) : Prop :=
  ∀ v, b.TakesVote ok codec i v → v.subnetId ∈ b.subnetIds ∧
    i.2.topic = some ⟨codec.sha256 (b.votingTopic v.subnetId)⟩

/-- No step of a run takes in a vote that does not belong there. -/
def KeepsVotes (b : Behaviour) (inputs : List (Moment × Input)) : Prop :=
  Along (Behaviour.step ok codec) (KeepsVote ok codec) b inputs

/-- If the input is a vote on a voting topic of the node, it is on the topic of its own
subnet. -/
def OwnTopic (b : Behaviour) (i : Moment × Input) : Prop :=
  ∀ v ∈ i.2.vote codec, ∀ topic ∈ i.2.topic, topic ∈ b.votingTopics →
    topic = ⟨codec.sha256 (b.votingTopic v.subnetId)⟩

instance (b : Behaviour) (i : Moment × Input) : Decidable (b.OwnTopic codec i) :=
  inferInstanceAs (Decidable (∀ v ∈ _, ∀ topic ∈ _, _ → _))

/-- Everyone keeps to the topics of the subnets they vote in. -/
def OwnTopics (b : Behaviour) (inputs : List (Moment × Input)) : Prop :=
  Along (Behaviour.step ok codec) (OwnTopic codec) b inputs

end Behaviour

/-! ## Which votes are taken in -/

/-- The operations on the cache report no votes. -/
theorem receivedVote_notMem_cacheEvents (w : Walks) (c : SubnetProviderCache) (op : CacheOp)
    (v : VoteRecord) : .receivedVote v ∉ cacheEvents w c op := by
  cases op with
  | addProvider r =>
    simp only [cacheEvents, Option.mem_toList, Behaviour.recordEvent]
    split
    · simp
    · split <;> simp
  | pruneProviders cutoff => simp [cacheEvents]
  | _ => simp [cacheEvents]

theorem receivedVote_mem_raised {codec : Codec} {b : Behaviour} {i : Moment × Input}
    {v : VoteRecord} :
    .receivedVote v ∈ b.raised codec i ↔ i.2.vote codec = some v ∧
      ∃ topic ∈ i.2.topic, topic ≠ b.membershipTopic ∧ topic ∈ b.votingTopics := by
  obtain ⟨m, i⟩ := i
  have notOp : ∀ op, Input.cacheOp codec b.membershipTopic b.maxProviderAge (m, i) = some op →
      .receivedVote v ∉ b.raised codec (m, i) := by
    intro op isOp taken
    unfold Behaviour.raised at taken
    rw [isOp] at taken
    exact receivedVote_notMem_cacheEvents _ _ op v taken
  cases i with
  | tick => simp [notOp _ rfl, Input.vote]
  | discovery e => cases e <;> simp [notOp _ rfl, Input.vote]
  | emit =>
    simp [Behaviour.raised, Input.cacheOp, Input.record, Behaviour.heard, Input.vote]
  | request r =>
    simp [Behaviour.raised, Input.cacheOp, Input.record, Behaviour.heard, Input.vote]
  | gossip e =>
    cases e with
    | message topic data =>
      by_cases ht : topic = b.membershipTopic
      · subst ht
        -- A record may have come on this topic, but no vote.
        cases op : Input.cacheOp codec b.membershipTopic b.maxProviderAge
            (m, .gossip (.message b.membershipTopic data)) with
        | some op' => simp [notOp op' op, Input.topic]
        | none => simp [Behaviour.raised, op, Behaviour.heard, Input.topic]
      · by_cases hv : topic ∈ b.votingTopics <;>
          simp [Behaviour.raised, Input.cacheOp, Input.record, Behaviour.heard, Input.vote,
            Input.topic, ht, hv]
    | _ => simp [Behaviour.raised, Input.cacheOp, Input.record, Behaviour.heard, Input.vote]

/-- A vote is taken in just if it can be decoded and comes on a voting topic. -/
theorem takesVote_iff {ok : Oracle} {codec : Codec} {b : Behaviour} {i : Moment × Input}
    {v : VoteRecord} :
    b.TakesVote ok codec i v ↔ i.2.vote codec = some v ∧
      ∃ topic ∈ i.2.topic, topic ≠ b.membershipTopic ∧ topic ∈ b.votingTopics := by
  by_cases emit : i.2 = .emit
  · -- Taking an event out adds none.
    simp only [emit, Input.vote, reduceCtorEq, false_and, iff_false]
    rintro ⟨events, eq, mem⟩
    have shorter := congrArg List.length eq
    have : 0 < events.length := List.length_pos_of_mem mem
    obtain ⟨m, i⟩ := i
    obtain rfl := emit
    simp only [Behaviour.step, List.length_tail, List.length_append] at shorter
    omega
  · rw [← receivedVote_mem_raised]
    unfold Behaviour.TakesVote
    rw [outbox_step ok codec b i emit]
    constructor
    · rintro ⟨events, eq, mem⟩
      rwa [List.append_cancel_left eq]
    · exact fun mem => ⟨_, rfl, mem⟩

/-! ## Whole runs -/

/-- The subnets named in the course of a run, by the node or in a vote. -/
def named (codec : Codec) (mc : Config) (inputs : List (Moment × Input)) : Set SubnetID :=
  declared mc inputs ∪ {id | ∃ i ∈ inputs, ∃ v ∈ i.2.vote codec, v.subnetId = id}

section Aligned

variable {ok : Oracle} {codec : Codec} {network : String} {S : Set SubnetID} {b : Behaviour}
  (sep : Set.InjOn (Topic.hash codec network) (Topic.among S))

include sep

/-- In a behaviour subscribed as it should be, topics tell subnets apart. -/
theorem Aligned.keepsVote_iff (aligned : Aligned codec network S b) (i : Moment × Input)
    (known : ∀ v ∈ i.2.vote codec, v.subnetId ∈ S) :
    b.KeepsVote ok codec i ↔ b.OwnTopic codec i := by
  obtain ⟨provided, pinned, rfl, membership, voting, preemptive, subscribed⟩ := aligned
  have other : ∀ topic ∈ b.votingTopics, topic ≠ b.membershipTopic := by
    rintro topic mem rfl
    obtain ⟨id, hid, eq⟩ := Topic.exists_votes.mp ((voting _).mp mem)
    rw [membership] at eq
    cases sep (Topic.voting_mem_among.mpr (provided id hid)) Topic.membership_mem_among eq
  unfold Behaviour.KeepsVote Behaviour.OwnTopic
  simp only [takesVote_iff]
  constructor
  · intro keeps v hv topic ht mem
    have own := (keeps v ⟨hv, topic, ht, other topic mem, mem⟩).2
    rw [ht] at own
    exact Option.some.inj own
  · rintro own v ⟨hv, topic, ht, -, mem⟩
    have eq := own v hv topic ht mem
    obtain ⟨id, hid, same⟩ := Topic.exists_votes.mp ((voting _).mp mem)
    have same : Topic.hash codec b.networkName (.voting id) =
        Topic.hash codec b.networkName (.voting v.subnetId) := same.trans eq
    obtain rfl := Topic.voting.inj (sep (Topic.voting_mem_among.mpr (provided id hid))
      (Topic.voting_mem_among.mpr (known v hv)) same)
    exact ⟨hid, ht.trans (congrArg some eq)⟩

end Aligned

/-- The votes a node takes in stay within their subnets just if everyone gossips them on the
topics of their subnets. -/
theorem keepsVotes_iff_ownTopics (ok : Oracle) (codec : Codec) (now : Timestamp)
    (nc : NetworkConfig) (mc : Config) (b : Behaviour) (built : new ok codec now nc mc = .ok b)
    (subscribes : Subscribes ok) (inputs : List (Moment × Input))
    (sep : Set.InjOn (Topic.hash codec nc.networkName) (Topic.among (named codec mc inputs))) :
    b.KeepsVotes ok codec inputs ↔ b.OwnTopics ok codec inputs := by
  have start := aligned_new subscribes sep built rfl fun id mem => .inl (.inl mem)
  refine along_congr start ?_ ?_
  · intro b i mem aligned
    exact aligned.step subscribes sep i fun id hid => .inl (.inr ⟨i, mem, hid⟩)
  · intro b i mem aligned
    exact aligned.keepsVote_iff sep i fun v hv => .inr ⟨i, mem, v, hv, rfl⟩

/-- A vote about the subnet a node provides. -/
theorem keepsVotes_own_subnet :
    let vote : VoteRecord := ⟨⟨1, [7]⟩, ⟨"/root/t01"⟩, ⟨[1]⟩, "valid", 1⟩
    let codec : Codec := ⟨("#" ++ ·), fun _ => none, fun _ => some vote⟩
    let mc : Config := ⟨[], 10, 60, 5, 30⟩
    let inputs : List (Moment × Input) :=
      [(⟨1, .plain⟩, .request (.addProvidedSubnet ⟨"/root/t01"⟩)),
        (⟨2, .plain⟩, .gossip (.message ⟨"#/ipc/ipld/votes/net/_root_t01"⟩ []))]
    ∃ b, new (fun _ _ => true) codec 0 ⟨⟨[0]⟩, "net"⟩ mc = .ok b ∧
      (b.run (fun _ _ => true) codec inputs).outbox = [.receivedVote vote] ∧
      b.KeepsVotes (fun _ _ => true) codec inputs := by
  intro vote codec mc inputs
  have sep : Set.InjOn (Topic.hash codec "net") (Topic.among (named codec mc inputs)) := by
    refine Topic.injOn_hash (fun s t => (String.append_right_inj "#").mp) ?_ ?_
    · intro s eq
      have eq := congrArg String.toList eq
      simp [codec, membershipTopicOf, pubsubMembership] at eq
    · have only : ∀ id ∈ named codec mc inputs, id = ⟨"/root/t01"⟩ := by
        simp [named, declared, mc, inputs, Input.subnets, Request.subnets, Input.vote, codec, vote]
      intro id mem
      rw [only id mem]
      decide
  refine ⟨_, rfl, by decide +kernel, (keepsVotes_iff_ownTopics (fun _ _ => true) codec 0
    ⟨⟨[0]⟩, "net"⟩ mc _ rfl (fun _ _ => ⟨rfl, rfl⟩) inputs sep).mpr ?_⟩
  change Along _ _ _ _
  decide +kernel

/-- A vote about another subnet, gossiped on the voting topic of the one the node provides. -/
theorem foreign_vote_taken :
    let vote : VoteRecord := ⟨⟨1, [7]⟩, ⟨"/root/t02"⟩, ⟨[1]⟩, "valid", 1⟩
    let codec : Codec := ⟨("#" ++ ·), fun _ => none, fun _ => some vote⟩
    let inputs : List (Moment × Input) :=
      [(⟨1, .plain⟩, .request (.addProvidedSubnet ⟨"/root/t01"⟩)),
        (⟨2, .plain⟩, .gossip (.message ⟨"#/ipc/ipld/votes/net/_root_t01"⟩ []))]
    ∃ b, new (fun _ _ => true) codec 0 ⟨⟨[0]⟩, "net"⟩ ⟨[], 10, 60, 5, 30⟩ = .ok b ∧
      (b.run (fun _ _ => true) codec inputs).subnetIds = [⟨"/root/t01"⟩] ∧
      ¬ b.KeepsVotes (fun _ _ => true) codec inputs := by
  intro vote codec inputs
  refine ⟨_, rfl, by decide +kernel, fun keeps => ?_⟩
  have kept := (keeps.2.1 vote ⟨[.receivedVote vote], by decide +kernel, by simp⟩).1
  revert kept
  decide +kernel

end IpcAgent.Resolver.Membership
