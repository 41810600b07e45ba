import IpcAgent.Resolver.Subscriptions

/-!
# The names of topics

A topic names its kind, the network and the subnet, with the slashes of the latter two
flattened to underscores. The last two slashes of a topic are therefore those between its
parts, and a topic can be read back but for what flattening loses: which underscores of the
network's name were slashes.
-/

namespace IpcAgent

/-- Parts without slashes and underscores, with slashes between them. -/
def SubnetID.Plain (id : SubnetID) : Prop :=
  ∃ parts : List String, (∀ part ∈ parts, '/' ∉ part.toList ∧ '_' ∉ part.toList) ∧
    id.text = "/".intercalate parts

theorem SubnetID.Plain.underscore_notMem {id : SubnetID} (plain : id.Plain) :
    '_' ∉ id.text.toList := by
  obtain ⟨parts, each, text⟩ := plain
  rw [text, String.toList_intercalate]
  clear text
  induction parts with
  | nil => simp
  | cons part parts ih =>
    have rest := ih fun other mem => each other (List.mem_cons_of_mem part mem)
    have here := (each part List.mem_cons_self).2
    cases parts with
    | nil => simpa using here
    | cons next parts => simp_all

namespace Resolver.Membership

/-! ## Reading a topic back -/

theorem slash_notMem_flatten (s : String) : '/' ∉ (flatten s).toList := by
  rw [flatten, String.toList_map, List.mem_map]
  rintro ⟨c, -, eq⟩
  split_ifs at eq with slash
  · exact absurd eq (by decide)
  · exact slash eq

/-- Neither part has a slash, so the one between them is known. -/
theorem joined_inj {kind s t s' t' : String}
    (eq : kind ++ "/" ++ flatten s ++ "/" ++ flatten t =
      kind ++ "/" ++ flatten s' ++ "/" ++ flatten t') :
    flatten s = flatten s' ∧ flatten t = flatten t' := by
  simp only [String.append_assoc, String.append_right_inj] at eq
  have eq := congrArg String.toList eq
  simp only [String.toList_append] at eq
  obtain ⟨network, -, subnet⟩ := (List.append_cons_inj_of_notMem (slash_notMem_flatten s)
    (slash_notMem_flatten t)).mp eq
  exact ⟨String.toList_inj.mp network, String.toList_inj.mp subnet⟩

/-- Topics of one kind that coincide. -/
theorem same_network_and_subnet {kind network network' : String} {id id' : SubnetID}
    (plain : id.Plain) (plain' : id'.Plain)
    (eq : kind ++ "/" ++ flatten network ++ "/" ++ flatten id.text =
      kind ++ "/" ++ flatten network' ++ "/" ++ flatten id'.text) :
    flatten network = flatten network' ∧ id = id' := by
  obtain ⟨networks, subnets⟩ := joined_inj eq
  have texts := flatten_inj plain.underscore_notMem plain'.underscore_notMem subnets
  cases id
  cases id'
  exact ⟨networks, congrArg SubnetID.mk texts⟩

/-! ## Kinds of topics -/

theorem votes_ne_membership (s t : String) : pubsubVotes ++ s ≠ pubsubMembership ++ t := by
  intro eq
  have eq := congrArg String.toList eq
  simp [pubsubVotes, pubsubMembership] at eq

theorem preemptive_ne_membership (s t : String) :
    pubsubPreemptive ++ s ≠ pubsubMembership ++ t := by
  intro eq
  have eq := congrArg String.toList eq
  simp [pubsubPreemptive, pubsubMembership] at eq

/-- The topics of nodes in any two networks, about any two subnets: those of different kinds
differ, and those of one kind coincide only for one subnet, and for networks whose names are
flattened to the same. -/
theorem topics_never_clash (b b' : Behaviour) (id id' : SubnetID) (plain : id.Plain)
    (plain' : id'.Plain) :
    (b.votingTopic id = b.votingTopic id' → id = id') ∧
    (b.preemptiveTopic id = b.preemptiveTopic id' → id = id') ∧
    b.votingTopic id ≠ b'.preemptiveTopic id' ∧
    (∀ network, b.votingTopic id ≠ (membershipTopicOf network).text ∧
      b.preemptiveTopic id ≠ (membershipTopicOf network).text) ∧
    (b.votingTopic id = b'.votingTopic id' →
      flatten b.networkName = flatten b'.networkName ∧ id = id') ∧
    (b.preemptiveTopic id = b'.preemptiveTopic id' →
      flatten b.networkName = flatten b'.networkName ∧ id = id') := by
  refine ⟨fun eq => (same_network_and_subnet plain plain' eq).2,
    fun eq => (same_network_and_subnet plain plain' eq).2, ?_, fun network => ⟨?_, ?_⟩,
    same_network_and_subnet plain plain', same_network_and_subnet plain plain'⟩
  · simp only [Behaviour.votingTopic, Behaviour.preemptiveTopic, String.append_assoc]
    exact votes_ne_preemptive _ _
  · simp only [Behaviour.votingTopic, membershipTopicOf, String.append_assoc]
    exact votes_ne_membership _ _
  · simp only [Behaviour.preemptiveTopic, membershipTopicOf, String.append_assoc]
    exact preemptive_ne_membership _ _

/-- Two networks that differ in a slash: their topics about one subnet coincide, and those about
two subnets do not. -/
theorem topics_of_similar_networks :
    let b := initial 0 ⟨⟨[0]⟩, "a/b"⟩ ⟨[], 10, 60, 5, 30⟩
    let b' := initial 0 ⟨⟨[1]⟩, "a_b"⟩ ⟨[], 10, 60, 5, 30⟩
    b.votingTopic ⟨"/root/t01"⟩ = b'.votingTopic ⟨"/root/t01"⟩ ∧
      b.votingTopic ⟨"/root/t01"⟩ ≠ b'.votingTopic ⟨"/root/t02"⟩ := by
  intro b b'
  have plain (part : String) (h : '/' ∉ part.toList ∧ '_' ∉ part.toList) :
      SubnetID.Plain ⟨"/".intercalate ["", "root", part]⟩ := by
    refine ⟨["", "root", part], ?_, rfl⟩
    simp [h]
  have names : flatten b.networkName = flatten b'.networkName := by
    change flatten "a/b" = flatten "a_b"
    simp [flatten, ← String.toList_inj]
  refine ⟨by simp only [Behaviour.votingTopic, names], fun eq => ?_⟩
  have clash := (topics_never_clash b b' ⟨"/root/t01"⟩ ⟨"/root/t02"⟩ (plain "t01" (by decide))
    (plain "t02" (by decide))).2.2.2.2.1 eq
  exact absurd clash.2 (by decide)

end Resolver.Membership

end IpcAgent
