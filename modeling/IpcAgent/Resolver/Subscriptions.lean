import IpcAgent.Resolver.MembershipRun
import Mathlib.Data.Set.Function

/-!
# Subscriptions

The behaviour keeps three records of what it is subscribed to, next to the subnets it was
told to provide or to pin. As long as Gossipsub does not refuse a subscription and no two
topics share a hash, all of them say the same.
-/

namespace IpcAgent.Resolver.Membership
open Library

/-! ## Topics -/

/-- Texts without underscores can be read back from their flattened form. -/
theorem map_flatten {s : String} (plain : '_' ∉ s.toList) :
    (flatten s).map (fun c => if c = '_' then '/' else c) = s := by
  rw [← String.toList_inj, String.toList_map, flatten, String.toList_map, List.map_map]
  refine (List.map_congr_left ?_).trans (List.map_id _)
  intro c mem
  have other : c ≠ '_' := fun eq => plain (eq ▸ mem)
  by_cases slash : c = '/' <;> simp [slash, other]

theorem flatten_inj {s t : String} (hs : '_' ∉ s.toList) (ht : '_' ∉ t.toList)
    (eq : flatten s = flatten t) : s = t := by
  rw [← map_flatten hs, eq, map_flatten ht]

theorem votes_ne_preemptive (s t : String) : pubsubVotes ++ s ≠ pubsubPreemptive ++ t := by
  intro eq
  have eq := congrArg String.toList eq
  simp [pubsubVotes, pubsubPreemptive] at eq

/-- The topics of a node. -/
inductive Topic
  | membership
  | voting (id : SubnetID)
  | preemptive (id : SubnetID)
deriving DecidableEq

namespace Topic

/-- The subnet a topic is about. -/
def subnet : Topic → Option SubnetID
  | membership => none
  | voting id | preemptive id => some id

variable (codec : Codec) (network : String)

def hash : Topic → TopicHash
  | membership => membershipTopicOf network
  | voting id => ⟨codec.sha256 (pubsubVotes ++ "/" ++ flatten network ++ "/" ++ flatten id.text)⟩
  | preemptive id =>
    ⟨codec.sha256 (pubsubPreemptive ++ "/" ++ flatten network ++ "/" ++ flatten id.text)⟩

/-- The topics of a node that deals with the subnets in `S`. -/
def among (S : Set SubnetID) : Set Topic := {t | ∀ id ∈ t.subnet, id ∈ S}

/-- The votes of the subnets in `V`. -/
def votes (V : Set SubnetID) : Set Topic := {t | ∃ id ∈ V, t = voting id}

/-- The topics of a node that provides the subnets in `V` and pins those in `P`. -/
def wanted (V P : Set SubnetID) : Set Topic
  | membership => True
  | voting id => id ∈ V
  | preemptive id => id ∈ P

@[simp] theorem voting_mem_votes {id : SubnetID} {V : Set SubnetID} :
    voting id ∈ votes V ↔ id ∈ V := by simp [votes]

@[simp] theorem membership_mem_wanted {V P : Set SubnetID} : membership ∈ wanted V P := trivial

@[simp] theorem voting_mem_wanted {id : SubnetID} {V P : Set SubnetID} :
    voting id ∈ wanted V P ↔ id ∈ V := .rfl

@[simp] theorem preemptive_mem_wanted {id : SubnetID} {V P : Set SubnetID} :
    preemptive id ∈ wanted V P ↔ id ∈ P := .rfl

theorem votes_insert (id : SubnetID) (V : Set SubnetID) :
    votes (insert id V) = insert (voting id) (votes V) := by
  ext t
  simp [votes]

theorem votes_diff (id : SubnetID) (V : Set SubnetID) :
    votes (V \ {id}) = votes V \ {voting id} := by
  ext t
  cases t <;> simp [votes]

theorem exists_votes {V : Set SubnetID} {p : Topic → Prop} :
    (∃ t ∈ votes V, p t) ↔ ∃ id ∈ V, p (voting id) := by
  constructor
  · rintro ⟨_, ⟨id, mem, rfl⟩, h⟩
    exact ⟨id, mem, h⟩
  · rintro ⟨id, mem, h⟩
    exact ⟨voting id, ⟨id, mem, rfl⟩, h⟩

theorem exists_wanted {V P : Set SubnetID} {p : Topic → Prop} :
    (∃ t ∈ wanted V P, p t) ↔
      p membership ∨ (∃ id ∈ V, p (voting id)) ∨ ∃ id ∈ P, p (preemptive id) := by
  constructor
  · rintro ⟨t | id | id, mem, h⟩
    · exact .inl h
    · exact .inr (.inl ⟨id, mem, h⟩)
    · exact .inr (.inr ⟨id, mem, h⟩)
  · rintro (h | ⟨id, mem, h⟩ | ⟨id, mem, h⟩)
    · exact ⟨membership, trivial, h⟩
    · exact ⟨voting id, mem, h⟩
    · exact ⟨preemptive id, mem, h⟩

theorem wanted_insert_voting (id : SubnetID) (V P : Set SubnetID) :
    wanted (insert id V) P = insert (voting id) (wanted V P) := by
  ext t
  cases t <;> simp

theorem wanted_diff_voting (id : SubnetID) (V P : Set SubnetID) :
    wanted (V \ {id}) P = wanted V P \ {voting id} := by
  ext t
  cases t <;> simp

theorem wanted_insert_preemptive (id : SubnetID) (V P : Set SubnetID) :
    wanted V (insert id P) = insert (preemptive id) (wanted V P) := by
  ext t
  cases t <;> simp

theorem wanted_diff_preemptive (id : SubnetID) (V P : Set SubnetID) :
    wanted V (P \ {id}) = wanted V P \ {preemptive id} := by
  ext t
  cases t <;> simp

@[simp] theorem membership_mem_among {S : Set SubnetID} : membership ∈ among S := by
  simp [among, subnet]

@[simp] theorem voting_mem_among {id : SubnetID} {S : Set SubnetID} :
    voting id ∈ among S ↔ id ∈ S := by simp [among, subnet]

@[simp] theorem preemptive_mem_among {id : SubnetID} {S : Set SubnetID} :
    preemptive id ∈ among S ↔ id ∈ S := by simp [among, subnet]

theorem wanted_subset_among {V P S : Set SubnetID} (hV : V ⊆ S) (hP : P ⊆ S) :
    wanted V P ⊆ among S := by
  intro t ht
  cases t with
  | membership => exact membership_mem_among
  | voting id => exact voting_mem_among.mpr (hV ht)
  | preemptive id => exact preemptive_mem_among.mpr (hP ht)

theorem votes_subset_among {V S : Set SubnetID} (hV : V ⊆ S) : votes V ⊆ among S := by
  rintro t ⟨id, mem, rfl⟩
  exact voting_mem_among.mpr (hV mem)

/-- Topics of different subnets or kinds have different hashes if the hash function has no
collisions and the texts of subnets no underscores. -/
theorem injOn_hash {codec : Codec} {network : String} {S : Set SubnetID}
    (injective : Function.Injective codec.sha256)
    (other : ∀ s, codec.sha256 s ≠ (membershipTopicOf network).text)
    (plain : ∀ id ∈ S, '_' ∉ id.text.toList) :
    Set.InjOn (hash codec network) (among S) := by
  have same : ∀ (kind : String) {id id' : SubnetID}, id ∈ S → id' ∈ S →
      kind ++ "/" ++ flatten network ++ "/" ++ flatten id.text =
        kind ++ "/" ++ flatten network ++ "/" ++ flatten id'.text → id = id' := by
    rintro kind ⟨s⟩ ⟨t⟩ hs ht eq
    rw [String.append_right_inj] at eq
    exact congrArg _ (flatten_inj (plain _ hs) (plain _ ht) eq)
  have apart : ∀ s t : String, codec.sha256 (pubsubVotes ++ "/" ++ flatten network ++ "/" ++ s) ≠
      codec.sha256 (pubsubPreemptive ++ "/" ++ flatten network ++ "/" ++ t) := by
    intro s t eq
    have eq := injective eq
    simp only [String.append_assoc] at eq
    exact votes_ne_preemptive _ _ eq
  intro x hx y hy eq
  have text := congrArg TopicHash.text eq
  cases x <;> cases y
  case membership.membership => rfl
  case membership.voting => exact absurd text.symm (other _)
  case membership.preemptive => exact absurd text.symm (other _)
  case voting.membership => exact absurd text (other _)
  case preemptive.membership => exact absurd text (other _)
  case voting.voting id id' =>
    exact congrArg voting (same _ (hx id rfl) (hy id' rfl) (injective text))
  case preemptive.preemptive id id' =>
    exact congrArg preemptive (same _ (hx id rfl) (hy id' rfl) (injective text))
  case voting.preemptive => exact absurd text (apart _ _)
  case preemptive.voting => exact absurd text.symm (apart _ _)

end Topic

section Hashes

/-- The hashes of the topics in `T`. -/
def Hashes (hash : Topic → TopicHash) (T : Set Topic) (hashes : Finset TopicHash) : Prop :=
  ∀ t, t ∈ hashes ↔ ∃ x ∈ T, hash x = t

variable {hash : Topic → TopicHash} {T D : Set Topic} {hashes : Finset TopicHash} {x : Topic}

theorem Hashes.insert (h : Hashes hash T hashes) (x : Topic) :
    Hashes hash (insert x T) (insert (hash x) hashes) := by
  intro t
  simp only [Finset.mem_insert, Set.mem_insert_iff, exists_eq_or_imp, h t]
  exact or_congr eq_comm .rfl

theorem Hashes.erase (h : Hashes hash T hashes) (inj : Set.InjOn hash D) (hT : T ⊆ D)
    (hx : x ∈ D) : Hashes hash (T \ {x}) (hashes.erase (hash x)) := by
  intro t
  rw [Finset.mem_erase, h t]
  constructor
  · rintro ⟨other, y, hy, rfl⟩
    exact ⟨y, ⟨hy, fun eq => other (congrArg hash eq)⟩, rfl⟩
  · rintro ⟨y, ⟨hy, other⟩, rfl⟩
    exact ⟨fun eq => other (inj (hT hy) hx eq), y, hy, rfl⟩

end Hashes

/-! ## Subscribing and unsubscribing -/

/-- Gossipsub refuses no subscription; publishing may fail. -/
def Subscribes (ok : Oracle) : Prop :=
  ∀ n topic, ok n (.subscribe topic) = true ∧ ok n (.unsubscribe topic) = true

namespace Behaviour

variable (codec : Codec) (b : Behaviour) (id : SubnetID)

def subscribed (topic : TopicHash) : Behaviour :=
  { b with inner := ⟨insert topic b.inner.subscribed, b.inner.calls + 1⟩ }

def unsubscribed (topic : TopicHash) : Behaviour :=
  { b with inner := ⟨b.inner.subscribed.erase topic, b.inner.calls + 1⟩ }

def votingSubscribed : Behaviour :=
  let topic : TopicHash := ⟨codec.sha256 (b.votingTopic id)⟩
  { b.subscribed topic with votingTopics := insert topic b.votingTopics }

def votingUnsubscribed : Behaviour :=
  let topic : TopicHash := ⟨codec.sha256 (b.votingTopic id)⟩
  { b.unsubscribed topic with votingTopics := b.votingTopics.erase topic }

def preemptiveSubscribed : Behaviour :=
  let topic : TopicHash := ⟨codec.sha256 (b.preemptiveTopic id)⟩
  { b.subscribed topic with preemptiveTopics := b.preemptiveTopics.insert topic id }

def preemptiveUnsubscribed : Behaviour :=
  let topic : TopicHash := ⟨codec.sha256 (b.preemptiveTopic id)⟩
  { b.unsubscribed topic with preemptiveTopics := b.preemptiveTopics.erase topic }

end Behaviour

section Runs

variable {ok : Oracle} (subscribes : Subscribes ok) (codec : Codec)

include subscribes

theorem runs_subscribe (topic : TopicHash) (b : Behaviour) :
    Runs (Behaviour.call ok (.subscribe topic)) b () (b.subscribed topic) := by
  have accepted := (subscribes b.inner.calls topic).1
  refine (runs_get b).bind ((runs_modify _ b).bind ?_)
  rw [if_pos accepted]
  exact runs_modify _ _

theorem runs_unsubscribe (topic : TopicHash) (b : Behaviour) :
    Runs (Behaviour.call ok (.unsubscribe topic)) b () (b.unsubscribed topic) := by
  have accepted := (subscribes b.inner.calls topic).2
  refine (runs_get b).bind ((runs_modify _ b).bind ?_)
  rw [if_pos accepted]
  exact runs_modify _ _

theorem runs_votingSubscribe (b : Behaviour) (id : SubnetID) :
    Runs (Behaviour.votingSubscribe ok codec id) b () (b.votingSubscribed codec id) :=
  (runs_get b).bind ((runs_subscribe subscribes _ b).bind (runs_modify _ _))

theorem runs_votingUnsubscribe (b : Behaviour) (id : SubnetID) :
    Runs (Behaviour.votingUnsubscribe ok codec id) b () (b.votingUnsubscribed codec id) :=
  (runs_get b).bind ((runs_unsubscribe subscribes _ b).bind (runs_modify _ _))

theorem runs_preemptiveSubscribe (b : Behaviour) (id : SubnetID) :
    Runs (Behaviour.preemptiveSubscribe ok codec id) b () (b.preemptiveSubscribed codec id) :=
  (runs_get b).bind ((runs_subscribe subscribes _ b).bind (runs_modify _ _))

theorem runs_preemptiveUnsubscribe (b : Behaviour) (id : SubnetID) :
    Runs (Behaviour.preemptiveUnsubscribe ok codec id) b () (b.preemptiveUnsubscribed codec id) :=
  (runs_get b).bind ((runs_unsubscribe subscribes _ b).bind (runs_modify _ _))

end Runs

/-! ## What the records say -/

/-- The behaviour is subscribed to the votes of the subnets in `V` and the data of those in
`P`, and all its records say so. -/
structure Follows (codec : Codec) (network : String) (V P : Set SubnetID) (b : Behaviour) :
    Prop where
  name : b.networkName = network
  membership : b.membershipTopic = Topic.hash codec network .membership
  voting : Hashes (Topic.hash codec network) (Topic.votes V) b.votingTopics
  preemptive : ∀ t id, b.preemptiveTopics.lookup t = some id ↔
    id ∈ P ∧ Topic.hash codec network (.preemptive id) = t
  subscribed : Hashes (Topic.hash codec network) (Topic.wanted V P) b.inner.subscribed

namespace Follows

variable {codec : Codec} {network : String} {V P S : Set SubnetID} {b : Behaviour}
  {id : SubnetID}

/-- What is declared says nothing about the subscriptions. -/
theorem redeclared (follows : Follows codec network V P b) (ids : List SubnetID)
    (cache : SubnetProviderCache) :
    Follows codec network V P { b with subnetIds := ids, providerCache := cache } :=
  ⟨follows.name, follows.membership, follows.voting, follows.preemptive, follows.subscribed⟩

theorem votingSubscribed (follows : Follows codec network V P b) (id : SubnetID) :
    Follows codec network (insert id V) P (b.votingSubscribed codec id) := by
  obtain ⟨rfl, membership, voting, preemptive, subscribed⟩ := follows
  refine ⟨rfl, membership, ?_, preemptive, ?_⟩
  · rw [Topic.votes_insert]
    exact voting.insert (.voting id)
  · rw [Topic.wanted_insert_voting]
    exact subscribed.insert (.voting id)

section Separate

variable (sep : Set.InjOn (Topic.hash codec network) (Topic.among S))

include sep

theorem votingUnsubscribed (follows : Follows codec network V P b) (hV : V ⊆ S) (hP : P ⊆ S)
    (hid : id ∈ S) : Follows codec network (V \ {id}) P (b.votingUnsubscribed codec id) := by
  obtain ⟨rfl, membership, voting, preemptive, subscribed⟩ := follows
  have known : Topic.voting id ∈ Topic.among S := Topic.voting_mem_among.mpr hid
  refine ⟨rfl, membership, ?_, preemptive, ?_⟩
  · rw [Topic.votes_diff]
    exact voting.erase sep (Topic.votes_subset_among hV) known
  · rw [Topic.wanted_diff_voting]
    exact subscribed.erase sep (Topic.wanted_subset_among hV hP) known

theorem eq_of_hash_preemptive {id' : SubnetID} (hid : id ∈ S) (hid' : id' ∈ S)
    (eq : Topic.hash codec network (.preemptive id) = Topic.hash codec network (.preemptive id')) :
    id = id' :=
  Topic.preemptive.inj
    (sep (Topic.preemptive_mem_among.mpr hid) (Topic.preemptive_mem_among.mpr hid') eq)

theorem preemptiveSubscribed (follows : Follows codec network V P b) (hP : P ⊆ S)
    (hid : id ∈ S) :
    Follows codec network V (insert id P) (b.preemptiveSubscribed codec id) := by
  obtain ⟨rfl, membership, voting, preemptive, subscribed⟩ := follows
  refine ⟨rfl, membership, voting, fun t id' => ?_, ?_⟩
  · change (b.preemptiveTopics.insert (Topic.hash codec b.networkName (.preemptive id)) id).lookup
      t = some id' ↔ _
    by_cases ht : t = Topic.hash codec b.networkName (.preemptive id)
    · subst ht
      rw [AList.lookup_insert, Option.some.injEq]
      constructor
      · rintro rfl
        exact ⟨.inl rfl, rfl⟩
      · rintro ⟨rfl | old, eq⟩
        · rfl
        · exact eq_of_hash_preemptive sep hid (hP old) eq.symm
    · rw [AList.lookup_insert_ne ht, preemptive]
      constructor
      · exact fun h => ⟨.inr h.1, h.2⟩
      · rintro ⟨rfl | old, eq⟩
        · exact absurd eq.symm ht
        · exact ⟨old, eq⟩
  · rw [Topic.wanted_insert_preemptive]
    exact subscribed.insert (.preemptive id)

theorem preemptiveUnsubscribed (follows : Follows codec network V P b) (hV : V ⊆ S)
    (hP : P ⊆ S) (hid : id ∈ S) :
    Follows codec network V (P \ {id}) (b.preemptiveUnsubscribed codec id) := by
  obtain ⟨rfl, membership, voting, preemptive, subscribed⟩ := follows
  refine ⟨rfl, membership, voting, fun t id' => ?_, ?_⟩
  · change (b.preemptiveTopics.erase (Topic.hash codec b.networkName (.preemptive id))).lookup
      t = some id' ↔ _
    by_cases ht : t = Topic.hash codec b.networkName (.preemptive id)
    · subst ht
      rw [AList.lookup_erase]
      simp only [reduceCtorEq, false_iff, not_and]
      rintro ⟨old, other⟩ eq
      exact other (eq_of_hash_preemptive sep (hP old) hid eq)
    · rw [AList.lookup_erase_ne ht, preemptive]
      constructor
      · exact fun h => ⟨⟨h.1, by rintro rfl; exact ht h.2.symm⟩, h.2⟩
      · exact fun h => ⟨h.1.1, h.2⟩
  · rw [Topic.wanted_diff_preemptive]
    exact subscribed.erase sep (Topic.wanted_subset_among hV hP)
      (Topic.preemptive_mem_among.mpr hid)

end Separate

end Follows

/-! ## Replacing the provided subnets -/

namespace Behaviour

/-- One round of the loop that leaves the subnets no longer provided. -/
def left (codec : Codec) (ids : List SubnetID) (b : Behaviour) (id : SubnetID) : Behaviour :=
  if id ∈ ids then b else b.votingUnsubscribed codec id

/-- One round of the loop that joins the new subnets. -/
def joined (codec : Codec) (old : List SubnetID) (b : Behaviour) (id : SubnetID) : Behaviour :=
  if id ∈ old then b else b.votingSubscribed codec id

/-- The behaviour with its provided subnets replaced, before it publishes them. -/
def provided (codec : Codec) (ids : List SubnetID) (b : Behaviour) : Behaviour :=
  { ids.foldl (joined codec b.subnetIds)
      (b.subnetIds.foldl (left codec ids) { b with subnetIds := [] }) with subnetIds := ids }

end Behaviour

theorem run_setProvidedSubnets {ok : Oracle} (subscribes : Subscribes ok) (codec : Codec)
    (now : Timestamp) (ids : List SubnetID) (b : Behaviour) :
    (Behaviour.setProvidedSubnets ok codec now ids).run.run b =
      (Behaviour.publishMembership ok now).run.run (b.provided codec ids) := by
  have leave : ∀ b id, Runs (if id ∈ ids then pure () else Behaviour.votingUnsubscribe ok codec id)
      b () (Behaviour.left codec ids b id) := fun b id =>
    runs_ite (fun _ => runs_pure b ()) (fun _ => runs_votingUnsubscribe subscribes codec b id)
  have join : ∀ old b id, Runs
      (if id ∈ old then pure () else Behaviour.votingSubscribe ok codec id)
      b () (Behaviour.joined codec old b id) := fun old b id =>
    runs_ite (fun _ => runs_pure b ()) (fun _ => runs_votingSubscribe subscribes codec b id)
  refine (runs_get b).run_bind.trans ((runs_modify _ b).run_bind.trans ?_)
  refine (runs_forM leave b.subnetIds _).run_bind.trans ?_
  refine (runs_forM (join b.subnetIds) ids _).run_bind.trans ?_
  exact (runs_modify _ _).run_bind

namespace Follows

variable {codec : Codec} {network : String} {V P S : Set SubnetID} {b : Behaviour}

theorem foldl_left (sep : Set.InjOn (Topic.hash codec network) (Topic.among S))
    (ids l : List SubnetID) (follows : Follows codec network V P b) (hV : V ⊆ S) (hP : P ⊆ S)
    (hl : ∀ id ∈ l, id ∈ S) :
    Follows codec network (V \ {id | id ∈ l ∧ id ∉ ids}) P
      (l.foldl (Behaviour.left codec ids) b) := by
  induction l generalizing b V with
  | nil => simpa using follows
  | cons id l ih =>
    rw [List.foldl_cons]
    obtain ⟨hid, hl⟩ := List.forall_mem_cons.mp hl
    by_cases kept : id ∈ ids
    · have rest := ih follows hV hl
      rw [Behaviour.left, if_pos kept]
      convert rest using 2
      ext id'
      grind
    · have rest := ih (follows.votingUnsubscribed sep hV hP hid) (Set.sdiff_subset.trans hV) hl
      rw [Behaviour.left, if_neg kept]
      convert rest using 1
      ext id'
      simp only [Set.mem_sdiff, Set.mem_ofPred_eq, Set.mem_singleton_iff, List.mem_cons]
      grind

theorem foldl_joined (old l : List SubnetID) (follows : Follows codec network V P b) :
    Follows codec network (V ∪ {id | id ∈ l ∧ id ∉ old}) P
      (l.foldl (Behaviour.joined codec old) b) := by
  induction l generalizing b V with
  | nil => simpa using follows
  | cons id l ih =>
    rw [List.foldl_cons]
    by_cases kept : id ∈ old
    · have rest := ih follows
      rw [Behaviour.joined, if_pos kept]
      convert rest using 1
      ext id'
      simp only [Set.mem_union, Set.mem_ofPred_eq, List.mem_cons]
      grind
    · have rest := ih (follows.votingSubscribed id)
      rw [Behaviour.joined, if_neg kept]
      convert rest using 1
      ext id'
      simp only [Set.mem_union, Set.mem_ofPred_eq, List.mem_cons, Set.mem_insert_iff]
      grind

end Follows

theorem providerCache_provided (codec : Codec) (ids : List SubnetID) (b : Behaviour) :
    (b.provided codec ids).providerCache = b.providerCache := by
  have kept : ∀ (f : Behaviour → SubnetID → Behaviour),
      (∀ b id, (f b id).providerCache = b.providerCache) → ∀ (l : List SubnetID) (b : Behaviour),
      (l.foldl f b).providerCache = b.providerCache := by
    intro f hf l
    induction l with
    | nil => exact fun _ => rfl
    | cons id l ih => exact fun b => (ih (f b id)).trans (hf b id)
  refine (kept _ ?_ ids _).trans (kept _ ?_ b.subnetIds _)
  · intro b id
    unfold Behaviour.joined
    split <;> rfl
  · intro b id
    unfold Behaviour.left
    split <;> rfl

/-! ## Whole runs -/

/-- The subscriptions are the same, and so is what they are derived from. -/
structure SameSubscriptions (b b' : Behaviour) : Prop where
  name : b'.networkName = b.networkName
  topic : b'.membershipTopic = b.membershipTopic
  subnetIds : b'.subnetIds = b.subnetIds
  pinned : b'.providerCache.pinnedSubnets = b.providerCache.pinnedSubnets
  voting : b'.votingTopics = b.votingTopics
  preemptive : b'.preemptiveTopics = b.preemptiveTopics
  subscribed : b'.inner.subscribed = b.inner.subscribed

instance : IsTrans Behaviour SameSubscriptions where
  trans _ _ _ h h' := ⟨h'.name.trans h.name, h'.topic.trans h.topic,
    h'.subnetIds.trans h.subnetIds, h'.pinned.trans h.pinned, h'.voting.trans h.voting,
    h'.preemptive.trans h.preemptive, h'.subscribed.trans h.subscribed⟩

theorem SameSubscriptions.background : Background SameSubscriptions where
  published := by
    rintro _ _ ⟨_, _, _, _, rfl⟩
    exact ⟨rfl, rfl, rfl, rfl, rfl, rfl, rfl⟩
  reported _ _ _ _ := ⟨rfl, rfl, rfl, rfl, rfl, rfl, rfl⟩

/-- Only requests pin and unpin subnets. -/
theorem sameSubscriptions_applied (codec : Codec) (b : Behaviour) (i : Moment × Input) :
    SameSubscriptions b (b.applied codec i) := by
  have pinned : (b.applied codec i).providerCache.pinnedSubnets =
      b.providerCache.pinnedSubnets := by
    obtain ⟨m, i⟩ := i
    cases i with
    | tick => exact SubnetProviderCache.pinned_foldl _ _
    | discovery e => cases e <;> rfl
    | emit => rfl
    | request r => rfl
    | gossip e =>
      simp only [Behaviour.applied, Input.cacheOp]
      cases Input.record codec b.membershipTopic (.gossip e) with
      | none => rfl
      | some r => exact SubnetProviderCache.pinned_addProvider _ _ _
  unfold Behaviour.applied at pinned ⊢
  split at pinned
  · exact ⟨rfl, rfl, rfl, pinned, rfl, rfl, rfl⟩
  · exact ⟨rfl, rfl, rfl, rfl, rfl, rfl, rfl⟩

/-- All subscriptions are those of the subnets declared by now, which lie in `S`. -/
structure Aligned (codec : Codec) (network : String) (S : Set SubnetID) (b : Behaviour) :
    Prop where
  provided : ∀ id ∈ b.subnetIds, id ∈ S
  pinned : ∀ id ∈ b.providerCache.pinnedSubnets, id ∈ S
  follows : Follows codec network {id | id ∈ b.subnetIds} b.providerCache.pinnedSubnets b

theorem Aligned.of_same {codec : Codec} {network : String} {S : Set SubnetID}
    {b b' : Behaviour} (aligned : Aligned codec network S b) (same : SameSubscriptions b b') :
    Aligned codec network S b' := by
  obtain ⟨provided, pinned, name, membership, voting, preemptive, subscribed⟩ := aligned
  obtain ⟨sameName, sameTopic, sameIds, samePinned, sameVoting, samePreemptive, sameInner⟩ := same
  refine ⟨sameIds ▸ provided, samePinned ▸ pinned, sameName.trans name,
    sameTopic.trans membership, ?_, ?_, ?_⟩
  · rwa [sameIds, sameVoting]
  · rwa [samePinned, samePreemptive]
  · rwa [sameIds, samePinned, sameInner]

/-- The subnets a request declares to be provided or pinned, or no longer so. -/
def Request.subnets : Request → List SubnetID
  | setProvidedSubnets ids => ids
  | addProvidedSubnet id | removeProvidedSubnet id | pinSubnet id | unpinSubnet id => [id]
  | publishVote _ | publishPreemptive _ _ => []

def Input.subnets : Input → List SubnetID
  | request r => r.subnets
  | emit | tick | gossip _ | discovery _ => []

/-- The subnets declared in the course of a run. -/
def declared (mc : Config) (inputs : List (Moment × Input)) : Set SubnetID :=
  {id | id ∈ mc.staticSubnets ∨ ∃ i ∈ inputs, id ∈ i.2.subnets}

section Aligned

variable {ok : Oracle} (subscribes : Subscribes ok) {codec : Codec} {network : String}
  {S : Set SubnetID} (sep : Set.InjOn (Topic.hash codec network) (Topic.among S))

theorem Aligned.provide {b : Behaviour} (aligned : Aligned codec network S b) {id : SubnetID}
    (hid : id ∈ S) : Aligned codec network S
      { b.votingSubscribed codec id with subnetIds := b.subnetIds ++ [id] } := by
  have follows := aligned.follows.votingSubscribed id
  have same : insert id {id' | id' ∈ b.subnetIds} = {id' | id' ∈ b.subnetIds ++ [id]} := by
    ext id'
    simp [or_comm]
  rw [same] at follows
  refine ⟨?_, aligned.pinned, follows.redeclared _ _⟩
  intro id' mem
  rcases List.mem_append.mp mem with old | new
  · exact aligned.provided id' old
  · rwa [List.mem_singleton.mp new]

section Separate

include sep

theorem Aligned.withdraw {b : Behaviour} (aligned : Aligned codec network S b) {id : SubnetID}
    (hid : id ∈ S) : Aligned codec network S
      { b.votingUnsubscribed codec id with subnetIds := b.subnetIds.filter (· ≠ id) } := by
  have follows := aligned.follows.votingUnsubscribed sep aligned.provided aligned.pinned hid
  have same : {id' | id' ∈ b.subnetIds} \ {id} = {id' | id' ∈ b.subnetIds.filter (· ≠ id)} := by
    ext id'
    simp
  rw [same] at follows
  refine ⟨?_, aligned.pinned, follows.redeclared _ _⟩
  intro id' mem
  exact aligned.provided id' (List.mem_of_mem_filter mem)

theorem Aligned.pin {b : Behaviour} (aligned : Aligned codec network S b) {id : SubnetID}
    (hid : id ∈ S) : Aligned codec network S
      { b.preemptiveSubscribed codec id with
        providerCache := b.providerCache.pinSubnet id } := by
  have follows := aligned.follows.preemptiveSubscribed sep aligned.pinned hid
  rw [← Finset.coe_insert] at follows
  refine ⟨aligned.provided, ?_, follows.redeclared _ _⟩
  intro id' mem
  rcases Finset.mem_insert.mp mem with rfl | old
  · exact hid
  · exact aligned.pinned id' old

theorem Aligned.unpin {b : Behaviour} (aligned : Aligned codec network S b) {id : SubnetID}
    (hid : id ∈ S) : Aligned codec network S
      { b.preemptiveUnsubscribed codec id with
        providerCache := b.providerCache.unpinSubnet id } := by
  have follows := aligned.follows.preemptiveUnsubscribed sep aligned.provided aligned.pinned hid
  rw [← Finset.coe_erase] at follows
  refine ⟨aligned.provided, ?_, follows.redeclared _ _⟩
  intro id' mem
  exact aligned.pinned id' (Finset.mem_of_mem_erase mem)

theorem Aligned.replace {b : Behaviour} (aligned : Aligned codec network S b)
    {ids : List SubnetID} (hids : ∀ id ∈ ids, id ∈ S) :
    Aligned codec network S (b.provided codec ids) := by
  have start := aligned.follows.redeclared [] b.providerCache
  have follows := (start.foldl_left sep ids b.subnetIds aligned.provided aligned.pinned
    aligned.provided).foldl_joined b.subnetIds ids
  have same : {id | id ∈ b.subnetIds} \ {id | id ∈ b.subnetIds ∧ id ∉ ids} ∪
      {id | id ∈ ids ∧ id ∉ b.subnetIds} = {id | id ∈ ids} := by
    ext id
    simp only [Set.mem_union, Set.mem_sdiff, Set.mem_ofPred_eq]
    tauto
  rw [same] at follows
  have cache := providerCache_provided codec ids b
  refine ⟨hids, ?_, ?_⟩
  · rw [cache]
    exact aligned.pinned
  · rw [cache]
    exact follows.redeclared ids _

end Separate

section Requests

include subscribes

theorem runs_pinSubnet (codec : Codec) (b : Behaviour) (id : SubnetID) :
    Runs (Behaviour.pinSubnet ok codec id) b ()
      { b.preemptiveSubscribed codec id with
        providerCache := b.providerCache.pinSubnet id } :=
  (runs_preemptiveSubscribe subscribes codec b id).bind (runs_modify _ _)

theorem runs_unpinSubnet (codec : Codec) (b : Behaviour) (id : SubnetID) :
    Runs (Behaviour.unpinSubnet ok codec id) b ()
      { b.preemptiveUnsubscribed codec id with
        providerCache := b.providerCache.unpinSubnet id } :=
  (runs_preemptiveUnsubscribe subscribes codec b id).bind (runs_modify _ _)

theorem run_addProvidedSubnet (codec : Codec) (now : Timestamp) {b : Behaviour} {id : SubnetID}
    (new : id ∉ b.subnetIds) :
    (Behaviour.addProvidedSubnet ok codec now id).run.run b =
      (Behaviour.publishMembership ok now).run.run
        { b.votingSubscribed codec id with subnetIds := b.subnetIds ++ [id] } := by
  refine (runs_get b).run_bind.trans ?_
  rw [if_neg new]
  exact (runs_votingSubscribe subscribes codec b id).run_bind.trans (runs_modify _ _).run_bind

theorem run_removeProvidedSubnet (codec : Codec) (now : Timestamp) {b : Behaviour}
    {id : SubnetID} (old : id ∈ b.subnetIds) :
    (Behaviour.removeProvidedSubnet ok codec now id).run.run b =
      (Behaviour.publishMembership ok now).run.run
        { b.votingUnsubscribed codec id with subnetIds := b.subnetIds.filter (· ≠ id) } := by
  refine (runs_get b).run_bind.trans ?_
  rw [if_pos old]
  exact (runs_votingUnsubscribe subscribes codec b id).run_bind.trans (runs_modify _ _).run_bind

include sep

theorem Aligned.request {b : Behaviour} (aligned : Aligned codec network S b) (now : Timestamp)
    {r : Request} (known : ∀ id ∈ r.subnets, id ∈ S) :
    Aligned codec network S (b.perform (r.action ok codec now)) := by
  have published : ∀ {b b'}, Aligned codec network S b → Published b b' →
      Aligned codec network S b' := fun aligned published =>
    aligned.of_same (SameSubscriptions.background.published _ _ published)
  -- Publishing comes last, so that whether it succeeds makes no difference.
  have publishes : ∀ {action : Action Unit} {b₁ : Behaviour}, Aligned codec network S b₁ →
      action.run.run b = (Behaviour.publishMembership ok now).run.run b₁ →
      Aligned codec network S (b.perform action) := by
    intro action b₁ ready eq
    unfold Behaviour.perform
    rw [eq]
    exact published ready (published_perform ok now b₁)
  have returns : ∀ {action : Action Unit} {b₁ : Behaviour}, Aligned codec network S b₁ →
      Runs action b () b₁ → Aligned codec network S (b.perform action) := by
    intro action b₁ ready runs
    unfold Behaviour.perform
    rwa [runs]
  have called : ∀ topic data, Within Published (Behaviour.call ok (.publish topic data)) :=
    fun _ _ => within_call ok (fun _ _ => ⟨_, _, _, _, rfl⟩) (fun b => refl_of Published b)
  cases r with
  | setProvidedSubnets ids =>
    exact publishes (aligned.replace sep known) (run_setProvidedSubnets subscribes codec now ids b)
  | addProvidedSubnet id =>
    have hid := known id (List.mem_singleton_self id)
    by_cases old : id ∈ b.subnetIds
    · refine returns aligned ((runs_get b).bind ?_)
      rw [if_pos old]
      exact runs_pure b ()
    · exact publishes (aligned.provide hid) (run_addProvidedSubnet subscribes codec now old)
  | removeProvidedSubnet id =>
    have hid := known id (List.mem_singleton_self id)
    by_cases old : id ∈ b.subnetIds
    · exact publishes (aligned.withdraw sep hid) (run_removeProvidedSubnet subscribes codec now old)
    · refine returns aligned ((runs_get b).bind ?_)
      rw [if_neg old]
      exact runs_pure b ()
  | publishVote vote => exact published aligned (within_bind within_get (fun _ => called _ _) b)
  | publishPreemptive id data =>
    exact published aligned (within_bind within_get (fun _ => called _ _) b)
  | pinSubnet id =>
    have hid := known id (List.mem_singleton_self id)
    exact returns (aligned.pin sep hid) (runs_pinSubnet subscribes codec b id)
  | unpinSubnet id =>
    have hid := known id (List.mem_singleton_self id)
    exact returns (aligned.unpin sep hid) (runs_unpinSubnet subscribes codec b id)

theorem Aligned.step {b : Behaviour} (aligned : Aligned codec network S b) (i : Moment × Input)
    (known : ∀ id ∈ i.2.subnets, id ∈ S) : Aligned codec network S (b.step ok codec i) := by
  obtain ⟨m, i⟩ := i
  by_cases request : ∃ r, i = .request r
  · obtain ⟨r, rfl⟩ := request
    exact aligned.request subscribes sep m.now known
  · have same := related_step ok codec SameSubscriptions.background b m (not_exists.mp request)
    exact (aligned.of_same (sameSubscriptions_applied codec b (m, i))).of_same same

theorem Aligned.run {b : Behaviour} (aligned : Aligned codec network S b)
    (inputs : List (Moment × Input)) (known : ∀ i ∈ inputs, ∀ id ∈ i.2.subnets, id ∈ S) :
    Aligned codec network S (b.run ok codec inputs) := by
  induction inputs generalizing b with
  | nil => exact aligned
  | cons i inputs ih =>
    obtain ⟨first, rest⟩ := List.forall_mem_cons.mp known
    exact ih (aligned.step subscribes sep i first) rest

theorem aligned_new {now : Timestamp} {nc : NetworkConfig} {mc : Config} {b : Behaviour}
    (built : new ok codec now nc mc = .ok b) (name : nc.networkName = network)
    (known : ∀ id ∈ mc.staticSubnets, id ∈ S) : Aligned codec network S b := by
  subst name
  have start : Aligned codec nc.networkName S
      ((initial now nc mc).subscribed (membershipTopicOf nc.networkName)) := by
    refine ⟨by simp [initial, Behaviour.subscribed], ?_, rfl, rfl, ?_, ?_, ?_⟩
    · simp [initial, Behaviour.subscribed, SubnetProviderCache.new]
    · simp [initial, Behaviour.subscribed, Hashes, Topic.votes]
    · simp [initial, Behaviour.subscribed, SubnetProviderCache.new]
    · intro t
      simp [initial, Behaviour.subscribed, SubnetProviderCache.new, Topic.exists_wanted,
        Topic.hash, eq_comm]
  have done : Runs (setup ok codec mc) (initial now nc mc) () _ :=
    (runs_get _).bind ((runs_subscribe subscribes _ _).bind
      (runs_forM (runs_pinSubnet subscribes codec) mc.staticSubnets _))
  have eq : _ = b := congrArg Prod.snd (done.symm.trans (runs_of_new built))
  rw [← eq]
  exact List.foldlRecOn mc.staticSubnets _ start fun b aligned id mem =>
    aligned.pin sep (known id mem)

end Requests

end Aligned

/-- As long as Gossipsub refuses no subscription and no two topics of the declared subnets
share a hash, the node is subscribed to the membership topic, the votes of the subnets it
provides and the data of those it pins, and to nothing else; and its records of topics are
complete. -/
theorem subscriptions_mirror_declared (ok : Oracle) (codec : Codec) (now : Timestamp)
    (nc : NetworkConfig) (mc : Config) (b : Behaviour) (built : new ok codec now nc mc = .ok b)
    (subscribes : Subscribes ok) (inputs : List (Moment × Input))
    (sep : Set.InjOn (Topic.hash codec nc.networkName) (Topic.among (declared mc inputs))) :
    let s := b.run ok codec inputs
    (∀ t, t ∈ s.votingTopics ↔
      ∃ id ∈ s.subnetIds, t = ⟨codec.sha256 (s.votingTopic id)⟩) ∧
    (∀ t id, s.preemptiveTopics.lookup t = some id ↔
      id ∈ s.providerCache.pinnedSubnets ∧ t = ⟨codec.sha256 (s.preemptiveTopic id)⟩) ∧
    (∀ t, t ∈ s.inner.subscribed ↔
      t = s.membershipTopic ∨ t ∈ s.votingTopics ∨ t ∈ s.preemptiveTopics) := by
  intro s
  have start := aligned_new subscribes sep built rfl fun id mem => .inl mem
  have aligned : Aligned codec nc.networkName (declared mc inputs) s :=
    start.run subscribes sep inputs fun i mem id hid => .inr ⟨i, mem, hid⟩
  rw [← aligned.follows.name] at aligned
  obtain ⟨-, membership, voting, preemptive, subscribed⟩ := aligned.follows
  have votes : ∀ t, t ∈ s.votingTopics ↔
      ∃ id ∈ s.subnetIds, t = ⟨codec.sha256 (s.votingTopic id)⟩ := by
    intro t
    rw [voting t, Topic.exists_votes]
    exact exists_congr fun id => and_congr_right fun _ => eq_comm
  have data : ∀ t id, s.preemptiveTopics.lookup t = some id ↔
      id ∈ s.providerCache.pinnedSubnets ∧ t = ⟨codec.sha256 (s.preemptiveTopic id)⟩ := by
    intro t id
    rw [preemptive t id]
    exact and_congr_right fun _ => eq_comm
  refine ⟨votes, data, fun t => ?_⟩
  rw [subscribed t, Topic.exists_wanted, votes t, ← AList.lookup_isSome, Option.isSome_iff_exists,
    membership]
  refine or_congr eq_comm (or_congr ?_ ?_)
  · exact exists_congr fun id => and_congr_right fun _ => eq_comm
  · exact exists_congr fun id => (preemptive t id).symm

/-- A node that starts with one pinned subnet, declares another one twice and unpins the
first one, while publishing always fails. -/
theorem subscriptions_mirror_declared_repeated :
    let ok : Oracle := fun _ c => match c with | .publish _ _ => false | _ => true
    let codec : Codec := ⟨("#" ++ ·), fun _ => none, fun _ => none⟩
    let mc : Config := ⟨[⟨"/root/t01"⟩], 10, 60, 5, 30⟩
    let inputs : List (Moment × Input) :=
      [(⟨1, .plain⟩, .request (.setProvidedSubnets [⟨"/root/t02"⟩, ⟨"/root/t02"⟩])),
        (⟨2, .plain⟩, .request (.unpinSubnet ⟨"/root/t01"⟩))]
    ∃ b, new ok codec 0 ⟨⟨[0]⟩, "net"⟩ mc = .ok b ∧
      ∀ t, t ∈ (b.run ok codec inputs).inner.subscribed ↔
        t = (b.run ok codec inputs).membershipTopic ∨ t ∈ (b.run ok codec inputs).votingTopics ∨
          t ∈ (b.run ok codec inputs).preemptiveTopics := by
  intro ok codec mc inputs
  have sep : Set.InjOn (Topic.hash codec "net") (Topic.among (declared mc inputs)) := by
    refine Topic.injOn_hash (fun s t => (String.append_right_inj "#").mp) ?_ ?_
    · intro s eq
      have eq := congrArg String.toList eq
      simp [codec, membershipTopicOf, pubsubMembership] at eq
    · rintro id (static | ⟨i, mem, requested⟩)
      · obtain rfl := List.mem_singleton.mp static
        decide
      · simp only [inputs, List.mem_cons, List.not_mem_nil, or_false] at mem
        rcases mem with rfl | rfl <;>
          simp only [Input.subnets, Request.subnets, List.mem_cons, List.not_mem_nil, or_false,
            or_self] at requested <;> subst requested <;> decide
  obtain ⟨b, built⟩ : ∃ b, new ok codec 0 ⟨⟨[0]⟩, "net"⟩ mc = .ok b := ⟨_, rfl⟩
  have mirror := subscriptions_mirror_declared ok codec 0 ⟨⟨[0]⟩, "net"⟩ mc b built
    (fun _ _ => ⟨rfl, rfl⟩) inputs sep
  exact ⟨b, built, mirror.2.2⟩

end IpcAgent.Resolver.Membership
