import IpcAgent.Resolver.CacheInvariant
import IpcAgent.Resolver.MembershipEvents

/-!
# Providers that come back

Discovery reports a peer once; the membership cache also drops peers on its own timer, and
then nothing makes them routable again. This module says when a new record of a peer that
discovery still knows is taken in.
-/

namespace IpcAgent.Resolver
open Library

namespace Membership
open SubnetProviderCache

/-! ## The history of a peer in a run -/

section History

variable (codec : Codec) (topic : TopicHash) (maxAge : Nat) (p : PeerId)

/-- What one input adds to the history of a peer. -/
def observe (h : PeerHistory) (i : Moment × Input) : PeerHistory :=
  match Input.cacheOp codec topic maxAge i with
  | some op => h.step p op
  | none => h

/-- What a run says about one peer, read off its inputs. -/
def history (h : PeerHistory) (inputs : List (Moment × Input)) : PeerHistory :=
  inputs.foldl (observe codec topic maxAge p) h

/-- Some tick of the timer found only records of the peer that were too old. -/
def ExpiresDuring (h : PeerHistory) (inputs : List (Moment × Input)) : Prop :=
  ∃ before m after, inputs = before ++ (m, .tick) :: after ∧
    (history codec topic maxAge p h before).Expired (m.now.sub maxAge)

/-- Only the events of discovery about the peer and its expiry change whether it is routable. -/
theorem routable_observe (h : PeerHistory) (m : Moment) (i : Input)
    (other : i.discovered ≠ some p) :
    (observe codec topic maxAge p h (m, i)).routable = true ↔
      h.routable = true ∧ (i = .tick → ¬ h.Expired (m.now.sub maxAge)) := by
  cases i with
  | emit => simp [observe, Input.cacheOp, Input.record]
  | tick =>
    by_cases expired : h.Expired (m.now.sub maxAge) <;>
      simp [observe, Input.cacheOp, PeerHistory.step, expired]
  | request r => simp [observe, Input.cacheOp, Input.record]
  | discovery e =>
    cases e with
    | added q addrs =>
      have hq : q ≠ p := fun eq => other (congrArg some eq)
      simp [observe, Input.cacheOp, PeerHistory.step, hq]
    | removed q =>
      have hq : q ≠ p := fun eq => other (congrArg some eq)
      simp [observe, Input.cacheOp, PeerHistory.step, hq]
  | gossip e =>
    simp only [observe, Input.cacheOp]
    cases Input.record codec topic (.gossip e) with
    | none => simp
    | some r =>
      simp only [Option.map_some, PeerHistory.step]
      split <;> simp

theorem not_expiresDuring_nil (h : PeerHistory) : ¬ ExpiresDuring codec topic maxAge p h [] := by
  rintro ⟨before, m, after, eq, -⟩
  simp at eq

/-- An expiry happens at the first input or later. -/
theorem expiresDuring_cons (h : PeerHistory) (m : Moment) (i : Input)
    (inputs : List (Moment × Input)) :
    ExpiresDuring codec topic maxAge p h ((m, i) :: inputs) ↔
      (i = .tick ∧ h.Expired (m.now.sub maxAge)) ∨
        ExpiresDuring codec topic maxAge p (observe codec topic maxAge p h (m, i)) inputs := by
  constructor
  · rintro ⟨before, m', after, eq, expired⟩
    cases before with
    | nil =>
      obtain ⟨head, -⟩ := List.cons.inj eq
      obtain ⟨rfl, rfl⟩ := Prod.mk.inj head
      exact .inl ⟨rfl, expired⟩
    | cons j before =>
      obtain ⟨rfl, tail⟩ := List.cons.inj eq
      exact .inr ⟨before, m', after, tail, expired⟩
  · rintro (⟨rfl, expired⟩ | ⟨before, m', after, rfl, expired⟩)
    · exact ⟨[], m, inputs, rfl, expired⟩
    · exact ⟨(m, i) :: before, m', after, rfl, expired⟩

/-- While discovery says nothing about it, a routable peer stays routable until it expires. -/
theorem routable_history (h : PeerHistory) (inputs : List (Moment × Input))
    (other : ∀ i ∈ inputs, i.2.discovered ≠ some p) :
    (history codec topic maxAge p h inputs).routable = true ↔
      h.routable = true ∧ ¬ ExpiresDuring codec topic maxAge p h inputs := by
  induction inputs generalizing h with
  | nil => simp [history, not_expiresDuring_nil]
  | cons i inputs ih =>
    obtain ⟨m, i⟩ := i
    have step := routable_observe codec topic maxAge p h m i (other (m, i) (by simp))
    have rest := ih (observe codec topic maxAge p h (m, i)) fun j hj => other j (by simp [hj])
    refine rest.trans ?_
    rw [step, expiresDuring_cons]
    tauto

theorem considered_step (h : PeerHistory) (op : CacheOp) (r : ProviderRecord)
    (hr : r ∈ (h.step p op).considered) :
    r ∈ h.considered ∨ r.peerId = p ∧ op = .addProvider r := by
  cases op with
  | addProvider r' =>
    simp only [PeerHistory.step] at hr
    split at hr
    · rename_i own
      rcases List.mem_append.mp hr with old | new
      · exact .inl old
      · obtain rfl := List.mem_singleton.mp new
        exact .inr ⟨own.1, rfl⟩
    · exact .inl hr
  | pinSubnet id => exact .inl hr
  | unpinSubnet id => exact .inl hr
  | _ =>
    simp only [PeerHistory.step] at hr
    split at hr
    · simp_all
    · exact .inl hr

theorem record_of_cacheOp (i : Moment × Input) (r : ProviderRecord)
    (h : Input.cacheOp codec topic maxAge i = some (.addProvider r)) :
    i.2.record codec topic = some r := by
  obtain ⟨m, i⟩ := i
  cases i with
  | tick => simp [Input.cacheOp] at h
  | discovery e => cases e <;> simp [Input.cacheOp] at h
  | _ => simpa [Input.cacheOp] using h

/-- Every record of the history came with some input. -/
theorem considered_history (h : PeerHistory) (inputs : List (Moment × Input)) :
    ∀ r ∈ (history codec topic maxAge p h inputs).considered, r ∈ h.considered ∨
      r.peerId = p ∧ ∃ i ∈ inputs, i.2.record codec topic = some r := by
  induction inputs generalizing h with
  | nil => exact fun r hr => .inl hr
  | cons i inputs ih =>
    intro r hr
    have first : r ∈ (observe codec topic maxAge p h i).considered → r ∈ h.considered ∨
        r.peerId = p ∧ i.2.record codec topic = some r := by
      intro mem
      unfold observe at mem
      cases op : Input.cacheOp codec topic maxAge i with
      | none => exact .inl (by simpa only [op] using mem)
      | some op' =>
        rw [op] at mem
        refine (considered_step p h op' r mem).imp id fun ⟨own, eq⟩ => ⟨own, ?_⟩
        exact record_of_cacheOp codec topic maxAge i r (op.trans (congrArg some eq))
    rcases ih (observe codec topic maxAge p h i) r hr with old | ⟨own, j, hj, rec⟩
    · rcases first old with older | ⟨own, rec⟩
      · exact .inl older
      · exact .inr ⟨own, i, by simp, rec⟩
    · exact .inr ⟨own, j, by simp [hj], rec⟩

end History

/-! ## Whole runs -/

/-- The behaviour tracks a peer as its history says. -/
structure Tracks (topic : TopicHash) (maxAge : Nat) (p : PeerId) (h : PeerHistory)
    (b : Behaviour) : Prop where
  topic : b.membershipTopic = topic
  maxAge : b.maxProviderAge = maxAge
  known : b.providerCache.KnowsAt p h
  stamped : b.providerCache.ListedStamped

section Run

variable {ok : Oracle} {codec : Codec} {topic : TopicHash} {maxAge : Nat} {p : PeerId}
  {h : PeerHistory} {b : Behaviour}

theorem Tracks.sameTables (tracks : Tracks topic maxAge p h b) {b' : Behaviour}
    (same : SameTables b b') : Tracks topic maxAge p h b' where
  topic := same.topic.trans tracks.topic
  maxAge := same.maxAge.trans tracks.maxAge
  known := tracks.known.frame (by rw [same.routable]) (by rw [same.timestamps])
  stamped := tracks.stamped.mono fun q s mem => by
    unfold providersOfSubnet timestampOf at *
    rw [same.providers] at mem
    rw [same.timestamps]
    exact ⟨mem, le_rfl⟩

theorem Tracks.step (tracks : Tracks topic maxAge p h b) (i : Moment × Input) :
    Tracks topic maxAge p (observe codec topic maxAge p h i) (b.step ok codec i) := by
  refine Tracks.sameTables ?_ (sameTables_step ok codec b i)
  unfold Behaviour.applied observe
  rw [tracks.topic, tracks.maxAge]
  cases Input.cacheOp codec topic maxAge i with
  | none => exact tracks
  | some op =>
    exact ⟨rfl, rfl, tracks.known.apply _ op, tracks.stamped.apply _ op⟩

theorem Tracks.run (tracks : Tracks topic maxAge p h b) (inputs : List (Moment × Input)) :
    Tracks topic maxAge p (history codec topic maxAge p h inputs) (b.run ok codec inputs) := by
  induction inputs generalizing b h with
  | nil => exact tracks
  | cons i inputs ih => exact ih (tracks.step i)

end Run

theorem tracks_new {ok : Oracle} {codec : Codec} {start : Timestamp} {nc : NetworkConfig}
    {mc : Config} {b : Behaviour} (built : new ok codec start nc mc = .ok b) (p : PeerId) :
    Tracks (membershipTopicOf nc.networkName) mc.maxProviderAge p ⟨false, []⟩ b := by
  have fresh : Tracks (membershipTopicOf nc.networkName) mc.maxProviderAge p ⟨false, []⟩
      (initial start nc mc) :=
    ⟨rfl, rfl, .forgotten (by simp [initial, SubnetProviderCache.new]) rfl,
      fun q s mem => absurd mem (by simp [initial, providersOfSubnet_new])⟩
  exact fresh.sameTables (related_new ok codec SameTables.ignores built)

/-! ## A record that is newer than all before -/

/-- The record is not answered with `Event::Skipped`, and its peer becomes a provider of every
subnet it lists, unless the subnet is evicted while the record is taken in. -/
def Behaviour.Readmits (now : Timestamp) (o : HashOrder SubnetID) (b : Behaviour)
    (r : ProviderRecord) : Prop :=
  let b' := b.handleProviderRecord now o r
  .skipped r.peerId ∉ b'.outbox.drop b.outbox.length ∧
    ∀ s ∈ r.subnetIds, s ∉ b.providerCache.evictedBy o r → r.peerId ∈ b'.providersOfSubnet s

/-- Exactly the records of unroutable peers are skipped. -/
theorem skipped_iff (o : HashOrder SubnetID) (c : SubnetProviderCache) (r : ProviderRecord) :
    .skipped r.peerId ∈ (Behaviour.recordEvent r (c.addProvider o r).2).toList ↔
      r.peerId ∉ c.routablePeers := by
  by_cases route : r.peerId ∈ c.routablePeers
  · have answered : ∃ d, (c.addProvider o r).2 = some d := by
      simp only [addProvider, isRoutable, route, decide_true, if_true]
      split <;> exact ⟨_, rfl⟩
    obtain ⟨d, hd⟩ := answered
    rw [hd]
    simp only [Behaviour.recordEvent, route, not_true, iff_false]
    split <;> simp
  · rw [addProvider_of_not_routable o route]
    simp [Behaviour.recordEvent, route]

theorem mem_providers_handleProviderRecord (now : Timestamp) (o : HashOrder SubnetID)
    (b : Behaviour) (r : ProviderRecord) (p : PeerId) (s : SubnetID) :
    p ∈ (b.handleProviderRecord now o r).providersOfSubnet s ↔
      p ∈ (b.providerCache.addProvider o r).1.providersOfSubnet s := by
  have same := related_handleProviderRecord SameTables.background now o b r
  unfold Behaviour.providersOfSubnet providersOfSubnet
  rw [same.providers]

theorem newest_lt_iff {h : PeerHistory} {r : ProviderRecord}
    (newer : ∀ r' ∈ h.considered, r'.timestamp < r.timestamp) :
    h.newestTimestamp < r.timestamp ↔ 0 < r.timestamp := by
  constructor
  · exact fun lt => Nat.zero_lt_of_lt lt
  · intro pos
    by_cases some : 0 < h.newestTimestamp
    · obtain ⟨r', mem, eq⟩ := exists_stamp_eq_newest ProviderRecord.timestamp some
      exact eq.ge.trans_lt (newer r' mem)
    · exact (not_lt.mp some).trans_lt pos

theorem readmits_iff {topic : TopicHash} {maxAge : Nat} {h : PeerHistory} {b : Behaviour}
    {r : ProviderRecord} (tracks : Tracks topic maxAge r.peerId h b)
    (newer : ∀ r' ∈ h.considered, r'.timestamp < r.timestamp) (now : Timestamp)
    (o : HashOrder SubnetID) :
    b.Readmits now o r ↔ h.routable = true ∧ (0 < r.timestamp ∨ r.subnetIds = []) := by
  unfold Behaviour.Readmits
  simp only [outbox_handleProviderRecord, List.drop_left, skipped_iff, not_not,
    mem_providers_handleProviderRecord, tracks.known.routable, and_congr_right_iff]
  intro routable
  have accepts : b.providerCache.Accepts r ↔ 0 < r.timestamp := by
    rw [tracks.known.accepts_iff, newest_lt_iff newer]
    exact and_iff_right routable
  by_cases pos : 0 < r.timestamp
  · have acc := accepts.mpr pos
    simp only [pos, true_or, iff_true]
    intro s listed kept
    exact (mem_providers_addProvider o acc s).mpr ⟨listed, kept⟩
  · -- A peer without a positive timestamp is listed nowhere, and this record changes nothing.
    have stale : ¬ b.providerCache.Accepts r := fun acc => pos (accepts.mp acc)
    have unlisted : ∀ s, r.peerId ∉ (b.providerCache.addProvider o r).1.providersOfSubnet s := by
      intro s mem
      rw [addProvider_of_stale o (tracks.known.routable.mpr routable) stale] at mem
      have stamp := tracks.stamped r.peerId s mem
      rw [tracks.known.timestampOf] at stamp
      obtain ⟨r', mem', -⟩ := exists_stamp_eq_newest ProviderRecord.timestamp stamp
      exact pos (Nat.zero_lt_of_lt (newer r' mem'))
    simp only [pos, false_or, evictedBy, stale, if_false, Finset.notMem_empty, unlisted]
    simp [List.eq_nil_iff_forall_not_mem]

/-- Discovery's last word on a peer is that it has an address, and a record of the peer is
newer than all before. The record is taken in unless the peer has expired since: pruning also
makes the peer unroutable, though its address is still known, and nothing but another event
of discovery undoes that. -/
theorem readmits_iff_not_expired (ok : Oracle) (codec : Codec) (start : Timestamp)
    (nc : NetworkConfig) (mc : Config) (b : Behaviour)
    (built : new ok codec start nc mc = .ok b) (p : PeerId) (addresses : List Multiaddr)
    (m : Moment) (before after : List (Moment × Input))
    (last : ∀ i ∈ after, i.2.discovered ≠ some p) (r : ProviderRecord) (own : r.peerId = p)
    (newer : ∀ i ∈ before ++ after, ∀ r', i.2.record codec b.membershipTopic = some r' →
      r'.peerId = p → r'.timestamp < r.timestamp)
    (now : Timestamp) (o : HashOrder SubnetID) :
    let added := before ++ [(m, .discovery (.added p addresses))]
    let hist := history codec b.membershipTopic b.maxProviderAge p ⟨false, []⟩ added
    (b.run ok codec (added ++ after)).Readmits now o r ↔
      ¬ ExpiresDuring codec b.membershipTopic b.maxProviderAge p hist after ∧
        (0 < r.timestamp ∨ r.subnetIds = []) := by
  intro added hist
  subst own
  have fresh := tracks_new built r.peerId
  rw [← fresh.topic, ← fresh.maxAge] at fresh
  have tracks : Tracks _ _ _ _ (b.run ok codec (added ++ after)) := fresh.run (added ++ after)
  have routable : hist.routable = true := by
    simp [hist, added, history, observe, Input.cacheOp, PeerHistory.step]
  have split : history codec b.membershipTopic b.maxProviderAge r.peerId ⟨false, []⟩
      (added ++ after) = history codec b.membershipTopic b.maxProviderAge r.peerId hist after :=
    List.foldl_append
  rw [readmits_iff tracks ?_ now o, split, routable_history _ _ _ _ _ _ last]
  · simp [routable]
  · intro r' mem
    rcases considered_history _ _ _ _ _ _ r' mem with old | ⟨own, i, hi, rec⟩
    · simp at old
    · refine newer i ?_ r' rec own
      -- The event of discovery carries no record.
      have skip : i ≠ (m, .discovery (.added r.peerId addresses)) := by
        rintro rfl
        simp [Input.record] at rec
      simpa [added, skip] using hi

/-- A peer is seen, announces itself and announces itself again within the maximum age. -/
theorem readmits_fresh_provider :
    let codec : Codec := ⟨id, fun data => some ⟨⟨[1]⟩, [⟨"/root/t01"⟩], data.length⟩, fun _ => none⟩
    ∃ b, new (fun _ _ => true) codec 0 ⟨⟨[0]⟩, "net"⟩ ⟨[], 10, 60, 5, 30⟩ = .ok b ∧
      (b.run (fun _ _ => true) codec ([] ++ [(⟨0, .plain⟩, .discovery (.added ⟨[1]⟩ []))] ++
        [(⟨1, .plain⟩, .gossip (.message (membershipTopicOf "net") [0])),
          (⟨2, .plain⟩, .tick)])).Readmits 3 (.plain _) ⟨⟨[1]⟩, [⟨"/root/t01"⟩], 2⟩ := by
  intro codec
  refine ⟨_, rfl, (readmits_iff_not_expired (fun _ _ => true) codec 0 ⟨⟨[0]⟩, "net"⟩
    ⟨[], 10, 60, 5, 30⟩ _ rfl ⟨[1]⟩ [] ⟨0, .plain⟩ [] _ (by decide)
    ⟨⟨[1]⟩, [⟨"/root/t01"⟩], 2⟩ rfl ?_ 3 (.plain _)).mpr ⟨?_, .inl (by decide)⟩⟩
  · rintro i hi r' rec -
    simp only [List.nil_append, List.mem_cons, List.not_mem_nil, or_false] at hi
    rcases hi with rfl | rfl
    · cases rec
      decide
    · cases rec
  · simp only [expiresDuring_cons, not_expiresDuring_nil, or_false, not_or]
    refine ⟨by simp, ?_⟩
    rintro ⟨-, -, late⟩
    exact absurd late (Nat.not_lt_zero _)

/-- A peer announces itself, is pruned after a long silence and comes back with a newer record.
Discovery has reported it once and never took it back, but the record is skipped. -/
theorem returning_provider_skipped :
    let codec : Codec := ⟨id, fun data => some ⟨⟨[1]⟩, [⟨"/root/t01"⟩], data.length⟩, fun _ => none⟩
    ∃ b, new (fun _ _ => true) codec 0 ⟨⟨[0]⟩, "net"⟩ ⟨[], 10, 60, 5, 30⟩ = .ok b ∧
      ¬ (b.run (fun _ _ => true) codec [(⟨0, .plain⟩, .discovery (.added ⟨[1]⟩ [])),
        (⟨1, .plain⟩, .gossip (.message (membershipTopicOf "net") [0])),
        (⟨60, .plain⟩, .tick)]).Readmits 61 (.plain _) ⟨⟨[1]⟩, [⟨"/root/t01"⟩], 61⟩ := by
  intro codec
  refine ⟨_, rfl, fun readmits => readmits.1 ?_⟩
  decide +kernel

end Membership

end IpcAgent.Resolver
