import IpcAgent.Resolver.ServiceRun
import IpcAgent.Resolver.SignedRecord
import IpcAgent.Resolver.VoteTopics

/-!
# What the clients hear

Votes and data that arrive by gossip wait in the outbox of the membership behaviour until the
service polls it; the service then broadcasts them to its clients. In between lie all the
other events of the behaviour, which the service keeps to itself.
-/

namespace IpcAgent.Resolver
open Library IpcAgent.Resolver.Membership

deriving instance DecidableEq for ServiceEvent

/-- What is broadcast of an event of the membership behaviour. -/
def ServiceEvent.of : Membership.Event → Option ServiceEvent
  | .receivedVote vote => some (.receivedVote vote)
  | .receivedPreemptive subnet data => some (.receivedPreemptive subnet data)
  | .skipped _ | .updated _ _ | .removed _ => none

/-! ## What the membership behaviour hears -/

namespace Membership

theorem filterMap_cacheEvents (w : Walks) (c : SubnetProviderCache) (op : CacheOp) :
    (cacheEvents w c op).filterMap ServiceEvent.of = [] := by
  cases op with
  | addProvider r =>
    simp only [cacheEvents, Behaviour.recordEvent]
    split
    · rfl
    · split <;> rfl
  | pruneProviders cutoff => simp [cacheEvents, List.filterMap_map, ServiceEvent.of]
  | _ => rfl

/-- Only gossip outside the membership topic is of interest to the clients. -/
theorem filterMap_raised (codec : Codec) (b : Behaviour) (i : Moment × Input) :
    (b.raised codec i).filterMap ServiceEvent.of =
      (b.heard codec i.2).filterMap ServiceEvent.of := by
  unfold Behaviour.raised
  split
  · rename_i op found
    have silent : b.heard codec i.2 = [] := by
      obtain ⟨m, i⟩ := i
      cases i with
      | gossip g =>
        obtain ⟨r, read, -⟩ := Option.map_eq_some_iff.mp found
        unfold Input.record at read
        split at read
        · rename_i topic data same
          cases same
          split_ifs at read with own
          simp [Behaviour.heard, own]
        · cases read
      | _ => rfl
    rw [filterMap_cacheEvents, silent, List.filterMap_nil]
  · rfl

/-- What the clients are to hear of a run, in its order. -/
def Behaviour.hears (ok : Oracle) (codec : Codec) (b : Behaviour) :
    List (Moment × Input) → List ServiceEvent
  | [] => []
  | i :: inputs =>
    (b.heard codec i.2).filterMap ServiceEvent.of ++ (b.step ok codec i).hears ok codec inputs

theorem behaviour_foldl (ok : Oracle) (codec : Codec) (t : Trace)
    (inputs : List (Moment × Input)) :
    (inputs.foldl (Trace.step ok codec) t).behaviour = t.behaviour.run ok codec inputs := by
  induction inputs generalizing t with
  | nil => rfl
  | cons i inputs ih => exact ih (t.step ok codec i)

theorem filterMap_pushed (ok : Oracle) (codec : Codec) (t : Trace)
    (inputs : List (Moment × Input)) :
    (inputs.foldl (Trace.step ok codec) t).pushed.filterMap ServiceEvent.of =
      t.pushed.filterMap ServiceEvent.of ++ t.behaviour.hears ok codec inputs := by
  induction inputs generalizing t with
  | nil => simp [Behaviour.hears]
  | cons i inputs ih =>
    rw [List.foldl_cons, ih, Trace.pushed_step, List.filterMap_append, filterMap_raised,
      List.append_assoc]
    rfl

theorem pushed_isPrefix (ok : Oracle) (codec : Codec) (t : Trace) (inputs : List (Moment × Input)) :
    t.pushed <+: (inputs.foldl (Trace.step ok codec) t).pushed := by
  induction inputs generalizing t with
  | nil => exact List.prefix_rfl
  | cons i inputs ih =>
    have first : t.pushed <+: (t.step ok codec i).pushed := by
      rw [Trace.pushed_step]
      exact List.prefix_append _ _
    exact first.trans (ih _)

theorem emitted_isPrefix (ok : Oracle) (codec : Codec) (t : Trace)
    (inputs : List (Moment × Input)) :
    t.emitted <+: (inputs.foldl (Trace.step ok codec) t).emitted := by
  induction inputs generalizing t with
  | nil => exact List.prefix_rfl
  | cons i inputs ih => exact (List.prefix_append _ _).trans (ih (t.step ok codec i))

/-- Without a poll that finds something in the outbox, nothing is taken out of it. -/
theorem emitted_of_no_emit (ok : Oracle) (codec : Codec) (t : Trace)
    (inputs : List (Moment × Input)) (kept : ∀ i ∈ inputs, i.2 ≠ .emit) :
    (inputs.foldl (Trace.step ok codec) t).emitted = t.emitted := by
  induction inputs generalizing t with
  | nil => rfl
  | cons i inputs ih =>
    rw [List.foldl_cons, ih _ fun j mem => kept j (List.mem_cons_of_mem i mem)]
    have first := kept i List.mem_cons_self
    obtain ⟨m, i⟩ := i
    cases i with
    | emit => exact absurd rfl first
    | _ => exact List.append_nil _

theorem exists_of_mem_gossiped {ready : List (Moment × GossipsubAction)} {i : Moment × Input}
    (mem : i ∈ Behaviour.pollInputs.gossiped ready) : ∃ m e, i = (m, .gossip e) := by
  fun_induction Behaviour.pollInputs.gossiped ready with
  | case1 m e ready ih =>
    rcases List.mem_cons.mp mem with rfl | mem
    · exact ⟨m, e, rfl⟩
    · exact ih mem
  | case2 ready => cases mem

/-- What a poll can be made of. -/
theorem cases_of_mem_pollInputs {b : Behaviour} {m : Moment}
    {ready : List (Moment × GossipsubAction)} {i : Moment × Input}
    (mem : i ∈ b.pollInputs m ready) :
    (b.outbox ≠ [] ∧ i = (m, .emit)) ∨
      b.outbox = [] ∧ (i = (m, .tick) ∨ ∃ m e, i = (m, .gossip e)) := by
  unfold Behaviour.pollInputs at mem
  split at mem
  · rename_i out
    exact .inl ⟨by simp [out], List.mem_singleton.mp mem⟩
  · rename_i out
    refine .inr ⟨out, ?_⟩
    rcases List.mem_append.mp mem with tick | gossip
    · split at tick
      · exact .inl (List.mem_singleton.mp tick)
      · cases tick
    · exact .inr (exists_of_mem_gossiped gossip)

end Membership

/-! ## The membership behaviour inside the service -/

namespace Service

variable (env : Env)

def run (s : Service) (inputs : List (Moment × Input)) : Service := inputs.foldl (step env) s

/-- The steps of the membership behaviour that a step of the service is made of. -/
def membershipInputs (s : Service) : Moment × Input → List (Moment × Membership.Input)
  | (m, .pollDiscovery ticked ready) =>
    ((s.discovery.poll ticked ready).emitted.map fun e => (m, .discovery e)).toList
  | (m, .pollMembership ready _) => s.membership.pollInputs m ready
  | (m, .request r) => [(m, .request r)]
  | (_, .identified _ _) | (_, .complete _ _ _) | (_, .resolve _ _ _ _ _ _) => []

/-- All steps of the membership behaviour in a run of the service. -/
def membershipRun (s : Service) : List (Moment × Input) → List (Moment × Membership.Input)
  | [] => []
  | i :: inputs => s.membershipInputs i ++ (s.step env i).membershipRun inputs

/-- The trace belongs to the membership behaviour of the service, and the clients have heard
what was handed out in it. -/
structure Heeds (s : Service) (t : Trace) : Prop where
  behaviour : t.behaviour = s.membership
  events : s.events = t.emitted.filterMap ServiceEvent.of

theorem events_handleMembershipEvent (isNew : Finset PeerId → PeerId → Bool)
    (known : List Multiaddr) (s : Service) (e : Membership.Event) :
    (s.handleMembershipEvent isNew known e).events =
      s.events ++ [e].filterMap ServiceEvent.of := by
  cases e with
  | skipped p =>
    simp only [handleMembershipEvent]
    split <;> exact (List.append_nil _).symm
  | receivedVote v => rfl
  | receivedPreemptive subnet data => rfl
  | _ => exact (List.append_nil _).symm

theorem events_startQuery (s : Service) (shuffle : SetOrder PeerId)
    (isConnected : PeerId → Bool) (id : QueryId) (cid : Cid) (subnet : SubnetID)
    (channel : ResponseChannel) :
    (s.startQuery shuffle isConnected id cid subnet channel).events = s.events := by
  rcases World.startQuery_cases s shuffle isConnected id cid subnet channel with
    ⟨-, eq⟩ | ⟨-, eq⟩ <;> rw [eq] <;> rfl

theorem events_handleComplete (s : Service) (ended next : QueryId)
    (result : Except String Unit) : (s.handleComplete ended next result).events = s.events := by
  unfold handleComplete resolveQuery
  split
  · split
    · rfl
    · split <;> rfl
  · rfl

/-- A poll hands out one event if there is one, and otherwise none. -/
theorem heeds_pollMembership {s : Service} {t : Trace} (heeds : s.Heeds t) (m : Moment)
    (ready : List (Moment × GossipsubAction)) (known : List Multiaddr) :
    (s.step env (m, .pollMembership ready known)).Heeds
      ((s.membership.pollInputs m ready).foldl (Trace.step env.ok env.codec) t) := by
  obtain ⟨behaviour, events⟩ := heeds
  have ran : ((s.membership.pollInputs m ready).foldl (Trace.step env.ok env.codec) t).behaviour =
      (s.membership.poll env.ok env.codec m ready).1 := by
    rw [behaviour_foldl, behaviour, poll_eq_run]
  refine ⟨?_, ?_⟩
  · rw [ran]
    simp only [step]
    split
    · rw [membership_handleMembershipEvent]
    · rfl
  · cases out : s.membership.outbox with
    | nil =>
      have quiet : (s.membership.poll env.ok env.codec m ready).2 = none := by
        simp [Behaviour.poll, out]
      rw [emitted_of_no_emit]
      · simp only [step, quiet]
        exact events
      · intro i mem
        rcases cases_of_mem_pollInputs mem with ⟨some, -⟩ | ⟨-, rfl | ⟨_, _, rfl⟩⟩
        · exact absurd out some
        · simp
        · simp
    | cons e outbox =>
      have polled : (s.membership.poll env.ok env.codec m ready).2 = some e := by
        simp [Behaviour.poll, out]
      simp only [step, polled, events_handleMembershipEvent, events, Behaviour.pollInputs, out,
        List.foldl_cons, List.foldl_nil, Trace.step, Trace.handedOut, behaviour,
        List.head?_cons, Option.toList_some, List.filterMap_append]

/-- One step of the service. -/
theorem heeds_step {s : Service} {t : Trace} (heeds : s.Heeds t) (i : Moment × Input) :
    (s.step env i).Heeds ((s.membershipInputs i).foldl (Trace.step env.ok env.codec) t) := by
  obtain ⟨m, i⟩ := i
  cases i with
  | pollMembership ready known => exact heeds_pollMembership env heeds m ready known
  | pollDiscovery ticked ready =>
    obtain ⟨behaviour, events⟩ := heeds
    simp only [step, membershipInputs]
    cases (s.discovery.poll ticked ready).emitted with
    | none => exact ⟨behaviour, events⟩
    | some e =>
      refine ⟨?_, ?_⟩
      · exact congrArg (fun b => b.step env.ok env.codec (m, .discovery e)) behaviour
      · exact events.trans (congrArg _ (List.append_nil _).symm)
  | identified p info => exact ⟨heeds.behaviour, heeds.events⟩
  | complete ended next result =>
    exact ⟨heeds.behaviour.trans (membership_handleComplete s ended next result).symm,
      (events_handleComplete s ended next result).trans heeds.events⟩
  | resolve shuffle isConnected id cid subnet channel =>
    exact ⟨heeds.behaviour.trans
        (membership_startQuery s shuffle isConnected id cid subnet channel).symm,
      (events_startQuery s shuffle isConnected id cid subnet channel).trans heeds.events⟩
  | request r =>
    refine ⟨?_, ?_⟩
    · exact congrArg (fun b => b.step env.ok env.codec (m, .request r)) heeds.behaviour
    · exact heeds.events.trans (congrArg _ (List.append_nil _).symm)

theorem heeds_run {s : Service} {t : Trace} (heeds : s.Heeds t) (inputs : List (Moment × Input)) :
    (s.run env inputs).Heeds
      ((s.membershipRun env inputs).foldl (Trace.step env.ok env.codec) t) := by
  induction inputs generalizing s t with
  | nil => exact heeds
  | cons i inputs ih =>
    rw [membershipRun, List.foldl_append]
    exact ih (heeds_step env heeds i)

/-! ## Nothing is lost -/

/-- The service polls its membership behaviour. -/
def Input.polls : Input → Bool
  | .pollMembership _ _ => true
  | _ => false

/-- Each poll hands out an event, as long as there are any. -/
theorem length_emitted_poll {s : Service} {t : Trace} (heeds : s.Heeds t)
    (i : Moment × Input) (polls : i.2.polls = true) :
    min (t.emitted.length + 1) t.pushed.length ≤
      ((s.membershipInputs i).foldl (Trace.step env.ok env.codec) t).emitted.length := by
  obtain ⟨m, i⟩ := i
  cases i with
  | pollMembership ready known =>
    cases out : s.membership.outbox with
    | nil =>
      have more := (emitted_isPrefix env.ok env.codec t
        (s.membershipInputs (m, .pollMembership ready known))).length_le
      simp only [Trace.pushed, heeds.behaviour, out, List.append_nil]
      omega
    | cons e outbox =>
      simp [membershipInputs, Behaviour.pollInputs, out, Trace.step, Trace.handedOut,
        heeds.behaviour]
  | _ => cases polls

theorem length_emitted_run {s : Service} {t : Trace} (heeds : s.Heeds t)
    (inputs : List (Moment × Input)) :
    min (t.emitted.length + inputs.countP (·.2.polls)) t.pushed.length ≤
      ((s.membershipRun env inputs).foldl (Trace.step env.ok env.codec) t).emitted.length := by
  induction inputs generalizing s t with
  | nil =>
    simp [membershipRun]
  | cons i inputs ih =>
    rw [membershipRun, List.foldl_append]
    have rest := ih (heeds_step env heeds i)
    have pushed := (pushed_isPrefix env.ok env.codec t (s.membershipInputs i)).length_le
    by_cases polls : i.2.polls = true
    · have one := length_emitted_poll env heeds i polls
      simp only [List.countP_cons, polls, if_true]
      omega
    · have kept := (emitted_isPrefix env.ok env.codec t (s.membershipInputs i)).length_le
      simp only [List.countP_cons, polls, Bool.false_eq_true, if_false]
      omega

theorem heeds_new (discovery : Discovery.Behaviour) (b : Behaviour) (maxPeersPerQuery : Nat) :
    (new discovery b maxPeersPerQuery).Heeds ⟨b, []⟩ := ⟨rfl, rfl⟩

/-- The clients have heard what was handed out of all that was gossiped. -/
theorem events_prefix_hears {start : Timestamp} {nc : NetworkConfig} {mc : Config}
    {b : Behaviour} (built : Membership.new env.ok env.codec start nc mc = .ok b) {s : Service}
    {inputs : List (Moment × Membership.Input)}
    (heeds : s.Heeds (inputs.foldl (Trace.step env.ok env.codec) ⟨b, []⟩)) :
    (inputs.foldl (Trace.step env.ok env.codec) ⟨b, []⟩).pushed.filterMap ServiceEvent.of =
        b.hears env.ok env.codec inputs ∧
      s.events <+: b.hears env.ok env.codec inputs := by
  have empty : (Trace.mk b []).pushed = [] :=
    related_new env.ok env.codec SameOutbox.ignores built
  have heard := filterMap_pushed env.ok env.codec ⟨b, []⟩ inputs
  rw [empty, List.filterMap_nil, List.nil_append] at heard
  refine ⟨heard, ?_⟩
  rw [heeds.events, ← heard]
  exact (List.prefix_append _ _).filterMap _

/-- Votes and data gossiped to the node are broadcast to its clients in the order in which they
came, each of them once and nothing besides: at any time the clients have heard the first
part of it, and after as many polls as there are events waiting they have heard it all. -/
theorem gossip_reaches_clients (env : Env) (discovery : Discovery.Behaviour)
    (maxPeersPerQuery : Nat) (start : Timestamp) (nc : NetworkConfig) (mc : Config)
    (b : Behaviour) (built : Membership.new env.ok env.codec start nc mc = .ok b)
    (inputs later : List (Moment × Input)) :
    let first := new discovery b maxPeersPerQuery
    let gossip := b.hears env.ok env.codec (first.membershipRun env inputs)
    let s := first.run env inputs
    s.events <+: gossip ∧
      (s.membership.outbox.length ≤ later.countP (·.2.polls) →
        gossip <+: (s.run env later).events) := by
  intro first gossip s
  have heeds := heeds_run env (heeds_new discovery b maxPeersPerQuery) inputs
  obtain ⟨heard, initial⟩ := events_prefix_hears env built heeds
  refine ⟨initial, fun enough => ?_⟩
  have heeds' := heeds_run env heeds later
  have handed := length_emitted_run env heeds later
  set t := (first.membershipRun env inputs).foldl (Trace.step env.ok env.codec) ⟨b, []⟩
  set t' := (s.membershipRun env later).foldl (Trace.step env.ok env.codec) t
  -- By then as much has been handed out as had ever been pushed.
  have all : t.pushed <+: t'.emitted := by
    have pushed : t.pushed <+: t'.pushed := pushed_isPrefix env.ok env.codec t _
    refine List.prefix_of_prefix_length_le pushed (List.prefix_append _ _) ?_
    have outbox : t.pushed.length = t.emitted.length + s.membership.outbox.length := by
      rw [Trace.pushed, List.length_append, heeds.behaviour]
    omega
  rw [heeds'.events, show gossip = _ from heard.symm]
  exact all.filterMap _

/-- Data for a pinned subnet, handed out by the second poll. -/
theorem gossip_reaches_clients_data :
    let env : Env := ⟨fun _ _ => true, ⟨("#" ++ ·), fun _ => none, fun _ => none⟩, fun _ _ => true⟩
    let discovery : Discovery.Behaviour := ⟨⟨[0]⟩, [], "", none, 0, 10, 1, none, []⟩
    let mc : Config := ⟨[⟨"/root/t01"⟩], 10, 60, 5, 30⟩
    let topic : TopicHash := ⟨"#/ipc/ipld/pre-emptive/net/_root_t01"⟩
    let inputs : List (Moment × Input) :=
      [(⟨1, .plain⟩, .pollMembership [(⟨1, .plain⟩, .generateEvent (.message topic [7]))] [])]
    let later : List (Moment × Input) := [(⟨2, .plain⟩, .pollMembership [] [])]
    ∃ b, Membership.new env.ok env.codec 0 ⟨⟨[0]⟩, "net"⟩ mc = .ok b ∧
      [.receivedPreemptive ⟨"/root/t01"⟩ [7]] <+:
        (((new discovery b 5).run env inputs).run env later).events := by
  intro env discovery mc topic inputs later
  refine ⟨_, rfl, ?_⟩
  have reaches := (gossip_reaches_clients env discovery 5 0 ⟨⟨[0]⟩, "net"⟩ mc _ rfl inputs
    later).2 (by decide +kernel)
  refine List.IsPrefix.trans ?_ reaches
  decide +kernel

/-! ## What they hear is genuine -/

/-- The subnets declared in the course of a run of the service. -/
def declared (mc : Config) (inputs : List (Moment × Input)) : Set SubnetID :=
  {id | id ∈ mc.staticSubnets ∨ ∃ m r, (m, .request r) ∈ inputs ∧ id ∈ r.subnets}

/-- Only requests declare subnets. -/
theorem declares_of_mem_membershipRun {env : Env} {s : Service} {inputs : List (Moment × Input)}
    {i : Moment × Membership.Input} (mem : i ∈ s.membershipRun env inputs) {id : SubnetID}
    (named : id ∈ i.2.subnets) : ∃ m r, (m, .request r) ∈ inputs ∧ id ∈ r.subnets := by
  induction inputs generalizing s with
  | nil => cases mem
  | cons j inputs ih =>
    rcases List.mem_append.mp mem with here | later
    · obtain ⟨m, j⟩ := j
      cases j with
      | pollDiscovery ticked ready =>
        obtain ⟨e, -, rfl⟩ := Option.map_eq_some_iff.mp (Option.mem_toList.mp here)
        cases named
      | pollMembership ready known =>
        rcases cases_of_mem_pollInputs here with ⟨-, rfl⟩ | ⟨-, rfl | ⟨_, _, rfl⟩⟩ <;> cases named
      | request r =>
        obtain rfl := List.mem_singleton.mp here
        exact ⟨m, r, List.mem_cons_self, named⟩
      | _ => cases here
    · obtain ⟨m, r, among, declares⟩ := ih later
      exact ⟨m, r, List.mem_cons_of_mem _ among, declares⟩

section Genuine

theorem mem_hears {ok : Oracle} {codec : Codec} {b : Behaviour} {e : ServiceEvent}
    {inputs : List (Moment × Membership.Input)} (mem : e ∈ b.hears ok codec inputs) :
    ∃ before i after, inputs = before ++ i :: after ∧
      e ∈ ((b.run ok codec before).heard codec i.2).filterMap ServiceEvent.of := by
  induction inputs generalizing b with
  | nil => cases mem
  | cons i inputs ih =>
    rcases List.mem_append.mp mem with here | later
    · exact ⟨[], i, inputs, rfl, here⟩
    · obtain ⟨before, j, after, rfl, there⟩ := ih later
      exact ⟨i :: before, j, after, rfl, there⟩

/-- How a node comes to tell its clients something, from a message it has received on a topic:
a vote on the topic of a subnet it provides, signed by the validator that the vote names, or
the data itself, on the topic of the pinned subnet. -/
def Vouched (history : List Signing) (codec : Codec) (network : String)
    (b : Behaviour) (topic : TopicHash) (data : List UInt8) : ServiceEvent → Prop
  | .receivedVote v =>
    (∃ id ∈ b.subnetIds, topic = Topic.hash codec network (.voting id)) ∧
      (SignsRecordsOnly history v.publicKey →
        ∃ signature, .record .vote v.publicKey v signature ∈ history)
  | .receivedPreemptive subnet d =>
    d = data ∧ subnet ∈ b.providerCache.pinnedSubnets ∧
      topic = Topic.hash codec network (.preemptive subnet)

variable {e : Encodings} {history : List Signing} {sha256 : String → String} {verify : Verify}
  (sound : Verifies (history.map (Signing.signed e)) verify)

include sound

theorem vouched_of_heard {network : String} {S : Set SubnetID} {b : Behaviour}
    (aligned : Aligned (e.codec sha256 verify) network S b) {i : Membership.Input}
    {event : ServiceEvent}
    (mem : event ∈ (b.heard (e.codec sha256 verify) i).filterMap ServiceEvent.of) :
    ∃ topic data, i = .gossip (.message topic data) ∧
      Vouched history (e.codec sha256 verify) network b topic data event := by
  obtain ⟨-, -, -, -, voting, preemptive, -⟩ := aligned
  unfold Behaviour.heard at mem
  split at mem
  · rename_i topic data
    refine ⟨topic, data, rfl, ?_⟩
    split_ifs at mem with own votes
    · cases mem
    · -- A vote that could be read has been signed.
      obtain ⟨id, provided, eq⟩ := Topic.exists_votes.mp ((voting topic).mp votes)
      cases read : (e.codec sha256 verify).voteRecord data with
      | none => simp [read] at mem
      | some v =>
        obtain rfl : event = .receivedVote v := by simpa [read, ServiceEvent.of] using mem
        refine ⟨⟨id, provided, eq.symm⟩, fun careful => ?_⟩
        obtain ⟨sr, accepted, rfl⟩ := Encodings.read_eq_some.mp read
        exact SignedRecord.signed_of_fromBytes sound careful accepted
          (e.checkSigningKey_vote.mpr rfl)
    · cases found : b.preemptiveTopics.lookup topic with
      | none => simp [found] at mem
      | some subnet =>
        obtain rfl : event = .receivedPreemptive subnet data := by
          simpa [found, ServiceEvent.of] using mem
        obtain ⟨pinned, eq⟩ := (preemptive topic subnet).mp found
        exact ⟨rfl, pinned, eq.symm⟩
  · cases mem

end Genuine

/-- Whatever the clients of a service hear goes back to a message the node has received: votes
came on the topic of a subnet that it provided at the time and were signed by the validator
they name, and data came on the topic of the subnet it is told to be for, while this was
pinned. -/
theorem client_events_vouched (e : Encodings) (history : List Signing)
    (sha256 : String → String) (verify : Verify)
    (sound : Verifies (history.map (Signing.signed e)) verify) (ok : Oracle)
    (subscribes : Subscribes ok) (isNew : Finset PeerId → PeerId → Bool)
    (discovery : Discovery.Behaviour) (maxPeersPerQuery : Nat) (start : Timestamp)
    (nc : NetworkConfig) (mc : Config) (b : Behaviour)
    (built : Membership.new ok (e.codec sha256 verify) start nc mc = .ok b)
    (inputs : List (Moment × Input))
    (sep : Set.InjOn (Topic.hash (e.codec sha256 verify) nc.networkName)
      (Topic.among (declared mc inputs)))
    (event : ServiceEvent)
    (heard : event ∈ ((new discovery b maxPeersPerQuery).run
      ⟨ok, e.codec sha256 verify, isNew⟩ inputs).events) :
    ∃ before m topic data after,
      (new discovery b maxPeersPerQuery).membershipRun ⟨ok, e.codec sha256 verify, isNew⟩ inputs =
        before ++ (m, .gossip (.message topic data)) :: after ∧
      Vouched history (e.codec sha256 verify) nc.networkName
        (b.run ok (e.codec sha256 verify) before) topic data event := by
  have heeds := heeds_run ⟨ok, e.codec sha256 verify, isNew⟩
    (heeds_new discovery b maxPeersPerQuery) inputs
  obtain ⟨-, initial⟩ := events_prefix_hears ⟨ok, e.codec sha256 verify, isNew⟩ built heeds
  obtain ⟨before, ⟨m, i⟩, after, eq, mem⟩ := mem_hears (initial.subset heard)
  have aligned := (aligned_new subscribes sep built rfl fun id mem => .inl mem).run subscribes sep
    before fun i earlier id named => .inr
      (declares_of_mem_membershipRun (eq ▸ List.mem_append_left _ earlier) named)
  obtain ⟨topic, data, rfl, vouched⟩ := vouched_of_heard sound aligned mem
  exact ⟨before, m, topic, data, after, eq, vouched⟩

/-- Data for a pinned subnet came on the topic of this subnet. -/
theorem client_events_vouched_data :
    let e : Encodings := Classical.choice nonempty_encodings
    let codec := e.codec ("#" ++ ·) fun _ _ _ => false
    let env : Env := ⟨fun _ _ => true, codec, fun _ _ => true⟩
    let discovery : Discovery.Behaviour := ⟨⟨[0]⟩, [], "", none, 0, 10, 1, none, []⟩
    let topic : TopicHash := ⟨"#/ipc/ipld/pre-emptive/net/_root_t01"⟩
    let inputs : List (Moment × Input) :=
      [(⟨1, .plain⟩, .pollMembership [(⟨1, .plain⟩, .generateEvent (.message topic [7]))] []),
        (⟨2, .plain⟩, .pollMembership [] [])]
    ∃ b, Membership.new env.ok codec 0 ⟨⟨[0]⟩, "net"⟩ ⟨[⟨"/root/t01"⟩], 10, 60, 5, 30⟩ = .ok b ∧
      .receivedPreemptive ⟨"/root/t01"⟩ [7] ∈ ((new discovery b 5).run env inputs).events ∧
      ∃ before m topic data after,
        (new discovery b 5).membershipRun env inputs =
          before ++ (m, .gossip (.message topic data)) :: after ∧
        Vouched [] codec "net" (b.run env.ok codec before) topic data
          (.receivedPreemptive ⟨"/root/t01"⟩ [7]) := by
  intro e codec env discovery topic inputs
  have sep : Set.InjOn (Topic.hash codec "net")
      (Topic.among (declared ⟨[⟨"/root/t01"⟩], 10, 60, 5, 30⟩ inputs)) := by
    refine Topic.injOn_hash (fun s t => (String.append_right_inj "#").mp) ?_ ?_
    · intro s eq
      have eq := congrArg String.toList eq
      simp [codec, Encodings.codec, membershipTopicOf, pubsubMembership] at eq
    · have only : ∀ id ∈ declared ⟨[⟨"/root/t01"⟩], 10, 60, 5, 30⟩ inputs, id = ⟨"/root/t01"⟩ := by
        simp [declared, inputs]
      intro id mem
      rw [only id mem]
      decide
  refine ⟨_, rfl, (fun heard => ⟨heard, ?_⟩ : _ → _ ∧ _) (by decide +kernel)⟩
  exact client_events_vouched e [] ("#" ++ ·) (fun _ _ _ => false) ⟨by simp, by simp⟩
    (fun _ _ => true) (fun _ _ => ⟨rfl, rfl⟩) (fun _ _ => true) discovery 5 0 ⟨⟨[0]⟩, "net"⟩ _ _
    rfl inputs sep _ heard

end Service

end IpcAgent.Resolver
