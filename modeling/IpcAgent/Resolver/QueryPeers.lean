import IpcAgent.Resolver.Network
import IpcAgent.Resolver.Fallback

/-!
# Whom the service asks

The peers that Bitswap is told to get a block from were among the providers of the subnet when
the request was handled, and stay the same however the providers change while the batches are
tried. Each of them has itself signed that it provides this subnet, whatever else the peers of
the network may have signed.
-/

namespace IpcAgent.Resolver
open Library IpcAgent.Resolver.Membership

/-- The peer that the record is about has signed it. -/
def Attested (e : Encodings) (history : List Signing) (r : ProviderRecord) : Prop :=
  ∃ key payload signature, e.toPeerId key = r.peerId ∧ e.providerRecord.decode payload = some r ∧
    ⟨key, ⟨domainSep, (e.record .provider).payloadTypeBytes, payload⟩, signature⟩ ∈
      history.map (Signing.signed e)

/-! ## What the membership behaviour knows -/

section Known

variable {e : Encodings} {history : List Signing} {sha256 : String → String} {verify : Verify}
  (sound : Verifies (history.map (Signing.signed e)) verify)

include sound

theorem attested_of_record {i : Membership.Input} {topic : TopicHash} {r : ProviderRecord}
    (carried : i.record (e.codec sha256 verify) topic = some r) : Attested e history r := by
  unfold Membership.Input.record at carried
  split at carried
  · split_ifs at carried
    obtain ⟨sr, accepted, rfl⟩ := Encodings.read_eq_some.mp carried
    obtain ⟨envelope, -, accepted⟩ := SignedRecord.fromBytes_eq_ok.mp accepted
    obtain ⟨⟨type, verified⟩, decoded, checked, -⟩ :=
      SignedRecord.fromSignedEnvelope_eq_ok.mp accepted
    obtain ⟨signature, made⟩ := sound.unforgeable _ _ _ verified
    exact ⟨envelope.key, envelope.payload, signature,
      (e.checkSigningKey_provider.mp checked).symm, decoded, type ▸ made⟩
  · cases carried

/-- Every provider in the cache has signed a record that lists the subnet. -/
structure Known (e : Encodings) (history : List Signing) (b : Behaviour) : Prop where
  stamped : b.providerCache.ListedStamped
  reflects : b.providerCache.Reflects (Attested e history) ∅

theorem Known.run {ok : Oracle} {b : Behaviour} (known : Known e history b)
    (inputs : List (Moment × Membership.Input)) :
    Known e history (b.run ok (e.codec sha256 verify) inputs) := by
  induction inputs generalizing b with
  | nil => exact known
  | cons i inputs ih =>
    refine ih ⟨stamped_step known.stamped i, reflects_step known.reflects i ?_ ?_⟩
    · exact fun r carried => attested_of_record sound carried
    · exact Set.empty_subset _

end Known

theorem Known.new {e : Encodings} {history : List Signing} {ok : Oracle} {codec : Codec}
    {start : Timestamp} {nc : NetworkConfig} {mc : Config} {b : Behaviour}
    (built : Membership.new ok codec start nc mc = .ok b) : Known e history b := by
  have tables := related_new ok codec SameTables.ignores built
  refine ⟨?_, ?_⟩
  · intro p s listed
    unfold SubnetProviderCache.providersOfSubnet at listed
    rw [tables.providers] at listed
    cases listed
  · intro p pos
    unfold SubnetProviderCache.timestampOf at pos
    rw [tables.timestamps] at pos
    exact absurd pos (by simp [initial, SubnetProviderCache.new])

theorem Known.provider {e : Encodings} {history : List Signing} {b : Behaviour}
    (known : Known e history b) {p : PeerId} {s : SubnetID} (listed : p ∈ b.providersOfSubnet s) :
    ∃ r, Attested e history r ∧ r.peerId = p ∧ s ∈ r.subnetIds := by
  obtain ⟨r, attested, rfl, stands⟩ := known.reflects p (known.stamped p s listed)
  exact ⟨r, attested, rfl, stands.listed s listed⟩

/-! ## What the service does with it -/

namespace Service

/-- The peers handed to Bitswap, or kept to fall back on, are in `O` for the block in question. -/
structure AsksIn (O : Cid → PeerId → Prop) (s : Service) : Prop where
  asked : ∀ x ∈ s.syncs, ∀ p ∈ x.peers, O x.cid p
  kept : ∀ id q, s.queries.lookup id = some q → ∀ p ∈ q.fallbackPeerIds, O q.cid p

variable {O O' : Cid → PeerId → Prop} {s s' : Service}

theorem AsksIn.mono (asks : s.AsksIn O) (more : ∀ cid p, O cid p → O' cid p) : s.AsksIn O' :=
  ⟨fun x mem p queried => more _ _ (asks.asked x mem p queried),
    fun id q look p later => more _ _ (asks.kept id q look p later)⟩

theorem AsksIn.of_same (asks : s.AsksIn O) (same : World.SameQueries s s') : s'.AsksIn O :=
  ⟨by rw [same.syncs]; exact asks.asked, by rw [same.queries]; exact asks.kept⟩

theorem AsksIn.erase (asks : s.AsksIn O) (id : QueryId) :
    { s with queries := s.queries.erase id }.AsksIn O := by
  refine ⟨asks.asked, fun id' q look => ?_⟩
  by_cases same : id' = id
  · subst same
    simp at look
  · rw [AList.lookup_erase_ne same] at look
    exact asks.kept id' q look

/-- A batch and the peers left for later are taken from the peers given. -/
theorem AsksIn.attempt (asks : s.AsksIn O) (id : QueryId) (q : Query) {peers : List PeerId}
    (among : ∀ p ∈ peers, O q.cid p) : (s.attempt id q peers).AsksIn O := by
  rw [World.attempt_eq]
  refine ⟨fun x mem p queried => ?_, fun id' q' look p later => ?_⟩
  · rcases List.mem_append.mp mem with old | new
    · exact asks.asked x old p queried
    · rw [List.mem_singleton.mp new] at queried ⊢
      exact among p (List.mem_of_mem_take queried)
  · by_cases same : id' = id
    · subst same
      simp only [World.started, AList.lookup_insert, Option.some.injEq] at look
      subst look
      exact among p (List.mem_of_mem_drop later)
    · rw [World.started, AList.lookup_insert_ne same] at look
      exact asks.kept id' q' look p later

theorem AsksIn.complete (asks : s.AsksIn O) (ended next : QueryId) (result : Except String Unit) :
    (s.handleComplete ended next result).AsksIn O := by
  unfold handleComplete
  split
  · rename_i q entry
    have left := asks.erase ended
    rcases World.resolveQuery_cases { s with queries := s.queries.erase ended } next q result with
      ⟨-, eq⟩ | ⟨_, -, ⟨-, eq⟩ | ⟨-, eq⟩⟩
    · rw [eq]
      exact ⟨left.asked, left.kept⟩
    · rw [eq]
      exact ⟨left.asked, left.kept⟩
    · rw [eq]
      exact left.attempt next q fun p later => asks.kept ended q entry p later
  · exact asks

theorem AsksIn.resolve (asks : s.AsksIn O) (shuffle : SetOrder PeerId)
    (isConnected : PeerId → Bool) (id : QueryId) {cid : Cid} {subnet : SubnetID}
    (channel : ResponseChannel)
    (offered : ∀ p ∈ s.membership.providersOfSubnet subnet, O cid p) :
    (s.startQuery shuffle isConnected id cid subnet channel).AsksIn O := by
  rcases World.startQuery_cases s shuffle isConnected id cid subnet channel with
    ⟨-, eq⟩ | ⟨-, eq⟩
  · rw [eq]
    exact ⟨asks.asked, asks.kept⟩
  · rw [eq]
    refine asks.attempt id _ fun p mem => offered p ?_
    have member : p ∈ (World.queryOrder shuffle isConnected
      (s.membership.providersOfSubnet subnet) : Multiset PeerId) := mem
    rwa [coe_queryOrder] at member

end Service

/-! ## Runs -/

namespace World

/-- The peer was among the providers when a request for the block was handled. -/
def Offered (w : World) (cid : Cid) (p : PeerId) : Prop :=
  ∃ h ∈ w.handled, h.cid = cid ∧ p ∈ h.providers

theorem Offered.step {w : World} {cid : Cid} {p : PeerId} (offered : w.Offered cid p)
    (env : Service.Env) (i : Moment × Service.Input) : (w.step env i).Offered cid p := by
  obtain ⟨h, mem, rest⟩ := offered
  exact ⟨h, List.mem_append_left _ mem, rest⟩

theorem asksIn_step {w : World} (asks : w.service.AsksIn w.Offered) (env : Service.Env)
    (i : Moment × Service.Input) : (w.step env i).service.AsksIn (w.step env i).Offered := by
  have more := asks.mono fun cid p offered => offered.step env i
  by_cases other : i.2.identifier = none
  · exact more.of_same (sameQueries_step env w.service i.1 i.2 other)
  · obtain ⟨m, i⟩ := i
    cases i with
    | complete ended next result => exact more.complete ended next result
    | resolve shuffle isConnected id cid subnet channel =>
      refine more.resolve shuffle isConnected id channel fun p provider => ?_
      exact ⟨w.handling cid subnet channel, by simp [step, Service.Input.handled, handling], rfl,
        provider⟩
    | _ => exact absurd rfl other

section Signed

variable {e : Encodings} {history : List Signing} {sha256 : String → String} {verify : Verify}
  (sound : Verifies (history.map (Signing.signed e)) verify)

/-- The providers of every request have signed for its subnet. -/
structure Traced (e : Encodings) (history : List Signing) (w : World) : Prop where
  asks : w.service.AsksIn w.Offered
  known : Known e history w.service.membership
  signed : ∀ h ∈ w.handled, ∀ p ∈ h.providers,
    ∃ r, Attested e history r ∧ r.peerId = p ∧ h.subnet ∈ r.subnetIds

theorem traced_start (discovery : Discovery.Behaviour) (maxPeersPerQuery : Nat) {ok : Oracle}
    {codec : Codec} {now : Timestamp} {nc : NetworkConfig} {mc : Config} {b : Behaviour}
    (built : Membership.new ok codec now nc mc = .ok b) :
    (start (.new discovery b maxPeersPerQuery)).Traced e history where
  asks := ⟨nofun, by simp [start, Service.new]⟩
  known := .new built
  signed := nofun

include sound

theorem Traced.step {w : World} (traced : w.Traced e history) (ok : Oracle)
    (isNew : Finset PeerId → PeerId → Bool) (i : Moment × Service.Input) :
    (w.step ⟨ok, e.codec sha256 verify, isNew⟩ i).Traced e history where
  asks := asksIn_step traced.asks _ i
  known := by
    obtain ⟨inputs, eq⟩ := membership_step ⟨ok, e.codec sha256 verify, isNew⟩ w.service i
    change Known e history (w.service.step _ i).membership
    rw [eq]
    exact traced.known.run sound inputs
  signed := by
    intro h mem p provider
    rcases List.mem_append.mp mem with old | new
    · exact traced.signed h old p provider
    · obtain ⟨m, i⟩ := i
      cases i with
      | resolve shuffle isConnected id cid subnet channel =>
        obtain rfl := List.mem_singleton.mp new
        exact traced.known.provider provider
      | _ => cases new

theorem Traced.run {w : World} (traced : w.Traced e history) (ok : Oracle)
    (isNew : Finset PeerId → PeerId → Bool) (inputs : List (Moment × Service.Input)) :
    (w.run ⟨ok, e.codec sha256 verify, isNew⟩ inputs).Traced e history := by
  induction inputs generalizing w with
  | nil => exact traced
  | cons i inputs ih => exact ih (traced.step sound ok isNew i)

end Signed

/-- Nobody is asked for a block of a subnet without having signed that they provide it: each
peer in each query handed to Bitswap was among the providers of a request for this block when
the request was handled, and has signed a record that lists the subnet of the request. -/
theorem queried_peers_attested (e : Encodings) (history : List Signing)
    (sha256 : String → String) (verify : Verify)
    (sound : Verifies (history.map (Signing.signed e)) verify) (ok : Oracle)
    (isNew : Finset PeerId → PeerId → Bool) (discovery : Discovery.Behaviour)
    (maxPeersPerQuery : Nat) (now : Timestamp) (nc : NetworkConfig) (mc : Config) (b : Behaviour)
    (built : Membership.new ok (e.codec sha256 verify) now nc mc = .ok b)
    (inputs : List (Moment × Service.Input)) :
    let w := (start (.new discovery b maxPeersPerQuery)).run
      ⟨ok, e.codec sha256 verify, isNew⟩ inputs
    ∀ s ∈ w.service.syncs, ∀ p ∈ s.peers, ∃ h ∈ w.handled, h.cid = s.cid ∧ p ∈ h.providers ∧
      ∃ r, Attested e history r ∧ r.peerId = p ∧ h.subnet ∈ r.subnetIds := by
  intro w s mem p queried
  have traced : w.Traced e history :=
    (traced_start discovery maxPeersPerQuery built).run sound ok isNew inputs
  obtain ⟨h, handled, cid, provider⟩ := traced.asks.asked s mem p queried
  exact ⟨h, handled, cid, provider, traced.signed h handled p provider⟩

theorem syncs_startQuery_ne_nil {s : Service} {shuffle : SetOrder PeerId}
    {isConnected : PeerId → Bool} {id : QueryId} {cid : Cid} {subnet : SubnetID}
    {channel : ResponseChannel} {p : PeerId} (listed : p ∈ s.membership.providersOfSubnet subnet) :
    (s.startQuery shuffle isConnected id cid subnet channel).syncs ≠ [] := by
  rcases startQuery_cases s shuffle isConnected id cid subnet channel with
    ⟨absent, -⟩ | ⟨-, eq⟩
  · exact absurd (absent ▸ listed) (Finset.notMem_empty _)
  · rw [eq, attempt_eq]
    exact List.append_ne_nil_of_right_ne_nil _ (List.cons_ne_nil _ _)

/-- A request to the node of the pair that has handled the record of the other. -/
theorem queried_peers_attested_pair :
    ∃ (e : Encodings) (w : World), w.service.syncs ≠ [] ∧
      ∀ s ∈ w.service.syncs, ∀ p ∈ s.peers, ∃ h ∈ w.handled, h.cid = s.cid ∧ p ∈ h.providers ∧
        ∃ r, Attested e (Network.run (Network.pair e) (Network.pairStart e)).ledger r ∧
          r.peerId = p ∧ h.subnet ∈ r.subnetIds := by
  obtain ⟨e⟩ := nonempty_encodings
  have attested := queried_peers_attested e _ id _ ((Network.pair e).sound
    (Network.run (Network.pair e) (Network.pairStart e)).ledger) (fun _ _ => true) (fun _ _ => true)
    ⟨⟨[0]⟩, [], "", none, 0, 10, 1, none, [.added ((Network.pair e).peer true) []]⟩ 5 0
    ⟨(Network.pair e).peer false, "net"⟩ ⟨[⟨"/root/t01"⟩], 10, 60, 5, 30⟩ _ rfl
    [(⟨1, .plain⟩, .pollDiscovery none []),
      (⟨6, .plain⟩, .pollMembership [(⟨6, .plain⟩, .generateEvent (.message
        (membershipTopicOf "net") (e.envelope.encode (SignedRecord.new (e.record .provider)
          ((Network.pair e).keys true) (Network.pairRecord e) [9]).envelope)))] []),
      (⟨7, .plain⟩, .resolve .byBytes (fun _ => false) ⟨0⟩ ⟨[7]⟩ ⟨"/root/t01"⟩ ⟨0⟩)]
  refine ⟨e, _, ?_, attested⟩
  obtain ⟨node, -, running, -⟩ := Network.pairRun_listener e
  have listed := (Network.standsFor_of_heard (p := true) (List.pairwise_singleton _ _) rfl
    (Nat.succ_pos 4) (Network.heard_pairRun e) running).2.kept _ (Network.pinned_pairRun e)
    (List.mem_singleton_self _)
  cases running
  exact syncs_startQuery_ne_nil listed

end World

end IpcAgent.Resolver
