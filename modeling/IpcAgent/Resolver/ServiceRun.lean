import IpcAgent.Resolver.QueryLife

/-!
# Runs of the resolver service

A run interleaves the polls of the behaviours, requests and the completions of Bitswap. The
books of a run are kept beside the service from what goes in and what `queries` holds; the
steps of the service turn out to be moves on them.
-/

namespace IpcAgent.Resolver
open Library

/-! ## The behaviours inside the service

Whatever the service does to its membership behaviour is a run of that behaviour, so what
holds in all of those runs holds inside the service. -/

theorem membership_handleMembershipEvent (isNew : Finset PeerId → PeerId → Bool)
    (known : List Multiaddr) (s : Service) (e : Membership.Event) :
    (s.handleMembershipEvent isNew known e).membership = s.membership := by
  cases e with
  | skipped p =>
    simp only [Service.handleMembershipEvent]
    split <;> rfl
  | _ => rfl

theorem membership_startQuery (s : Service) (shuffle : SetOrder PeerId)
    (isConnected : PeerId → Bool) (id : QueryId) (cid : Cid) (subnet : SubnetID)
    (channel : ResponseChannel) :
    (s.startQuery shuffle isConnected id cid subnet channel).membership = s.membership := by
  unfold Service.startQuery
  simp only
  split <;> rfl

theorem membership_handleComplete (s : Service) (ended next : QueryId)
    (result : Except String Unit) :
    (s.handleComplete ended next result).membership = s.membership := by
  unfold Service.handleComplete Service.resolveQuery
  split
  · split
    · rfl
    · split <;> rfl
  · rfl

theorem membership_step (env : Service.Env) (s : Service)
    (i : Membership.Moment × Service.Input) :
    ∃ inputs, (s.step env i).membership = s.membership.run env.ok env.codec inputs := by
  obtain ⟨m, i⟩ := i
  cases i with
  | pollDiscovery ticked ready =>
    simp only [Service.step]
    split
    · rename_i e _
      exact ⟨[(m, .discovery e)], rfl⟩
    · exact ⟨[], rfl⟩
  | pollMembership ready known =>
    refine ⟨s.membership.pollInputs m ready, ?_⟩
    rw [← Membership.poll_eq_run]
    simp only [Service.step]
    split
    · rw [membership_handleMembershipEvent]
    · rfl
  | identified p info => exact ⟨[], rfl⟩
  | complete ended next result => exact ⟨[], membership_handleComplete s ended next result⟩
  | resolve shuffle isConnected id cid subnet channel =>
    exact ⟨[], membership_startQuery s shuffle isConnected id cid subnet channel⟩
  | request r => exact ⟨[(m, .request r)], rfl⟩

/-! ## The books of a run -/

/-- The identifier Bitswap would give a query started in this step. -/
def Service.Input.identifier : Service.Input → Option QueryId
  | .complete _ next _ => some next
  | .resolve _ _ id _ _ _ => some id
  | _ => none

/-- The request handled in this step. -/
def Service.Input.handled (s : Service) : Service.Input → List Handled
  | .resolve _ _ _ cid subnet channel =>
    [⟨channel, cid, subnet, s.membership.providersOfSubnet subnet⟩]
  | _ => []

def Service.Input.completed : Service.Input → List (QueryId × Except String Unit)
  | .complete ended _ result => [(ended, result)]
  | _ => []

/-- The entry this step has left in `queries`. -/
def Service.Input.attempted (s : Service) (i : Service.Input) : List (QueryId × Query) :=
  (i.identifier.bind fun id => (s.queries.lookup id).map fun q => (id, q)).toList

structure World where
  service : Service
  handled : List Handled
  completed : List (QueryId × Except String Unit)
  attempts : List (QueryId × Query)

namespace World

def start (s : Service) : World := ⟨s, [], [], []⟩

def books (w : World) : Books where
  queries := w.service.queries
  syncs := w.service.syncs
  responses := w.service.responses
  handled := w.handled
  completed := w.completed
  attempts := w.attempts

def step (env : Service.Env) (w : World) (i : Membership.Moment × Service.Input) : World where
  service := w.service.step env i
  handled := w.handled ++ i.2.handled w.service
  completed := w.completed ++ i.2.completed
  attempts := w.attempts ++ i.2.attempted (w.service.step env i)

def run (env : Service.Env) (w : World) (inputs : List (Membership.Moment × Service.Input)) :
    World :=
  inputs.foldl (step env) w

/-- Bitswap gives every query a fresh identifier and ends a started query at most once, and
every request brings a channel of its own. -/
def Allows (w : World) : Service.Input → Prop
  | .complete ended next _ =>
    ended ∈ w.service.syncs.map Sync.id ∧ ended ∉ w.completed.map Prod.fst ∧
      next ∉ w.service.syncs.map Sync.id
  | .resolve _ _ id _ _ channel =>
    id ∉ w.service.syncs.map Sync.id ∧ channel ∉ w.handled.map Handled.channel
  | _ => True

instance (w : World) : (i : Service.Input) → Decidable (w.Allows i)
  | .complete _ _ _ => inferInstanceAs (Decidable (_ ∧ _ ∧ _))
  | .resolve _ _ _ _ _ _ => inferInstanceAs (Decidable (_ ∧ _))
  | .pollDiscovery _ _ | .pollMembership _ _ | .identified _ _ | .request _ => .isTrue trivial

/-- Every step of the run from `w` is allowed. -/
def AllowsRun (env : Service.Env) (w : World) :
    List (Membership.Moment × Service.Input) → Prop
  | [] => True
  | i :: inputs => w.Allows i.2 ∧ (w.step env i).AllowsRun env inputs

instance decidableAllowsRun (env : Service.Env) (w : World) :
    (inputs : List (Membership.Moment × Service.Input)) → Decidable (w.AllowsRun env inputs)
  | [] => .isTrue trivial
  | i :: inputs =>
    have := decidableAllowsRun env (w.step env i) inputs
    inferInstanceAs (Decidable (_ ∧ _))

/-! ## Steps as moves -/

/-- The service after a step that only concerns the other behaviours. -/
structure SameQueries (s s' : Service) : Prop where
  queries : s'.queries = s.queries
  syncs : s'.syncs = s.syncs
  responses : s'.responses = s.responses

theorem sameQueries_handleMembershipEvent (isNew : Finset PeerId → PeerId → Bool)
    (known : List Multiaddr) (s : Service) (e : Membership.Event) :
    SameQueries s (s.handleMembershipEvent isNew known e) := by
  cases e with
  | skipped p =>
    simp only [Service.handleMembershipEvent]
    split <;> exact ⟨rfl, rfl, rfl⟩
  | _ => exact ⟨rfl, rfl, rfl⟩

theorem sameQueries_step (env : Service.Env) (s : Service) (m : Membership.Moment)
    (i : Service.Input) (other : i.identifier = none) : SameQueries s (s.step env (m, i)) := by
  cases i with
  | complete ended next result => cases other
  | resolve shuffle isConnected id cid subnet channel => cases other
  | identified p info => exact ⟨rfl, rfl, rfl⟩
  | request r => exact ⟨rfl, rfl, rfl⟩
  | pollDiscovery ticked ready =>
    simp only [Service.step]
    split <;> exact ⟨rfl, rfl, rfl⟩
  | pollMembership ready known =>
    simp only [Service.step]
    split
    · rename_i e _
      have same := sameQueries_handleMembershipEvent env.isNew known
        { s with membership := (s.membership.poll env.ok env.codec m ready).1 } e
      exact ⟨same.queries, same.syncs, same.responses⟩
    · exact ⟨rfl, rfl, rfl⟩

theorem books_step_other (env : Service.Env) (w : World) (m : Membership.Moment)
    (i : Service.Input) (other : i.identifier = none) : (w.step env (m, i)).books = w.books := by
  have same := sameQueries_step env w.service m i other
  have quiet : i.handled w.service = [] ∧ i.completed = [] := by
    cases i with
    | complete => cases other
    | resolve => cases other
    | _ => exact ⟨rfl, rfl⟩
  simp only [books, step, same.queries, same.syncs, same.responses, quiet.1, quiet.2,
    Service.Input.attempted, other, Option.bind_none, Option.toList_none, List.append_nil]

/-- The service with a query handed to Bitswap and its entry made. -/
def started (s : Service) (id : QueryId) (q : Query) (peers : List PeerId) : Service :=
  { s with syncs := s.syncs ++ [⟨id, q.cid, peers⟩], queries := s.queries.insert id q }

theorem attempt_eq (s : Service) (id : QueryId) (q : Query) (peers : List PeerId) :
    s.attempt id q peers =
      started s id { q with fallbackPeerIds := (s.splitPeersForQuery peers).2 }
        (s.splitPeersForQuery peers).1 := rfl

/-- The providers in the order they are queried: those with a connection come first. -/
def queryOrder (shuffle : SetOrder PeerId) (isConnected : PeerId → Bool)
    (providers : Finset PeerId) : List PeerId :=
  let peers := (shuffle.arrange providers).partition isConnected
  peers.1 ++ peers.2

/-- A request is answered at once or starts a query. -/
theorem startQuery_cases (s : Service) (shuffle : SetOrder PeerId) (isConnected : PeerId → Bool)
    (id : QueryId) (cid : Cid) (subnet : SubnetID) (channel : ResponseChannel) :
    (s.membership.providersOfSubnet subnet = ∅ ∧
      s.startQuery shuffle isConnected id cid subnet channel =
        s.sendResolveResult channel (.error (.noKnownPeers subnet))) ∨
    s.membership.providersOfSubnet subnet ≠ ∅ ∧
      s.startQuery shuffle isConnected id cid subnet channel =
        s.attempt id ⟨cid, subnet, [], channel⟩
          (queryOrder shuffle isConnected (s.membership.providersOfSubnet subnet)) := by
  have empty_iff : (shuffle.arrange (s.membership.providersOfSubnet subnet)).isEmpty = true ↔
      s.membership.providersOfSubnet subnet = ∅ := by
    rw [List.isEmpty_iff, List.eq_nil_iff_forall_not_mem, Finset.eq_empty_iff_forall_notMem]
    simp only [shuffle.mem_arrange]
  unfold Service.startQuery
  simp only
  split
  · rename_i empty
    exact .inl ⟨empty_iff.mp empty, rfl⟩
  · rename_i some
    exact .inr ⟨fun none => some (empty_iff.mpr none), rfl⟩

/-- An attempt that has ended is answered or followed by another one. -/
theorem resolveQuery_cases (s : Service) (id : QueryId) (q : Query)
    (result : Except String Unit) :
    (result = .ok () ∧
      s.resolveQuery id q result = s.sendResolveResult q.responseChannel (.ok ())) ∨
    ∃ e, result = .error e ∧
      ((q.fallbackPeerIds = [] ∧
        s.resolveQuery id q result = s.sendResolveResult q.responseChannel (.error (.failed e))) ∨
      (q.fallbackPeerIds ≠ [] ∧
        s.resolveQuery id q result = s.attempt id q q.fallbackPeerIds)) := by
  unfold Service.resolveQuery
  cases result with
  | ok r => exact .inl ⟨rfl, rfl⟩
  | error e =>
    refine .inr ⟨e, rfl, ?_⟩
    simp only
    split
    · rename_i empty
      exact .inl ⟨List.isEmpty_iff.mp empty, rfl⟩
    · rename_i some
      exact .inr ⟨fun none => some (List.isEmpty_iff.mpr none), rfl⟩

theorem lookup_of_fresh {w : World} {inHand : Option ResponseChannel}
    (ord : w.books.InOrder inHand) {id : QueryId}
    (fresh : id ∉ w.service.syncs.map Sync.id) : w.service.queries.lookup id = none := by
  cases look : w.service.queries.lookup id with
  | none => rfl
  | some q =>
    obtain ⟨⟨⟨peers, synced⟩, -⟩, -⟩ := ord.ids id q look
    exact absurd (List.mem_map.mpr ⟨_, synced, rfl⟩) fresh

/-- The request as it is handled in this state. -/
def handling (w : World) (cid : Cid) (subnet : SubnetID) (channel : ResponseChannel) : Handled :=
  ⟨channel, cid, subnet, w.service.membership.providersOfSubnet subnet⟩

/-- What a step can do to the books. -/
inductive Moved (w : World) : Service.Input → Books → Prop
  | quiet {i : Service.Input} (other : i.identifier = none) : Moved w i w.books
  | unknown {shuffle : SetOrder PeerId} {isConnected : PeerId → Bool} {id : QueryId} {cid : Cid}
      {subnet : SubnetID} {channel : ResponseChannel}
      (absent : w.service.membership.providersOfSubnet subnet = ∅) :
      Moved w (.resolve shuffle isConnected id cid subnet channel)
        ((w.books.receive (w.handling cid subnet channel)).answer channel
          (.error (.noKnownPeers subnet)))
  | first {shuffle : SetOrder PeerId} {isConnected : PeerId → Bool} {id : QueryId} {cid : Cid}
      {subnet : SubnetID} {channel : ResponseChannel} {now later : List PeerId}
      (present : w.service.membership.providersOfSubnet subnet ≠ ∅)
      (split : w.service.splitPeersForQuery (queryOrder shuffle isConnected
        (w.service.membership.providersOfSubnet subnet)) = (now, later)) :
      Moved w (.resolve shuffle isConnected id cid subnet channel)
        ((w.books.receive (w.handling cid subnet channel)).start id
          ⟨cid, subnet, later, channel⟩ now)
  | unawaited {ended next : QueryId} {result : Except String Unit}
      (entry : w.service.queries.lookup ended = none) :
      Moved w (.complete ended next result) (w.books.take ended result)
  | resolved {ended next : QueryId} {q : Query}
      (entry : w.service.queries.lookup ended = some q) :
      Moved w (.complete ended next (.ok ()))
        ((w.books.take ended (.ok ())).answer q.responseChannel (.ok ()))
  | failed {ended next : QueryId} {q : Query} {e : String}
      (entry : w.service.queries.lookup ended = some q) (last : q.fallbackPeerIds = []) :
      Moved w (.complete ended next (.error e))
        ((w.books.take ended (.error e)).answer q.responseChannel (.error (.failed e)))
  | further {ended next : QueryId} {q : Query} {e : String} {now later : List PeerId}
      (entry : w.service.queries.lookup ended = some q) (more : q.fallbackPeerIds ≠ [])
      (split : w.service.splitPeersForQuery q.fallbackPeerIds = (now, later)) :
      Moved w (.complete ended next (.error e))
        ((w.books.take ended (.error e)).start next { q with fallbackPeerIds := later } now)

theorem moved_resolve {w : World} (env : Service.Env) (m : Membership.Moment)
    (shuffle : SetOrder PeerId) (isConnected : PeerId → Bool) (id : QueryId) (cid : Cid)
    (subnet : SubnetID) (channel : ResponseChannel)
    (look : w.service.queries.lookup id = none) :
    w.Moved (.resolve shuffle isConnected id cid subnet channel)
      (w.step env (m, .resolve shuffle isConnected id cid subnet channel)).books := by
  rcases startQuery_cases w.service shuffle isConnected id cid subnet channel with
    ⟨absent, eq⟩ | ⟨present, eq⟩
  · have moved : (w.step env (m, .resolve shuffle isConnected id cid subnet channel)).books =
        (w.books.receive (w.handling cid subnet channel)).answer channel
          (.error (.noKnownPeers subnet)) := by
      simp [books, step, Service.step, eq, Service.sendResolveResult, Service.Input.attempted,
        Service.Input.identifier, look, Service.Input.handled, Service.Input.completed,
        Books.receive, Books.answer, handling]
    rw [moved]
    exact .unknown absent
  · rcases split : w.service.splitPeersForQuery (queryOrder shuffle isConnected
      (w.service.membership.providersOfSubnet subnet)) with ⟨now, later⟩
    rw [attempt_eq, split] at eq
    have moved : (w.step env (m, .resolve shuffle isConnected id cid subnet channel)).books =
        (w.books.receive (w.handling cid subnet channel)).start id
          ⟨cid, subnet, later, channel⟩ now := by
      simp [books, step, Service.step, eq, started, Service.Input.attempted,
        Service.Input.identifier, Service.Input.handled, Service.Input.completed,
        Books.receive, Books.start, handling]
    rw [moved]
    exact .first present split

/-- A completion no entry waits for is only noted. -/
theorem books_step_unawaited {w : World} (env : Service.Env) (m : Membership.Moment)
    {ended next : QueryId} (result : Except String Unit)
    (entry : w.service.queries.lookup ended = none)
    (look : w.service.queries.lookup next = none) :
    (w.step env (m, .complete ended next result)).books = w.books.take ended result := by
  simp [books, step, Service.step, Service.handleComplete, entry, Service.Input.attempted,
    Service.Input.identifier, look, Service.Input.handled, Service.Input.completed,
    Books.take, AList.erase_of_lookup_none entry]

theorem books_step_answered {w : World} (env : Service.Env) (m : Membership.Moment)
    {ended next : QueryId} {result : Except String Unit} {q : Query} {answer : ResolveResult}
    (look : w.service.queries.lookup next = none)
    (eq : w.service.handleComplete ended next result =
      { w.service with queries := w.service.queries.erase ended }.sendResolveResult
        q.responseChannel answer) :
    (w.step env (m, .complete ended next result)).books =
      (w.books.take ended result).answer q.responseChannel answer := by
  have erased : (w.service.queries.erase ended).lookup next = none := by
    by_cases same : next = ended
    · rw [same, AList.lookup_erase]
    · rw [AList.lookup_erase_ne same, look]
  simp [books, step, Service.step, eq, Service.sendResolveResult, Service.Input.attempted,
    Service.Input.identifier, erased, Service.Input.handled, Service.Input.completed,
    Books.take, Books.answer]

theorem books_step_restarted {w : World} (env : Service.Env) (m : Membership.Moment)
    {ended next : QueryId} {result : Except String Unit} {q : Query} {peers : List PeerId}
    (eq : w.service.handleComplete ended next result =
      started { w.service with queries := w.service.queries.erase ended } next q peers) :
    (w.step env (m, .complete ended next result)).books =
      (w.books.take ended result).start next q peers := by
  simp [books, step, Service.step, eq, started, Service.Input.attempted,
    Service.Input.identifier, Service.Input.handled, Service.Input.completed,
    Books.take, Books.start]

theorem moved_complete {w : World} (env : Service.Env) (m : Membership.Moment)
    (ended next : QueryId) (result : Except String Unit)
    (look : w.service.queries.lookup next = none) :
    w.Moved (.complete ended next result)
      (w.step env (m, .complete ended next result)).books := by
  cases entry : w.service.queries.lookup ended with
  | none =>
    rw [books_step_unawaited env m result entry look]
    exact .unawaited entry
  | some q =>
    have completed : w.service.handleComplete ended next result =
        { w.service with queries := w.service.queries.erase ended }.resolveQuery next q result := by
      simp [Service.handleComplete, entry]
    rcases resolveQuery_cases { w.service with queries := w.service.queries.erase ended } next q
      result with ⟨rfl, eq⟩ | ⟨e, rfl, ⟨last, eq⟩ | ⟨more, eq⟩⟩
    · rw [books_step_answered env m look (completed.trans eq)]
      exact .resolved entry
    · rw [books_step_answered env m look (completed.trans eq)]
      exact .failed entry last
    · rcases split : w.service.splitPeersForQuery q.fallbackPeerIds with ⟨now, later⟩
      rw [attempt_eq, show Service.splitPeersForQuery { w.service with
        queries := w.service.queries.erase ended } q.fallbackPeerIds = _ from split] at eq
      rw [books_step_restarted env m (completed.trans eq)]
      exact .further entry more split

/-- Every allowed step makes one of these moves. -/
theorem moved_step {w : World} (ord : w.books.InOrder none) (env : Service.Env)
    (m : Membership.Moment) (i : Service.Input) (allowed : w.Allows i) :
    w.Moved i (w.step env (m, i)).books := by
  cases i with
  | complete ended next result =>
    exact moved_complete env m ended next result (lookup_of_fresh ord allowed.2.2)
  | resolve shuffle isConnected id cid subnet channel =>
    exact moved_resolve env m shuffle isConnected id cid subnet channel
      (lookup_of_fresh ord allowed.1)
  | _ =>
    rw [books_step_other env w m _ rfl]
    exact .quiet rfl

/-- The channel of an ended query is in hand again, and the attempt on record. -/
theorem inOrder_take {w : World} (ord : w.books.InOrder none) {ended : QueryId} {q : Query}
    (entry : w.service.queries.lookup ended = some q) (known : ended ∈ w.service.syncs.map Sync.id)
    (result : Except String Unit) :
    ∃ h ∈ w.handled, h.channel = q.responseChannel ∧ h.cid = q.cid ∧
      (w.books.take ended result).InOrder (some h.channel) ∧
      (w.books.take ended result).Ended h q.fallbackPeerIds result := by
  obtain ⟨-, attempt, h, mem, channel, cid⟩ := ord.ids ended q entry
  have taken := ord.take ended result (List.mem_map.mp known)
  have held : (w.books.queries.lookup ended).map Query.responseChannel = some h.channel := by
    rw [channel]
    exact congrArg (Option.map _) entry
  rw [held] at taken
  exact ⟨h, mem, channel, cid, taken,
    ended, q, attempt, channel.symm, cid.symm, rfl, by simp [Books.take]⟩

/-- The moves keep the books in order. -/
theorem Moved.inOrder {w : World} (ord : w.books.InOrder none) {i : Service.Input} {b : Books}
    (moved : w.Moved i b) (allowed : w.Allows i) : b.InOrder none := by
  cases moved with
  | quiet other => exact ord
  | @unknown shuffle isConnected id cid subnet channel absent =>
    have received := ord.receive (w.handling cid subnet channel) allowed.2
    exact received.answer (by simp [Books.receive]) ⟨rfl, absent⟩
  | @first shuffle isConnected id cid subnet channel now later present split =>
    have received := ord.receive (w.handling cid subnet channel) allowed.2
    exact received.start (by simp [Books.receive])
      (fun s hs eq => allowed.1 (List.mem_map.mpr ⟨s, hs, eq⟩)) rfl rfl _
  | @unawaited ended next result entry =>
    have taken := ord.take ended result (List.mem_map.mp allowed.1)
    simpa [books, entry] using taken
  | resolved entry =>
    obtain ⟨h, mem, channel, -, inHand, done⟩ := inOrder_take ord entry allowed.1 (.ok ())
    rw [← channel]
    exact inHand.answer mem ⟨_, done⟩
  | @failed ended next q e entry last =>
    obtain ⟨h, mem, channel, -, inHand, done⟩ := inOrder_take ord entry allowed.1 (.error e)
    rw [← channel]
    rw [last] at done
    exact inHand.answer mem done
  | @further ended next q e now later entry more split =>
    obtain ⟨h, mem, channel, cid, inHand, -⟩ := inOrder_take ord entry allowed.1 (.error e)
    refine inHand.start mem ?_ ?_ ?_ now
    · exact fun s hs eq => allowed.2.2 (List.mem_map.mpr ⟨s, hs, eq⟩)
    · exact channel.symm
    · exact cid.symm

/-- One step keeps the books in order. -/
theorem inOrder_step {w : World} (ord : w.books.InOrder none) (env : Service.Env)
    (i : Membership.Moment × Service.Input) (allowed : w.Allows i.2) :
    (w.step env i).books.InOrder none :=
  (moved_step ord env i.1 i.2 allowed).inOrder ord allowed

theorem inOrder_run {w : World} (ord : w.books.InOrder none) (env : Service.Env)
    (inputs : List (Membership.Moment × Service.Input)) (allowed : w.AllowsRun env inputs) :
    (w.run env inputs).books.InOrder none := by
  induction inputs generalizing w with
  | nil => exact ord
  | cons i inputs ih => exact ih (inOrder_step ord env i allowed.1) allowed.2

theorem inOrder_start (discovery : Discovery.Behaviour) (membership : Membership.Behaviour)
    (maxPeersPerQuery : Nat) :
    (start (.new discovery membership maxPeersPerQuery)).books.InOrder none := by
  constructor <;> simp [start, books, Service.new, Books.Holds]

/-- The channel is answered exactly once and in no entry any more. -/
def Answered (w : World) (h : Handled) : Prop :=
  (w.service.responses.map Prod.fst).count h.channel = 1 ∧
    ∀ id q, w.service.queries.lookup id = some q → q.responseChannel ≠ h.channel

/-- The channel is not answered and in exactly one entry, under the identifier of a query
that Bitswap is running for the CID of the request. -/
def Waiting (w : World) (h : Handled) : Prop :=
  (w.service.responses.map Prod.fst).count h.channel = 0 ∧
    ∃ id, (∃ q, w.service.queries.lookup id = some q ∧ q.responseChannel = h.channel) ∧
      (∀ id' q, w.service.queries.lookup id' = some q → q.responseChannel = h.channel →
        id' = id) ∧
      w.books.Running id h.cid

theorem answered_or_waiting {w : World} (ord : w.books.InOrder none) {h : Handled}
    (mem : h ∈ w.handled) : Xor (w.Answered h) (w.Waiting h) := by
  rcases (ord.covered h mem).resolve_left (by simp) with answered | ⟨id, q, look, channel⟩
  · have one : (w.service.responses.map Prod.fst).count h.channel = 1 :=
      List.count_eq_one_of_mem ord.once answered
    refine .inl ⟨⟨one, fun id q look eq => ?_⟩, fun waiting => ?_⟩
    · exact ord.free id h.channel ⟨q, look, eq⟩ answered
    · have none := waiting.1
      omega
  · have none : (w.service.responses.map Prod.fst).count h.channel = 0 :=
      List.count_eq_zero_of_not_mem (ord.free id h.channel ⟨q, look, channel⟩)
    obtain ⟨running, -, h', mem', channel', cid⟩ := ord.ids id q look
    -- Channels are told apart by the requests they came with.
    obtain rfl : h' = h := List.inj_on_of_nodup_map ord.channels mem' mem
      (channel'.trans channel)
    refine .inr ⟨⟨none, id, ⟨q, look, channel⟩, fun id' q' look' eq => ?_, cid ▸ running⟩,
      fun answered => ?_⟩
    · exact ord.holder id' id h'.channel ⟨q', look', eq⟩ ⟨q, look, channel⟩
    · have one := answered.1
      omega

/-- Requests are neither lost nor answered twice, and no answer is given before its time. -/
theorem requests_accounted (env : Service.Env) (discovery : Discovery.Behaviour)
    (membership : Membership.Behaviour) (maxPeersPerQuery : Nat)
    (inputs : List (Membership.Moment × Service.Input))
    (allowed : (start (.new discovery membership maxPeersPerQuery)).AllowsRun env inputs) :
    let w := (start (.new discovery membership maxPeersPerQuery)).run env inputs
    (∀ h ∈ w.handled, Xor (w.Answered h) (w.Waiting h)) ∧
    ∀ channel result, (channel, result) ∈ w.service.responses →
      ∃ h ∈ w.handled, h.channel = channel ∧ w.books.Justifies h result := by
  intro w
  have ord : w.books.InOrder none :=
    inOrder_run (inOrder_start discovery membership maxPeersPerQuery) env inputs allowed
  exact ⟨fun h mem => answered_or_waiting ord mem,
    fun channel result mem => ord.justified (channel, result) mem⟩

/-- One request whose only provider fails, and one for a subnet nobody provides. -/
theorem requests_accounted_failure :
    let provider : PeerId := ⟨[1]⟩
    let membership := Membership.Behaviour.handleProviderRecord 1 (.plain _)
      ((Membership.initial 0 ⟨⟨[0]⟩, "net"⟩ ⟨[], 10, 60, 5, 30⟩).setRoutable 1 provider)
      ⟨provider, [⟨"/root/t01"⟩], 1⟩
    let discovery : Discovery.Behaviour := ⟨⟨[0]⟩, [], "", none, 0, 10, 1, none, []⟩
    let env : Service.Env := ⟨fun _ _ => true, ⟨id, fun _ => none, fun _ => none⟩, fun _ _ => true⟩
    let w := (start (.new discovery membership 5)).run env
      [(⟨2, .plain⟩, .resolve .byBytes (fun _ => false) ⟨0⟩ ⟨[7]⟩ ⟨"/root/t01"⟩ ⟨0⟩),
        (⟨3, .plain⟩, .complete ⟨0⟩ ⟨1⟩ (.error "not found")),
        (⟨4, .plain⟩, .resolve .byBytes (fun _ => false) ⟨1⟩ ⟨[7]⟩ ⟨"/root/t02"⟩ ⟨1⟩)]
    w.handled.length = 2 ∧ ∀ h ∈ w.handled, Xor (w.Answered h) (w.Waiting h) := by
  intro provider membership discovery env w
  refine ⟨rfl, (requests_accounted env discovery membership 5 _ ?_).1⟩
  decide +kernel

end World

end IpcAgent.Resolver
