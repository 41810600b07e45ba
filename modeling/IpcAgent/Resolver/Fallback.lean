import IpcAgent.Resolver.ServiceRun

/-!
# Falling back to further providers

A resolution queries the providers of its subnet in batches, the next one when the last one
has failed. The order of the providers is fixed when the request is handled; from then on the
batches of the resolution and the peers that are left make up that order at any time.
-/

namespace IpcAgent.Resolver
open Library

namespace Books

/-- The batches of peers handed to Bitswap for the request with this channel. -/
def batches (b : Books) (channel : ResponseChannel) : List (List PeerId) :=
  (b.syncs.filter fun s =>
    b.attempts.any fun a => a.1 = s.id ∧ a.2.responseChannel = channel).map Sync.peers

/-- Every attempt was handed to Bitswap, for a request that has been handled. -/
def Recorded (b : Books) : Prop :=
  ∀ a ∈ b.attempts, a.1 ∈ b.syncs.map Sync.id ∧
    a.2.responseChannel ∈ b.handled.map Handled.channel

/-- How far the resolution is with the providers in this order. -/
structure Progress (b : Books) (channel : ResponseChannel) (order : List PeerId) (size : Nat) :
    Prop where
  sized : ∀ batch ∈ b.batches channel, batch.length ≤ size ∧ (0 < size → batch ≠ [])
  tried : (b.batches channel).flatten <+: order
  waiting : ∀ id q, b.queries.lookup id = some q → q.responseChannel = channel →
    (b.batches channel).flatten ++ q.fallbackPeerIds = order
  failed : ∀ e, (channel, .error e) ∈ b.responses → (b.batches channel).flatten = order

variable {b : Books} {channel : ResponseChannel} {order : List PeerId} {size : Nat}

theorem batches_of_unhandled (recorded : b.Recorded)
    (unhandled : channel ∉ b.handled.map Handled.channel) : b.batches channel = [] := by
  have none : ∀ s ∈ b.syncs,
      ¬ (b.attempts.any fun a => a.1 = s.id ∧ a.2.responseChannel = channel) = true := by
    intro s _ found
    obtain ⟨a, mem, own⟩ := List.any_eq_true.mp found
    exact unhandled ((of_decide_eq_true own).2 ▸ (recorded a mem).2)
  rw [batches, List.filter_eq_nil_iff.mpr none, List.map_nil]

theorem batches_start (recorded : b.Recorded) {id : QueryId} (fresh : id ∉ b.syncs.map Sync.id)
    (q : Query) (peers : List PeerId) (channel : ResponseChannel) :
    (b.start id q peers).batches channel =
      b.batches channel ++ if q.responseChannel = channel then [peers] else [] := by
  unfold batches start
  rw [List.filter_append, List.map_append]
  congr 1
  · -- The new entry belongs to no earlier batch.
    refine congrArg (List.map Sync.peers) (List.filter_congr fun s mem => ?_)
    have other : id ≠ s.id := fun eq => fresh (List.mem_map.mpr ⟨s, mem, eq.symm⟩)
    simp [other]
  · -- The new batch belongs to no earlier entry.
    have other : ∀ a ∈ b.attempts, a.1 ≠ id := fun a mem eq => fresh (eq ▸ (recorded a mem).1)
    have none : ∀ q', (id, q') ∉ b.attempts := fun q' mem => other _ mem rfl
    by_cases own : q.responseChannel = channel <;> simp [own, none]

/-! ## Moves -/

theorem Recorded.start (recorded : b.Recorded) {id : QueryId} {q : Query} {peers : List PeerId}
    (handled : q.responseChannel ∈ b.handled.map Handled.channel) :
    (b.start id q peers).Recorded := by
  intro a mem
  simp only [Books.start, List.map_append, List.mem_append] at mem ⊢
  rcases mem with old | new
  · exact ⟨.inl (recorded a old).1, (recorded a old).2⟩
  · rw [List.mem_singleton.mp new]
    exact ⟨.inr (by simp), handled⟩

theorem Recorded.receive (recorded : b.Recorded) (h : Handled) : (b.receive h).Recorded := by
  intro a mem
  refine ⟨(recorded a mem).1, ?_⟩
  rw [Books.receive, List.map_append]
  exact List.mem_append_left _ (recorded a mem).2

theorem Progress.answer (prog : b.Progress channel order size) {c : ResponseChannel}
    {result : ResolveResult}
    (last : ∀ e, c = channel → result = .error e → (b.batches channel).flatten = order) :
    (b.answer c result).Progress channel order size where
  sized := prog.sized
  tried := prog.tried
  waiting := prog.waiting
  failed e mem := by
    rcases List.mem_append.mp mem with old | new
    · exact prog.failed e old
    · obtain ⟨rfl, rfl⟩ := Prod.mk.inj (List.mem_singleton.mp new)
      exact last e rfl rfl

theorem Progress.take (prog : b.Progress channel order size) (id : QueryId)
    (result : Except String Unit) : (b.take id result).Progress channel order size where
  sized := prog.sized
  tried := prog.tried
  waiting id' q look own := by
    by_cases eq : id' = id
    · subst eq
      simp [Books.take] at look
    · rw [Books.take, AList.lookup_erase_ne eq] at look
      exact prog.waiting id' q look own
  failed := prog.failed

theorem Progress.start_other (prog : b.Progress channel order size) (recorded : b.Recorded)
    {id : QueryId} (fresh : id ∉ b.syncs.map Sync.id) {q : Query}
    (other : q.responseChannel ≠ channel) (peers : List PeerId) :
    (b.start id q peers).Progress channel order size := by
  have same : (b.start id q peers).batches channel = b.batches channel := by
    rw [batches_start recorded fresh, if_neg other, List.append_nil]
  constructor <;> rw [same]
  · exact prog.sized
  · exact prog.tried
  · intro id' q' look own
    by_cases eq : id' = id
    · subst eq
      obtain rfl : q = q' := by simpa [Books.start] using look
      exact absurd own other
    · rw [Books.start, AList.lookup_insert_ne eq] at look
      exact prog.waiting id' q' look own
  · exact prog.failed

/-- The next batch of the resolution, while no entry and no answer has its channel. -/
theorem progress_start (recorded : b.Recorded) {id : QueryId} (fresh : id ∉ b.syncs.map Sync.id)
    {q : Query} {peers : List PeerId} (unheld : ∀ id, ¬ b.Holds id q.responseChannel)
    (unanswered : q.responseChannel ∉ b.responses.map Prod.fst)
    (before : ∀ batch ∈ b.batches q.responseChannel,
      batch.length ≤ size ∧ (0 < size → batch ≠ []))
    (sized : peers.length ≤ size ∧ (0 < size → peers ≠ []))
    (split : (b.batches q.responseChannel).flatten ++ (peers ++ q.fallbackPeerIds) = order) :
    (b.start id q peers).Progress q.responseChannel order size := by
  have more : (b.start id q peers).batches q.responseChannel =
      b.batches q.responseChannel ++ [peers] := by
    rw [batches_start recorded fresh, if_pos rfl]
  have flat : ((b.start id q peers).batches q.responseChannel).flatten ++ q.fallbackPeerIds =
      order := by
    rw [more, List.flatten_append, List.flatten_singleton, List.append_assoc, split]
  refine ⟨?_, ⟨_, flat⟩, ?_, ?_⟩
  · rw [more]
    intro batch mem
    rcases List.mem_append.mp mem with old | new
    · exact before batch old
    · rwa [List.mem_singleton.mp new]
  · intro id' q' look own
    by_cases eq : id' = id
    · subst eq
      obtain rfl : q = q' := by simpa [Books.start] using look
      exact flat
    · rw [Books.start, AList.lookup_insert_ne eq] at look
      exact absurd ⟨q', look, own⟩ (unheld id')
  · intro e mem
    exact absurd (List.mem_map.mpr ⟨_, mem, rfl⟩) unanswered

end Books

/-! ## The order of the providers -/

section Order

variable (shuffle : SetOrder PeerId) (isConnected : PeerId → Bool) (providers : Finset PeerId)

theorem queryOrder_eq :
    World.queryOrder shuffle isConnected providers =
      (shuffle.arrange providers).filter isConnected ++
        (shuffle.arrange providers).filter (fun p => !isConnected p) := by
  rw [World.queryOrder, List.partition_eq_filter_filter]
  rfl

theorem coe_queryOrder :
    (World.queryOrder shuffle isConnected providers : Multiset PeerId) = providers.val := by
  rw [queryOrder_eq, ← shuffle.coe_arrange providers]
  exact Multiset.coe_eq_coe.mpr (List.filter_append_perm _ _)

theorem queryOrder_eq_nil_iff :
    World.queryOrder shuffle isConnected providers = [] ↔ providers = ∅ := by
  rw [← Multiset.coe_eq_zero, coe_queryOrder, Finset.val_eq_zero]

/-- No peer without a connection comes before one with a connection. -/
theorem pairwise_queryOrder :
    (World.queryOrder shuffle isConnected providers).Pairwise
      (fun p p' => isConnected p' = true → isConnected p = true) := by
  rw [queryOrder_eq, List.pairwise_append]
  refine ⟨?_, ?_, ?_⟩
  · exact List.pairwise_of_forall_mem_list fun p mem p' _ _ => (List.mem_filter.mp mem).2
  · refine List.pairwise_of_forall_mem_list fun p _ p' mem connected => ?_
    simp [connected] at mem
  · intro p mem p' _ _
    exact (List.mem_filter.mp mem).2

theorem countP_mem_eq_count_flatten {batches : List (List PeerId)} (nodup : batches.flatten.Nodup)
    (p : PeerId) : batches.countP (p ∈ ·) = batches.flatten.count p := by
  induction batches with
  | nil => rfl
  | cons batch batches ih =>
    rw [List.flatten_cons] at nodup ⊢
    obtain ⟨here, rest, -⟩ := List.nodup_append.mp nodup
    rw [List.countP_cons, List.count_append, ih rest, here.count, Nat.add_comm]
    simp only [decide_eq_true_eq]

end Order

namespace World

/-- A node that knows some providers of a subnet. -/
def providedBy (peers : List PeerId) (subnet : SubnetID) : Membership.Behaviour :=
  peers.foldl (fun b p => Membership.Behaviour.handleProviderRecord 1 (.plain _)
    (b.setRoutable 1 p) ⟨p, [subnet], 1⟩) (Membership.initial 0 ⟨⟨[0]⟩, "net"⟩ ⟨[], 10, 60, 5, 30⟩)

def quietDiscovery : Discovery.Behaviour := ⟨⟨[0]⟩, [], "", none, 0, 10, 1, none, []⟩

theorem splitPeersForQuery_spec {s : Service} {peers now later : List PeerId}
    (split : s.splitPeersForQuery peers = (now, later)) (some : peers ≠ []) :
    now ++ later = peers ∧ now.length ≤ s.maxPeersPerQuery ∧
      (0 < s.maxPeersPerQuery → now ≠ []) := by
  obtain ⟨rfl, rfl⟩ := Prod.mk.inj split
  refine ⟨List.take_append_drop _ _, ?_, fun pos => ?_⟩
  · rw [List.length_take]
    omega
  · have length := List.length_pos_of_ne_nil some
    rw [Ne, List.take_eq_nil_iff, not_or]
    exact ⟨by omega, some⟩

theorem maxPeersPerQuery_step (env : Service.Env) (s : Service)
    (i : Membership.Moment × Service.Input) :
    (s.step env i).maxPeersPerQuery = s.maxPeersPerQuery := by
  obtain ⟨m, i⟩ := i
  cases i with
  | pollDiscovery ticked ready =>
    simp only [Service.step]
    split <;> rfl
  | pollMembership ready known =>
    simp only [Service.step]
    split
    · rename_i e _
      cases e with
      | skipped p =>
        simp only [Service.handleMembershipEvent]
        split <;> rfl
      | _ => rfl
    · rfl
  | complete ended next result =>
    simp only [Service.step, Service.handleComplete, Service.resolveQuery]
    split
    · split
      · rfl
      · split <;> rfl
    · rfl
  | resolve shuffle isConnected id cid subnet channel =>
    simp only [Service.step, Service.startQuery]
    split <;> rfl
  | _ => rfl

section Moves

variable {w : World} {i : Service.Input} {b : Books} {channel : ResponseChannel}
  {order : List PeerId}

theorem Moved.recorded (moved : w.Moved i b) (ord : w.books.InOrder none)
    (recorded : w.books.Recorded) : b.Recorded := by
  cases moved with
  | quiet => exact recorded
  | unknown => exact recorded.receive _
  | first => exact (recorded.receive _).start (by simp [Books.receive, handling])
  | unawaited | resolved | failed => exact recorded
  | further entry =>
    refine Books.Recorded.start (b := w.books.take _ _) recorded ?_
    exact ord.handled_of_holds ⟨_, entry, rfl⟩

/-- A request starts with all of its providers before it. -/
theorem Moved.progress_resolve {shuffle : SetOrder PeerId} {isConnected : PeerId → Bool}
    {id : QueryId} {cid : Cid} {subnet : SubnetID}
    (moved : w.Moved (.resolve shuffle isConnected id cid subnet channel) b)
    (ord : w.books.InOrder none) (recorded : w.books.Recorded)
    (allowed : w.Allows (.resolve shuffle isConnected id cid subnet channel)) :
    b.Progress channel (queryOrder shuffle isConnected
      (w.service.membership.providersOfSubnet subnet)) w.service.maxPeersPerQuery := by
  have received := ord.receive (w.handling cid subnet channel) allowed.2
  obtain ⟨unanswered, unheld⟩ := received.apart _ rfl
  have none : w.books.batches channel = [] := Books.batches_of_unhandled recorded allowed.2
  cases moved with
  | quiet other => cases other
  | unknown absent =>
    have nothing : ((w.books.receive (w.handling cid subnet channel)).batches channel).flatten =
        queryOrder shuffle isConnected (w.service.membership.providersOfSubnet subnet) := by
      rw [(queryOrder_eq_nil_iff ..).mpr absent]
      exact congrArg List.flatten none
    refine Books.Progress.answer ?_ fun _ _ _ => nothing
    refine ⟨fun batch mem => ?_, nothing ▸ List.prefix_refl _, ?_, ?_⟩
    · exact absurd mem (none.symm ▸ List.not_mem_nil)
    · exact fun id q look own => absurd ⟨q, look, own⟩ (unheld id)
    · exact fun e mem => absurd (List.mem_map.mpr ⟨_, mem, rfl⟩) unanswered
  | @first _ _ _ _ _ _ now later present split =>
    obtain ⟨parts, sized⟩ := splitPeersForQuery_spec split
      fun nil => present ((queryOrder_eq_nil_iff ..).mp nil)
    refine Books.progress_start (b := w.books.receive _) (q := ⟨cid, subnet, later, channel⟩)
      (recorded.receive _) allowed.1 unheld unanswered (fun batch mem => ?_) sized ?_
    · exact absurd mem (none.symm ▸ List.not_mem_nil)
    · rw [parts]
      exact congrArg (· ++ _) (congrArg List.flatten none)

/-- The moves of this and other requests keep the progress of a request. -/
theorem Moved.progress (moved : w.Moved i b) (ord : w.books.InOrder none)
    (recorded : w.books.Recorded) (allowed : w.Allows i)
    (handled : channel ∈ w.handled.map Handled.channel)
    (prog : w.books.Progress channel order w.service.maxPeersPerQuery) :
    b.Progress channel order w.service.maxPeersPerQuery := by
  cases moved with
  | quiet => exact prog
  | @unknown _ _ _ _ _ c absent =>
    have other : c ≠ channel := fun eq => allowed.2 (eq ▸ handled)
    exact Books.Progress.answer (b := w.books.receive _)
      ⟨prog.sized, prog.tried, prog.waiting, prog.failed⟩
      fun _ eq => absurd eq other
  | @first _ _ _ _ _ c now later present split =>
    have other : c ≠ channel := fun eq => allowed.2 (eq ▸ handled)
    exact Books.Progress.start_other (b := w.books.receive _)
      ⟨prog.sized, prog.tried, prog.waiting, prog.failed⟩ (recorded.receive _)
      allowed.1 other now
  | @unawaited ended next result entry => exact prog.take ended result
  | @resolved ended next q entry =>
    exact (prog.take ended (.ok ())).answer fun e _ eq => by cases eq
  | @failed ended next q e entry last =>
    refine (prog.take ended (.error e)).answer fun _ own _ => ?_
    have all := prog.waiting ended q entry own
    rwa [last, List.append_nil] at all
  | @further ended next q e now later entry more split =>
    obtain ⟨parts, sized⟩ := splitPeersForQuery_spec split more
    by_cases own : q.responseChannel = channel
    · subst own
      have inHand := ord.take ended (.error e) (List.mem_map.mp allowed.1)
      have held : (w.books.queries.lookup ended).map Query.responseChannel =
          Option.some q.responseChannel := congrArg (Option.map _) entry
      obtain ⟨unanswered, unheld⟩ := inHand.apart q.responseChannel held
      refine Books.progress_start (b := w.books.take ended _)
        (q := { q with fallbackPeerIds := later }) recorded allowed.2.2 unheld unanswered prog.sized
        sized ?_
      rw [parts]
      exact prog.waiting ended q entry rfl
    · exact (prog.take ended (.error e)).start_other
        (q := { q with fallbackPeerIds := later }) recorded allowed.2.2 own now

end Moves

/-! ## Runs -/

section Runs

variable {env : Service.Env} {w : World} {channel : ResponseChannel} {order : List PeerId}
  {inputs : List (Membership.Moment × Service.Input)}

theorem allowsRun_append (first rest : List (Membership.Moment × Service.Input)) :
    w.AllowsRun env (first ++ rest) ↔
      w.AllowsRun env first ∧ (w.run env first).AllowsRun env rest := by
  induction first generalizing w with
  | nil => exact ⟨fun h => ⟨trivial, h⟩, fun h => h.2⟩
  | cons i first ih =>
    rw [List.cons_append, AllowsRun, ih, AllowsRun, and_assoc]
    rfl

theorem handled_run (inputs : List (Membership.Moment × Service.Input)) {h : Handled}
    (handled : h ∈ w.handled) : h ∈ (w.run env inputs).handled := by
  induction inputs generalizing w with
  | nil => exact handled
  | cons i inputs ih => exact ih (List.mem_append_left _ handled)

theorem maxPeersPerQuery_run :
    (w.run env inputs).service.maxPeersPerQuery = w.service.maxPeersPerQuery := by
  induction inputs generalizing w with
  | nil => rfl
  | cons i inputs ih => exact ih.trans (maxPeersPerQuery_step env w.service i)

theorem recorded_run (ord : w.books.InOrder none) (recorded : w.books.Recorded)
    (allowed : w.AllowsRun env inputs) : (w.run env inputs).books.Recorded := by
  induction inputs generalizing w with
  | nil => exact recorded
  | cons i inputs ih =>
    have moved := moved_step ord env i.1 i.2 allowed.1
    exact ih (moved.inOrder ord allowed.1) (moved.recorded ord recorded) allowed.2

theorem progress_run (ord : w.books.InOrder none) (recorded : w.books.Recorded)
    {h : Handled} (handled : h ∈ w.handled) (own : h.channel = channel) {size : Nat}
    (same : w.service.maxPeersPerQuery = size) (prog : w.books.Progress channel order size)
    (allowed : w.AllowsRun env inputs) :
    (w.run env inputs).books.Progress channel order size := by
  induction inputs generalizing w with
  | nil => exact prog
  | cons i inputs ih =>
    subst same
    have moved := moved_step ord env i.1 i.2 allowed.1
    exact ih (moved.inOrder ord allowed.1) (moved.recorded ord recorded)
      (List.mem_append_left _ handled) (maxPeersPerQuery_step env w.service i)
      (moved.progress ord recorded allowed.1 (List.mem_map.mpr ⟨h, handled, own⟩) prog) allowed.2

theorem handled_resolve (m : Membership.Moment) (shuffle : SetOrder PeerId)
    (isConnected : PeerId → Bool) (id : QueryId) (cid : Cid) (subnet : SubnetID)
    (channel : ResponseChannel) :
    w.handling cid subnet channel ∈
      (w.step env (m, .resolve shuffle isConnected id cid subnet channel)).handled := by
  simp [step, Service.Input.handled, handling]

/-- The progress of a request at any time after it was handled. -/
theorem progress_of_handled (discovery : Discovery.Behaviour) (membership : Membership.Behaviour)
    (maxPeersPerQuery : Nat) (before after : List (Membership.Moment × Service.Input))
    (m : Membership.Moment) (shuffle : SetOrder PeerId) (isConnected : PeerId → Bool)
    (id : QueryId) (cid : Cid) (subnet : SubnetID) (channel : ResponseChannel)
    (allowed : (start (.new discovery membership maxPeersPerQuery)).AllowsRun env
      (before ++ (m, .resolve shuffle isConnected id cid subnet channel) :: after)) :
    let w := (start (.new discovery membership maxPeersPerQuery)).run env before
    (w.run env ((m, .resolve shuffle isConnected id cid subnet channel) :: after)).books.Progress
      channel (queryOrder shuffle isConnected (w.service.membership.providersOfSubnet subnet))
      maxPeersPerQuery := by
  intro w
  obtain ⟨allowed, here, allowed'⟩ := (allowsRun_append ..).mp allowed
  have fresh := inOrder_start discovery membership maxPeersPerQuery
  have ord : w.books.InOrder none := inOrder_run fresh env before allowed
  have recorded : w.books.Recorded :=
    recorded_run fresh (by simp [Books.Recorded, start, books]) allowed
  have size : w.service.maxPeersPerQuery = maxPeersPerQuery := maxPeersPerQuery_run
  have moved := moved_step ord env m _ here
  have prog := moved.progress_resolve ord recorded here
  rw [size] at prog
  refine progress_run (moved.inOrder ord here) (moved.recorded ord recorded)
    (handled_resolve ..) rfl ?_ prog allowed'
  rw [← size]
  exact maxPeersPerQuery_step env w.service _

end Runs

/-- Every provider is queried at most once, those with a connection first: the batches of a
resolution and the peers it still has are the providers in an order that is fixed when the
request is handled. -/
theorem providers_queried_once (env : Service.Env) (discovery : Discovery.Behaviour)
    (membership : Membership.Behaviour) (maxPeersPerQuery : Nat)
    (before : List (Membership.Moment × Service.Input)) (m : Membership.Moment)
    (shuffle : SetOrder PeerId) (isConnected : PeerId → Bool) (id : QueryId) (cid : Cid)
    (subnet : SubnetID) (channel : ResponseChannel) :
    let w₀ := (start (.new discovery membership maxPeersPerQuery)).run env before
    let request : Service.Input := .resolve shuffle isConnected id cid subnet channel
    let providers := w₀.service.membership.providersOfSubnet subnet
    ∃ order : List PeerId, (order : Multiset PeerId) = providers.val ∧
      order.Pairwise (fun p p' => isConnected p' = true → isConnected p = true) ∧
      ∀ after, (start (.new discovery membership maxPeersPerQuery)).AllowsRun env
          (before ++ (m, request) :: after) →
        let w := w₀.run env ((m, request) :: after)
        let batches := w.books.batches channel
        (∀ batch ∈ batches, batch.length ≤ maxPeersPerQuery) ∧ batches.flatten <+: order ∧
        (∀ id q, w.service.queries.lookup id = some q → q.responseChannel = channel →
          batches.flatten ++ q.fallbackPeerIds = order) ∧
        ∀ e, (channel, .error e) ∈ w.service.responses → batches.flatten = order ∧
          ∀ p ∈ providers, batches.countP (p ∈ ·) = 1 := by
  intro w₀ request providers
  refine ⟨queryOrder shuffle isConnected providers, coe_queryOrder .., pairwise_queryOrder ..,
    fun after allowed => ?_⟩
  intro w batches
  have prog := progress_of_handled discovery membership maxPeersPerQuery before after m shuffle
    isConnected id cid subnet channel allowed
  refine ⟨fun batch mem => (prog.sized batch mem).1, prog.tried, prog.waiting, fun e mem => ?_⟩
  have all : batches.flatten = queryOrder shuffle isConnected providers := prog.failed e mem
  have once : (batches.flatten : Multiset PeerId) = providers.val := by
    rw [all, coe_queryOrder]
  refine ⟨all, fun p known => ?_⟩
  rw [countP_mem_eq_count_flatten, ← Multiset.coe_count, once]
  · exact Multiset.count_eq_one_of_mem providers.nodup known
  · rw [← Multiset.coe_nodup, once]
    exact providers.nodup

/-- One of the two providers is connected; the batches have one peer each, and both fail. -/
theorem providers_queried_once_failure :
    let known : PeerId := ⟨[1]⟩
    let connected : PeerId := ⟨[2]⟩
    let subnet : SubnetID := ⟨"/root/t01"⟩
    let env : Service.Env := ⟨fun _ _ => true, ⟨id, fun _ => none, fun _ => none⟩, fun _ _ => true⟩
    let w₀ := start (.new quietDiscovery (providedBy [known, connected] subnet) 1)
    let request : Service.Input :=
      .resolve .byBytes (fun p => p = connected) ⟨0⟩ ⟨[7]⟩ subnet ⟨0⟩
    let w := w₀.run env [(⟨2, .plain⟩, request),
      (⟨3, .plain⟩, .complete ⟨0⟩ ⟨1⟩ (.error "not found")),
      (⟨4, .plain⟩, .complete ⟨1⟩ ⟨2⟩ (.error "not found"))]
    w.books.batches ⟨0⟩ = [[connected], [known]] ∧
      ∀ p ∈ w₀.service.membership.providersOfSubnet subnet,
        (w.books.batches ⟨0⟩).countP (p ∈ ·) = 1 := by
  intro known connected subnet env w₀ request w
  obtain ⟨order, -, -, always⟩ := providers_queried_once env quietDiscovery
    (providedBy [known, connected] subnet) 1 [] ⟨2, .plain⟩ .byBytes (fun p => p = connected) ⟨0⟩
    ⟨[7]⟩ subnet ⟨0⟩
  obtain ⟨-, -, -, failed⟩ := always [(⟨3, .plain⟩, .complete ⟨0⟩ ⟨1⟩ (.error "not found")),
      (⟨4, .plain⟩, .complete ⟨1⟩ ⟨2⟩ (.error "not found"))] (by decide +kernel)
  exact ⟨by decide +kernel, (failed (.failed "not found") (by decide +kernel)).2⟩

/-! ## Giving up -/

theorem length_le_length_flatten {batches : List (List PeerId)}
    (nonempty : ∀ batch ∈ batches, batch ≠ []) : batches.length ≤ batches.flatten.length := by
  induction batches with
  | nil => exact Nat.le_refl 0
  | cons batch batches ih =>
    obtain ⟨here, rest⟩ := List.forall_mem_cons.mp nonempty
    have length := List.length_pos_of_ne_nil here
    have later := ih rest
    rw [List.flatten_cons, List.length_append, List.length_cons]
    omega

/-- Another attempt is made with the peers that are left. -/
theorem service_step_further {w : World} (env : Service.Env) (m : Membership.Moment)
    {ended : QueryId} {q : Query} (entry : w.service.queries.lookup ended = some q)
    (more : q.fallbackPeerIds ≠ []) (next : QueryId) (e : String) :
    let peers := w.service.splitPeersForQuery q.fallbackPeerIds
    (w.step env (m, .complete ended next (.error e))).service =
      started { w.service with queries := w.service.queries.erase ended } next
        { q with fallbackPeerIds := peers.2 } peers.1 := by
  simp only [step, Service.step, Service.handleComplete, entry, Service.resolveQuery,
    List.isEmpty_iff, more, if_false]
  rfl

/-- If the batches are not empty, each failed attempt leaves fewer peers for the next one, and
the request is answered after at most as many attempts as there are providers. -/
theorem gives_up_of_pos (env : Service.Env) (discovery : Discovery.Behaviour)
    (membership : Membership.Behaviour) (maxPeersPerQuery : Nat) (pos : 0 < maxPeersPerQuery)
    (before after : List (Membership.Moment × Service.Input)) (m : Membership.Moment)
    (shuffle : SetOrder PeerId) (isConnected : PeerId → Bool) (id : QueryId) (cid : Cid)
    (subnet : SubnetID) (channel : ResponseChannel)
    (allowed : (start (.new discovery membership maxPeersPerQuery)).AllowsRun env
      (before ++ (m, .resolve shuffle isConnected id cid subnet channel) :: after)) :
    let w₀ := (start (.new discovery membership maxPeersPerQuery)).run env before
    let providers := w₀.service.membership.providersOfSubnet subnet
    let w := w₀.run env ((m, .resolve shuffle isConnected id cid subnet channel) :: after)
    (∀ ended q m' next e, w.service.queries.lookup ended = some q →
      q.responseChannel = channel → q.fallbackPeerIds ≠ [] →
      ∃ q', (w.step env (m', .complete ended next (.error e))).service.queries.lookup next =
          some q' ∧ q'.responseChannel = channel ∧
        q'.fallbackPeerIds.length < q.fallbackPeerIds.length) ∧
    (w.books.batches channel).length ≤ providers.card ∧
    ((∀ a ∈ w.attempts, a.2.responseChannel = channel → a.1 ∈ w.completed.map Prod.fst) →
      w.Answered ⟨channel, cid, subnet, providers⟩) := by
  intro w₀ providers w
  have prog := progress_of_handled discovery membership maxPeersPerQuery before after m shuffle
    isConnected id cid subnet channel allowed
  refine ⟨fun ended q m' next e entry own more => ?_, ?_, fun ended => ?_⟩
  · rw [service_step_further env m' entry more next e]
    refine ⟨_, AList.lookup_insert _, own, ?_⟩
    have size : w.service.maxPeersPerQuery = maxPeersPerQuery :=
      maxPeersPerQuery_run.trans maxPeersPerQuery_run
    have length := List.length_pos_of_ne_nil more
    simp only [Service.splitPeersForQuery, List.length_drop]
    omega
  · calc (w.books.batches channel).length
        ≤ (w.books.batches channel).flatten.length :=
          length_le_length_flatten fun batch mem => (prog.sized batch mem).2 pos
      _ ≤ (queryOrder shuffle isConnected providers).length := prog.tried.length_le
      _ = providers.card := by
          rw [← Multiset.coe_card, coe_queryOrder, Finset.card_val]
  · obtain ⟨allowed, allowed'⟩ := (allowsRun_append ..).mp allowed
    have ord : w.books.InOrder none := inOrder_run
      (inOrder_run (inOrder_start discovery membership maxPeersPerQuery) env before allowed) env _
      allowed'
    have handled : w₀.handling cid subnet channel ∈ w.handled :=
      handled_run after (handled_resolve m shuffle isConnected id cid subnet channel)
    rcases answered_or_waiting ord handled with ⟨answered, -⟩ | ⟨waiting, -⟩
    · exact answered
    · -- The attempt it waits for has not ended.
      obtain ⟨-, id, ⟨q, entry, own⟩, -, running⟩ := waiting
      exact absurd (ended (id, q) (ord.ids id q entry).2.1 own) running.2

/-- Two providers, one at a time, which both fail. -/
theorem gives_up_of_pos_two :
    let providers : List PeerId := [⟨[1]⟩, ⟨[2]⟩]
    let subnet : SubnetID := ⟨"/root/t01"⟩
    let env : Service.Env := ⟨fun _ _ => true, ⟨id, fun _ => none, fun _ => none⟩, fun _ _ => true⟩
    let w := (start (.new quietDiscovery (providedBy providers subnet) 1)).run env
      [(⟨2, .plain⟩, .resolve .byBytes (fun _ => false) ⟨0⟩ ⟨[7]⟩ subnet ⟨0⟩),
        (⟨3, .plain⟩, .complete ⟨0⟩ ⟨1⟩ (.error "not found")),
        (⟨4, .plain⟩, .complete ⟨1⟩ ⟨2⟩ (.error "not found"))]
    (w.books.batches ⟨0⟩).length = 2 ∧ (w.books.batches ⟨0⟩).length ≤
        ((providedBy providers subnet).providersOfSubnet subnet).card ∧
      w.Answered ⟨⟨0⟩, ⟨[7]⟩, subnet, (providedBy providers subnet).providersOfSubnet subnet⟩ := by
  intro providers subnet env w
  obtain ⟨-, few, answered⟩ := gives_up_of_pos env quietDiscovery (providedBy providers subnet) 1
    (by decide) [] [(⟨3, .plain⟩, .complete ⟨0⟩ ⟨1⟩ (.error "not found")),
      (⟨4, .plain⟩, .complete ⟨1⟩ ⟨2⟩ (.error "not found"))] ⟨2, .plain⟩ .byBytes
    (fun _ => false) ⟨0⟩ ⟨[7]⟩ subnet ⟨0⟩ (by decide +kernel)
  exact ⟨by decide +kernel, few, answered (by decide +kernel)⟩

/-- The batches are empty, and the resolution waits for the one with the last identifier. -/
structure Stuck (w : World) (last : Nat) (q : Query) : Prop where
  size : w.service.maxPeersPerQuery = 0
  entry : w.service.queries.lookup ⟨last⟩ = some q
  more : q.fallbackPeerIds ≠ []
  started : ⟨last⟩ ∈ w.service.syncs.map Sync.id
  syncs : ∀ id ∈ w.service.syncs.map Sync.id, id.id ≤ last
  completed : ∀ id ∈ w.completed.map Prod.fst, id.id < last
  unanswered : w.service.responses = []

/-- The failures of the attempts from the last one on. -/
def failures (last : Nat) : Nat → List (Membership.Moment × Service.Input)
  | 0 => []
  | n + 1 =>
    (⟨0, .plain⟩, .complete ⟨last⟩ ⟨last + 1⟩ (.error "not found")) :: failures (last + 1) n

theorem Stuck.step {w : World} {last : Nat} {q : Query} (stuck : w.Stuck last q)
    (env : Service.Env) (m : Membership.Moment) (e : String) :
    w.Allows (.complete ⟨last⟩ ⟨last + 1⟩ (.error e)) ∧
      (w.step env (m, .complete ⟨last⟩ ⟨last + 1⟩ (.error e))).Stuck (last + 1) q := by
  have fresh : (⟨last + 1⟩ : QueryId) ∉ w.service.syncs.map Sync.id := by
    intro mem
    have le := stuck.syncs _ mem
    simp only at le
    omega
  have pending : (⟨last⟩ : QueryId) ∉ w.completed.map Prod.fst := by
    intro mem
    exact absurd (stuck.completed _ mem) (Nat.lt_irrefl last)
  refine ⟨⟨stuck.started, pending, fresh⟩, ?_⟩
  have same : w.service.splitPeersForQuery q.fallbackPeerIds = ([], q.fallbackPeerIds) := by
    simp [Service.splitPeersForQuery, stuck.size]
  have stepped := service_step_further env m stuck.entry stuck.more ⟨last + 1⟩ e
  rw [same] at stepped
  constructor
  · rw [stepped]
    exact stuck.size
  · rw [stepped]
    exact AList.lookup_insert _
  · exact stuck.more
  · simp [stepped, World.started]
  · rw [stepped, World.started, List.map_append]
    intro id mem
    rcases List.mem_append.mp mem with old | new
    · exact (stuck.syncs id old).trans (Nat.le_succ last)
    · rw [List.mem_singleton.mp new]
  · simp only [World.step, Service.Input.completed, List.map_append]
    intro id mem
    rcases List.mem_append.mp mem with old | new
    · exact (stuck.completed id old).trans (Nat.lt_succ_self last)
    · rw [List.mem_singleton.mp new]
      exact Nat.lt_succ_self last
  · rw [stepped]
    exact stuck.unanswered

theorem Stuck.run (n : Nat) {w : World} {last : Nat} {q : Query} (stuck : w.Stuck last q)
    (env : Service.Env) :
    w.AllowsRun env (failures last n) ∧ (w.run env (failures last n)).Stuck (last + n) q := by
  induction n generalizing w last with
  | zero => exact ⟨trivial, stuck⟩
  | succ n ih =>
    obtain ⟨allowed, stuck'⟩ := stuck.step env ⟨0, .plain⟩ "not found"
    obtain ⟨allowed', later⟩ := ih stuck'
    refine ⟨⟨allowed, allowed'⟩, ?_⟩
    rw [show last + (n + 1) = last + 1 + n by omega]
    exact later

/-- With empty batches the only provider is never queried: however many attempts fail, it
stays the one to fall back on, and the request is not answered. -/
theorem never_gives_up :
    let provider : PeerId := ⟨[1]⟩
    let subnet : SubnetID := ⟨"/root/t01"⟩
    let env : Service.Env := ⟨fun _ _ => true, ⟨id, fun _ => none, fun _ => none⟩, fun _ _ => true⟩
    let w₀ := start (.new quietDiscovery (providedBy [provider] subnet) 0)
    let request : Service.Input := .resolve .byBytes (fun _ => false) ⟨0⟩ ⟨[7]⟩ subnet ⟨0⟩
    w₀.service.membership.providersOfSubnet subnet = {provider} ∧
      ∀ n, let inputs := (⟨2, .plain⟩, request) :: failures 0 n
        let w := w₀.run env inputs
        w₀.AllowsRun env inputs ∧ w.service.responses = [] ∧
          w.service.queries.lookup ⟨n⟩ = some ⟨⟨[7]⟩, subnet, [provider], ⟨0⟩⟩ := by
  intro provider subnet env w₀ request
  refine ⟨by decide +kernel, fun n => ?_⟩
  intro inputs w
  have first : w₀.Allows request := by decide +kernel
  have stuck : (w₀.step env (⟨2, .plain⟩, request)).Stuck 0 ⟨⟨[7]⟩, subnet, [provider], ⟨0⟩⟩ := by
    constructor <;> decide +kernel
  obtain ⟨allowed, stuck'⟩ := stuck.run n env
  rw [Nat.zero_add] at stuck'
  exact ⟨⟨first, allowed⟩, stuck'.unanswered, stuck'.entry⟩

end World

end IpcAgent.Resolver
