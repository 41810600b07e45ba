import IpcAgent.Resolver.Service

/-!
# The life of a resolution request

The response channel of a request is handed from one place to the next: to the code that
handles the request, to an entry of `queries`, through the entries of later attempts, and at
last to the client. `Books` keeps the places; four moves change them, each step of the
service is made of such moves, and no move drops or copies a channel.
-/

namespace IpcAgent.Resolver
open Library

/-- A request as the service found it. -/
structure Handled where
  channel : ResponseChannel
  cid : Cid
  subnet : SubnetID
  /-- The providers of the subnet when the request was handled. -/
  providers : Finset PeerId

/-- Where the channels are, and what has happened to the queries. -/
structure Books where
  queries : HashMap QueryId Query
  syncs : List Sync
  responses : List (ResponseChannel × ResolveResult)
  handled : List Handled
  /-- The queries Bitswap has ended. -/
  completed : List (QueryId × Except String Unit)
  /-- The entries made in `queries`. -/
  attempts : List (QueryId × Query)

namespace Books

/-- Bitswap is working on the query, for this CID. -/
def Running (b : Books) (id : QueryId) (cid : Cid) : Prop :=
  (∃ peers, ⟨id, cid, peers⟩ ∈ b.syncs) ∧ id ∉ b.completed.map Prod.fst

def Holds (b : Books) (id : QueryId) (channel : ResponseChannel) : Prop :=
  ∃ q, b.queries.lookup id = some q ∧ q.responseChannel = channel

/-- An attempt for the request that ended with the result, with the peers still left then. -/
def Ended (b : Books) (h : Handled) (fallback : List PeerId) (result : Except String Unit) :
    Prop :=
  ∃ id q, (id, q) ∈ b.attempts ∧ q.responseChannel = h.channel ∧ q.cid = h.cid ∧
    q.fallbackPeerIds = fallback ∧ (id, result) ∈ b.completed

/-- What has to have happened for a request to be answered with the result. -/
def Justifies (b : Books) (h : Handled) : ResolveResult → Prop
  | .ok () => ∃ fallback, b.Ended h fallback (.ok ())
  | .error (.noKnownPeers subnet) => subnet = h.subnet ∧ h.providers = ∅
  | .error (.failed e) => b.Ended h [] (.error e)

/-! ## Moves -/

/-- The entry of an ended query is taken out. -/
def take (b : Books) (id : QueryId) (result : Except String Unit) : Books :=
  { b with queries := b.queries.erase id, completed := b.completed ++ [(id, result)] }

/-- A request comes in. -/
def receive (b : Books) (h : Handled) : Books := { b with handled := b.handled ++ [h] }

/-- A channel is answered. -/
def answer (b : Books) (channel : ResponseChannel) (result : ResolveResult) : Books :=
  { b with responses := b.responses ++ [(channel, result)] }

/-- A query is handed to Bitswap, and its entry made. -/
def start (b : Books) (id : QueryId) (q : Query) (peers : List PeerId) : Books :=
  { b with
    syncs := b.syncs ++ [⟨id, q.cid, peers⟩]
    queries := b.queries.insert id q
    attempts := b.attempts ++ [(id, q)] }

/-- The books are in order. The channel of at most one request is in the hands of the code
that runs at the moment; all the others are answered or held by an entry. -/
structure InOrder (b : Books) (inHand : Option ResponseChannel) : Prop where
  channels : (b.handled.map Handled.channel).Nodup
  ids : ∀ id q, b.queries.lookup id = some q → b.Running id q.cid ∧ (id, q) ∈ b.attempts ∧
    ∃ h ∈ b.handled, h.channel = q.responseChannel ∧ h.cid = q.cid
  started : ∀ e ∈ b.completed, ∃ s ∈ b.syncs, s.id = e.1
  holder : ∀ id id' channel, b.Holds id channel → b.Holds id' channel → id = id'
  once : (b.responses.map Prod.fst).Nodup
  free : ∀ id channel, b.Holds id channel → channel ∉ b.responses.map Prod.fst
  covered : ∀ h ∈ b.handled, inHand = some h.channel ∨
    h.channel ∈ b.responses.map Prod.fst ∨ ∃ id, b.Holds id h.channel
  apart : ∀ channel, inHand = some channel →
    channel ∉ b.responses.map Prod.fst ∧ ∀ id, ¬ b.Holds id channel
  justified : ∀ e ∈ b.responses, ∃ h ∈ b.handled, h.channel = e.1 ∧ b.Justifies h e.2

theorem holds_take (b : Books) (id id' : QueryId) (result : Except String Unit)
    (channel : ResponseChannel) :
    (b.take id result).Holds id' channel ↔ id' ≠ id ∧ b.Holds id' channel := by
  by_cases eq : id' = id
  · subst eq
    simp [Holds, take]
  · simp [Holds, take, eq, AList.lookup_erase_ne eq]

theorem holds_start (b : Books) (id id' : QueryId) (q : Query) (peers : List PeerId)
    (channel : ResponseChannel) :
    (b.start id q peers).Holds id' channel ↔
      if id' = id then q.responseChannel = channel else b.Holds id' channel := by
  by_cases eq : id' = id
  · subst eq
    simp [Holds, start]
  · simp [Holds, start, eq, AList.lookup_insert_ne eq]

/-- What has happened stays so. -/
theorem Justifies.mono {b b' : Books} {h : Handled} {result : ResolveResult}
    (just : b.Justifies h result) (attempts : b.attempts ⊆ b'.attempts)
    (completed : b.completed ⊆ b'.completed) : b'.Justifies h result := by
  have ended : ∀ fallback r, b.Ended h fallback r → b'.Ended h fallback r := by
    rintro fallback r ⟨id, q, mem, channel, cid, left, done⟩
    exact ⟨id, q, attempts mem, channel, cid, left, completed done⟩
  cases result with
  | ok r =>
    obtain ⟨fallback, h⟩ := just
    exact ⟨fallback, ended _ _ h⟩
  | error e =>
    cases e with
    | noKnownPeers subnet => exact just
    | failed e => exact ended _ _ just

variable {b : Books}

/-- Every answered channel belongs to a request. -/
theorem InOrder.handled_of_response {inHand : Option ResponseChannel} (ord : b.InOrder inHand)
    {channel : ResponseChannel} (mem : channel ∈ b.responses.map Prod.fst) :
    channel ∈ b.handled.map Handled.channel := by
  obtain ⟨e, he, rfl⟩ := List.mem_map.mp mem
  obtain ⟨h, hh, eq, -⟩ := ord.justified e he
  exact List.mem_map.mpr ⟨h, hh, eq⟩

theorem InOrder.handled_of_holds {inHand : Option ResponseChannel} (ord : b.InOrder inHand)
    {id : QueryId} {channel : ResponseChannel} (holds : b.Holds id channel) :
    channel ∈ b.handled.map Handled.channel := by
  obtain ⟨q, look, rfl⟩ := holds
  obtain ⟨-, -, h, hh, eq, -⟩ := ord.ids id q look
  exact List.mem_map.mpr ⟨h, hh, eq⟩

/-- The channel of a new request is in hand. -/
theorem InOrder.receive (ord : b.InOrder none) (h : Handled)
    (fresh : h.channel ∉ b.handled.map Handled.channel) :
    (b.receive h).InOrder (some h.channel) where
  channels := by
    rw [Books.receive, List.map_append, List.map_singleton, ← List.concat_eq_append]
    exact ord.channels.concat fresh
  ids id q look := by
    obtain ⟨running, attempt, h', mem, eqs⟩ := ord.ids id q look
    exact ⟨running, attempt, h', List.mem_append_left _ mem, eqs⟩
  started := ord.started
  holder := ord.holder
  once := ord.once
  free := ord.free
  covered h' mem := by
    rcases List.mem_append.mp mem with old | new
    · exact .inr ((ord.covered h' old).resolve_left (by simp))
    · exact .inl (by rw [List.mem_singleton.mp new])
  apart channel eq := by
    obtain rfl := Option.some.inj eq
    exact ⟨fun mem => fresh (ord.handled_of_response mem),
      fun id holds => fresh (ord.handled_of_holds holds)⟩
  justified e he := by
    obtain ⟨h', mem, eq, just⟩ := ord.justified e he
    exact ⟨h', List.mem_append_left _ mem, eq, just.mono (List.Subset.refl _) (List.Subset.refl _)⟩

/-- The entry of an ended query, if there is one, hands its channel over. -/
theorem InOrder.take (ord : b.InOrder none) (id : QueryId) (result : Except String Unit)
    (known : ∃ s ∈ b.syncs, s.id = id) :
    (b.take id result).InOrder ((b.queries.lookup id).map Query.responseChannel) where
  channels := ord.channels
  ids id' q look := by
    have other : id' ≠ id := by
      rintro rfl
      simp [Books.take] at look
    have look' : b.queries.lookup id' = some q := by
      rwa [Books.take, AList.lookup_erase_ne other] at look
    obtain ⟨⟨synced, pending⟩, attempt, request⟩ := ord.ids id' q look'
    refine ⟨⟨synced, ?_⟩, attempt, request⟩
    simpa [Books.take, other] using pending
  started e he := by
    rcases List.mem_append.mp he with old | new
    · exact ord.started e old
    · rw [List.mem_singleton.mp new]
      exact known
  holder id₁ id₂ channel h₁ h₂ := by
    rw [holds_take] at h₁ h₂
    exact ord.holder id₁ id₂ channel h₁.2 h₂.2
  once := ord.once
  free id' channel holds := ord.free id' channel ((holds_take ..).mp holds).2
  covered h mem := by
    rcases (ord.covered h mem).resolve_left (by simp) with answered | ⟨id', holds⟩
    · exact .inr (.inl answered)
    · by_cases eq : id' = id
      · subst eq
        obtain ⟨q, look, channel⟩ := holds
        exact .inl (by rw [look, Option.map_some, channel])
      · exact .inr (.inr ⟨id', (holds_take ..).mpr ⟨eq, holds⟩⟩)
  apart channel eq := by
    obtain ⟨q, look, rfl⟩ := Option.map_eq_some_iff.mp eq
    have holds : b.Holds id q.responseChannel := ⟨q, look, rfl⟩
    refine ⟨ord.free id _ holds, fun id' holds' => ?_⟩
    obtain ⟨other, holds'⟩ := (holds_take ..).mp holds'
    exact other (ord.holder id' id _ holds' holds)
  justified e he := by
    obtain ⟨h, mem, eq, just⟩ := ord.justified e he
    exact ⟨h, mem, eq, just.mono (List.Subset.refl _) (List.subset_append_left _ _)⟩

/-- The channel in hand is answered. -/
theorem InOrder.answer {h : Handled} (ord : b.InOrder (some h.channel)) (mem : h ∈ b.handled)
    {result : ResolveResult} (just : b.Justifies h result) :
    (b.answer h.channel result).InOrder none where
  channels := ord.channels
  ids := ord.ids
  started := ord.started
  holder := ord.holder
  once := by
    rw [Books.answer, List.map_append, List.map_singleton, ← List.concat_eq_append]
    exact ord.once.concat (ord.apart _ rfl).1
  free id channel holds := by
    simp only [Books.answer, List.map_append, List.map_cons, List.map_nil, List.mem_append,
      List.mem_singleton, not_or]
    refine ⟨ord.free id channel holds, ?_⟩
    rintro rfl
    exact (ord.apart _ rfl).2 id holds
  covered h' mem' := by
    rcases ord.covered h' mem' with inHand | answered | held
    · refine .inr (.inl ?_)
      rw [← Option.some.inj inHand]
      simp [Books.answer]
    · refine .inr (.inl ?_)
      simp only [Books.answer, List.map_append, List.mem_append]
      exact .inl answered
    · exact .inr (.inr held)
  apart channel eq := by simp at eq
  justified e he := by
    rcases List.mem_append.mp he with old | new
    · obtain ⟨h', mem', eq, just'⟩ := ord.justified e old
      exact ⟨h', mem', eq, just'.mono (List.Subset.refl _) (List.Subset.refl _)⟩
    · rw [List.mem_singleton.mp new]
      exact ⟨h, mem, rfl, just.mono (List.Subset.refl _) (List.Subset.refl _)⟩

/-- The channel in hand goes into the entry of a fresh query. -/
theorem InOrder.start {h : Handled} (ord : b.InOrder (some h.channel)) (mem : h ∈ b.handled)
    {id : QueryId} (fresh : ∀ s ∈ b.syncs, s.id ≠ id) {q : Query}
    (channel : q.responseChannel = h.channel) (cid : q.cid = h.cid) (peers : List PeerId) :
    (b.start id q peers).InOrder none where
  channels := ord.channels
  ids id' q' look := by
    by_cases eq : id' = id
    · subst eq
      obtain rfl : q = q' := by simpa [Books.start] using look
      refine ⟨⟨⟨peers, by simp [Books.start]⟩, ?_⟩, by simp [Books.start], h, mem, channel.symm,
        cid.symm⟩
      intro done
      obtain ⟨e, he, rfl⟩ := List.mem_map.mp done
      obtain ⟨s, hs, eq⟩ := ord.started e he
      exact fresh s hs eq
    · have look' : b.queries.lookup id' = some q' := by
        rwa [Books.start, AList.lookup_insert_ne eq] at look
      obtain ⟨⟨⟨ps, synced⟩, pending⟩, attempt, request⟩ := ord.ids id' q' look'
      exact ⟨⟨⟨ps, List.mem_append_left _ synced⟩, pending⟩, List.mem_append_left _ attempt,
        request⟩
  started e he := by
    obtain ⟨s, hs, eq⟩ := ord.started e he
    exact ⟨s, List.mem_append_left _ hs, eq⟩
  holder id₁ id₂ c h₁ h₂ := by
    have apart := ord.apart _ rfl
    rw [holds_start] at h₁ h₂
    split_ifs at h₁ h₂ with eq₁ eq₂ eq₂
    · rw [eq₁, eq₂]
    · exact absurd h₂ (h₁ ▸ channel ▸ apart.2 id₂)
    · exact absurd h₁ (h₂ ▸ channel ▸ apart.2 id₁)
    · exact ord.holder id₁ id₂ c h₁ h₂
  once := ord.once
  free id' c holds := by
    rw [holds_start] at holds
    split_ifs at holds with eq
    · exact holds ▸ channel ▸ (ord.apart _ rfl).1
    · exact ord.free id' c holds
  covered h' mem' := by
    rcases ord.covered h' mem' with inHand | answered | ⟨id', q', look, eq⟩
    · refine .inr (.inr ⟨id, (holds_start ..).mpr ?_⟩)
      rw [if_pos rfl, channel]
      exact Option.some.inj inHand
    · exact .inr (.inl answered)
    · -- Entries are only made under identifiers Bitswap has given out.
      have other : id' ≠ id := by
        rintro rfl
        obtain ⟨⟨⟨ps, synced⟩, -⟩, -⟩ := ord.ids id' q' look
        exact fresh _ synced rfl
      refine .inr (.inr ⟨id', (holds_start ..).mpr ?_⟩)
      rw [if_neg other]
      exact ⟨q', look, eq⟩
  apart c eq := by simp at eq
  justified e he := by
    obtain ⟨h', mem', eq, just⟩ := ord.justified e he
    exact ⟨h', mem', eq, just.mono (List.subset_append_left _ _) (List.Subset.refl _)⟩

end Books

end IpcAgent.Resolver
