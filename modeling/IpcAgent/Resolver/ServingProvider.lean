import IpcAgent.Library.Run
import IpcAgent.Resolver.Fallback

/-!
# One provider that serves is enough

Bitswap gets a block if one of the peers it is told to ask serves it. Which of the providers
serves it the service cannot know: it asks them in batches and only finds out which batch has
failed. A provider is dropped with a batch that has failed, so one that serves is never dropped,
and the request is answered with the block wherever this provider comes in the order.
-/

namespace IpcAgent.Resolver
open Library

namespace Books

/-- Every batch is still being tried, has brought the block, or has nobody in it who serves it. -/
structure Exhausts (serves : Cid → PeerId → Prop) (b : Books) : Prop where
  request : ∀ s ∈ b.syncs, ∀ a ∈ b.attempts, a.1 = s.id →
    ∃ h ∈ b.handled, h.channel = a.2.responseChannel ∧ h.cid = s.cid
  ended : ∀ s ∈ b.syncs, ∀ a ∈ b.attempts, a.1 = s.id →
    b.Holds s.id a.2.responseChannel ∨ (a.2.responseChannel, .ok ()) ∈ b.responses ∨
      ∀ p ∈ s.peers, ¬ serves s.cid p

/-- Nobody serves the block of a query whom Bitswap was told to ask. -/
def NoneServes (serves : Cid → PeerId → Prop) (b : Books) (id : QueryId) : Prop :=
  ∀ s ∈ b.syncs, s.id = id → ∀ p ∈ s.peers, ¬ serves s.cid p

variable {serves : Cid → PeerId → Prop} {b : Books}

theorem Exhausts.receive (exh : b.Exhausts serves) (h : Handled) :
    (b.receive h).Exhausts serves where
  request s hs a ha own := by
    obtain ⟨h', mem, same⟩ := exh.request s hs a ha own
    exact ⟨h', List.mem_append_left _ mem, same⟩
  ended := exh.ended

theorem Exhausts.answer (exh : b.Exhausts serves) (channel : ResponseChannel)
    (result : ResolveResult) : (b.answer channel result).Exhausts serves where
  request := exh.request
  ended s hs a ha own := by
    rcases exh.ended s hs a ha own with held | got | none
    · exact .inl held
    · exact .inr (.inl (List.mem_append_left _ got))
    · exact .inr (.inr none)

/-- An attempt and a batch go together only if they were made together. -/
theorem Exhausts.start (exh : b.Exhausts serves) (recorded : b.Recorded) {id : QueryId}
    (fresh : id ∉ b.syncs.map Sync.id) {q : Query} (peers : List PeerId) {h : Handled}
    (handled : h ∈ b.handled) (channel : h.channel = q.responseChannel) (cid : h.cid = q.cid) :
    (b.start id q peers).Exhausts serves := by
  have both : ∀ s ∈ (b.start id q peers).syncs, ∀ a ∈ (b.start id q peers).attempts,
      a.1 = s.id → s ∈ b.syncs ∧ a ∈ b.attempts ∧ s.id ≠ id ∨
        s = ⟨id, q.cid, peers⟩ ∧ a = (id, q) := by
    intro s hs a ha own
    rcases List.mem_append.mp hs with oldSync | newSync <;>
      rcases List.mem_append.mp ha with oldAttempt | newAttempt
    · exact .inl ⟨oldSync, oldAttempt, fun eq => fresh (List.mem_map.mpr ⟨s, oldSync, eq⟩)⟩
    · obtain rfl := List.mem_singleton.mp newAttempt
      exact absurd (List.mem_map.mpr ⟨s, oldSync, own.symm⟩) fresh
    · obtain rfl := List.mem_singleton.mp newSync
      have made := (recorded a oldAttempt).1
      rw [own] at made
      exact absurd made fresh
    · exact .inr ⟨List.mem_singleton.mp newSync, List.mem_singleton.mp newAttempt⟩
  refine ⟨fun s hs a ha own => ?_, fun s hs a ha own => ?_⟩
  · rcases both s hs a ha own with ⟨hs, ha, -⟩ | ⟨rfl, rfl⟩
    · exact exh.request s hs a ha own
    · exact ⟨h, handled, channel, cid⟩
  · rcases both s hs a ha own with ⟨hs, ha, other⟩ | ⟨rfl, rfl⟩
    · rw [holds_start, if_neg other]
      exact exh.ended s hs a ha own
    · exact .inl ((holds_start ..).mpr (by rw [if_pos rfl]))

/-- A query that nobody waits for makes no difference when it ends. -/
theorem Exhausts.take_unheld (exh : b.Exhausts serves) {id : QueryId}
    (unheld : ∀ channel, ¬ b.Holds id channel) (result : Except String Unit) :
    (b.take id result).Exhausts serves where
  request := exh.request
  ended s hs a ha own := by
    rcases exh.ended s hs a ha own with held | rest
    · have other : s.id ≠ id := fun eq => unheld _ (eq ▸ held)
      exact .inl ((holds_take ..).mpr ⟨other, held⟩)
    · exact .inr rest

theorem Exhausts.take_failed (exh : b.Exhausts serves) {id : QueryId}
    (none : b.NoneServes serves id) (e : String) :
    (b.take id (.error e)).Exhausts serves where
  request := exh.request
  ended s hs a ha own := by
    by_cases same : s.id = id
    · exact .inr (.inr (none s hs same))
    · rcases exh.ended s hs a ha own with held | rest
      · exact .inl ((holds_take ..).mpr ⟨same, held⟩)
      · exact .inr rest

/-- The query that was waited for has brought the block. -/
theorem Exhausts.take_resolved (exh : b.Exhausts serves) {id : QueryId} {q : Query}
    (entry : b.queries.lookup id = some q) :
    ((b.take id (.ok ())).answer q.responseChannel (.ok ())).Exhausts serves where
  request := exh.request
  ended s hs a ha own := by
    rcases exh.ended s hs a ha own with held | got | none
    · by_cases same : s.id = id
      · obtain ⟨q', entry', channel⟩ := held
        rw [same, entry] at entry'
        obtain rfl := Option.some.inj entry'
        exact .inr (.inl (by simp [Books.answer, channel]))
      · exact .inl ((holds_take b id s.id (.ok ()) _).mpr ⟨same, held⟩)
    · exact .inr (.inl (List.mem_append_left _ got))
    · exact .inr (.inr none)

end Books

namespace World

variable {serves : Cid → PeerId → Prop}

/-- Bitswap does not fail to get a block from peers of which one serves it. -/
def Supplied (serves : Cid → PeerId → Prop) (w : World) :
    Membership.Moment × Service.Input → Prop
  | (_, .complete ended _ (.error _)) => w.books.NoneServes serves ended
  | _ => True

instance [∀ cid, DecidablePred (serves cid)] (w : World) :
    (i : Membership.Moment × Service.Input) → Decidable (w.Supplied serves i)
  | (_, .complete _ _ (.error _)) => inferInstanceAs (Decidable (∀ s ∈ w.books.syncs, _))
  | (_, .complete _ _ (.ok _)) => .isTrue trivial
  | (_, .resolve _ _ _ _ _ _) | (_, .pollDiscovery _ _) | (_, .pollMembership _ _)
  | (_, .identified _ _) | (_, .request _) => .isTrue trivial

theorem Moved.exhausts {w : World} {m : Membership.Moment} {i : Service.Input} {b : Books}
    (moved : w.Moved i b) (ord : w.books.InOrder none) (recorded : w.books.Recorded)
    (allowed : w.Allows i) (supplied : w.Supplied serves (m, i))
    (exh : w.books.Exhausts serves) : b.Exhausts serves := by
  cases moved with
  | quiet => exact exh
  | unknown => exact (exh.receive _).answer _ _
  | @first _ _ _ cid subnet channel now later =>
    exact (exh.receive (w.handling cid subnet channel)).start (q := ⟨cid, subnet, later, channel⟩)
      (recorded.receive _) allowed.1 now (List.mem_append_right _ (List.mem_singleton_self _)) rfl
      rfl
  | unawaited entry =>
    refine exh.take_unheld (fun channel held => ?_) _
    obtain ⟨q, entry', -⟩ := held
    cases entry.symm.trans entry'
  | resolved entry => exact exh.take_resolved entry
  | failed => exact (exh.take_failed supplied _).answer _ _
  | @further ended _ q e _ _ entry =>
    obtain ⟨-, -, h, handled, channel, cid⟩ := ord.ids ended q entry
    exact (exh.take_failed supplied e).start (b := w.books.take ended (.error e)) recorded
      allowed.2.2 _ handled channel cid

theorem exhausts_run {env : Service.Env} {w : World}
    {inputs : List (Membership.Moment × Service.Input)} (ord : w.books.InOrder none)
    (recorded : w.books.Recorded) (exh : w.books.Exhausts serves)
    (allowed : w.AllowsRun env inputs) (supplied : Along (step env) (Supplied serves) w inputs) :
    (w.run env inputs).books.Exhausts serves := by
  induction inputs generalizing w with
  | nil => exact exh
  | cons i inputs ih =>
    have moved := moved_step ord env i.1 i.2 allowed.1
    exact ih (moved.inOrder ord allowed.1) (moved.recorded ord recorded)
      (moved.exhausts ord recorded allowed.1 supplied.1 exh) allowed.2 supplied.2

theorem exhausts_start (discovery : Discovery.Behaviour) (membership : Membership.Behaviour)
    (maxPeersPerQuery : Nat) :
    (start (.new discovery membership maxPeersPerQuery)).books.Exhausts serves := by
  constructor <;> simp [start, books, Service.new]

/-- If a batch with this provider was among those of a request that was answered with an error,
the provider does not serve the block. -/
theorem not_serves_of_failed {w : World} (ord : w.books.InOrder none)
    (exh : w.books.Exhausts serves) {h : Handled} (handled : h ∈ w.handled) {e : ResolveError}
    (failed : (h.channel, .error e) ∈ w.service.responses) {p : PeerId}
    (tried : p ∈ (w.books.batches h.channel).flatten) : ¬ serves h.cid p := by
  obtain ⟨batch, mem, queried⟩ := List.mem_flatten.mp tried
  obtain ⟨s, found, rfl⟩ := List.mem_map.mp mem
  obtain ⟨hs, own⟩ := List.mem_filter.mp found
  obtain ⟨a, ha, same⟩ := List.any_eq_true.mp own
  obtain ⟨sameId, channel⟩ := of_decide_eq_true same
  have answered : h.channel ∈ w.books.responses.map Prod.fst := List.mem_map.mpr ⟨_, failed, rfl⟩
  obtain ⟨h', handled', channel', cid⟩ := exh.request s hs a ha sameId
  obtain rfl : h' = h :=
    List.inj_on_of_nodup_map ord.channels handled' handled (channel'.trans channel)
  rcases exh.ended s hs a ha sameId with held | got | none
  · exact absurd answered (ord.free _ _ (channel ▸ held))
  · -- There is only one answer, and that is the error.
    rw [channel] at got
    cases List.inj_on_of_nodup_map ord.once got failed rfl
  · exact cid ▸ none p queried

/-- If one of the providers known when a request is handled serves the block, the request is not
answered with an error, whatever the other providers do and however the known ones change; once
its attempts have ended, of which there are no more than providers, it is answered with the
block. -/
theorem one_provider_suffices (serves : Cid → PeerId → Prop) (env : Service.Env)
    (discovery : Discovery.Behaviour) (membership : Membership.Behaviour) (maxPeersPerQuery : Nat)
    (pos : 0 < maxPeersPerQuery) (before after : List (Membership.Moment × Service.Input))
    (m : Membership.Moment) (shuffle : SetOrder PeerId) (isConnected : PeerId → Bool)
    (id : QueryId) (cid : Cid) (subnet : SubnetID) (channel : ResponseChannel)
    (allowed : (start (.new discovery membership maxPeersPerQuery)).AllowsRun env
      (before ++ (m, .resolve shuffle isConnected id cid subnet channel) :: after))
    (supplied : Along (step env) (Supplied serves)
      (start (.new discovery membership maxPeersPerQuery))
      (before ++ (m, .resolve shuffle isConnected id cid subnet channel) :: after))
    (p : PeerId) (provider : p ∈ ((start (.new discovery membership maxPeersPerQuery)).run env
      before).service.membership.providersOfSubnet subnet) (serving : serves cid p) :
    let w₀ := (start (.new discovery membership maxPeersPerQuery)).run env before
    let w := w₀.run env ((m, .resolve shuffle isConnected id cid subnet channel) :: after)
    (∀ e, (channel, .error e) ∉ w.service.responses) ∧
    (w.books.batches channel).length ≤ (w₀.service.membership.providersOfSubnet subnet).card ∧
    ((∀ a ∈ w.attempts, a.2.responseChannel = channel → a.1 ∈ w.completed.map Prod.fst) →
      (channel, .ok ()) ∈ w.service.responses) := by
  intro w₀ w
  have prog := progress_of_handled discovery membership maxPeersPerQuery before after m shuffle
    isConnected id cid subnet channel allowed
  have whole : w = (start (.new discovery membership maxPeersPerQuery)).run env
      (before ++ (m, .resolve shuffle isConnected id cid subnet channel) :: after) :=
    (List.foldl_append ..).symm
  have fresh := inOrder_start discovery membership maxPeersPerQuery
  have ord : w.books.InOrder none := whole ▸ inOrder_run fresh env _ allowed
  have exh : w.books.Exhausts serves := whole ▸ exhausts_run fresh
    (by simp [Books.Recorded, start, books]) (exhausts_start ..) allowed supplied
  have handled : w₀.handling cid subnet channel ∈ w.handled :=
    handled_run after (handled_resolve m shuffle isConnected id cid subnet channel)
  have noError : ∀ e, (channel, .error e) ∉ w.service.responses := by
    intro e failed
    have all : (w.books.batches channel).flatten = _ := prog.failed e failed
    have tried : p ∈ (w.books.batches channel).flatten := by
      rw [all, ← Multiset.mem_coe, coe_queryOrder]
      exact provider
    exact not_serves_of_failed ord exh handled failed tried serving
  refine ⟨noError, ?_, fun ended => ?_⟩
  · calc (w.books.batches channel).length
        ≤ (w.books.batches channel).flatten.length :=
          length_le_length_flatten fun batch mem => (prog.sized batch mem).2 pos
      _ ≤ (queryOrder shuffle isConnected _).length := prog.tried.length_le
      _ = _ := by rw [← Multiset.coe_card, coe_queryOrder, Finset.card_val]
  · rcases (ord.covered _ handled).resolve_left (by simp) with answered | ⟨id, q, entry, own⟩
    · obtain ⟨⟨_, result⟩, mem, rfl⟩ := List.mem_map.mp answered
      cases result with
      | ok r => exact mem
      | error e => exact absurd mem (noError e)
    · -- The attempt it waits for has not ended.
      obtain ⟨running, attempt, -⟩ := ord.ids id q entry
      exact absurd (ended (id, q) attempt own) running.2

/-- The provider with a connection is asked first and fails, the other one serves the block. -/
theorem one_provider_suffices_second :
    let known : PeerId := ⟨[1]⟩
    let connected : PeerId := ⟨[2]⟩
    let subnet : SubnetID := ⟨"/root/t01"⟩
    let env : Service.Env := ⟨fun _ _ => true, ⟨id, fun _ => none, fun _ => none⟩, fun _ _ => true⟩
    let w := (start (.new quietDiscovery (providedBy [known, connected] subnet) 1)).run env
      [(⟨2, .plain⟩, .resolve .byBytes (fun p => p = connected) ⟨0⟩ ⟨[7]⟩ subnet ⟨0⟩),
        (⟨3, .plain⟩, .complete ⟨0⟩ ⟨1⟩ (.error "not found")),
        (⟨4, .plain⟩, .complete ⟨1⟩ ⟨2⟩ (.ok ()))]
    w.books.batches ⟨0⟩ = [[connected], [known]] ∧ (⟨0⟩, .ok ()) ∈ w.service.responses := by
  intro known connected subnet env w
  obtain ⟨-, -, answered⟩ := one_provider_suffices (fun _ p => p = known) env quietDiscovery
    (providedBy [known, connected] subnet) 1 (by decide) []
    [(⟨3, .plain⟩, .complete ⟨0⟩ ⟨1⟩ (.error "not found")),
      (⟨4, .plain⟩, .complete ⟨1⟩ ⟨2⟩ (.ok ()))]
    ⟨2, .plain⟩ .byBytes (fun p => p = connected) ⟨0⟩ ⟨[7]⟩ subnet ⟨0⟩ (by decide +kernel)
    (by decide +kernel) known (by decide +kernel) rfl
  exact ⟨by decide +kernel, answered (by decide +kernel)⟩

end World

end IpcAgent.Resolver
