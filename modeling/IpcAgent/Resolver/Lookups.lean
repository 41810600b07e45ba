import IpcAgent.Library.Backoff
import IpcAgent.Library.Run
import IpcAgent.Resolver.Service

/-!
# Looking for peers

There are two reasons for a node to ask Kademlia for the peers closest to one: it has fewer
connections than it would like and looks around at random, or it has heard of a provider whose
address it does not know. The first kind comes from a timer that backs off, the second kind is
held back by a Bloom filter of the peers that were looked up before.
-/

namespace IpcAgent.Resolver
open Library

namespace Discovery

def KadCall.isLookup : KadCall → Bool
  | .getClosestPeers _ => true
  | _ => false

namespace Behaviour

/-- How often the peers closest to one were asked for. -/
def lookups (b : Behaviour) : Nat := (b.inner.getD []).countP KadCall.isLookup

/-- What matters for the random lookups has stayed the same. -/
structure SameSearch (b b' : Behaviour) : Prop where
  lookups : b'.lookups = b.lookups
  period : b'.lookupPeriod = b.lookupPeriod

variable {b b' b'' : Behaviour}

theorem SameSearch.refl (b : Behaviour) : SameSearch b b := ⟨rfl, rfl⟩

theorem SameSearch.trans (same : SameSearch b b') (same' : SameSearch b' b'') : SameSearch b b'' :=
  ⟨same'.lookups.trans same.lookups, same'.period.trans same.period⟩

theorem sameSearch_foldl {α : Type} {f : Behaviour → α → Behaviour}
    (same : ∀ b a, SameSearch b (f b a)) (l : List α) (b : Behaviour) :
    SameSearch b (l.foldl f b) := by
  induction l generalizing b with
  | nil => exact .refl b
  | cons a l ih => exact (same b a).trans (ih (f b a))

theorem lookups_ask (b : Behaviour) (call : KadCall) :
    (b.ask call).lookups = b.lookups + if b.inner.isSome ∧ call.isLookup then 1 else 0 := by
  unfold lookups ask
  cases b.inner with
  | none => simp
  | some calls =>
    simp only [Option.map_some, Option.getD_some, List.countP_append, List.countP_singleton,
      Option.isSome_some, true_and]

theorem lookups_ask_le (b : Behaviour) (call : KadCall) : (b.ask call).lookups ≤ b.lookups + 1 := by
  rw [lookups_ask]
  split <;> omega

theorem sameSearch_ask (b : Behaviour) {call : KadCall} (other : call.isLookup = false) :
    SameSearch b (b.ask call) :=
  ⟨by simp [lookups_ask, other], rfl⟩

theorem sameSearch_addIdentified (b : Behaviour) (p : PeerId) (info : Info) :
    SameSearch b (b.addIdentified p info) := by
  unfold addIdentified
  split
  · split
    · split <;> exact ⟨rfl, rfl⟩
    · exact sameSearch_foldl (fun b addr => sameSearch_ask b rfl) _ b
  · exact .refl b

theorem sameSearch_handleKademliaEvent (b : Behaviour) (e : KademliaEvent) :
    SameSearch b (b.handleKademliaEvent e) := by
  unfold handleKademliaEvent
  split
  · exact .refl b
  · exact .refl b
  · split
    · have released : SameSearch b { b with bootstrapBuffer := none } := ⟨rfl, rfl⟩
      exact released.trans (sameSearch_foldl (fun b (r : PeerId × Info) =>
        sameSearch_addIdentified b r.1 r.2) _ _)
    · exact .refl b
  · exact .refl b
  · exact .refl b
  · exact ⟨rfl, rfl⟩
  · split
    · split <;> exact ⟨rfl, rfl⟩
    · exact ⟨rfl, rfl⟩

theorem sameSearch_pollKademlia (ready : List KadAction) (b : Behaviour) :
    SameSearch b (pollKademlia ready b).1 := by
  induction ready generalizing b with
  | nil => exact .refl b
  | cons action ready ih =>
    cases action with
    | generateEvent e => exact (sameSearch_handleKademliaEvent b e).trans (ih _)
    | other => exact .refl b

theorem sameSearch_onSwarmEvent (b : Behaviour) (e : FromSwarm) :
    SameSearch b (b.onSwarmEvent e) := by
  unfold onSwarmEvent
  split
  · split <;> exact ⟨rfl, rfl⟩
  · split <;> exact ⟨rfl, rfl⟩
  · exact .refl b

/-- A tick makes one lookup, if connections and Kademlia are wanting and working. -/
theorem lookups_tick (b : Behaviour) (random : PeerId) :
    (b.tick random).lookups = b.lookups +
      if b.inner.isSome ∧ b.numConnections < b.targetConnections then 1 else 0 := by
  unfold tick
  by_cases short : b.numConnections < b.targetConnections
  · simp only [short, if_true, and_true]
    exact (lookups_ask b _).trans (by simp [KadCall.isLookup])
  · simp only [short, if_false, and_false]
    rfl

theorem lookupPeriod_tick (b : Behaviour) (random : PeerId) :
    (b.tick random).lookupPeriod = min (b.lookupPeriod * 2) 60 := by
  unfold tick
  simp only
  split <;> rfl

theorem poll_of_outbox {e : Event} {outbox : List Event} (some : b.outbox = e :: outbox)
    (ticked : Option PeerId) (ready : List KadAction) :
    SameSearch b (b.poll ticked ready).behaviour := by
  unfold poll
  rw [some]
  exact ⟨rfl, rfl⟩

theorem poll_of_empty (empty : b.outbox = []) (ticked : Option PeerId) (ready : List KadAction) :
    SameSearch (ticked.elim b b.tick) (b.poll ticked ready).behaviour := by
  unfold poll
  rw [empty]
  cases ticked <;> exact sameSearch_pollKademlia _ _

end Behaviour

theorem lookupPeriod_new {fromMultihash : List UInt8 → Option PeerId} {bootstraps : Bool}
    {nc : NetworkConfig} {dc : Config} {b : Behaviour}
    (built : new fromMultihash bootstraps nc dc = .ok b) : b.lookupPeriod = 1 := by
  unfold new at built
  simp only [bind, Except.bind, pure, Except.pure, throw, throwThe, MonadExceptOf.throw] at built
  repeat' split at built
  all_goals cases built <;> rfl

end Discovery

/-! ## The service and its clock -/

/-- The service, with the time of its last step and the next tick of the lookup timer. -/
structure Timed where
  service : Service
  now : Nat
  deadline : Nat

namespace Timed

/-- What can happen: a step of the service, or a connection is opened or closed. -/
inductive Input
  | service (i : Service.Input)
  | swarm (e : Discovery.FromSwarm)

/-- The first tick of an interval is due at once. -/
def start (now : Nat) (s : Service) : Timed := ⟨s, now, now⟩

/-- The timer is only looked at when there is nothing to report. -/
def ticks (t : Timed) : Service.Input → Bool
  | .pollDiscovery (some _) _ => t.service.discovery.outbox.isEmpty
  | _ => false

/-- After a tick there is a new timer with the new period, whose first tick is put off. -/
def step (env : Service.Env) (t : Timed) : Membership.Moment × Input → Timed
  | (m, .service i) =>
    let service := t.service.step env (m, i)
    ⟨service, m.now, if t.ticks i then m.now + service.discovery.lookupPeriod else t.deadline⟩
  | (m, .swarm e) =>
    ⟨{ t.service with discovery := t.service.discovery.onSwarmEvent e }, m.now, t.deadline⟩

/-- Time does not go back, and a poll finds the timer due from its deadline on. -/
def Timely (t : Timed) : Membership.Moment × Input → Prop
  | (m, .service (.pollDiscovery ticked _)) =>
    t.now ≤ m.now ∧ (ticked.isSome ↔ t.deadline ≤ m.now)
  | (m, _) => t.now ≤ m.now

instance (t : Timed) (i : Membership.Moment × Input) : Decidable (t.Timely i) := by
  unfold Timely
  split <;> infer_instance

def lookups (t : Timed) : Nat := t.service.discovery.lookups

/-- The peers that were looked up for a record of theirs, or taken to be. -/
def filtered (t : Timed) : Finset PeerId := t.service.backgroundLookupFilter

def timer (t : Timed) : Backoff := ⟨t.service.discovery.lookupPeriod, t.deadline⟩

/-- There are as many connections as wanted. -/
def Satisfied (t : Timed) : Prop :=
  t.service.discovery.targetConnections ≤ t.service.discovery.numConnections

instance (t : Timed) : Decidable t.Satisfied := inferInstanceAs (Decidable (_ ≤ _))

variable {env : Service.Env} {t t' : Timed}

/-- What a step can do to the lookups and the timer. -/
inductive Looked (t t' : Timed) : Prop
  | quiet (lookups : t'.lookups = t.lookups) (filtered : t.filtered.card ≤ t'.filtered.card)
      (timer : t'.timer = t.timer)
  | skipped (lookups : t'.lookups ≤ t.lookups + 1)
      (filtered : t.filtered.card < t'.filtered.card) (timer : t'.timer = t.timer)
  | tick (due : t.deadline ≤ t'.now) (lookups : t'.lookups ≤ t.lookups + 1)
      (none : t.Satisfied → t'.lookups = t.lookups) (filtered : t'.filtered = t.filtered)
      (timer : t'.timer = t.timer.tick 60 t'.now)

theorem Timely.le {i : Membership.Moment × Input} (timely : t.Timely i) : t.now ≤ i.1.now := by
  unfold Timely at timely
  split at timely
  · exact timely.1
  · exact timely

theorem now_step (env : Service.Env) (t : Timed) (i : Membership.Moment × Input) :
    (t.step env i).now = i.1.now := by
  obtain ⟨m, i⟩ := i
  cases i <;> rfl

theorem discovery_pollDiscovery (env : Service.Env) (s : Service) (m : Membership.Moment)
    (ticked : Option PeerId) (ready : List Discovery.KadAction) :
    (s.step env (m, .pollDiscovery ticked ready)).discovery =
        (s.discovery.poll ticked ready).behaviour ∧
      (s.step env (m, .pollDiscovery ticked ready)).backgroundLookupFilter =
        s.backgroundLookupFilter := by
  simp only [Service.step]
  split <;> exact ⟨rfl, rfl⟩

theorem looked_of_sameSearch
    (same : t.service.discovery.SameSearch t'.service.discovery)
    (filtered : t.filtered ⊆ t'.filtered) (deadline : t'.deadline = t.deadline) : t.Looked t' := by
  refine .quiet same.lookups (Finset.card_le_card filtered) ?_
  rw [timer, timer, same.period, deadline]

/-- A tick makes one lookup, or none if Kademlia is disabled or there are enough connections. -/
theorem lookups_ticked (m : Membership.Moment) (random : PeerId)
    (ready : List Discovery.KadAction) (empty : t.service.discovery.outbox = []) :
    (t.step env (m, .service (.pollDiscovery (some random) ready))).lookups = t.lookups +
      if t.service.discovery.inner.isSome ∧
        t.service.discovery.numConnections < t.service.discovery.targetConnections
      then 1 else 0 := by
  have same := Discovery.Behaviour.poll_of_empty empty (some random) ready
  rw [← (discovery_pollDiscovery env t.service m (some random) ready).1] at same
  exact same.lookups.trans (Discovery.Behaviour.lookups_tick _ random)

theorem looked_pollDiscovery (m : Membership.Moment) (ticked : Option PeerId)
    (ready : List Discovery.KadAction)
    (timely : t.Timely (m, .service (.pollDiscovery ticked ready))) :
    t.Looked (t.step env (m, .service (.pollDiscovery ticked ready))) := by
  obtain ⟨polled, filter⟩ := discovery_pollDiscovery env t.service m ticked ready
  cases outbox : t.service.discovery.outbox with
  | cons e rest =>
    refine looked_of_sameSearch ?_ filter.ge ?_
    · exact polled ▸ Discovery.Behaviour.poll_of_outbox outbox ticked ready
    · cases ticked <;> simp [step, ticks, outbox]
  | nil =>
    have same := Discovery.Behaviour.poll_of_empty outbox ticked ready
    rw [← polled] at same
    cases ticked with
    | none => exact looked_of_sameSearch same filter.ge rfl
    | some random =>
      have period := same.period.trans (Discovery.Behaviour.lookupPeriod_tick _ random)
      refine .tick (timely.2.mp rfl) ?_ (fun satisfied => ?_) filter ?_
      · rw [lookups_ticked m random ready outbox]
        split <;> omega
      · rw [lookups_ticked m random ready outbox,
          if_neg fun short => Nat.not_lt.mpr satisfied short.2, Nat.add_zero]
      · simp only [timer, step, ticks, outbox, List.isEmpty_nil, if_true, period, Backoff.tick]

/-- A peer that is skipped is looked up only if the filter has not seen it. -/
theorem looked_handleMembershipEvent (honest : ∀ filter p, env.isNew filter p = true → p ∉ filter)
    (t' : Timed) (known : List Multiaddr) (e : Membership.Event)
    (discovery : t.service.discovery = t'.service.discovery) (filter : t.filtered = t'.filtered)
    (deadline : t.deadline = t'.deadline) :
    t.Looked { t' with service := t'.service.handleMembershipEvent env.isNew known e } := by
  cases e with
  | skipped peer =>
    simp only [Service.handleMembershipEvent]
    split
    · rename_i fresh
      have new : peer ∉ t'.filtered := honest _ _ fresh
      refine .skipped ?_ ?_ ?_
      · change Discovery.Behaviour.lookups _ ≤ Discovery.Behaviour.lookups _ + 1
        rw [discovery, Discovery.Behaviour.backgroundLookup]
        split
        · exact Discovery.Behaviour.lookups_ask_le _ _
        · exact Nat.le_succ _
      · rw [filter]
        exact (Nat.lt_succ_self _).trans_eq (Finset.card_insert_of_notMem new).symm
      · simp only [timer, Discovery.Behaviour.backgroundLookup, discovery, deadline]
        split <;> rfl
    · refine looked_of_sameSearch ?_ (filter ▸ Finset.subset_insert peer _) deadline.symm
      exact discovery ▸ .refl _
  | _ => exact looked_of_sameSearch (discovery ▸ .refl _) filter.le deadline.symm

theorem looked_step (honest : ∀ filter p, env.isNew filter p = true → p ∉ filter)
    {i : Membership.Moment × Input} (timely : t.Timely i) : t.Looked (t.step env i) := by
  obtain ⟨m, i⟩ := i
  cases i with
  | swarm e =>
    exact looked_of_sameSearch (Discovery.Behaviour.sameSearch_onSwarmEvent _ e) subset_rfl rfl
  | service i =>
    cases i with
    | pollDiscovery ticked ready => exact looked_pollDiscovery m ticked ready timely
    | pollMembership ready known =>
      simp only [step, Service.step, ticks]
      split
      · rename_i e _
        exact looked_handleMembershipEvent honest ⟨{ t.service with
          membership := (t.service.membership.poll env.ok env.codec m ready).1 }, m.now,
          t.deadline⟩ known e rfl rfl rfl
      · exact .quiet rfl le_rfl rfl
    | identified p info =>
      exact looked_of_sameSearch (Discovery.Behaviour.sameSearch_addIdentified _ p info) subset_rfl
        rfl
    | complete ended next result =>
      simp only [step, Service.step, Service.handleComplete, Service.resolveQuery]
      split
      · split
        · exact .quiet rfl le_rfl rfl
        · split <;> exact .quiet rfl le_rfl rfl
      · exact .quiet rfl le_rfl rfl
    | resolve shuffle isConnected id cid subnet channel =>
      simp only [step, Service.step, Service.startQuery]
      split <;> exact .quiet rfl le_rfl rfl
    | request r => exact .quiet rfl le_rfl rfl

/-! ## Runs -/

/-- The timer is never further away than the longest period. -/
structure Wound (t : Timed) : Prop where
  pos : 0 < t.timer.period
  near : t.deadline ≤ t.now + 60

theorem Looked.wound (looked : t.Looked t') (later : t.now ≤ t'.now) (wound : t.Wound) :
    t'.Wound := by
  have same : t'.timer = t.timer → t'.Wound := by
    intro timer
    have deadline : t'.deadline = t.deadline := congrArg Backoff.deadline timer
    refine ⟨timer ▸ wound.pos, ?_⟩
    have near := wound.near
    omega
  cases looked with
  | quiet _ _ timer => exact same timer
  | skipped _ _ timer => exact same timer
  | tick _ _ _ _ timer =>
    have deadline : t'.deadline = t'.now + min (t.timer.period * 2) 60 :=
      congrArg Backoff.deadline timer
    have pos := wound.pos
    refine ⟨?_, by omega⟩
    rw [timer, Backoff.tick]
    exact Nat.lt_min.mpr ⟨by omega, by decide⟩

/-- The lookups since `t₀`: as many as ticks, and one for each new peer in the filter. -/
structure Since (t₀ : Timed) (n : Nat) (t : Timed) : Prop where
  window : Window 60 t₀.now n t.now t.timer
  filtered : t₀.filtered.card ≤ t.filtered.card
  lookups : t.lookups + t₀.filtered.card ≤ t₀.lookups + n + t.filtered.card

theorem Looked.since {t₀ : Timed} {n : Nat} (looked : t.Looked t') (later : t.now ≤ t'.now)
    (since : t₀.Since n t) : ∃ n', t₀.Since n' t' := by
  have count := since.lookups
  have before := since.filtered
  cases looked with
  | quiet lookups filtered timer =>
    exact ⟨n, timer ▸ since.window.wait later, by omega, by omega⟩
  | skipped lookups filtered timer =>
    exact ⟨n, timer ▸ since.window.wait later, by omega, by omega⟩
  | tick due lookups none filtered timer =>
    refine ⟨n + 1, timer ▸ since.window.tick later due, ?_, ?_⟩ <;> rw [filtered]
    · exact before
    · omega

/-- The sixth tick is no less than 62 seconds after the first, and each further one takes
another 60. -/
theorem ticks_le {start n now : Nat} {b : Backoff} (window : Window 60 start n now b) :
    n ≤ 5 + (now - start) / 60 := by
  rcases Nat.lt_or_ge n 6 with few | many
  · omega
  · obtain ⟨k, rfl⟩ := Nat.exists_eq_add_of_le many
    have elapsed := window.elapsed
    have waits : waited 60 5 + 60 * k ≤ waited 60 (5 + k) := waited_add_le (by decide) k
    rw [show waited 60 5 = 62 from rfl] at waits
    rw [show 6 + k - 1 = 5 + k by omega] at elapsed
    omega

section Runs

variable (honest : ∀ filter p, env.isNew filter p = true → p ∉ filter)
  {inputs : List (Membership.Moment × Input)}

include honest

theorem wound_run (wound : t.Wound) (timely : Along (step env) Timely t inputs) :
    (inputs.foldl (step env) t).Wound := by
  have keep : ∀ t i, Timely t i → t.Wound → (t.step env i).Wound := fun t i timely wound =>
    (looked_step honest timely).wound (now_step env t i ▸ timely.le) wound
  exact timely.foldl keep wound

theorem since_run (wound : t.Wound) (timely : Along (step env) Timely t inputs) :
    ∃ n, t.Since n (inputs.foldl (step env) t) := by
  have keep : ∀ t' i, Timely t' i → (∃ n, t.Since n t') → ∃ n, t.Since n (t'.step env i) :=
    fun t' i timely ⟨_, since⟩ =>
      (looked_step honest timely).since (now_step env t' i ▸ timely.le) since
  exact timely.foldl keep ⟨0, window_start wound.pos, le_rfl, le_rfl⟩

/-- With enough connections there are no lookups but for new peers in the filter. -/
theorem lookups_satisfied (timely : Along (step env) Timely t inputs)
    (satisfied : Along (step env) (fun t _ => t.Satisfied) t inputs) :
    (inputs.foldl (step env) t).lookups + t.filtered.card ≤
      t.lookups + (inputs.foldl (step env) t).filtered.card := by
  have keep : ∀ t' i, Timely t' i ∧ t'.Satisfied →
      t'.lookups + t.filtered.card ≤ t.lookups + t'.filtered.card →
      (t'.step env i).lookups + t.filtered.card ≤ t.lookups + (t'.step env i).filtered.card := by
    intro t' i ⟨timely, satisfied⟩ before
    cases looked_step honest timely with
    | quiet lookups filtered => omega
    | skipped lookups filtered => omega
    | tick _ _ none filtered =>
      rw [none satisfied, filtered]
      exact before
  exact (along_and.mpr ⟨timely, satisfied⟩).foldl keep le_rfl

end Runs

theorem wound_start {fromMultihash : List UInt8 → Option PeerId} {bootstraps : Bool}
    {nc : NetworkConfig} {dc : Discovery.Config} {discovery : Discovery.Behaviour}
    (built : Discovery.new fromMultihash bootstraps nc dc = .ok discovery)
    (membership : Membership.Behaviour) (maxPeersPerQuery now : Nat) :
    (start now (.new discovery membership maxPeersPerQuery)).Wound := by
  have period : discovery.lookupPeriod = 1 := Discovery.lookupPeriod_new built
  refine ⟨?_, Nat.le_add_right now 60⟩
  change 0 < discovery.lookupPeriod
  omega

/-- In any window of time, the node asks for closest peers no more often than five times, once
for each full minute and once for each peer that is new to its filter; while it has enough
connections, only for these peers. A minute after its last step it looks for a random peer
again, unless it has enough connections by then or something to report first. -/
theorem lookups_paced (fromMultihash : List UInt8 → Option PeerId) (bootstraps : Bool)
    (nc : NetworkConfig) (dc : Discovery.Config) (discovery : Discovery.Behaviour)
    (built : Discovery.new fromMultihash bootstraps nc dc = .ok discovery)
    (membership : Membership.Behaviour) (maxPeersPerQuery now : Nat) (env : Service.Env)
    (honest : ∀ filter p, env.isNew filter p = true → p ∉ filter)
    (before after : List (Membership.Moment × Input))
    (timely : Along (step env) Timely (start now (.new discovery membership maxPeersPerQuery))
      (before ++ after)) :
    let t₀ := before.foldl (step env) (start now (.new discovery membership maxPeersPerQuery))
    let t := after.foldl (step env) t₀
    t.lookups ≤ t₀.lookups + (5 + (t.now - t₀.now) / 60) + (t.filtered.card - t₀.filtered.card) ∧
    (Along (step env) (fun t _ => t.Satisfied) t₀ after →
      t.lookups ≤ t₀.lookups + (t.filtered.card - t₀.filtered.card)) ∧
    ∀ m ticked ready, t.Timely (m, .service (.pollDiscovery ticked ready)) →
      t.now + 60 ≤ m.now → t.service.discovery.outbox = [] → t.service.discovery.inner.isSome →
      ¬ t.Satisfied →
      (t.step env (m, .service (.pollDiscovery ticked ready))).lookups = t.lookups + 1 := by
  intro t₀ t
  obtain ⟨timely₀, timely⟩ := along_append.mp timely
  have wound₀ : t₀.Wound :=
    wound_run honest (wound_start built membership maxPeersPerQuery now) timely₀
  obtain ⟨n, since⟩ := since_run honest wound₀ timely
  have few : n ≤ 5 + (t.now - t₀.now) / 60 := ticks_le since.window
  have more : t₀.filtered.card ≤ t.filtered.card := since.filtered
  refine ⟨?_, fun satisfied => ?_, ?_⟩
  · have count : t.lookups + t₀.filtered.card ≤ t₀.lookups + n + t.filtered.card := since.lookups
    omega
  · have count : t.lookups + t₀.filtered.card ≤ t₀.lookups + t.filtered.card :=
      lookups_satisfied honest timely satisfied
    omega
  · intro m ticked ready timely' late empty enabled short
    have near := (wound_run honest wound₀ timely).near
    obtain ⟨random, rfl⟩ := Option.isSome_iff_exists.mp
      (timely'.2.mpr (Nat.le_trans near late))
    rw [lookups_ticked m random ready empty, if_pos ⟨enabled, Nat.not_le.mp short⟩]

/-- Two ticks, of which the second is noticed late, and one that has to wait. -/
theorem lookups_paced_alone :
    ∃ t : Timed, t.lookups = 2 ∧ t.now = 5 ∧ ∀ m ticked ready,
      t.Timely (m, .service (.pollDiscovery ticked ready)) → t.now + 60 ≤ m.now →
      (t.step ⟨fun _ _ => true, ⟨id, fun _ => none, fun _ => none⟩, fun filter p => p ∉ filter⟩
        (m, .service (.pollDiscovery ticked ready))).lookups = 3 := by
  have paced := lookups_paced (fun mh => some ⟨mh⟩) true ⟨⟨[0]⟩, "net"⟩ ⟨[], 10, true⟩ _ rfl
    (Membership.initial 0 ⟨⟨[0]⟩, "net"⟩ ⟨[], 10, 60, 5, 30⟩) 5 0
    ⟨fun _ _ => true, ⟨id, fun _ => none, fun _ => none⟩, fun filter p => p ∉ filter⟩
    (fun _ _ new => of_decide_eq_true new)
    [(⟨0, .plain⟩, .service (.pollDiscovery (some ⟨[1]⟩) []))]
    [(⟨1, .plain⟩, .service (.pollDiscovery none [])),
      (⟨4, .plain⟩, .service (.pollDiscovery (some ⟨[2]⟩) [])),
      (⟨5, .plain⟩, .service (.pollDiscovery none []))] (by decide +kernel)
  exact ⟨_, rfl, rfl, fun m ticked ready timely late =>
    paced.2.2 m ticked ready timely late rfl rfl (by decide +kernel)⟩

end Timed

end IpcAgent.Resolver
