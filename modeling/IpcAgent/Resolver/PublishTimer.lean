import IpcAgent.Resolver.MembershipRun

/-!
# The publish timer

The time of the next publish is kept twice: as the deadline of the timer, and as a timestamp
that tells `publish_for_new_peer` whether a publish is due soon anyway. A successful publish
and a new peer set both. A tick whose publish fails moves only the timer, so the timestamp
falls behind by a period each time; it never runs ahead.
-/

namespace IpcAgent.Resolver.Membership
open Library

deriving instance DecidableEq for Interval

/-! ## The schedule -/

/-- When the behaviour has published and when it will publish next. -/
structure Schedule where
  last : Timestamp
  next : Timestamp
  interval : Interval
deriving DecidableEq

namespace Schedule

variable (s : Schedule) (now : Timestamp) (minTime : Nat)

def published : Schedule := ⟨now, now.add s.interval.period, s.interval.reset now⟩

/-- After a tick that did not publish. -/
def missed : Schedule := { s with interval := s.interval.tick }

/-- After a tick was put early for a new peer. -/
def brought : Schedule :=
  { s with next := now.add minTime, interval := { s.interval with deadline := now + minTime } }

/-- The last publish was not recent, and the next one is not soon. -/
def Waits : Prop := s.last ≤ now.sub minTime ∧ now.add minTime < s.next

/-- What can become of the schedule, by whether something was published and whether the timer
has ticked. -/
inductive Moved : Bool → Bool → Schedule → Prop
  | publish {ticked : Bool} : Moved true ticked (s.published now)
  | miss : Moved false true s.missed
  | keep : Moved false false s
  | bring (waits : s.Waits now minTime) : Moved false false (s.brought now minTime)

end Schedule

/-- `u64::MAX`. -/
def maxTimestamp : Timestamp := 0xffffffffffffffff

theorem add_le (t : Timestamp) (seconds : Nat) : t.add seconds ≤ t + seconds :=
  Nat.min_le_left _ _

theorem add_le_max (t : Timestamp) (seconds : Nat) : t.add seconds ≤ maxTimestamp :=
  Nat.min_le_right _ _

theorem add_eq {t : Timestamp} {seconds : Nat} (fits : t + seconds ≤ maxTimestamp) :
    t.add seconds = t + seconds :=
  Nat.min_eq_left fits

/-- A sum below another timestamp has not saturated. -/
theorem add_eq_of_lt {t next : Timestamp} {seconds : Nat} (lt : t.add seconds < next)
    (fits : next ≤ maxTimestamp) : t.add seconds = t + seconds := by
  rcases min_choice (t + seconds) maxTimestamp with sum | saturated
  · exact sum
  · exact absurd (saturated.ge.trans_lt lt) (Nat.not_lt.mpr fits)

def Input.isTick : Input → Bool
  | .tick => true
  | _ => false

/-- Gossip and discovery may report a new peer. -/
def Input.mayReportPeer : Input → Bool
  | .gossip _ | .discovery _ => true
  | _ => false

/-- Whether the request ends with a publish of the provided subnets. -/
def Request.republishes (b : Behaviour) : Request → Bool
  | setProvidedSubnets _ => true
  | addProvidedSubnet id => id ∉ b.subnetIds
  | removeProvidedSubnet id => id ∈ b.subnetIds
  | _ => false

namespace Behaviour

variable (ok : Oracle) (codec : Codec) (b : Behaviour)

def schedule : Schedule := ⟨b.lastPublishTimestamp, b.nextPublishTimestamp, b.publishInterval⟩

def succeeds (action : Action Unit) : Bool :=
  match (action.run.run b).1 with
  | .ok () => true
  | .error _ => false

/-- Whether the provided subnets are published, successfully, in a step. -/
def publishes : Moment × Input → Bool
  | (m, .tick) =>
    { b with publishInterval := b.publishInterval.tick }.succeeds (publishMembership ok m.now)
  | (m, .request r) => r.republishes b && b.succeeds (r.action ok codec m.now)
  | _ => false

/-- The time of the last successful publish of a run. -/
def lastPublish (b : Behaviour) (found : Option Timestamp) :
    List (Moment × Input) → Option Timestamp
  | [] => found
  | i :: inputs =>
    lastPublish (b.step ok codec i) (if b.publishes ok codec i then some i.1.now else found) inputs

/-- One step of `missedTicks`. -/
def missedBy (n : Nat) (i : Moment × Input) : Nat :=
  if b.publishes ok codec i then 0
  else if i.2.isTick then n + 1
  else if (b.step ok codec i).schedule = b.schedule then n else 0

/-- The number of ticks without a successful publish since the schedule was last set. -/
def missedTicks (b : Behaviour) (n : Nat) : List (Moment × Input) → Nat
  | [] => n
  | i :: inputs => missedTicks (b.step ok codec i) (b.missedBy ok codec n i) inputs

/-- `publish_for_new_peer` leaves it to the next publish, which it takes to be due soon. -/
def PublishingSoon (now : Timestamp) : Prop :=
  b.subnetIds ≠ [] ∧ b.lastPublishTimestamp ≤ now.sub b.minTimeBetweenPublish ∧
    b.nextPublishTimestamp ≤ now.add b.minTimeBetweenPublish

instance (now : Timestamp) : Decidable (b.PublishingSoon now) :=
  inferInstanceAs (Decidable (_ ∧ _))

end Behaviour

/-! ## What a step does to the schedule -/

def SameSchedule (b b' : Behaviour) : Prop := b'.schedule = b.schedule

instance : Std.Refl SameSchedule := ⟨fun _ => rfl⟩

instance : IsTrans Behaviour SameSchedule := ⟨fun _ _ _ h h' => Eq.trans h' h⟩

section Steps

variable {ok : Oracle} {codec : Codec} {now : Timestamp}

theorem sameSchedule_call (c : Call) : Within SameSchedule (Behaviour.call ok c) :=
  within_call ok (fun _ _ => rfl) fun _ => rfl

/-- The four ways to subscribe and unsubscribe. -/
theorem sameSchedule_call_modify (topic : Behaviour → Call) (f : Behaviour → Behaviour → Behaviour)
    (kept : ∀ b₀ b, SameSchedule b (f b₀ b)) :
    Within SameSchedule (do
      let b₀ ← get
      Behaviour.call ok (topic b₀)
      modify (f b₀) : Action Unit) :=
  within_call_modify ok (fun _ _ => rfl) topic f (fun _ _ => rfl) kept

theorem sameSchedule_votingSubscribe (id : SubnetID) :
    Within SameSchedule (Behaviour.votingSubscribe ok codec id) :=
  sameSchedule_call_modify (fun b => .subscribe ⟨codec.sha256 (b.votingTopic id)⟩) _
    fun _ _ => rfl

theorem sameSchedule_votingUnsubscribe (id : SubnetID) :
    Within SameSchedule (Behaviour.votingUnsubscribe ok codec id) :=
  sameSchedule_call_modify (fun b => .unsubscribe ⟨codec.sha256 (b.votingTopic id)⟩) _
    fun _ _ => rfl

theorem sameSchedule_pinSubnet (id : SubnetID) :
    Within SameSchedule (Behaviour.pinSubnet ok codec id) :=
  within_bind (sameSchedule_call_modify
    (fun b => .subscribe ⟨codec.sha256 (b.preemptiveTopic id)⟩) _ fun _ _ => rfl)
    fun _ => within_modify fun _ => rfl

theorem sameSchedule_unpinSubnet (id : SubnetID) :
    Within SameSchedule (Behaviour.unpinSubnet ok codec id) :=
  within_bind (sameSchedule_call_modify
    (fun b => .unsubscribe ⟨codec.sha256 (b.preemptiveTopic id)⟩) _ fun _ _ => rfl)
    fun _ => within_modify fun _ => rfl

/-- The code publishes if it returns, and leaves the schedule alone if it stops. -/
def EndsPublishing (now : Timestamp) (code : Action Unit) : Prop :=
  ∀ b, (code.run.run b).2.schedule =
    if b.succeeds code then b.schedule.published now else b.schedule

theorem endsPublishing_bind {α : Type} {code : Action α} {rest : α → Action Unit}
    (same : Within SameSchedule code) (ends : ∀ a, EndsPublishing now (rest a)) :
    EndsPublishing now (code >>= rest) := by
  intro b
  have kept := same b
  unfold SameSchedule at kept
  unfold Behaviour.succeeds
  rw [run_run_bind]
  rcases first : code.run.run b with ⟨e | a, t⟩
  · rw [first] at kept
    simpa using kept
  · rw [first] at kept
    rw [← kept]
    exact ends a t

theorem endsPublishing_publishMembership :
    EndsPublishing now (Behaviour.publishMembership ok now) :=
  endsPublishing_bind (sameSchedule_call _) fun _ => endsPublishing_bind within_get fun _ =>
    endsPublishing_bind (sameSchedule_call _) fun _ _ => rfl

theorem endsPublishing_moved (f : Behaviour → List SubnetID) :
    EndsPublishing now (do
      modify (fun b => { b with subnetIds := f b })
      Behaviour.publishMembership ok now : Action Unit) :=
  endsPublishing_bind (within_modify fun _ => rfl) fun _ => endsPublishing_publishMembership

theorem endsPublishing_setProvidedSubnets (ids : List SubnetID) :
    EndsPublishing now (Behaviour.setProvidedSubnets ok codec now ids) := by
  refine endsPublishing_bind within_get fun old => endsPublishing_bind (within_modify ?_) fun _ =>
    endsPublishing_bind (within_forM ?_ _) fun _ =>
      endsPublishing_bind (within_forM ?_ _) fun _ => endsPublishing_moved _
  · exact fun _ => rfl
  · exact fun id => within_ite (within_pure ()) (sameSchedule_votingUnsubscribe id)
  · exact fun id => within_ite (within_pure ()) (sameSchedule_votingSubscribe id)

/-- Code that looks at the state first, and then either publishes at its end or does nothing. -/
theorem schedule_guarded {b : Behaviour} {action code : Action Unit} {quiet : Prop}
    [Decidable quiet] (started : action.run.run b = (if quiet then pure () else code).run.run b)
    (ends : EndsPublishing now code) :
    (b.perform action).schedule =
      if !decide quiet && b.succeeds action then b.schedule.published now else b.schedule := by
  unfold Behaviour.perform Behaviour.succeeds
  rw [started]
  by_cases holds : quiet
  · simp only [holds, if_true, decide_true, Bool.not_true, Bool.false_and, Bool.false_eq_true,
      if_false]
    rfl
  · simp only [holds, if_false, decide_false, Bool.not_false, Bool.true_and]
    exact ends b

theorem schedule_request (r : Request) (b : Behaviour) :
    (b.perform (r.action ok codec now)).schedule =
      if r.republishes b && b.succeeds (r.action ok codec now)
      then b.schedule.published now else b.schedule := by
  cases r with
  | setProvidedSubnets ids => exact endsPublishing_setProvidedSubnets ids b
  | addProvidedSubnet id =>
    simp only [Request.republishes, decide_not]
    exact schedule_guarded (runs_get b).run_bind
      (endsPublishing_bind (sameSchedule_votingSubscribe id) fun _ => endsPublishing_moved _)
  | removeProvidedSubnet id =>
    have started : (Behaviour.removeProvidedSubnet ok codec now id).run.run b = _ :=
      (runs_get b).run_bind
    rw [← ite_not] at started
    have moved := schedule_guarded started
      (endsPublishing_bind (sameSchedule_votingUnsubscribe id) fun _ => endsPublishing_moved _)
    rwa [decide_not, Bool.not_not] at moved
  | publishVote vote => exact within_bind within_get (fun _ => sameSchedule_call _) b
  | publishPreemptive id data => exact within_bind within_get (fun _ => sameSchedule_call _) b
  | pinSubnet id => exact sameSchedule_pinSubnet id b
  | unpinSubnet id => exact sameSchedule_unpinSubnet id b

theorem schedule_pruneMembership (o : HashOrder PeerId) (b : Behaviour) :
    (b.pruneMembership now o).schedule = b.schedule := by
  have reported : ∀ (ps : List PeerId) (b : Behaviour),
      (ps.foldl Behaviour.reportPruned b).schedule = b.schedule := by
    intro ps
    induction ps with
    | nil => exact fun _ => rfl
    | cons p ps ih => exact fun b => ih (b.reportPruned p)
  exact reported _ _

theorem schedule_tick (m : Moment) (b : Behaviour) :
    (b.step ok codec (m, .tick)).schedule = if b.publishes ok codec (m, .tick)
      then b.schedule.published m.now else b.schedule.missed :=
  (schedule_pruneMembership _ _).trans
    (endsPublishing_publishMembership { b with publishInterval := b.publishInterval.tick })

open Schedule

/-- Nothing is published for a new peer at once; the next tick may be put early. -/
theorem moved_publishForNewPeer (b : Behaviour) :
    Moved b.schedule now b.minTimeBetweenPublish false false
      (b.publishForNewPeer now).schedule := by
  unfold Behaviour.publishForNewPeer
  split_ifs with empty recent soon
  · exact .keep
  · exact .keep
  · exact .keep
  · exact .bring ⟨not_lt.mp recent, not_le.mp soon⟩

theorem moved_handleProviderRecord (o : HashOrder SubnetID) (b : Behaviour) (r : ProviderRecord) :
    Moved b.schedule now b.minTimeBetweenPublish false false
      (b.handleProviderRecord now o r).schedule := by
  unfold Behaviour.handleProviderRecord
  dsimp only
  split
  · split
    · exact moved_publishForNewPeer { b with
        providerCache := _, outbox := _, providerGauge := b.providerGauge + 1 }
    · exact .keep
  · exact .keep

theorem moved_gossip (m : Moment) (b : Behaviour) (e : GossipsubEvent) :
    Moved b.schedule m.now b.minTimeBetweenPublish false false
      (b.handleGossipsubEvent codec m e).schedule := by
  have done := gossiped codec m b e
  generalize b.handleGossipsubEvent codec m e = b' at done
  generalize Input.record codec b.membershipTopic (.gossip e) = carried at done
  cases done with
  | ignored => exact .keep
  | newPeer => exact moved_publishForNewPeer b
  | record r => exact moved_handleProviderRecord m.walks.subnets b r
  | reported event => exact .keep

variable (ok codec) in
/-- What a step does to the schedule. -/
theorem moved_step (b : Behaviour) (i : Moment × Input) :
    Moved b.schedule i.1.now b.minTimeBetweenPublish (b.publishes ok codec i) i.2.isTick
      (b.step ok codec i).schedule := by
  obtain ⟨m, i⟩ := i
  cases i with
  | emit => exact .keep
  | tick =>
    rw [schedule_tick]
    cases b.publishes ok codec (m, .tick) with
    | true => exact .publish
    | false => exact .miss
  | gossip e => exact moved_gossip m b e
  | discovery e =>
    cases e with
    | added p addresses =>
      exact moved_publishForNewPeer { b with
        providerCache := b.providerCache.setRoutable p
        routableGauge := (b.providerCache.setRoutable p).numRoutable }
    | removed p => exact .keep
  | request r =>
    have done : (b.step ok codec (m, .request r)).schedule = _ := schedule_request r b
    rw [done]
    change Moved _ _ _ (r.republishes b && b.succeeds (r.action ok codec m.now)) _ _
    cases r.republishes b && b.succeeds (r.action ok codec m.now) with
    | true => exact .publish
    | false => exact .keep

end Steps

/-! ## New peers -/

/-- The timestamp of the next publish is not after the next tick, however many publishes have
failed, and the other one is that of the last successful publish. -/
structure Schedule.Behind (s : Schedule) (lastPublish : Option Timestamp) : Prop where
  next : s.next ≤ s.interval.deadline
  fits : s.next ≤ maxTimestamp
  last : s.last = lastPublish.getD 0

section Runs

variable {ok : Oracle} {codec : Codec} {start : Timestamp} {nc : NetworkConfig} {mc : Config}
  {b : Behaviour}

theorem Schedule.Behind.step {found : Option Timestamp} (behind : b.schedule.Behind found)
    (i : Moment × Input) : (b.step ok codec i).schedule.Behind
      (if b.publishes ok codec i then some i.1.now else found) := by
  have moved := moved_step ok codec b i
  generalize (b.step ok codec i).schedule = s' at moved
  generalize b.publishes ok codec i = publishes at moved
  generalize i.2.isTick = ticked at moved
  cases moved with
  | publish => exact ⟨add_le _ _, add_le_max _ _, rfl⟩
  | miss => exact ⟨behind.next.trans (Nat.le_add_right _ _), behind.fits, behind.last⟩
  | keep => exact behind
  | bring waits => exact ⟨add_le _ _, add_le_max _ _, behind.last⟩

theorem Schedule.Behind.run {found : Option Timestamp} (behind : b.schedule.Behind found)
    (inputs : List (Moment × Input)) :
    (b.run ok codec inputs).schedule.Behind (b.lastPublish ok codec found inputs) := by
  induction inputs generalizing b found with
  | nil => exact behind
  | cons i inputs ih => exact ih (behind.step i)

theorem sameSchedule_new (built : new ok codec start nc mc = .ok b) :
    b.schedule = (initial start nc mc).schedule := by
  have same : Within SameSchedule (setup ok codec mc) :=
    within_bind within_get fun _ => within_bind (sameSchedule_call _) fun _ =>
      within_forM sameSchedule_pinSubnet _
  have moved := same (initial start nc mc)
  rwa [runs_of_new built] at moved

theorem behind_new (built : new ok codec start nc mc = .ok b) : b.schedule.Behind none := by
  rw [sameSchedule_new built]
  exact ⟨add_le _ _, add_le_max _ _, rfl⟩

/-- When a new peer changes the timer, the next tick comes earlier, but not too soon after the
present and the last publish. -/
theorem Schedule.Behind.of_moved {s s' : Schedule} {found : Option Timestamp} {now : Timestamp}
    {minTime : Nat} (behind : s.Behind found) (moved : s.Moved now minTime false false s') :
    s'.interval.deadline ≤ s.interval.deadline ∧
      (s'.interval ≠ s.interval → now + minTime ≤ s'.interval.deadline ∧
        ∀ last ∈ found, last + minTime ≤ s'.interval.deadline) := by
  cases moved with
  | keep => exact ⟨Nat.le_refl _, fun changed => absurd rfl changed⟩
  | bring waits =>
    refine ⟨?_, fun _ => ⟨Nat.le_refl _, fun last mem => ?_⟩⟩
    · calc now + minTime = now.add minTime := (add_eq_of_lt waits.2 behind.fits).symm
        _ ≤ s.next := waits.2.le
        _ ≤ s.interval.deadline := behind.next
    · have recorded : s.last = last := by
        have := behind.last
        rwa [Option.mem_def.mp mem] at this
      have recent : s.last ≤ now - minTime := waits.1
      rw [← recorded]
      exact Nat.add_le_add_right (recent.trans (Nat.sub_le _ _)) _

/-- New joiners never delay a publish, at any point of any run. -/
theorem new_peers_never_delay (ok : Oracle) (codec : Codec) (start : Timestamp)
    (nc : NetworkConfig) (mc : Config) (b : Behaviour)
    (built : new ok codec start nc mc = .ok b) (inputs : List (Moment × Input)) (m : Moment) :
    let reached := b.run ok codec inputs
    let minTime := reached.minTimeBetweenPublish
    ∀ after, after = reached.publishForNewPeer m.now ∨
        (∃ i : Input, i.mayReportPeer ∧ after = reached.step ok codec (m, i)) →
      after.publishInterval.deadline ≤ reached.publishInterval.deadline ∧
      (after.publishInterval ≠ reached.publishInterval →
        m.now + minTime ≤ after.publishInterval.deadline ∧
        ∀ last ∈ b.lastPublish ok codec none inputs,
          last + minTime ≤ after.publishInterval.deadline) := by
  intro reached minTime after joined
  have behind : reached.schedule.Behind (b.lastPublish ok codec none inputs) :=
    (behind_new built).run inputs
  have moved : reached.schedule.Moved m.now minTime false false after.schedule := by
    rcases joined with rfl | ⟨i, reports, rfl⟩
    · exact moved_publishForNewPeer reached
    · have moved := moved_step ok codec reached (m, i)
      cases i with
      | gossip e => exact moved
      | discovery e => exact moved
      | _ => cases reports
  exact behind.of_moved moved

/-- A peer comes 20 seconds after a publish. The next tick is moved from 60 to 25. -/
theorem new_peer_puts_tick_early :
    let codec : Codec := ⟨id, fun _ => none, fun _ => none⟩
    let ok : Oracle := fun _ _ => true
    ∃ b, new ok codec 0 ⟨⟨[0]⟩, "net"⟩ ⟨[], 10, 60, 5, 30⟩ = .ok b ∧
      let reached := b.run ok codec [
        (⟨0, .plain⟩, .request (.setProvidedSubnets [⟨"/root/t01"⟩]))]
      let after := reached.publishForNewPeer 20
      reached.publishInterval.deadline = 60 ∧ after.publishInterval.deadline ≤ 60 ∧
        20 + 5 ≤ after.publishInterval.deadline ∧ 0 + 5 ≤ after.publishInterval.deadline := by
  intro codec ok
  have early := new_peers_never_delay ok codec 0 ⟨⟨[0]⟩, "net"⟩ ⟨[], 10, 60, 5, 30⟩ _ rfl
    [(⟨0, .plain⟩, .request (.setProvidedSubnets [⟨"/root/t01"⟩]))] ⟨20, .plain⟩ _ (.inl rfl)
  have spaced := early.2 (by decide +kernel)
  exact ⟨_, rfl, by decide +kernel, early.1, spaced.1, spaced.2 0 (by decide +kernel)⟩

end Runs

/-! ## Publishing soon -/

/-- The timer is as many periods ahead of the timestamp as ticks were missed. -/
structure Schedule.Lags (s : Schedule) (seconds missed : Nat) : Prop where
  period : s.interval.period = seconds
  fits : s.next ≤ maxTimestamp
  deadline : s.interval.deadline = s.next + missed * seconds

section Runs

variable {ok : Oracle} {codec : Codec} {start : Timestamp} {nc : NetworkConfig} {mc : Config}
  {b : Behaviour} {period n : Nat}

theorem Schedule.Lags.step (lags : b.schedule.Lags period n) (i : Moment × Input)
    (fits : i.1.now + period ≤ maxTimestamp) :
    (b.step ok codec i).schedule.Lags period (b.missedBy ok codec n i) := by
  have moved := moved_step ok codec b i
  unfold Behaviour.missedBy
  generalize (b.step ok codec i).schedule = s' at moved
  generalize b.publishes ok codec i = publishes at moved
  generalize i.2.isTick = ticked at moved
  cases moved with
  | publish =>
    obtain ⟨rfl, -, -⟩ := lags
    refine ⟨rfl, add_le_max _ _, ?_⟩
    simp [published, Interval.reset, add_eq fits]
  | miss =>
    refine ⟨lags.period, lags.fits, ?_⟩
    simp only [missed, Interval.tick, lags.deadline, lags.period, Bool.false_eq_true, if_false,
      if_true]
    rw [Nat.succ_mul, Nat.add_assoc]
  | keep => simpa using lags
  | bring waits =>
    have changed : b.schedule.brought i.1.now b.minTimeBetweenPublish ≠ b.schedule :=
      fun same => absurd (congrArg Schedule.next same) waits.2.ne
    rw [if_neg Bool.false_ne_true, if_neg Bool.false_ne_true, if_neg changed]
    refine ⟨lags.period, add_le_max _ _, ?_⟩
    simp [brought, add_eq_of_lt waits.2 lags.fits]

theorem Schedule.Lags.run (lags : b.schedule.Lags period n) (inputs : List (Moment × Input))
    (fits : ∀ i ∈ inputs, i.1.now + period ≤ maxTimestamp) :
    (b.run ok codec inputs).schedule.Lags period (b.missedTicks ok codec n inputs) := by
  induction inputs generalizing b n with
  | nil => exact lags
  | cons i inputs ih =>
    obtain ⟨first, rest⟩ := List.forall_mem_cons.mp fits
    exact ih (lags.step i first) rest

theorem lags_new (built : new ok codec start nc mc = .ok b)
    (fits : start + mc.publishInterval ≤ maxTimestamp) :
    b.schedule.Lags mc.publishInterval 0 := by
  rw [sameSchedule_new built]
  refine ⟨rfl, add_le_max _ _, ?_⟩
  simp [Behaviour.schedule, initial, add_eq fits]

/-- How far the timestamp of the next publish is behind the timer, at any point of a run whose
times do not overflow. While no tick is missed, "publishing soon" is true. -/
theorem publishing_soon_of_no_missed_tick (ok : Oracle) (codec : Codec) (start : Timestamp)
    (nc : NetworkConfig) (mc : Config) (b : Behaviour)
    (built : new ok codec start nc mc = .ok b)
    (fitsFirst : start + mc.publishInterval ≤ maxTimestamp) (inputs : List (Moment × Input))
    (fits : ∀ i ∈ inputs, i.1.now + mc.publishInterval ≤ maxTimestamp) :
    let reached := b.run ok codec inputs
    let missed := b.missedTicks ok codec 0 inputs
    reached.publishInterval.deadline =
        reached.nextPublishTimestamp + missed * mc.publishInterval ∧
      (missed = 0 → reached.nextPublishTimestamp = reached.publishInterval.deadline ∧
        ∀ now, reached.PublishingSoon now →
          reached.publishInterval.deadline ≤ now + reached.minTimeBetweenPublish) := by
  intro reached missed
  have lags : reached.schedule.Lags mc.publishInterval missed :=
    (lags_new built fitsFirst).run inputs fits
  refine ⟨lags.deadline, fun none => ?_⟩
  have inStep : reached.nextPublishTimestamp = reached.publishInterval.deadline := by
    have := lags.deadline
    rw [none, Nat.zero_mul, Nat.add_zero] at this
    exact this.symm
  refine ⟨inStep, fun now soon => ?_⟩
  rw [← inStep]
  exact soon.2.2.trans (add_le _ _)

/-- Without failures, a peer that comes shortly before a tick can wait for it. -/
theorem publishing_soon_before_tick :
    let codec : Codec := ⟨id, fun _ => none, fun _ => none⟩
    let ok : Oracle := fun _ _ => true
    ∃ b, new ok codec 0 ⟨⟨[0]⟩, "net"⟩ ⟨[], 10, 60, 5, 30⟩ = .ok b ∧
      let reached := b.run ok codec [
        (⟨0, .plain⟩, .request (.setProvidedSubnets [⟨"/root/t01"⟩])), (⟨60, .plain⟩, .tick)]
      reached.PublishingSoon 118 ∧ reached.publishInterval.deadline ≤ 118 + 5 := by
  intro codec ok
  have soon := publishing_soon_of_no_missed_tick ok codec 0 ⟨⟨[0]⟩, "net"⟩ ⟨[], 10, 60, 5, 30⟩ _
    rfl (by decide) [(⟨0, .plain⟩, .request (.setProvidedSubnets [⟨"/root/t01"⟩])),
      (⟨60, .plain⟩, .tick)] (by decide)
  exact ⟨_, rfl, by decide +kernel, (soon.2 (by decide +kernel)).2 118 (by decide +kernel)⟩

theorem Behaviour.PublishingSoon.publishForNewPeer_eq {now : Timestamp}
    (soon : b.PublishingSoon now) : b.publishForNewPeer now = b := by
  unfold Behaviour.publishForNewPeer
  split_ifs with empty recent next
  · rfl
  · rfl
  · rfl
  · exact absurd soon.2.2 next

/-- The publish of a tick at 60 fails. Ten seconds later a new peer is told that a publish is
due within 5 seconds, but the timer ticks again only at 120. -/
theorem publishing_not_soon :
    let codec : Codec := ⟨id, fun _ => none, fun _ => none⟩
    let ok : Oracle := fun n _ => n ≠ 5
    ∃ b, new ok codec 0 ⟨⟨[0]⟩, "net"⟩ ⟨[], 10, 60, 5, 30⟩ = .ok b ∧
      let reached := b.run ok codec [
        (⟨0, .plain⟩, .request (.setProvidedSubnets [⟨"/root/t01"⟩])), (⟨60, .plain⟩, .tick)]
      reached.PublishingSoon 70 ∧ reached.publishForNewPeer 70 = reached ∧
        reached.nextPublishTimestamp = 60 ∧ reached.publishInterval.deadline = 120 := by
  intro codec ok
  refine ⟨_, rfl, ?_⟩
  intro reached
  have soon : reached.PublishingSoon 70 := by decide +kernel
  exact ⟨soon, soon.publishForNewPeer_eq, by decide +kernel, by decide +kernel⟩

end Runs

end IpcAgent.Resolver.Membership
