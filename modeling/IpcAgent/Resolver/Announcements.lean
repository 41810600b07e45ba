import IpcAgent.Resolver.FailedChange

/-!
# The records a node signs

`publish_membership` signs the list of provided subnets with the time it is signed. It runs at
every tick and at the end of the requests that change the list; `declare` is such a request up
to that point. A record says what the node provides once the step is over.
-/

namespace IpcAgent.Resolver.Membership
open Library

section Signing

variable (ok : Oracle) (codec : Codec)

/-- A request without the publishing at its end; the answer is whether it publishes. -/
def Request.declare : Request → Action Bool
  | setProvidedSubnets ids => do
    let old := (← get).subnetIds
    modify (fun b => { b with subnetIds := [] })
    old.forM (fun id => if id ∈ ids then pure () else Behaviour.votingUnsubscribe ok codec id)
    ids.forM (fun id => if id ∈ old then pure () else Behaviour.votingSubscribe ok codec id)
    modify (fun b => { b with subnetIds := ids })
    return true
  | addProvidedSubnet id => do
    if id ∈ (← get).subnetIds then return false
    else
      Behaviour.votingSubscribe ok codec id
      modify (fun b => { b with subnetIds := b.subnetIds ++ [id] })
      return true
  | removeProvidedSubnet id => do
    if id ∈ (← get).subnetIds then
      Behaviour.votingUnsubscribe ok codec id
      modify (fun b => { b with subnetIds := b.subnetIds.filter (· ≠ id) })
      return true
    else return false
  | publishVote vote => do
    Behaviour.publishVote ok codec vote
    return false
  | publishPreemptive id data => do
    Behaviour.publishPreemptive ok codec id data
    return false
  | pinSubnet id => do
    Behaviour.pinSubnet ok codec id
    return false
  | unpinSubnet id => do
    Behaviour.unpinSubnet ok codec id
    return false

theorem Request.action_eq (now : Timestamp) (r : Request) :
    r.action ok codec now = (do
      if ← r.declare ok codec then Behaviour.publishMembership ok now) := by
  cases r with
  | setProvidedSubnets ids =>
    simp [Request.action, Request.declare, Behaviour.setProvidedSubnets]
  | addProvidedSubnet id =>
    simp only [Request.action, Request.declare, Behaviour.addProvidedSubnet, bind_assoc]
    refine bind_congr fun b => ?_
    split <;> simp
  | removeProvidedSubnet id =>
    simp only [Request.action, Request.declare, Behaviour.removeProvidedSubnet, bind_assoc]
    refine bind_congr fun b => ?_
    split <;> simp
  | _ => simp [Request.action, Request.declare]

/-- The record that `publish_membership` signs, unless signing fails. -/
def Behaviour.signedAt (now : Timestamp) (b : Behaviour) : Option ProviderRecord :=
  if ok b.inner.calls .sign then some ⟨b.localPeerId, b.subnetIds, now⟩ else none

/-- The record signed in a step. -/
def Behaviour.signs (b : Behaviour) : Moment × Input → Option ProviderRecord
  | (m, .tick) => b.signedAt ok m.now
  | (m, .request r) =>
    match (r.declare ok codec).run.run b with
    | (.ok true, b) => b.signedAt ok m.now
    | _ => none
  | _ => none

end Signing

/-! ## What a record says -/

/-- The node is who it was. -/
def SamePeer (b b' : Behaviour) : Prop := b'.localPeerId = b.localPeerId

instance : Std.Refl SamePeer := ⟨fun _ => rfl⟩

instance : IsTrans Behaviour SamePeer := ⟨fun _ _ _ h h' => h'.trans h⟩

theorem SamePeer.ignores : Ignores SamePeer :=
  ⟨fun _ _ => rfl, fun _ _ => rfl, fun _ _ => rfl, fun _ _ => rfl, fun _ _ => rfl,
    fun _ _ _ _ => rfl⟩

theorem SamePeer.background : Background SamePeer where
  published := by
    rintro _ _ ⟨_, _, _, _, rfl⟩
    rfl
  reported _ _ _ _ := rfl

theorem samePeer_applied (codec : Codec) (b : Behaviour) (i : Moment × Input) :
    SamePeer b (b.applied codec i) := by
  unfold Behaviour.applied
  split <;> rfl

theorem samePeer_step (ok : Oracle) (codec : Codec) (b : Behaviour) (i : Moment × Input) :
    SamePeer b (b.step ok codec i) := by
  obtain ⟨m, i⟩ := i
  by_cases request : ∃ r, i = .request r
  · obtain ⟨r, rfl⟩ := request
    exact within_action ok codec SamePeer.ignores m.now r b
  · exact trans_of SamePeer (samePeer_applied codec b (m, i))
      (related_step ok codec SamePeer.background b m (not_exists.mp request))

theorem subnetIds_foldl_reportPruned (ps : List PeerId) (b : Behaviour) :
    (ps.foldl Behaviour.reportPruned b).subnetIds = b.subnetIds := by
  induction ps generalizing b with
  | nil => rfl
  | cons p ps ih => exact (ih _).trans rfl

/-- A record signed in a step lists what the node provides after it, and is dated to the time
of the step. -/
theorem eq_of_signs {ok : Oracle} {codec : Codec} {b : Behaviour} {i : Moment × Input}
    {r : ProviderRecord} (signs : b.signs ok codec i = some r) :
    r = ⟨b.localPeerId, (b.step ok codec i).subnetIds, i.1.now⟩ := by
  obtain ⟨m, i⟩ := i
  cases i with
  | tick =>
    have same : (b.step ok codec (m, .tick)).subnetIds = b.subnetIds := by
      obtain ⟨n, last, next, interval, done⟩ :=
        published_perform ok m.now { b with publishInterval := b.publishInterval.tick }
      simp only [Behaviour.step, Behaviour.tick, Behaviour.pruneMembership,
        subnetIds_foldl_reportPruned, done]
    obtain ⟨-, signed⟩ := Option.ite_none_right_eq_some.mp signs
    rw [same]
    exact (Option.some.inj signed).symm
  | request req =>
    have samePeer := samePeer_step ok codec b (m, .request req)
    have run : b.step ok codec (m, .request req) =
        b.perform (do if ← req.declare ok codec then Behaviour.publishMembership ok m.now) := by
      rw [← Request.action_eq]
      rfl
    simp only [Behaviour.signs] at signs
    split at signs
    · rename_i b' declared
      have published : b.step ok codec (m, .request req) =
          b'.perform (Behaviour.publishMembership ok m.now) := by
        rw [run, Behaviour.perform, run_run_bind, declared]
        rfl
      obtain ⟨n, last, next, interval, done⟩ := published_perform ok m.now b'
      rw [published, done] at samePeer ⊢
      obtain ⟨-, signed⟩ := Option.ite_none_right_eq_some.mp signs
      rw [← Option.some.inj signed]
      exact congrArg (ProviderRecord.mk · b'.subnetIds m.now) samePeer
    · cases signs
  | _ => cases signs

/-! ## Changes are signed -/

section Unsigned

variable {ok : Oracle} (subscribes : Subscribes ok) (signable : ∀ n, ok n .sign = true)
  (codec : Codec) {b : Behaviour} (m : Moment)

include signable

theorem signs_of_declares {r : Request} {b' : Behaviour}
    (declares : Runs (r.declare ok codec) b true b') :
    b.signs ok codec (m, .request r) ≠ none := by
  unfold Runs at declares
  simp [Behaviour.signs, declares, Behaviour.signedAt, signable]

include subscribes

/-- Unless Gossipsub refuses to subscribe, a request that signs nothing leaves the list of
provided subnets as it is. -/
theorem subnetIds_request_of_unsigned (r : Request)
    (unsigned : b.signs ok codec (m, .request r) = none) :
    (b.step ok codec (m, .request r)).subnetIds = b.subnetIds := by
  have called : ∀ topic data, Within Published (Behaviour.call ok (.publish topic data)) :=
    fun _ _ => within_call ok (fun _ _ => ⟨_, _, _, _, rfl⟩) (fun b => refl_of Published b)
  have kept : ∀ {b'}, Published b b' → b'.subnetIds = b.subnetIds := by
    rintro _ ⟨_, _, _, _, rfl⟩
    rfl
  have returns : ∀ {b'}, Runs (r.action ok codec m.now) b () b' → b'.subnetIds = b.subnetIds →
      (b.step ok codec (m, .request r)).subnetIds = b.subnetIds := by
    intro b' runs same
    simp only [Behaviour.step, Behaviour.perform]
    rwa [runs]
  cases r with
  | setProvidedSubnets ids =>
    have leave : ∀ b id, Runs
        (if id ∈ ids then pure () else Behaviour.votingUnsubscribe ok codec id) b ()
        (Behaviour.left codec ids b id) := fun b id =>
      runs_ite (fun _ => runs_pure b ()) fun _ => runs_votingUnsubscribe subscribes codec b id
    have join : ∀ old b id, Runs
        (if id ∈ old then pure () else Behaviour.votingSubscribe ok codec id) b ()
        (Behaviour.joined codec old b id) := fun old b id =>
      runs_ite (fun _ => runs_pure b ()) fun _ => runs_votingSubscribe subscribes codec b id
    have declares : Runs ((Request.setProvidedSubnets ids).declare ok codec) b true
        (b.provided codec ids) :=
      (runs_get b).bind ((runs_modify _ b).bind ((runs_forM leave b.subnetIds _).bind
        ((runs_forM (join b.subnetIds) ids _).bind ((runs_modify _ _).bind (runs_pure _ true)))))
    exact absurd unsigned (signs_of_declares signable codec m declares)
  | addProvidedSubnet id =>
    by_cases old : id ∈ b.subnetIds
    · refine returns ((runs_get b).bind ?_) rfl
      rw [if_pos old]
      exact runs_pure b ()
    · have declares : Runs ((Request.addProvidedSubnet id).declare ok codec) b true
          { b.votingSubscribed codec id with subnetIds := b.subnetIds ++ [id] } := by
        refine (runs_get b).bind ?_
        rw [if_neg old]
        exact (runs_votingSubscribe subscribes codec b id).bind
          ((runs_modify _ _).bind (runs_pure _ true))
      exact absurd unsigned (signs_of_declares signable codec m declares)
  | removeProvidedSubnet id =>
    by_cases old : id ∈ b.subnetIds
    · have declares : Runs ((Request.removeProvidedSubnet id).declare ok codec) b true
          { b.votingUnsubscribed codec id with subnetIds := b.subnetIds.filter (· ≠ id) } := by
        refine (runs_get b).bind ?_
        rw [if_pos old]
        exact (runs_votingUnsubscribe subscribes codec b id).bind
          ((runs_modify _ _).bind (runs_pure _ true))
      exact absurd unsigned (signs_of_declares signable codec m declares)
    · refine returns ((runs_get b).bind ?_) rfl
      rw [if_neg old]
      exact runs_pure b ()
  | publishVote vote => exact kept (within_bind within_get (fun _ => called _ _) b)
  | publishPreemptive id data => exact kept (within_bind within_get (fun _ => called _ _) b)
  | pinSubnet id => exact returns (runs_pinSubnet subscribes codec b id) rfl
  | unpinSubnet id => exact returns (runs_unpinSubnet subscribes codec b id) rfl

theorem subnetIds_step_of_unsigned (i : Moment × Input)
    (unsigned : b.signs ok codec i = none) : (b.step ok codec i).subnetIds = b.subnetIds := by
  obtain ⟨m, i⟩ := i
  by_cases request : ∃ r, i = .request r
  · obtain ⟨r, rfl⟩ := request
    exact subnetIds_request_of_unsigned subscribes signable codec m r unsigned
  · have applied := sameSubscriptions_applied codec b (m, i)
    have same := related_step ok codec SameSubscriptions.background b m (not_exists.mp request)
    exact same.subnetIds.trans applied.subnetIds

end Unsigned

end IpcAgent.Resolver.Membership
