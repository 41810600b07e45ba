import IpcAgent.Manager.LotusSubnetManager

/-!
# One message, on the right network

Every operation of the subnet manager pushes at most one message, and all but `send_value` do
so only after the node has reported the name of the network they are meant for. The statements
are about the whole history of a run, and leave open what else a message has to satisfy.
-/

namespace IpcAgent.Manager
open Library Lotus

section Pushes

variable {κ α β : Type}

/-- The message that is pushed, and on which client. -/
def pushOf : Event (Call κ) Reply Mark → Option (κ × MpoolPushMessage)
  | .exchange (.rpc client (.mpoolPushMessage message)) _ => some (client, message)
  | _ => none

def pushes (t : Trace κ) : List (κ × MpoolPushMessage) := t.filterMap pushOf

/-- The node behind `client` has reported that it belongs to `network`. -/
def Reported (client : κ) (network : SubnetID) (t : Trace κ) : Prop :=
  .exchange (.rpc client .stateNetworkName) (.text network.text) ∈ t

/-- If a message is pushed, it is the first one, and allowed after what has happened. -/
def PushedOnce (Allowed : Trace κ → κ → MpoolPushMessage → Prop) (before : Trace κ)
    (e : Event (Call κ) Reply Mark) : Prop :=
  ∀ client message, pushOf e = some (client, message) →
    pushes before = [] ∧ Allowed before client message

/-- A program that pushes nothing; its results are in `Q`. -/
abbrev Pushless (Q : α → Prop) (p : Prog κ α) : Prop :=
  p.Upholds (fun _ => True) (fun e => pushOf e = none) Q

variable {Allowed : Trace κ → κ → MpoolPushMessage → Prop}

/-- Where nothing has been pushed yet, the program pushes at most one message. -/
def Careful (Allowed : Trace κ → κ → MpoolPushMessage → Prop) (p : Prog κ α) : Prop :=
  ∀ h, pushes h = [] → EachAfter (PushedOnce Allowed) h →
    p.wp (fun _ => EachAfter (PushedOnce Allowed)) (fun _ => EachAfter (PushedOnce Allowed)) h

theorem pushes_append_of_pushless {h ev : Trace κ} (none : pushes h = [])
    (silent : ∀ e ∈ ev, pushOf e = Option.none) : pushes (h ++ ev) = [] := by
  rw [pushes, List.filterMap_append, List.append_eq_nil_iff]
  exact ⟨none, List.filterMap_eq_nil_iff.mpr silent⟩

theorem eachAfter_append_of_pushless {h ev : Trace κ} (each : EachAfter (PushedOnce Allowed) h)
    (silent : ∀ e ∈ ev, pushOf e = none) : EachAfter (PushedOnce Allowed) (h ++ ev) := by
  refine each.append_of_forall fun e mem before client message pushed => ?_
  rw [silent e mem] at pushed
  cases pushed

theorem careful_fail (e : Error) : Careful Allowed (.fail e : Prog κ α) :=
  fun _ _ each => Program.wp_fail each

/-- Something without a message, and then the rest. -/
theorem Careful.of_pushless {Q : α → Prop} {p : Prog κ α} {f : α → Prog κ β}
    (pushless : Pushless Q p) (careful : ∀ a, Q a → Careful Allowed (f a)) :
    Careful Allowed (p >>= f) := by
  intro h none each
  refine Program.wp_bind (pushless.wp (fun a ev ha silent => ?_) fun x ev silent => ?_)
  · exact careful a ha (h ++ ev) (pushes_append_of_pushless none silent)
      (eachAfter_append_of_pushless each silent)
  · exact eachAfter_append_of_pushless each silent

/-- Something careful, and then no further message. -/
theorem Careful.then_pushless {p : Prog κ α} {f : α → Prog κ β} (careful : Careful Allowed p)
    (pushless : ∀ a, Pushless (fun _ => True) (f a)) : Careful Allowed (p >>= f) := by
  intro h none each
  refine Program.wp_bind (Program.wp_mono (careful h none each) (fun a h' each' => ?_)
    fun _ _ => id)
  exact (pushless a).wp (fun _ _ _ => eachAfter_append_of_pushless each')
    fun _ _ => eachAfter_append_of_pushless each'

theorem Careful.map {f : α → β} {p : Prog κ α} (careful : Careful Allowed p) :
    Careful Allowed (f <$> p) := careful.then_pushless fun _ => Program.upholds_pure trivial

variable {ext : Ext} {client : κ}

theorem pushless_request {rpc : Rpc} {decode : Reply → Option α}
    (notPush : ∀ message, rpc ≠ .mpoolPushMessage message) :
    Pushless (fun _ => True) (request client rpc decode) := by
  refine emits_request fun reply => ?_
  cases rpc <;> first | rfl | exact absurd rfl (notPush _)

/-- The message goes out here. -/
theorem wp_mpoolPushAndWait {message : MpoolPushMessage} {h : Trace κ} (none : pushes h = [])
    (each : EachAfter (PushedOnce Allowed) h) (allowed : Allowed h client message) :
    (mpoolPushAndWait ext client message).wp (fun _ => EachAfter (PushedOnce Allowed))
      (fun _ => EachAfter (PushedOnce Allowed)) h := by
  have pushed (reply : Reply) : EachAfter (PushedOnce Allowed)
      (h ++ [.exchange (.rpc client (.mpoolPushMessage message)) reply]) := by
    refine eachAfter_snoc_iff.mpr ⟨each, fun _ _ same => ?_⟩
    cases same
    exact ⟨none, allowed⟩
  refine Program.wp_bind (wp_request each (fun _ reply _ => pushed reply) fun reply cid _ => ?_)
  have rest : Pushless (fun _ => True) (cidTryFrom ext cid >>= stateWaitMsg client) :=
    Program.upholds_bind emits_cidTryFrom fun _ _ => pushless_request fun _ => Rpc.noConfusion
  exact rest.wp (fun _ _ _ => eachAfter_append_of_pushless (pushed reply))
    fun _ _ => eachAfter_append_of_pushless (pushed reply)

end Pushes

/-! ## The operations -/

namespace LotusSubnetManager

section

variable {κ : Type} {Allowed : Trace κ → κ → MpoolPushMessage → Prop} {ext : Ext} {client : κ}

theorem shows_isNetworkMatch {network : SubnetID} :
    (isNetworkMatch client network).Shows (fun e => pushOf e = none)
      (fun isMatch ev => isMatch = true → Reported client network ev) := by
  refine Program.shows_bind (shows_request fun _ => rfl) ?_
  rintro name _ ⟨reply, decoded, rfl⟩
  refine Program.shows_pure fun same => ?_
  cases reply <;> cases decoded
  rw [← eq_of_beq same]
  exact List.mem_singleton.mpr rfl

/-- The message is made and pushed only after the report. -/
theorem careful_sendOn {Q : MpoolPushMessage → Prop} {network : SubnetID} {mismatch : String}
    {message : Prog κ MpoolPushMessage} (pushless : Pushless Q message)
    (allowed : ∀ before m, Reported client network before → Q m → Allowed before client m) :
    Careful Allowed (sendOn ext client network mismatch message) := by
  intro h none each
  refine Program.wp_bind (shows_isNetworkMatch.wp (fun isMatch ev reported silent => ?_)
    fun _ _ => eachAfter_append_of_pushless each)
  have none' := pushes_append_of_pushless none silent
  have each' := eachAfter_append_of_pushless each silent
  cases isMatch with
  | false => exact Program.wp_fail each'
  | true =>
    refine Program.wp_bind (pushless.wp (fun m ev' ok silent' => ?_)
      fun _ _ => eachAfter_append_of_pushless each')
    have here : Reported client network (h ++ ev ++ ev') :=
      List.mem_append_left _ (List.mem_append_right _ (reported rfl))
    exact wp_mpoolPushAndWait (pushes_append_of_pushless none' silent')
      (eachAfter_append_of_pushless each' silent') (allowed _ m here ok)

theorem pushless_parentOf {subnet : SubnetID} {root : String} :
    Pushless (fun parent => ext.parent subnet = some parent)
      (parentOf ext subnet root : Prog κ SubnetID) := by
  unfold parentOf
  split
  · exact Program.upholds_pure ‹_›
  · exact Program.upholds_fail _

theorem pushless_serialize {params : Params} {description : String}
    {f : Params → MpoolPushMessage} :
    Pushless (· = f params) (do
      let params ← serialize ext params description
      pure (f params) : Prog κ MpoolPushMessage) := by
  refine Program.upholds_bind (upholds_serialize (Q := (· = params)) rfl) ?_
  rintro _ rfl
  exact Program.upholds_pure rfl

variable {subnet : SubnetID} {sender : Address}

theorem careful_createSubnet {params : ConstructParams}
    (allowed : ∀ before codeCid, Reported client params.parent before → Allowed before client
      (.new ext.initActorAddr sender .initExec (.initExec codeCid params))) :
    Careful Allowed (createSubnet ext client sender params) := by
  refine Careful.then_pushless (careful_sendOn (Q := fun m => ∃ codeCid,
    m = .new ext.initActorAddr sender .initExec (.initExec codeCid params)) ?_ ?_) fun _ => ?_
  · refine Program.upholds_bind
      (emits_getSubnetActorCodeCid (fun _ => rfl) fun _ _ => rfl) fun codeCid _ => ?_
    refine Program.upholds_bind emits_serialize fun _ _ => ?_
    exact pushless_serialize.mono (fun _ => id) (fun _ => id) fun _ same => ⟨codeCid, same⟩
  · rintro before _ reported ⟨codeCid, rfl⟩
    exact allowed before codeCid reported
  · exact Program.upholds_bind emits_ofExcept fun _ _ => Program.upholds_pure trivial

/-- The operations on the parent's network. -/
theorem careful_onParent {message : MpoolPushMessage} {root mismatch : String}
    {build : Prog κ MpoolPushMessage} (pushless : Pushless (· = message) build)
    (allowed : ∀ before parent, ext.parent subnet = some parent → Reported client parent before →
      Allowed before client message) :
    Careful Allowed (do
      let parent ← parentOf ext subnet root
      let _ ← sendOn ext client parent mismatch build
      pure ()) := by
  refine Careful.of_pushless pushless_parentOf fun parent isParent => ?_
  refine Careful.then_pushless (careful_sendOn pushless ?_) fun _ => Program.upholds_pure trivial
  rintro before _ reported rfl
  exact allowed before parent isParent reported

/-- The operations on the subnet's own network. -/
theorem careful_onSubnet {message : MpoolPushMessage} {mismatch : String}
    {build : Prog κ MpoolPushMessage} (pushless : Pushless (· = message) build)
    (allowed : ∀ before, Reported client subnet before → Allowed before client message) :
    Careful Allowed (do
      let _ ← sendOn ext client subnet mismatch build
      pure ()) := by
  refine Careful.then_pushless (careful_sendOn pushless ?_) fun _ => Program.upholds_pure trivial
  rintro before _ reported rfl
  exact allowed before reported

/-- Nothing is known about the node here. -/
theorem careful_sendValue {receiver : Address} {amount : TokenAmount}
    (allowed : ∀ before, Allowed before client ⟨receiver, sender, amount, .send, .empty⟩) :
    Careful Allowed (sendValue ext client sender receiver amount) := by
  refine Careful.then_pushless (fun h none each => ?_) fun _ => Program.upholds_pure trivial
  exact wp_mpoolPushAndWait none each (allowed h)

end

end LotusSubnetManager

end IpcAgent.Manager
