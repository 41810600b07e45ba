import IpcAgent.Server.Effects

/-!
# The right network

A message belongs on the network of one subnet: the one that the request is about, or its parent.
It goes to the node configured for this subnet and uses the gateway configured there. All
requests but one are sent only after the node has said that it belongs to this network.
-/

namespace IpcAgent.Server
open Library Lotus Manager

/-- The subnet on whose network the message of a request belongs. -/
def Request.network (ext : Ext) (texts : Texts) : Request → Option SubnetID
  | .create params => (texts.subnetFromStr params.parent).toOption
  | .join ⟨subnet, _, _, _⟩ | .leave ⟨subnet, _⟩ | .kill ⟨subnet, _⟩ | .fund ⟨subnet, _, _⟩
  | .setValidatorNetAddr ⟨subnet, _, _⟩ => (texts.subnetFromStr subnet).toOption.bind ext.parent
  | .release ⟨subnet, _, _⟩ | .propagate ⟨subnet, _, _⟩ | .whitelistPropagator ⟨subnet, _, _, _⟩
  | .sendValue ⟨subnet, _, _, _⟩ => (texts.subnetFromStr subnet).toOption

/-- Every request but one to send value. -/
def Request.AsksName : Request → Prop
  | .sendValue _ => False
  | _ => True

/-- If the message uses a gateway, it is the one configured with the connection. -/
def UsesGateway (texts : Texts) (conn : Subnet) (message : MpoolPushMessage) : Prop :=
  match message.method, message.params with
  | .gatewayFund, _ | .gatewayRelease, _ | .gatewayPropagate, _
  | .gatewayWhiteListPropagator, _ => message.receiver = conn.gatewayAddr
  | .initExec, .initExec _ constructor =>
    texts.addressId conn.gatewayAddr = .ok constructor.ipcGatewayAddr
  | _, _ => True

/-- The message of a request goes to the node configured for its network. -/
def Meant (ext : Ext) (texts : Texts) (pool : HashMap SubnetID Subnet) (request : Request)
    (before : Trace Subnet) (conn : Subnet) (message : MpoolPushMessage) : Prop :=
  ∃ network, request.network ext texts = some network ∧ pool.lookup network = some conn ∧
    UsesGateway texts conn message ∧ (request.AsksName → Reported conn network before)

/-- It does, and the node has reported the name of this network. -/
def OnRightNetwork (ext : Ext) (texts : Texts) (pool : HashMap SubnetID Subnet)
    (request : Request) (before : Trace Subnet) (conn : Subnet) (message : MpoolPushMessage) :
    Prop :=
  ∃ network, request.network ext texts = some network ∧ pool.lookup network = some conn ∧
    UsesGateway texts conn message ∧ Reported conn network before

/-! ## What the effect of a request says about it -/

section Meant

variable {ext : Ext} {texts : Texts} {pool : HashMap SubnetID Subnet} {request : Request}
  {subnet : String} {sender : Option String} {e : Effect} {code : Cid} {before : Trace Subnet}

theorem Meant.own {make : SubnetID → Subnet → Address → Option (Cid → MpoolPushMessage)}
    (network : request.network ext texts = (texts.subnetFromStr subnet).toOption)
    (effect : onOwn ext texts pool subnet sender make = some e)
    (gateway : ∀ id a, make id e.node a = some e.message →
      UsesGateway texts e.node (e.message code))
    (reported : ∀ network ∈ e.network, request.AsksName → Reported e.node network before) :
    Meant ext texts pool request before e.node (e.message code) := by
  obtain ⟨id, a, parsed, found, -, -, isNetwork, made⟩ := of_onOwn effect
  refine ⟨id, ?_, found, gateway id a made, reported id isNetwork⟩
  rw [network, parsed]
  rfl

theorem Meant.parents {make : SubnetID → Subnet → Address → MpoolPushMessage}
    (network : request.network ext texts = (texts.subnetFromStr subnet).toOption.bind ext.parent)
    (effect : onParents ext texts pool subnet sender make = some e)
    (gateway : ∀ id a, UsesGateway texts e.node (make id e.node a))
    (reported : ∀ network ∈ e.network, Reported e.node network before) :
    Meant ext texts pool request before e.node (e.message code) := by
  obtain ⟨id, parent, a, parsed, isParent, found, -, -, isNetwork, made⟩ := of_onParents effect
  refine ⟨parent, ?_, found, ?_, fun _ => reported parent isNetwork⟩
  · rw [network, parsed]
    exact isParent
  · rw [made]
    exact gateway id a

theorem meant_of_effected {conn : Subnet} {message : MpoolPushMessage}
    (effected : Effected ext texts pool request before conn message) :
    Meant ext texts pool request before conn message := by
  obtain ⟨e, code, effect, rfl, rfl, reported⟩ := effected
  have reported' : ∀ network ∈ e.network, request.AsksName → Reported e.node network before :=
    fun network mem _ => reported network mem
  cases request with
  | join params | leave params | kill params | setValidatorNetAddr params =>
    exact .parents rfl effect (fun _ _ => trivial) reported
  | fund params => exact .parents rfl effect (fun _ _ => rfl) reported
  | create params =>
    refine .own rfl effect (fun id a made => ?_) reported'
    simp only [Option.bind_eq_bind, Option.bind_eq_some_iff] at made
    obtain ⟨gateway, isGateway, message⟩ := made
    rw [← Option.some.inj message]
    exact ok_of_toOption isGateway
  | release params | propagate params =>
    refine .own rfl effect (fun id a made => ?_) reported'
    rw [← Option.some.inj made]
    exact rfl
  | whitelistPropagator params =>
    refine .own rfl effect (fun id a made => ?_) reported'
    simp only [Option.bind_eq_bind, Option.bind_eq_some_iff] at made
    obtain ⟨toAdd, -, message⟩ := made
    rw [← Option.some.inj message]
    exact rfl
  | sendValue params =>
    simp only [Request.effect, Option.bind_eq_bind, Option.bind_eq_some_iff] at effect
    obtain ⟨own, isOwn, same⟩ := effect
    obtain rfl := Option.some.inj same
    refine Meant.own (e := own) rfl isOwn (fun id a made => ?_) fun _ _ => False.elim
    simp only [Option.bind_eq_some_iff] at made
    obtain ⟨receiver, -, message⟩ := made
    rw [← Option.some.inj message]
    trivial

end Meant

/-! ## Value is sent unasked -/

section Opens

variable {κ α β : Type}

/-- The first thing the program does is to make this call. -/
def Opens (c : Call κ) (p : Prog κ α) : Prop :=
  ∀ reply, ∃ rest, (p.run [reply]).trace = .exchange c reply :: rest

theorem opens_ask (c : Call κ) : Opens c (Program.ask c : Prog κ Reply) := fun _ => ⟨[], rfl⟩

theorem Opens.bind {c : Call κ} {p : Prog κ α} (opens : Opens c p) (f : α → Prog κ β) :
    Opens c (p >>= f) := by
  intro reply
  obtain ⟨rest, trace⟩ := opens reply
  change ∃ rest, (Program.andThen (p.run [reply]) _).trace = _
  unfold Program.andThen
  cases (p.run [reply]).outcome with
  | ret a =>
    exact ⟨rest ++ ((f a).run (p.run [reply]).rest).trace, by simp only [Run.after, trace]; rfl⟩
  | halt x => exact ⟨rest, trace⟩

end Opens

theorem opens_sendValue {ext : Ext} {texts : Texts} {pool : HashMap SubnetID Subnet}
    {params : SendValueParams} {e : Effect}
    (effect : (Request.sendValue params).effect ext texts pool = some e) :
    ∃ message, Opens (.rpc e.node (.mpoolPushMessage message))
      (handle ext texts pool (.sendValue params)) := by
  simp only [Request.effect, Option.bind_eq_bind, Option.bind_eq_some_iff] at effect
  obtain ⟨own, isOwn, same⟩ := effect
  obtain rfl := Option.some.inj same
  obtain ⟨id, a, parsed, found, token, isSender, -, made⟩ := of_onOwn isOwn
  simp only [Option.bind_eq_some_iff] at made
  obtain ⟨receiver, isReceiver, -⟩ := made
  refine ⟨⟨receiver, a, fromWhole params.amount, .send, .empty⟩, Opens.bind ?_ _⟩
  rw [sendValueHandler, onSubnet_eq parsed found, checkSubnet_eq token, pure_bind,
    parseFrom_eq isSender, pure_bind, ok_of_toOption isReceiver]
  exact (((opens_ask _).bind _).bind _).bind _

theorem pushedOnce_mono {Allowed Allowed' : Trace Subnet → Subnet → MpoolPushMessage → Prop}
    {t : Trace Subnet} (each : EachAfter (PushedOnce Allowed) t)
    (imp : ∀ before conn message, Allowed before conn message → Allowed' before conn message) :
    EachAfter (PushedOnce Allowed') t := by
  intro before event after split conn message pushed
  obtain ⟨first, allowed⟩ := each before event after split conn message pushed
  exact ⟨first, imp before conn message allowed⟩

/-- Whatever the node replies, at most one message is pushed for a request. It goes out on the
connection configured for the subnet it belongs to, with the gateway configured there. The node
has always reported the name of this subnet before, just if the request is not one to send value,
or means nothing. -/
theorem message_on_right_network_iff (ext : Ext) (texts : Texts) (pool : HashMap SubnetID Subnet)
    (request : Request) :
    (∀ replies, EachAfter (PushedOnce (Meant ext texts pool request))
      ((handle ext texts pool request).run replies).trace) ∧
    ((∀ replies, EachAfter (PushedOnce (OnRightNetwork ext texts pool request))
        ((handle ext texts pool request).run replies).trace) ↔
      request.AsksName ∨ request.effect ext texts pool = none) := by
  have effected (replies : List Reply) : EachAfter (PushedOnce (Effected ext texts pool request))
      ((handle ext texts pool request).run replies).trace :=
    Program.wp_trace (careful_effect ext texts pool request [] rfl eachAfter_nil) replies
  refine ⟨fun replies => pushedOnce_mono (effected replies) fun _ _ _ => meant_of_effected, ?_, ?_⟩
  · intro right
    by_contra neither
    rw [not_or] at neither
    obtain ⟨notAsks, means⟩ := neither
    cases request with
    | sendValue params =>
      obtain ⟨e, effect⟩ := Option.ne_none_iff_exists'.mp means
      obtain ⟨message, opens⟩ := opens_sendValue effect
      obtain ⟨rest, trace⟩ := opens (.woken true)
      -- The first event is the push, so that nothing can have been reported.
      obtain ⟨-, network, -, -, -, reported⟩ := right [.woken true] [] _ rest trace _ _ rfl
      exact absurd reported (List.not_mem_nil)
    | _ => exact notAsks trivial
  · rintro (asks | none) replies
    · refine pushedOnce_mono (effected replies) fun before conn message effected => ?_
      obtain ⟨network, isNetwork, found, gateway, reported⟩ := meant_of_effected effected
      exact ⟨network, isNetwork, found, gateway, reported asks⟩
    · refine pushedOnce_mono (effected replies) fun before conn message effected => ?_
      obtain ⟨e, -, effect, -⟩ := effected
      rw [none] at effect
      cases effect

/-- Texts that stand for themselves. -/
def Texts.plain : Texts where
  subnetFromStr s := .ok ⟨s⟩
  addressId _ := .ok 64
  addressToString _ := "t01"

def rootConfig : Subnet :=
  ⟨⟨⟨"/root"⟩, [⟨[1]⟩]⟩, ⟨[64]⟩, "http://127.0.0.1:1234/rpc/v1", some "token"⟩

def rootPool : HashMap SubnetID Subnet := (∅ : HashMap SubnetID Subnet).insert ⟨"/root"⟩ rootConfig

/-- A child is funded through the gateway of the root. -/
theorem funded_through_root :
    pushes ((handle .plain .plain rootPool (.fund ⟨"/root/t01", none, 5⟩)).run
        [.text "/root", .pushed ⟨some "m"⟩, .waited ⟨0, none⟩]).trace =
      [(rootConfig, ⟨⟨[64]⟩, ⟨[1]⟩, fromWhole 5, .gatewayFund, .fund ⟨"/root/t01"⟩⟩)] ∧
    EachAfter (PushedOnce (OnRightNetwork .plain .plain rootPool
        (.fund ⟨"/root/t01", none, 5⟩)))
      ((handle .plain .plain rootPool (.fund ⟨"/root/t01", none, 5⟩)).run
        [.text "/root", .pushed ⟨some "m"⟩, .waited ⟨0, none⟩]).trace :=
  ⟨by decide +kernel, (message_on_right_network_iff .plain .plain rootPool
    (.fund ⟨"/root/t01", none, 5⟩)).2.mpr (.inl trivial) _⟩

/-- A run that sends value. -/
def sendsValue : Trace Subnet :=
  ((handle .plain .plain rootPool (.sendValue ⟨"/root", none, "t02", 5⟩)).run
    [.pushed ⟨some "m"⟩, .waited ⟨0, none⟩]).trace

theorem sendsValue_eq : sendsValue =
    [.exchange (.rpc rootConfig (.mpoolPushMessage
      ⟨⟨[116, 48, 50]⟩, ⟨[1]⟩, fromWhole 5, .send, .empty⟩)) (.pushed ⟨some "m"⟩),
    .exchange (.rpc rootConfig (.stateWaitMsg ⟨[109]⟩)) (.waited ⟨0, none⟩)] := by
  decide +kernel

/-- Value is sent, and no node has reported the name of its network. -/
theorem value_sent_unasked :
    pushes sendsValue =
      [(rootConfig, ⟨⟨[116, 48, 50]⟩, ⟨[1]⟩, fromWhole 5, .send, .empty⟩)] ∧
    ∀ conn network, ¬ Reported conn network sendsValue := by
  rw [sendsValue_eq]
  refine ⟨rfl, fun conn network reported => ?_⟩
  simp [Reported] at reported

end IpcAgent.Server
