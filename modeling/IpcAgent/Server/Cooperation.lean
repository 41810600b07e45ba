import IpcAgent.Manager.Responses
import IpcAgent.Server.RightNetwork

/-!
# Requests that are carried out

The node as the partner of a handler. If it belongs to the right network, takes messages and
gives replies that can be decoded, a request that means something ends with success, and the
node has got the message that the request means, and no other.
-/

namespace IpcAgent.Server
open Library Lotus Manager

/-- What matters of a node: the network it belongs to, and the code of the subnet actor. -/
structure Node where
  networkName : String
  code : Cid

/-- The messages that were pushed, and to whose node. -/
abbrev Pushed := List (Subnet × MpoolPushMessage)

/-- The subnet manager can read the address of a new subnet off the receipt. -/
def NamesSubnet (ext : Ext) (receipt : Receipt) : Prop :=
  ∃ r, parseResultInto ext ext.cborInitExecReturn ext.defaultInitExecReturn receipt = .ok r

/-- What the node may reply. It takes every message, and its other replies change nothing. Only
the receipt of a message that creates a subnet is ever read. -/
def Node.Responds (ext : Ext) (node : Node) : Partner (Call Subnet) Reply Pushed
  | w, .rpc conn (.mpoolPushMessage message), reply, w' =>
    w' = w ++ [(conn, message)] ∧ ∃ m c, reply = .pushed m ∧ cidOf ext m = some c
  | w, .rpc _ (.stateWaitMsg _), reply, w' =>
    w' = w ∧ ∃ receipt, reply = .waited receipt ∧
      ((∃ pushed ∈ w, pushed.2.method = .initExec) → NamesSubnet ext receipt)
  | w, .rpc _ .stateNetworkName, reply, w' => w' = w ∧ reply = .text node.networkName
  | w, .rpc _ .stateNetworkVersion, reply, w' => w' = w ∧ ∃ n, reply = .networkVersion n
  | w, .rpc _ (.stateActorCodeCids _), reply, w' =>
    w' = w ∧ ∃ l, reply = .codeCids l ∧ (∀ e ∈ l, ∃ c, cidOf ext e.2 = some c) ∧
      (l.lookup ext.manifestId).bind (cidOf ext) = some node.code
  | w, _, _, w' => w' = w

/-- On this node the program ends with a result in `Q`. -/
abbrev Does {α : Type} (ext : Ext) (node : Node) (p : Prog Subnet α) (Q : α → Pushed → Prop)
    (w : Pushed) : Prop :=
  p.Will (node.Responds ext) (fun _ _ => True) Q [] w

/-! ## Steps of the subnet manager -/

section Manager

variable {ext : Ext} {node : Node} {conn : Subnet} {w : Pushed}

theorem does_mpoolPushAndWait (message : MpoolPushMessage) :
    Does ext node (mpoolPushAndWait ext conn message)
      (fun receipt w' => (message.method = .initExec → NamesSubnet ext receipt) ∧
        w' = w ++ [(conn, message)]) w := by
  have pushed : Does ext node (mpoolPushMessage conn message)
      (fun m w' => (∃ c, cidOf ext m = some c) ∧ w' = w ++ [(conn, message)]) w := by
    refine will_request trivial ?_
    rintro reply _ ⟨rfl, m, c, rfl, cid⟩
    exact ⟨by simp, m, rfl, ⟨c, cid⟩, rfl⟩
  refine pushed.bind ?_
  rintro m _ ⟨⟨c, cid⟩, rfl⟩
  rw [cidTryFrom_eq cid, pure_bind]
  refine will_request trivial ?_
  rintro reply _ ⟨rfl, receipt, rfl, names⟩
  refine ⟨by simp, receipt, rfl, fun creates => names ⟨(conn, message), ?_, creates⟩, rfl⟩
  exact List.mem_append_right _ List.mem_cons_self

theorem does_isNetworkMatch {network : SubnetID} (belongs : node.networkName = network.text) :
    Does ext node (LotusSubnetManager.isNetworkMatch conn network)
      (fun isMatch w' => isMatch = true ∧ w' = w) w := by
  have named : Does ext node (stateNetworkName conn)
      (fun name w' => name = node.networkName ∧ w' = w) w := by
    refine will_request trivial ?_
    rintro reply _ ⟨rfl, rfl⟩
    exact ⟨by simp, _, rfl, rfl, rfl⟩
  refine named.bind ?_
  rintro _ _ ⟨rfl, rfl⟩
  exact Program.will_pure ⟨by simp [belongs], rfl⟩

/-- A message that is made without further ado is pushed. -/
theorem does_sendOn {network : SubnetID} {mismatch : String}
    {build : Prog Subnet MpoolPushMessage} (message : MpoolPushMessage)
    (belongs : node.networkName = network.text)
    (builds : Does ext node build (fun m w' => m = message ∧ w' = w) w) :
    Does ext node (LotusSubnetManager.sendOn ext conn network mismatch build)
      (fun receipt w' => (message.method = .initExec → NamesSubnet ext receipt) ∧
        w' = w ++ [(conn, message)]) w := by
  refine (does_isNetworkMatch belongs).bind ?_
  rintro _ _ ⟨rfl, rfl⟩
  refine builds.bind ?_
  rintro _ _ ⟨rfl, rfl⟩
  exact does_mpoolPushAndWait _

theorem serialize_eq {params : Params} {description : String}
    (serializes : ∀ params, ext.serializes params = true) :
    (serialize ext params description : Prog Subnet Params) = pure params := by
  simp [serialize, serializes]

theorem does_serialize {params : Params} {description : String} {f : Params → MpoolPushMessage}
    (serializes : ∀ params, ext.serializes params = true) :
    Does ext node (do
      let params ← serialize ext params description
      pure (f params)) (fun m w' => m = f params ∧ w' = w) w := by
  rw [serialize_eq serializes, pure_bind]
  exact Program.will_pure ⟨rfl, rfl⟩

theorem mapM_cidTryFrom (l : List (String × CIDMap)) (ok : ∀ e ∈ l, ∃ c, cidOf ext e.2 = some c) :
    ∃ cids, (l.mapM (fun e => do return (e.1, ← cidTryFrom ext e.2)) : Prog Subnet _) = pure cids ∧
      ∀ name, cids.lookup name = (l.lookup name).bind (cidOf ext) := by
  induction l with
  | nil => exact ⟨[], rfl, fun _ => rfl⟩
  | cons e l ih =>
    obtain ⟨c, cid⟩ := ok e List.mem_cons_self
    obtain ⟨cids, rest, same⟩ := ih fun e mem => ok e (List.mem_cons_of_mem _ mem)
    refine ⟨(e.1, c) :: cids, ?_, fun name => ?_⟩
    · rw [List.mapM_cons, cidTryFrom_eq cid, rest]
      simp
    · obtain ⟨key, m⟩ := e
      by_cases first : name = key
      · simp [first, cid]
      · have other : (name == key) = false := by simpa using first
        simp only [List.lookup_cons, other, same]

theorem does_getSubnetActorCodeCid :
    Does ext node (LotusSubnetManager.getSubnetActorCodeCid ext conn)
      (fun code w' => code = node.code ∧ w' = w) w := by
  have version : Does ext node (stateNetworkVersion conn) (fun _ w' => w' = w) w := by
    refine will_request trivial ?_
    rintro reply _ ⟨rfl, n, rfl⟩
    exact ⟨by simp, n, rfl, rfl⟩
  have cids (n : Nat) : Does ext node (stateActorCodeCids ext conn n)
      (fun cids w' => cids.lookup ext.manifestId = some node.code ∧ w' = w) w := by
    refine Program.Will.bind (Q := fun l w' => (∀ e ∈ l, ∃ c, cidOf ext e.2 = some c) ∧
      (l.lookup ext.manifestId).bind (cidOf ext) = some node.code ∧ w' = w)
      (will_request trivial ?_) ?_
    · rintro reply _ ⟨rfl, l, rfl, ok, code⟩
      exact ⟨by simp, l, rfl, ok, code, rfl⟩
    · rintro l _ ⟨ok, code, rfl⟩
      obtain ⟨cids, same, lookup⟩ := mapM_cidTryFrom l ok
      rw [same]
      exact Program.will_pure ⟨(lookup _).trans code, rfl⟩
  refine version.bind ?_
  rintro n _ rfl
  refine (cids n).bind ?_
  rintro cids _ ⟨found, rfl⟩
  rw [found]
  exact Program.will_pure ⟨rfl, rfl⟩

end Manager

section Handlers

variable {α : Type} {ext : Ext} {texts : Texts} {pool : HashMap SubnetID Subnet} {node : Node}
  {conn : Subnet} {subnet : String} {sender : Option String} {id parent : SubnetID} {a : Address}

/-! ## From effects to handlers -/

/-- The program ends, and the node has got the message of the effect and no other. -/
def CarriesOut (ext : Ext) (node : Node) (e : Effect) (p : Prog Subnet α) : Prop :=
  Does ext node p (fun _ w => w = [(e.node, e.message node.code)]) []

variable {e : Effect}

/-- The common part of most handlers that talk to the node of a subnet itself. -/
theorem carriesOut_own {make : SubnetID → Subnet → Address → Option (Cid → MpoolPushMessage)}
    {missing : String} {use : SubnetID → Subnet → Address → Prog Subnet α}
    (effect : onOwn ext texts pool subnet sender make = some e)
    (uses : ∀ id a, texts.subnetFromStr subnet = .ok id → e.network = some id →
      make id e.node a = some e.message → CarriesOut ext node e (use id e.node a)) :
    CarriesOut ext node e (onSubnet texts pool subnet missing fun id conn => do
      checkSubnet conn
      let a ← parseFrom ext conn sender
      use id conn a) := by
  obtain ⟨id, a, parsed, found, token, isSender, network, made⟩ := of_onOwn effect
  rw [onSubnet_eq parsed found, checkSubnet_eq token, pure_bind, parseFrom_eq isSender, pure_bind]
  exact uses id a parsed network made

/-- The common part of the handlers that talk to the node of the parent. -/
theorem carriesOut_parents {make : SubnetID → Subnet → Address → MpoolPushMessage}
    {use : SubnetID → Subnet → Address → Prog Subnet α}
    (effect : onParents ext texts pool subnet sender make = some e)
    (uses : ∀ id parent a, ext.parent id = some parent → e.network = some parent →
      e.message node.code = make id e.node a → CarriesOut ext node e (use id e.node a)) :
    CarriesOut ext node e (onParent ext texts pool subnet fun id conn => do
      checkSubnet conn
      let a ← parseFrom ext conn sender
      use id conn a) := by
  obtain ⟨id, parent, a, parsed, isParent, found, token, isSender, network, made⟩ :=
    of_onParents effect
  rw [onParent_eq parsed isParent found, checkSubnet_eq token, pure_bind, parseFrom_eq isSender,
    pure_bind]
  exact uses id parent a isParent network (congrFun made node.code)

theorem CarriesOut.map {β : Type} {p : Prog Subnet α} (carries : CarriesOut ext node e p)
    (f : α → β) : CarriesOut ext node e (f <$> p) :=
  carries.bind fun _ _ sent => Program.will_pure sent

/-- An operation of the subnet manager that has no use for the receipt. -/
theorem carriesOut_sendOn {network : SubnetID} {mismatch : String}
    {build : Prog Subnet MpoolPushMessage} (belongs : node.networkName = network.text)
    (builds : Does ext node build (fun m w => m = e.message node.code ∧ w = []) []) :
    CarriesOut ext node e (do
      let _ ← LotusSubnetManager.sendOn ext e.node network mismatch build
      pure ()) :=
  (does_sendOn _ belongs builds).bind fun _ _ post => Program.will_pure post.2

theorem carriesOut_onParent {mismatch root : String} {build : Prog Subnet MpoolPushMessage}
    (isParent : ext.parent id = some parent) (belongs : node.networkName = parent.text)
    (builds : Does ext node build (fun m w => m = e.message node.code ∧ w = []) []) :
    CarriesOut ext node e (do
      let parent ← LotusSubnetManager.parentOf ext id root
      let _ ← LotusSubnetManager.sendOn ext e.node parent mismatch build
      pure ()) := by
  have same : (LotusSubnetManager.parentOf ext id root : Prog Subnet SubnetID) = pure parent := by
    simp [LotusSubnetManager.parentOf, isParent]
  rw [same, pure_bind]
  exact carriesOut_sendOn belongs builds

end Handlers

/-! ## Requests -/

theorem does_createSubnet {ext : Ext} {node : Node} {conn : Subnet} {sender : Address}
    {params : ConstructParams} {w : Pushed} (belongs : node.networkName = params.parent.text)
    (serializes : ∀ params, ext.serializes params = true) :
    Does ext node (LotusSubnetManager.createSubnet ext conn sender params)
      (fun _ w' => w' = w ++ [(conn, ⟨ext.initActorAddr, sender, 0, .initExec,
        .initExec node.code params⟩)]) w := by
  let message : MpoolPushMessage :=
    ⟨ext.initActorAddr, sender, 0, .initExec, .initExec node.code params⟩
  refine (does_sendOn message belongs (does_getSubnetActorCodeCid.bind ?_)).bind ?_
  · rintro _ _ ⟨rfl, rfl⟩
    rw [serialize_eq serializes, pure_bind]
    exact does_serialize serializes
  · rintro receipt _ ⟨names, rfl⟩
    obtain ⟨r, parsed⟩ := names rfl
    rw [parsed]
    exact Program.will_pure rfl

theorem carriesOut_handle {ext : Ext} {texts : Texts} {pool : HashMap SubnetID Subnet}
    {request : Request} {e : Effect} {node : Node}
    (effect : request.effect ext texts pool = some e)
    (belongs : ∀ network ∈ e.network, node.networkName = network.text)
    (serializes : ∀ params, ext.serializes params = true) :
    CarriesOut ext node e (handle ext texts pool request) := by
  cases request with
  | join params | fund params | setValidatorNetAddr params =>
    refine (carriesOut_parents effect fun id parent a isParent network made => ?_).map _
    refine carriesOut_onParent isParent (belongs _ network) ?_
    rw [made]
    exact does_serialize serializes
  | leave params | kill params =>
    refine (carriesOut_parents effect fun id parent a isParent network made => ?_).map _
    refine carriesOut_onParent isParent (belongs _ network) ?_
    rw [made]
    exact Program.will_pure ⟨rfl, rfl⟩
  | release params =>
    refine (carriesOut_own effect fun id a parsed network made => ?_).map _
    refine carriesOut_sendOn (belongs _ network) ?_
    rw [← Option.some.inj made]
    exact Program.will_pure ⟨rfl, rfl⟩
  | propagate params =>
    refine (carriesOut_own effect fun id a parsed network made => ?_).map _
    rw [parsed]
    refine carriesOut_sendOn (belongs _ network) ?_
    rw [← Option.some.inj made]
    exact does_serialize serializes
  | sendValue params =>
    simp only [Request.effect, Option.bind_eq_bind, Option.bind_eq_some_iff] at effect
    obtain ⟨own, isOwn, same⟩ := effect
    obtain rfl := Option.some.inj same
    refine CarriesOut.map (e := own) (carriesOut_own isOwn fun id a parsed _ made => ?_) _
    simp only [Option.bind_eq_some_iff] at made
    obtain ⟨receiver, isReceiver, message⟩ := made
    rw [ok_of_toOption isReceiver]
    refine (does_mpoolPushAndWait _).bind fun _ _ post => Program.will_pure ?_
    rw [post.2, ← Option.some.inj message]
    rfl
  -- These two handlers read something else before they ask who sends the message.
  | whitelistPropagator params =>
    obtain ⟨id, a, parsed, found, token, isSender, network, made⟩ := of_onOwn effect
    simp only [Option.bind_eq_bind, Option.bind_eq_some_iff] at made
    obtain ⟨toAdd, listed, message⟩ := made
    refine CarriesOut.map ?_ _
    rw [whitelistPropagatorHandler, onSubnet_eq parsed found, checkSubnet_eq token, pure_bind,
      ok_of_toOption listed, parseFrom_eq isSender]
    refine carriesOut_sendOn (belongs _ network) ?_
    rw [← Option.some.inj message]
    exact does_serialize serializes
  | create params =>
    obtain ⟨id, a, parsed, found, token, isSender, network, made⟩ := of_onOwn effect
    simp only [Option.bind_eq_bind, Option.bind_eq_some_iff] at made
    obtain ⟨gateway, isGateway, message⟩ := made
    refine CarriesOut.map ?_ _
    rw [createSubnetHandler, onSubnet_eq parsed found, checkSubnet_eq token, pure_bind,
      ok_of_toOption isGateway, parseFrom_eq isSender]
    refine (does_createSubnet (belongs _ network) serializes).bind fun _ _ sent =>
      Program.will_pure ?_
    rw [sent, ← Option.some.inj message]
    rfl

/-- A request means one message or none. Whatever the node replies, no other message is sent, and
no success is reported without it. If the request means a message and the node cooperates, the
request succeeds. -/
theorem request_means_message (ext : Ext) (texts : Texts) (pool : HashMap SubnetID Subnet)
    (request : Request) :
    (∀ replies, let run := (handle ext texts pool request).run replies
      (pushes run.trace = [] ∧ ∀ r, run.outcome ≠ .ret r) ∨
        ∃ e code, request.effect ext texts pool = some e ∧
          pushes run.trace = [(e.node, e.message code)] ∧
          ∀ network ∈ e.network, Reported e.node network run.trace) ∧
      ∀ e node, request.effect ext texts pool = some e →
        (∀ network ∈ e.network, node.networkName = network.text) →
        (∀ params, ext.serializes params = true) →
        CarriesOut ext node e (handle ext texts pool request) :=
  ⟨effect_of_run ext texts pool request, fun _ _ => carriesOut_handle⟩

/-- The node of the root. -/
def rootNode : Node := ⟨"/root", ⟨[99]⟩⟩

theorem rootNode_responds (w : Pushed) (c : Call Subnet) :
    ∃ reply w', rootNode.Responds .plain w c reply w' := by
  cases c with
  | wait => exact ⟨.woken true, w, rfl⟩
  | rpc conn rpc =>
    cases rpc with
    | mpoolPushMessage message => exact ⟨.pushed ⟨some "c"⟩, _, rfl, _, _, rfl, rfl⟩
    | stateWaitMsg cid => exact ⟨.waited ⟨0, none⟩, w, rfl, _, rfl, fun _ => ⟨_, rfl⟩⟩
    | stateNetworkName => exact ⟨.text "/root", w, rfl, rfl⟩
    | stateNetworkVersion => exact ⟨.networkVersion 18, w, rfl, 18, rfl⟩
    | stateActorCodeCids n =>
      refine ⟨.codeCids [("ipc_subnet_actor", ⟨some "c"⟩)], w, rfl, _, rfl, ?_, by decide⟩
      exact fun e mem => ⟨⟨[99]⟩, by rw [List.mem_singleton.mp mem]; decide⟩
    | _ => exact ⟨.woken true, w, rfl⟩

/-- A child is funded by a node that always has a reply. -/
theorem request_means_message_fund :
    (∀ w c, ∃ reply w', rootNode.Responds .plain w c reply w') ∧
      CarriesOut .plain rootNode
        ⟨rootConfig, some ⟨"/root"⟩,
          fun _ => ⟨⟨[64]⟩, ⟨[1]⟩, fromWhole 5, .gatewayFund, .fund ⟨"/root/t01"⟩⟩⟩
        (handle .plain .plain rootPool (.fund ⟨"/root/t01", none, 5⟩)) := by
  refine ⟨rootNode_responds, ?_⟩
  refine (request_means_message .plain .plain rootPool (.fund ⟨"/root/t01", none, 5⟩)).2 _ _ ?_ ?_
    fun _ => rfl
  · rfl
  · rintro _ ⟨⟩
    rfl

end IpcAgent.Server
