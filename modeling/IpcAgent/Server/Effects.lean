import IpcAgent.Library.Partner
import IpcAgent.Server.SubnetHandlers

/-!
# What requests mean

`Request.effect` says what a request asks for and nothing about how it is done: which node gets
which message, and which network this node has to belong to. The handlers take several steps
and calls to get there. Whatever the node replies on the way, they send this message or none,
and they report success only if it was sent.
-/

namespace IpcAgent.Server
open Library Lotus Manager

/-! ## Effects -/

/-- What is to happen: the node of a subnet gets a message, if it belongs to the network. The
message may have to name the code of the subnet actor. -/
structure Effect where
  node : Subnet
  network : Option SubnetID
  message : Cid → MpoolPushMessage

section Effects

variable (ext : Ext) (texts : Texts) (pool : HashMap SubnetID Subnet)

/-- The node of a subnet, if the agent may send something to it. -/
def nodeOf (subnet : SubnetID) : Option Subnet :=
  (pool.lookup subnet).filter fun node => node.authToken.isSome

/-- Who sends the message: whoever the request names, or else the first account of the node. -/
def senderOf (node : Subnet) : Option String → Option Address
  | some addr => (ext.addressFromStr addr).toOption
  | none => node.accounts.head?

/-- A message to the network of the subnet. -/
def onOwn (subnet : String) (sender : Option String)
    (message : SubnetID → Subnet → Address → Option (Cid → MpoolPushMessage)) :
    Option Effect := do
  let subnet ← (texts.subnetFromStr subnet).toOption
  let node ← nodeOf pool subnet
  let sender ← senderOf ext node sender
  let message ← message subnet node sender
  return ⟨node, some subnet, message⟩

/-- A message to the network of the subnet's parent. -/
def onParents (subnet : String) (sender : Option String)
    (message : SubnetID → Subnet → Address → MpoolPushMessage) : Option Effect := do
  let subnet ← (texts.subnetFromStr subnet).toOption
  let parent ← ext.parent subnet
  let node ← nodeOf pool parent
  let sender ← senderOf ext node sender
  return ⟨node, some parent, fun _ => message subnet node sender⟩

def Request.effect : Request → Option Effect
  | .create p => onOwn ext texts pool p.parent p.sender fun parent node sender => do
    let gateway ← (texts.addressId node.gatewayAddr).toOption
    return fun code => ⟨ext.initActorAddr, sender, 0, .initExec, .initExec code
      { parent := parent
        name := p.name
        ipcGatewayAddr := gateway
        minValidatorStake := fromWhole p.minValidatorStake
        minValidators := p.minValidators
        bottomupCheckPeriod := p.bottomupCheckPeriod
        topdownCheckPeriod := p.topdownCheckPeriod }⟩
  | .join p => onParents ext texts pool p.subnet p.sender fun subnet _ sender =>
    ⟨ext.subnetActor subnet, sender, fromWhole p.collateral, .subnetJoin,
      .join p.validatorNetAddr⟩
  | .leave p => onParents ext texts pool p.subnet p.sender fun subnet _ sender =>
    ⟨ext.subnetActor subnet, sender, 0, .subnetLeave, .empty⟩
  | .kill p => onParents ext texts pool p.subnet p.sender fun subnet _ sender =>
    ⟨ext.subnetActor subnet, sender, 0, .subnetKill, .empty⟩
  | .fund p => onParents ext texts pool p.subnet p.sender fun subnet node sender =>
    ⟨node.gatewayAddr, sender, fromWhole p.amount, .gatewayFund, .fund subnet⟩
  | .release p => onOwn ext texts pool p.subnet p.sender fun _ node sender =>
    some fun _ => ⟨node.gatewayAddr, sender, fromWhole p.amount, .gatewayRelease, .empty⟩
  | .propagate p => onOwn ext texts pool p.subnet p.sender fun _ node sender =>
    some fun _ => ⟨node.gatewayAddr, sender, 0, .gatewayPropagate, .propagate p.postboxMsgCid⟩
  | .setValidatorNetAddr p => onParents ext texts pool p.subnet p.sender fun subnet _ sender =>
    ⟨ext.subnetActor subnet, sender, 0, .subnetSetValidatorNetAddr, .join p.validatorNetAddr⟩
  | .whitelistPropagator p => onOwn ext texts pool p.subnet p.sender fun _ node sender => do
    let toAdd ← (p.toAdd.mapM ext.addressFromStr).toOption
    return fun _ => ⟨node.gatewayAddr, sender, 0, .gatewayWhiteListPropagator,
      .whitelistPropagator p.postboxMsgCid toAdd⟩
  | .sendValue p => do
    -- Nobody asks which network the node belongs to.
    let e ← onOwn ext texts pool p.subnet p.sender fun _ _ sender => do
      let receiver ← (ext.addressFromStr p.receiver).toOption
      return fun _ => ⟨receiver, sender, fromWhole p.amount, .send, .empty⟩
    return { e with network := none }

end Effects

/-! ## What is known when the message is sent -/

section Known

variable {α : Type} {ext : Ext} {texts : Texts} {pool : HashMap SubnetID Subnet}
  {Allowed : Trace Subnet → Subnet → MpoolPushMessage → Prop} {conn : Subnet}

theorem pushless_authorized : Pushless (fun _ => conn.authToken.isSome = true)
    (checkSubnet conn) := by
  unfold checkSubnet
  split
  · exact Program.upholds_fail _
  · rename_i token
    exact Program.upholds_pure (by simpa [Option.isSome_iff_ne_none] using token)

theorem pushless_sender {sender : Option String} :
    Pushless (fun a => senderOf ext conn sender = some a) (parseFrom ext conn sender) := by
  unfold parseFrom senderOf
  cases sender with
  | some addr => exact upholds_ofExcept fun a parsed => by simp [parsed, Except.toOption]
  | none =>
    cases conn.accounts with
    | nil => exact Program.upholds_fail _
    | cons account _ => exact Program.upholds_pure rfl

theorem careful_sender {sender : Option String} {use : Address → Prog Subnet α}
    (careful : ∀ a, conn.authToken.isSome = true → senderOf ext conn sender = some a →
      Careful Allowed (use a)) :
    Careful Allowed (do
      checkSubnet conn
      let a ← parseFrom ext conn sender
      use a) :=
  .of_pushless pushless_authorized fun _ token =>
    .of_pushless pushless_sender fun a isSender => careful a token isSender

variable {subnet : String} {sender : Option String} {id parent : SubnetID} {a : Address}

theorem onOwn_eq {message : SubnetID → Subnet → Address → Option (Cid → MpoolPushMessage)}
    (parsed : texts.subnetFromStr subnet = .ok id) (found : pool.lookup id = some conn)
    (token : conn.authToken.isSome = true) (isSender : senderOf ext conn sender = some a) :
    onOwn ext texts pool subnet sender message =
      (message id conn a).map fun m => ⟨conn, some id, m⟩ := by
  have node : nodeOf pool id = some conn := by simp [nodeOf, found, token]
  simp only [onOwn, parsed, Except.toOption, node, isSender, Option.bind_eq_bind, Option.bind_some]
  cases message id conn a <;> rfl

theorem onParents_eq {message : SubnetID → Subnet → Address → MpoolPushMessage}
    (parsed : texts.subnetFromStr subnet = .ok id) (isParent : ext.parent id = some parent)
    (found : pool.lookup parent = some conn) (token : conn.authToken.isSome = true)
    (isSender : senderOf ext conn sender = some a) :
    onParents ext texts pool subnet sender message =
      some ⟨conn, some parent, fun _ => message id conn a⟩ := by
  have node : nodeOf pool parent = some conn := by simp [nodeOf, found, token]
  simp only [onParents, parsed, Except.toOption, isParent, node, isSender, Option.bind_eq_bind,
    Option.bind_some]
  rfl

end Known

/-! ## At most this message -/

/-- The message belongs to the effect of the request, and the node has reported the network. -/
def Effected (ext : Ext) (texts : Texts) (pool : HashMap SubnetID Subnet) (request : Request)
    (before : Trace Subnet) (conn : Subnet) (message : MpoolPushMessage) : Prop :=
  ∃ e code, request.effect ext texts pool = some e ∧ conn = e.node ∧ message = e.message code ∧
    ∀ network ∈ e.network, Reported conn network before

section Careful

variable {ext : Ext} {texts : Texts} {pool : HashMap SubnetID Subnet} {request : Request}
  {subnet : String} {sender : Option String} {id parent : SubnetID} {conn : Subnet} {a : Address}
  {before : Trace Subnet}

theorem Effected.own {make : SubnetID → Subnet → Address → Option (Cid → MpoolPushMessage)}
    {sent : MpoolPushMessage} (code : Cid)
    (effect : request.effect ext texts pool = onOwn ext texts pool subnet sender make)
    (made : (make id conn a).map (· code) = some sent)
    (parsed : texts.subnetFromStr subnet = .ok id) (found : pool.lookup id = some conn)
    (token : conn.authToken.isSome = true) (isSender : senderOf ext conn sender = some a)
    (reported : Reported conn id before) : Effected ext texts pool request before conn sent := by
  obtain ⟨message, isMessage, rfl⟩ := Option.map_eq_some_iff.mp made
  refine ⟨⟨conn, some id, message⟩, code, ?_, rfl, rfl, ?_⟩
  · rw [effect, onOwn_eq parsed found token isSender, isMessage, Option.map_some]
  · rintro _ ⟨⟩
    exact reported

theorem Effected.parents {make : SubnetID → Subnet → Address → MpoolPushMessage}
    {sent : MpoolPushMessage} {parent' : SubnetID}
    (effect : request.effect ext texts pool = onParents ext texts pool subnet sender make)
    (made : make id conn a = sent) (parsed : texts.subnetFromStr subnet = .ok id)
    (isParent : ext.parent id = some parent) (found : pool.lookup parent = some conn)
    (token : conn.authToken.isSome = true) (isSender : senderOf ext conn sender = some a)
    (isParent' : ext.parent id = some parent') (reported : Reported conn parent' before) :
    Effected ext texts pool request before conn sent := by
  obtain rfl : parent = parent' := Option.some.inj (isParent.symm.trans isParent')
  refine ⟨⟨conn, some parent, fun _ => make id conn a⟩, ⟨[]⟩, ?_, rfl, made.symm, ?_⟩
  · rw [effect, onParents_eq parsed isParent found token isSender]
  · rintro _ ⟨⟩
    exact reported

open LotusSubnetManager in
theorem careful_effect (ext : Ext) (texts : Texts) (pool : HashMap SubnetID Subnet)
    (request : Request) :
    Careful (Effected ext texts pool request) (handle ext texts pool request) := by
  cases request with
  | create params =>
    refine (careful_onSubnetHandler fun parent conn parsed found => ?_).map
    refine .of_pushless pushless_authorized fun _ token => ?_
    refine .of_pushless (upholds_ofExcept fun _ same => same) fun gateway isGateway => ?_
    refine .of_pushless pushless_sender fun sender isSender => ?_
    refine .map (careful_createSubnet fun before code => ?_)
    refine .own code rfl ?_ parsed found token isSender
    rw [isGateway]
    rfl
  | join params =>
    refine (careful_onParentHandler fun id parent conn parsed isParent found => ?_).map
    refine careful_sender fun sender token isSender => careful_onParent pushless_serialize ?_
    exact fun before _ => .parents rfl rfl parsed isParent found token isSender
  | leave params =>
    refine (careful_onParentHandler fun id parent conn parsed isParent found => ?_).map
    refine careful_sender fun sender token isSender =>
      careful_onParent (Program.upholds_pure rfl) ?_
    exact fun before _ => .parents rfl rfl parsed isParent found token isSender
  | kill params =>
    refine (careful_onParentHandler fun id parent conn parsed isParent found => ?_).map
    refine careful_sender fun sender token isSender =>
      careful_onParent (Program.upholds_pure rfl) ?_
    exact fun before _ => .parents rfl rfl parsed isParent found token isSender
  | fund params =>
    refine (careful_onParentHandler fun id parent conn parsed isParent found => ?_).map
    refine careful_sender fun sender token isSender => careful_onParent pushless_serialize ?_
    exact fun before _ => .parents rfl rfl parsed isParent found token isSender
  | setValidatorNetAddr params =>
    refine (careful_onParentHandler fun id parent conn parsed isParent found => ?_).map
    refine careful_sender fun sender token isSender => careful_onParent pushless_serialize ?_
    exact fun before _ => .parents rfl rfl parsed isParent found token isSender
  | release params =>
    refine (careful_onSubnetHandler fun id conn parsed found => ?_).map
    refine careful_sender fun sender token isSender =>
      careful_onSubnet (Program.upholds_pure rfl) ?_
    exact fun before => .own ⟨[]⟩ rfl rfl parsed found token isSender
  | propagate params =>
    refine (careful_onSubnetHandler fun id conn parsed found => ?_).map
    refine careful_sender fun sender token isSender => ?_
    -- The subnet is parsed again.
    refine .of_pushless (upholds_ofExcept fun _ same => same) fun again parsedAgain => ?_
    obtain rfl : id = again := Except.ok.inj (parsed.symm.trans parsedAgain)
    refine careful_onSubnet pushless_serialize fun before => ?_
    exact .own ⟨[]⟩ rfl rfl parsed found token isSender
  | whitelistPropagator params =>
    refine (careful_onSubnetHandler fun id conn parsed found => ?_).map
    refine .of_pushless pushless_authorized fun _ token => ?_
    refine .of_pushless (upholds_ofExcept fun _ same => same) fun toAdd listed => ?_
    refine .of_pushless pushless_sender fun sender isSender => ?_
    refine careful_onSubnet pushless_serialize fun before => ?_
    refine .own ⟨[]⟩ rfl ?_ parsed found token isSender
    rw [listed]
    rfl
  | sendValue params =>
    refine (careful_onSubnetHandler fun id conn parsed found => ?_).map
    refine careful_sender fun sender token isSender => ?_
    refine .of_pushless (upholds_ofExcept fun _ same => same) fun receiver isReceiver => ?_
    refine careful_sendValue fun before => ?_
    refine ⟨⟨conn, none, fun _ => ⟨receiver, sender, fromWhole params.amount, .send, .empty⟩⟩,
      ⟨[]⟩, ?_, rfl, rfl, by simp⟩
    simp only [Request.effect, onOwn_eq parsed found token isSender, isReceiver]
    rfl

end Careful

/-! ## No success without the message -/

section Sends

variable {κ α β : Type}

/-- The program returns only after it has pushed a message. -/
def Sends (p : Prog κ α) : Prop :=
  ∀ as a, (p.run as).outcome = .ret a → pushes (p.run as).trace ≠ []

theorem sends_fail (e : Error) : Sends (.fail e : Prog κ α) := fun _ _ out => by cases out

theorem Sends.bind {p : Prog κ α} (sends : Sends p) (f : α → Prog κ β) : Sends (p >>= f) := by
  intro as b out
  obtain ⟨a, first, -, run⟩ := Program.run_bind_ret out
  simp only [run, Run.after, pushes, List.filterMap_append]
  exact List.append_ne_nil_of_left_ne_nil (sends as a first) _

theorem sends_after {p : Prog κ α} {f : α → Prog κ β} (sends : ∀ a, Sends (f a)) :
    Sends (p >>= f) := by
  intro as b out
  obtain ⟨a, -, second, run⟩ := Program.run_bind_ret out
  simp only [run, Run.after, pushes, List.filterMap_append]
  exact List.append_ne_nil_of_right_ne_nil _ (sends a _ b second)

theorem Sends.map {p : Prog κ α} (sends : Sends p) (f : α → β) : Sends (f <$> p) := sends.bind _

variable {ext : Ext} {client : κ}

theorem sends_mpoolPushAndWait (message : MpoolPushMessage) :
    Sends (mpoolPushAndWait ext client message) := by
  refine Sends.bind (Sends.bind (fun as a out => ?_) _) _
  cases as with
  | nil => cases out
  | cons reply as =>
    change pushes [.exchange (.rpc client (.mpoolPushMessage message)) reply] ≠ []
    simp [pushes, pushOf]

theorem sends_sendOn {network : SubnetID} {mismatch : String} {message : Prog κ MpoolPushMessage} :
    Sends (LotusSubnetManager.sendOn ext client network mismatch message) := by
  refine sends_after fun isMatch => ?_
  cases isMatch with
  | false => exact sends_fail _
  | true => exact sends_after fun m => sends_mpoolPushAndWait m

end Sends

section Handlers

variable {α : Type} {ext : Ext} {texts : Texts} {pool : HashMap SubnetID Subnet}

theorem sends_connect {subnet : SubnetID} {missing : String} {use : Subnet → Prog Subnet α}
    (sends : ∀ conn, Sends (use conn)) : Sends (connect pool subnet missing use) := by
  unfold connect
  split
  · exact sends_fail _
  · exact sends _

theorem sends_onSubnet {subnet missing : String} {use : SubnetID → Subnet → Prog Subnet α}
    (sends : ∀ id conn, Sends (use id conn)) :
    Sends (onSubnet texts pool subnet missing use) :=
  sends_after fun id => sends_connect (sends id)

theorem sends_onParent {subnet : String} {use : SubnetID → Subnet → Prog Subnet α}
    (sends : ∀ id conn, Sends (use id conn)) : Sends (onParent ext texts pool subnet use) :=
  sends_after fun id => sends_after fun _ => sends_connect (sends id)

theorem sends_sender {conn : Subnet} {sender : Option String} {use : Address → Prog Subnet α}
    (sends : ∀ a, Sends (use a)) :
    Sends (do
      checkSubnet conn
      let a ← parseFrom ext conn sender
      use a) :=
  sends_after fun _ => sends_after sends

theorem sends_handle (ext : Ext) (texts : Texts) (pool : HashMap SubnetID Subnet)
    (request : Request) : Sends (handle ext texts pool request) := by
  cases request with
  | create params =>
    refine (sends_onSubnet fun parent conn => ?_).map _
    refine sends_after fun _ => sends_after fun gateway => sends_after fun sender => ?_
    exact (sends_sendOn.bind _).bind _
  | join params | leave params | kill params | fund params | setValidatorNetAddr params =>
    refine (sends_onParent fun id conn => sends_sender fun sender => ?_).map _
    exact sends_after fun parent => sends_sendOn.bind _
  | release params =>
    exact (sends_onSubnet fun id conn => sends_sender fun sender => sends_sendOn.bind _).map _
  | propagate params =>
    refine (sends_onSubnet fun id conn => sends_sender fun sender => ?_).map _
    exact sends_after fun subnet => sends_sendOn.bind _
  | whitelistPropagator params =>
    refine (sends_onSubnet fun id conn => ?_).map _
    refine sends_after fun _ => sends_after fun toAdd => sends_after fun sender => ?_
    exact sends_sendOn.bind _
  | sendValue params =>
    refine (sends_onSubnet fun id conn => sends_sender fun sender => ?_).map _
    exact sends_after fun receiver => (sends_mpoolPushAndWait _).bind _

end Handlers

/-! ## Whole runs -/

theorem pushes_of_each {κ : Type} {Allowed : Trace κ → κ → MpoolPushMessage → Prop} (t : Trace κ)
    (each : EachAfter (PushedOnce Allowed) t) :
    pushes t = [] ∨ ∃ before client message, before <+: t ∧ pushes t = [(client, message)] ∧
      Allowed before client message := by
  induction t using List.reverseRecOn with
  | nil => exact .inl rfl
  | append_singleton t e ih =>
    obtain ⟨each, here⟩ := eachAfter_snoc_iff.mp each
    have more : pushes (t ++ [e]) = pushes t ++ (pushOf e).toList := by
      rw [pushes, List.filterMap_append]
      cases pushed : pushOf e <;> simp [pushes, pushed]
    cases pushed : pushOf e with
    | none =>
      rw [more, pushed, Option.toList_none, List.append_nil]
      refine (ih each).imp_right ?_
      rintro ⟨before, client, message, earlier, rest⟩
      exact ⟨before, client, message, earlier.trans (List.prefix_append t [e]), rest⟩
    | some push =>
      obtain ⟨none, allowed⟩ := here push.1 push.2 pushed
      refine .inr ⟨t, push.1, push.2, List.prefix_append t [e], ?_, allowed⟩
      rw [more, none, pushed]
      rfl

/-- Either nothing was sent and no success is reported, or the message that the request means
was sent. -/
theorem effect_of_run (ext : Ext) (texts : Texts) (pool : HashMap SubnetID Subnet)
    (request : Request) (replies : List Reply) :
    let run := (handle ext texts pool request).run replies
    (pushes run.trace = [] ∧ ∀ r, run.outcome ≠ .ret r) ∨
      ∃ e code, request.effect ext texts pool = some e ∧
        pushes run.trace = [(e.node, e.message code)] ∧
        ∀ network ∈ e.network, Reported e.node network run.trace := by
  intro run
  have each : EachAfter (PushedOnce (Effected ext texts pool request)) run.trace :=
    Program.wp_trace (careful_effect ext texts pool request [] rfl eachAfter_nil) replies
  rcases pushes_of_each run.trace each with none | ⟨before, _, _, earlier, sent, effected⟩
  · exact .inl ⟨none, fun r out => sends_handle ext texts pool request replies r out none⟩
  · obtain ⟨e, code, effect, rfl, rfl, reported⟩ := effected
    refine .inr ⟨e, code, effect, sent, fun network mem => ?_⟩
    exact earlier.subset (reported network mem)

/-! ## Handlers of requests that mean something -/

theorem ok_of_toOption {ε α : Type} {x : Except ε α} {a : α} (some : x.toOption = some a) :
    x = .ok a := by
  cases x with
  | error e => simp [Except.toOption] at some
  | ok b => simpa [Except.toOption] using some

section Equations

variable {α : Type} {ext : Ext} {texts : Texts} {pool : HashMap SubnetID Subnet} {conn : Subnet}
  {subnet : String} {sender : Option String} {id parent : SubnetID} {a : Address} {e : Effect}

theorem checkSubnet_eq (token : conn.authToken.isSome = true) : checkSubnet conn = pure () := by
  simp [checkSubnet, Option.isSome_iff_ne_none.mp token]

theorem parseFrom_eq (isSender : senderOf ext conn sender = some a) :
    parseFrom ext conn sender = pure a := by
  cases sender with
  | some addr => simp [parseFrom, ok_of_toOption isSender, Lotus.ofExcept]
  | none =>
    cases accounts : conn.accounts with
    | nil => simp [senderOf, accounts] at isSender
    | cons b rest =>
      obtain rfl : b = a := by simpa [senderOf, accounts] using isSender
      simp [parseFrom, accounts]

theorem onSubnet_eq {missing : String} {use : SubnetID → Subnet → Prog Subnet α}
    (parsed : texts.subnetFromStr subnet = .ok id) (found : pool.lookup id = some conn) :
    onSubnet texts pool subnet missing use = use id conn := by
  simp [onSubnet, parsed, Lotus.ofExcept, connect, found]

theorem onParent_eq {use : SubnetID → Subnet → Prog Subnet α}
    (parsed : texts.subnetFromStr subnet = .ok id) (isParent : ext.parent id = some parent)
    (found : pool.lookup parent = some conn) :
    onParent ext texts pool subnet use = use id conn := by
  simp [onParent, parsed, Lotus.ofExcept, LotusSubnetManager.parentOf, isParent, connect, found]

theorem of_nodeOf (isNode : nodeOf pool id = some conn) :
    pool.lookup id = some conn ∧ conn.authToken.isSome = true := by
  simpa [nodeOf, Option.filter_eq_some_iff] using isNode

/-- What the request names is there. -/
theorem of_onOwn {make : SubnetID → Subnet → Address → Option (Cid → MpoolPushMessage)}
    (effect : onOwn ext texts pool subnet sender make = some e) :
    ∃ id a, texts.subnetFromStr subnet = .ok id ∧ pool.lookup id = some e.node ∧
      e.node.authToken.isSome = true ∧ senderOf ext e.node sender = some a ∧
      e.network = some id ∧ make id e.node a = some e.message := by
  simp only [onOwn, Option.bind_eq_bind, Option.bind_eq_some_iff] at effect
  obtain ⟨id, parsed, conn, isNode, a, isSender, message, made, same⟩ := effect
  obtain rfl := Option.some.inj same
  obtain ⟨found, token⟩ := of_nodeOf isNode
  exact ⟨id, a, ok_of_toOption parsed, found, token, isSender, rfl, made⟩

theorem of_onParents {make : SubnetID → Subnet → Address → MpoolPushMessage}
    (effect : onParents ext texts pool subnet sender make = some e) :
    ∃ id parent a, texts.subnetFromStr subnet = .ok id ∧ ext.parent id = some parent ∧
      pool.lookup parent = some e.node ∧ e.node.authToken.isSome = true ∧
      senderOf ext e.node sender = some a ∧ e.network = some parent ∧
      e.message = fun _ => make id e.node a := by
  simp only [onParents, Option.bind_eq_bind, Option.bind_eq_some_iff] at effect
  obtain ⟨id, parsed, parent, isParent, conn, isNode, a, isSender, same⟩ := effect
  obtain rfl := Option.some.inj same
  obtain ⟨found, token⟩ := of_nodeOf isNode
  exact ⟨id, parent, a, ok_of_toOption parsed, isParent, found, token, isSender, rfl, rfl⟩

end Equations

end IpcAgent.Server
