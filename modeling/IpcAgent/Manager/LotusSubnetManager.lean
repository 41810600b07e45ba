import IpcAgent.Lotus.Client

/-!
# The subnet manager

`manager/lotus.rs`: the operations that change the state of a chain, each a message that is
pushed to the node and waited for.
-/

namespace IpcAgent.Manager
open Library Lotus

/-- `Receipt::parse_result_into`; `default` is the value of the type's `Default` instance. -/
def parseResultInto {τ : Type} (ext : Ext) (decode : List UInt8 → Option τ) (default : τ)
    (receipt : Receipt) : Except String τ :=
  match receipt.result with
  | none => .ok default
  | some s =>
    match ext.base64 s with
    | none => .error "cannot decode return string"
    | some bytes =>
      match decode bytes with
      | none => .error "cannot cbor deserialize return data"
      | some value => .ok value

/-- The address in the return value of the init actor, if there is one. -/
def decodedAddress (ext : Ext) (receipt : Receipt) : Option Address :=
  ((receipt.result.bind ext.base64).bind ext.cborInitExecReturn).map InitExecReturn.idAddress

namespace LotusSubnetManager

section

variable {κ : Type} (ext : Ext) (client : κ)

/-! ## Shared steps -/

/-- Whether `network` is the one the node belongs to. -/
def isNetworkMatch (network : SubnetID) : Prog κ Bool := do
  let networkName ← stateNetworkName client
  pure (network.text == networkName)

def getSubnetActorCodeCid : Prog κ Cid := do
  let networkVersion ← stateNetworkVersion client
  let cids ← stateActorCodeCids ext client networkVersion
  match cids.lookup ext.manifestId with
  | some cid => pure cid
  | none => .fail ["actor cid not found"]

/-- The parent of a subnet; the root has none. -/
def parentOf (subnet : SubnetID) (root : String) : Prog κ SubnetID :=
  match ext.parent subnet with
  | some parent => pure parent
  | none => .fail [root]

/-- Make a message and push it, provided that the node belongs to the given network. -/
def sendOn (network : SubnetID) (mismatch : String) (message : Prog κ MpoolPushMessage) :
    Prog κ Receipt := do
  if ← isNetworkMatch client network then mpoolPushAndWait ext client (← message)
  else .fail [mismatch]

def wrongParentNetwork : String :=
  "subnet actor being deployed in the wrong parent network, parent network names do not match"

/-! ## Operations -/

def createSubnet (sender : Address) (params : ConstructParams) : Prog κ Address := do
  let receipt ← sendOn ext client params.parent wrongParentNetwork (do
    let codeCid ← getSubnetActorCodeCid ext client
    let _ ← serialize ext (.construct params) "create subnet actor"
    let initParams ← serialize ext (.initExec codeCid params) "init subnet actor params"
    pure (.new ext.initActorAddr sender .initExec initParams))
  let result ← ofExcept
    (parseResultInto ext ext.cborInitExecReturn ext.defaultInitExecReturn receipt)
  pure result.idAddress

def joinSubnet (subnet : SubnetID) (sender : Address) (collateral : TokenAmount)
    (validatorNetAddr : String) : Prog κ Unit := do
  let parent ← parentOf ext subnet "cannot join root"
  let _ ← sendOn ext client parent wrongParentNetwork (do
    let params ← serialize ext (.join validatorNetAddr) "join subnet params"
    let message := MpoolPushMessage.new (ext.subnetActor subnet) sender .subnetJoin params
    pure { message with value := collateral })
  pure ()

def leaveSubnet (subnet : SubnetID) (sender : Address) : Prog κ Unit := do
  let parent ← parentOf ext subnet "cannot leave root"
  let _ ← sendOn ext client parent wrongParentNetwork
    (pure (.new (ext.subnetActor subnet) sender .subnetLeave .empty))
  pure ()

def killSubnet (subnet : SubnetID) (sender : Address) : Prog κ Unit := do
  let parent ← parentOf ext subnet "cannot kill root"
  let _ ← sendOn ext client parent wrongParentNetwork
    (pure (.new (ext.subnetActor subnet) sender .subnetKill .empty))
  pure ()

/-- The message goes to the gateway of the subnet's parent. -/
def fund (subnet : SubnetID) (gatewayAddr sender : Address) (amount : TokenAmount) :
    Prog κ Unit := do
  let parent ← parentOf ext subnet "cannot fund root"
  let _ ← sendOn ext client parent "subnet actor being funded not matching current network" (do
    let params ← serialize ext (.fund subnet) "fund subnet actor params"
    let message := MpoolPushMessage.new gatewayAddr sender .gatewayFund params
    pure { message with value := amount })
  pure ()

/-- The message goes to the gateway of the subnet itself. -/
def release (subnet : SubnetID) (gatewayAddr sender : Address) (amount : TokenAmount) :
    Prog κ Unit := do
  let message := MpoolPushMessage.new gatewayAddr sender .gatewayRelease .empty
  let _ ← sendOn ext client subnet "subnet actor being released not matching current network"
    (pure { message with value := amount })
  pure ()

def propagate (subnet : SubnetID) (gatewayAddr sender : Address) (postboxMsgCid : Cid) :
    Prog κ Unit := do
  let _ ← sendOn ext client subnet "propagation not targeting the correct network" (do
    let params ← serialize ext (.propagate postboxMsgCid) "propagate params"
    pure (.new gatewayAddr sender .gatewayPropagate params))
  pure ()

/-- The message for the root is that of `fund`. -/
def setValidatorNetAddr (subnet : SubnetID) (sender : Address) (validatorNetAddr : String) :
    Prog κ Unit := do
  let parent ← parentOf ext subnet "cannot fund root"
  let _ ← sendOn ext client parent
    "set validator net addr not targeting the correct parent network" (do
      let params ← serialize ext (.join validatorNetAddr) "set validator net addr params"
      pure (.new (ext.subnetActor subnet) sender .subnetSetValidatorNetAddr params))
  pure ()

def whitelistPropagator (subnet : SubnetID) (gatewayAddr : Address) (postboxMsgCid : Cid)
    (sender : Address) (toAdd : List Address) : Prog κ Unit := do
  let _ ← sendOn ext client subnet "whitelist not targeting the correct network" (do
    let params ← serialize ext (.whitelistPropagator postboxMsgCid toAdd)
      "whitelist propagate params"
    pure (.new gatewayAddr sender .gatewayWhiteListPropagator params))
  pure ()

/-- The only operation that does not ask for the network's name. -/
def sendValue (sender receiver : Address) (amount : TokenAmount) : Prog κ Unit := do
  let message := MpoolPushMessage.new receiver sender .send .empty
  let _ ← mpoolPushAndWait ext client { message with value := amount }
  pure ()

end

/-- The id of the subnet actor's code is read with two requests. -/
theorem emits_getSubnetActorCodeCid {κ : Type} {ext : Ext} {client : κ}
    {G : Event (Call κ) Reply Mark → Prop}
    (version : ∀ reply, G (.exchange (.rpc client .stateNetworkVersion) reply))
    (codeCids : ∀ n reply, G (.exchange (.rpc client (.stateActorCodeCids n)) reply)) :
    (getSubnetActorCodeCid ext client).Emits G := by
  refine Program.upholds_bind (emits_request version) fun n _ => ?_
  refine Program.upholds_bind (emits_stateActorCodeCids (codeCids n)) fun cids _ => ?_
  split
  · exact Program.upholds_pure trivial
  · exact Program.upholds_fail _

end LotusSubnetManager

end IpcAgent.Manager
