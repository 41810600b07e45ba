import IpcAgent.Manager.Checkpoint
import IpcAgent.Manager.PushOnce
import IpcAgent.Library.HashMap

/-!
# The handlers of the subnet manager

The handlers under `server/handlers/manager/` that send a message. Each finds the subnet that
its request is about, takes the connection and the gateway from the configuration of this
subnet, and leaves the rest to the subnet manager.
-/

namespace IpcAgent.Server
open Library Lotus Manager

/-- `config::Subnet` as the handlers use it. -/
structure Subnet extends Manager.Subnet where
  gatewayAddr : Address
  jsonrpcApiHttp : String
  authToken : Option String

deriving instance DecidableEq for Manager.Subnet

deriving instance DecidableEq for Subnet

/-- Further functions of `ipc_sdk` and `fvm_shared`. -/
structure Texts where
  subnetFromStr : String → Except String SubnetID
  /-- `Address::id`. -/
  addressId : Address → Except String UInt64
  addressToString : Address → String

/-- `TokenAmount::from_whole`. -/
def fromWhole (tokens : UInt64) : TokenAmount := tokens.toNat * 1000000000000000000

/-! ## Requests -/

structure CreateSubnetParams where
  sender : Option String
  parent : String
  name : String
  minValidatorStake : UInt64
  minValidators : UInt64
  bottomupCheckPeriod : ChainEpoch
  topdownCheckPeriod : ChainEpoch

structure JoinSubnetParams where
  subnet : String
  sender : Option String
  collateral : UInt64
  validatorNetAddr : String

structure LeaveSubnetParams where
  subnet : String
  sender : Option String

structure KillSubnetParams where
  subnet : String
  sender : Option String

structure FundParams where
  subnet : String
  sender : Option String
  amount : UInt64

structure ReleaseParams where
  subnet : String
  sender : Option String
  amount : UInt64

structure PropagateParams where
  subnet : String
  sender : Option String
  postboxMsgCid : Cid

structure SetValidatorNetAddrParams where
  subnet : String
  sender : Option String
  validatorNetAddr : String

structure WhitelistPropagatorParams where
  subnet : String
  sender : Option String
  postboxMsgCid : Cid
  toAdd : List String

structure SendValueParams where
  subnet : String
  sender : Option String
  receiver : String
  amount : UInt64

inductive Request
  | create (params : CreateSubnetParams)
  | join (params : JoinSubnetParams)
  | leave (params : LeaveSubnetParams)
  | kill (params : KillSubnetParams)
  | fund (params : FundParams)
  | release (params : ReleaseParams)
  | propagate (params : PropagateParams)
  | setValidatorNetAddr (params : SetValidatorNetAddrParams)
  | whitelistPropagator (params : WhitelistPropagatorParams)
  | sendValue (params : SendValueParams)

section Handlers

variable {α : Type} (ext : Ext) (texts : Texts) (pool : HashMap SubnetID Subnet)

/-! ## Shared steps -/

def checkSubnet (subnet : Subnet) : Prog Subnet Unit :=
  if subnet.authToken.isNone then .fail ["Internal server error"] else pure ()

def parseFrom (subnet : Subnet) : Option String → Prog Subnet Address
  | some addr => ofExcept (ext.addressFromStr addr)
  | none =>
    match subnet.accounts with
    | [] => .fail ["Internal server error"]
    | account :: _ => pure account

/-- `SubnetManagerPool::get`. A connection is made from the configuration of a subnet, and this
stands for it. -/
def connect (subnet : SubnetID) (missing : String) (use : Subnet → Prog Subnet α) :
    Prog Subnet α :=
  match pool.lookup subnet with
  | none => .fail [missing]
  | some conn => use conn

/-- With the connection to the subnet. -/
def onSubnet (subnet missing : String) (use : SubnetID → Subnet → Prog Subnet α) :
    Prog Subnet α := do
  let subnet ← ofExcept (texts.subnetFromStr subnet)
  connect pool subnet missing (use subnet)

/-- With the connection to the parent of the subnet. -/
def onParent (subnet : String) (use : SubnetID → Subnet → Prog Subnet α) : Prog Subnet α := do
  let subnet ← ofExcept (texts.subnetFromStr subnet)
  let parent ← LotusSubnetManager.parentOf ext subnet "no parent found"
  connect pool parent "target parent subnet not found" (use subnet)

/-! ## Handlers -/

def createSubnetHandler (request : CreateSubnetParams) : Prog Subnet String :=
  onSubnet texts pool request.parent "target parent subnet not found" fun parent conn => do
    checkSubnet conn
    let ipcGatewayAddr ← ofExcept (texts.addressId conn.gatewayAddr)
    let sender ← parseFrom ext conn request.sender
    let address ← LotusSubnetManager.createSubnet ext conn sender
      { parent := parent
        name := request.name
        ipcGatewayAddr := ipcGatewayAddr
        minValidatorStake := fromWhole request.minValidatorStake
        minValidators := request.minValidators
        bottomupCheckPeriod := request.bottomupCheckPeriod
        topdownCheckPeriod := request.topdownCheckPeriod }
    pure (texts.addressToString address)

def joinSubnetHandler (request : JoinSubnetParams) : Prog Subnet Unit :=
  onParent ext texts pool request.subnet fun subnet conn => do
    checkSubnet conn
    let sender ← parseFrom ext conn request.sender
    LotusSubnetManager.joinSubnet ext conn subnet sender (fromWhole request.collateral)
      request.validatorNetAddr

def leaveSubnetHandler (request : LeaveSubnetParams) : Prog Subnet Unit :=
  onParent ext texts pool request.subnet fun subnet conn => do
    checkSubnet conn
    let sender ← parseFrom ext conn request.sender
    LotusSubnetManager.leaveSubnet ext conn subnet sender

def killSubnetHandler (request : KillSubnetParams) : Prog Subnet Unit :=
  onParent ext texts pool request.subnet fun subnet conn => do
    checkSubnet conn
    let sender ← parseFrom ext conn request.sender
    LotusSubnetManager.killSubnet ext conn subnet sender

def fundHandler (request : FundParams) : Prog Subnet Unit :=
  onParent ext texts pool request.subnet fun subnet conn => do
    checkSubnet conn
    let sender ← parseFrom ext conn request.sender
    LotusSubnetManager.fund ext conn subnet conn.gatewayAddr sender (fromWhole request.amount)

def releaseHandler (request : ReleaseParams) : Prog Subnet Unit :=
  onSubnet texts pool request.subnet "target subnet not found" fun subnet conn => do
    checkSubnet conn
    let sender ← parseFrom ext conn request.sender
    LotusSubnetManager.release ext conn subnet conn.gatewayAddr sender (fromWhole request.amount)

def propagateHandler (request : PropagateParams) : Prog Subnet Unit :=
  onSubnet texts pool request.subnet "target subnet not found" fun _ conn => do
    checkSubnet conn
    let sender ← parseFrom ext conn request.sender
    let subnet ← ofExcept (texts.subnetFromStr request.subnet)
    LotusSubnetManager.propagate ext conn subnet conn.gatewayAddr sender request.postboxMsgCid

def setValidatorNetAddrHandler (request : SetValidatorNetAddrParams) : Prog Subnet Unit :=
  onParent ext texts pool request.subnet fun subnet conn => do
    checkSubnet conn
    let sender ← parseFrom ext conn request.sender
    LotusSubnetManager.setValidatorNetAddr ext conn subnet sender request.validatorNetAddr

def whitelistPropagatorHandler (request : WhitelistPropagatorParams) : Prog Subnet Unit :=
  onSubnet texts pool request.subnet "target subnet not found" fun subnet conn => do
    checkSubnet conn
    let toAdd ← ofExcept (request.toAdd.mapM ext.addressFromStr)
    let sender ← parseFrom ext conn request.sender
    LotusSubnetManager.whitelistPropagator ext conn subnet conn.gatewayAddr request.postboxMsgCid
      sender toAdd

def sendValueHandler (request : SendValueParams) : Prog Subnet Unit :=
  onSubnet texts pool request.subnet "target parent subnet not found" fun _ conn => do
    checkSubnet conn
    let sender ← parseFrom ext conn request.sender
    let receiver ← ofExcept (ext.addressFromStr request.receiver)
    LotusSubnetManager.sendValue ext conn sender receiver (fromWhole request.amount)

/-- The handler of a request; only one of them has something to return. -/
def handle : Request → Prog Subnet (Option String)
  | .create params => some <$> createSubnetHandler ext texts pool params
  | .join params => (fun _ => none) <$> joinSubnetHandler ext texts pool params
  | .leave params => (fun _ => none) <$> leaveSubnetHandler ext texts pool params
  | .kill params => (fun _ => none) <$> killSubnetHandler ext texts pool params
  | .fund params => (fun _ => none) <$> fundHandler ext texts pool params
  | .release params => (fun _ => none) <$> releaseHandler ext texts pool params
  | .propagate params => (fun _ => none) <$> propagateHandler ext texts pool params
  | .setValidatorNetAddr params =>
    (fun _ => none) <$> setValidatorNetAddrHandler ext texts pool params
  | .whitelistPropagator params =>
    (fun _ => none) <$> whitelistPropagatorHandler ext texts pool params
  | .sendValue params => (fun _ => none) <$> sendValueHandler ext texts pool params

end Handlers

/-! ## The connection is found before anything is pushed -/

section Careful

variable {α : Type} {ext : Ext} {texts : Texts} {pool : HashMap SubnetID Subnet}
  {Allowed : Trace Subnet → Subnet → MpoolPushMessage → Prop}

theorem careful_onSubnetHandler {subnet missing : String} {use : SubnetID → Subnet → Prog Subnet α}
    (careful : ∀ id conn, texts.subnetFromStr subnet = .ok id → pool.lookup id = some conn →
      Careful Allowed (use id conn)) :
    Careful Allowed (onSubnet texts pool subnet missing use) := by
  refine Careful.of_pushless (upholds_ofExcept fun _ => id) fun id parsed => ?_
  unfold connect
  split
  · exact careful_fail _
  · exact careful id _ parsed ‹_›

theorem careful_onParentHandler {subnet : String} {use : SubnetID → Subnet → Prog Subnet α}
    (careful : ∀ id parent conn, texts.subnetFromStr subnet = .ok id →
      ext.parent id = some parent → pool.lookup parent = some conn →
      Careful Allowed (use id conn)) :
    Careful Allowed (onParent ext texts pool subnet use) := by
  refine Careful.of_pushless (upholds_ofExcept fun _ => id) fun id parsed => ?_
  refine Careful.of_pushless LotusSubnetManager.pushless_parentOf fun parent isParent => ?_
  unfold connect
  split
  · exact careful_fail _
  · exact careful id parent _ parsed isParent ‹_›

end Careful

end IpcAgent.Server
