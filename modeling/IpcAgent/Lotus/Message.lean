import IpcAgent.Types
import Mathlib.Data.Finset.Basic

/-!
# Messages and replies

What the agent sends to a Lotus node and what it gets back: `lotus/message/*.rs`, and from
the actor crates the checkpoints and parameters those messages carry. Parameters that travel
as CBOR are kept as the values they encode.
-/

namespace IpcAgent.Lotus

/-- `fvm_shared::clock::ChainEpoch`. -/
abbrev ChainEpoch := Int64

/-- A token amount in atto. -/
abbrev TokenAmount := Int

/-- The JSON form of a CID. -/
structure CIDMap where
  cid : Option String
deriving DecidableEq

/-! ## Checkpoints -/

structure IPCAddress where
  subnetId : SubnetID
  rawAddress : Address
deriving DecidableEq

structure StorableMsg where
  sender : IPCAddress
  receiver : IPCAddress
  method : UInt64
  params : List UInt8
  value : TokenAmount
  nonce : UInt64
deriving DecidableEq

structure CrossMsg where
  msg : StorableMsg
  wrapped : Bool
deriving DecidableEq

structure BatchCrossMsgs where
  crossMsgs : Option (List CrossMsg)
  fee : TokenAmount
deriving DecidableEq

structure ChildCheck where
  source : SubnetID
  checks : List Cid
deriving DecidableEq

structure CheckData where
  source : SubnetID
  proof : List UInt8
  epoch : ChainEpoch
  prevCheck : Cid
  children : List ChildCheck
  crossMsgs : BatchCrossMsgs
deriving DecidableEq

structure BottomUpCheckpoint where
  data : CheckData
  sig : List UInt8
deriving DecidableEq

structure TopDownCheckpoint where
  epoch : ChainEpoch
  topDownMsgs : List CrossMsg
deriving DecidableEq

/-! ## Requests -/

/-- `ConstructParams`; the consensus is always `Mir`, and the genesis empty. -/
structure ConstructParams where
  parent : SubnetID
  name : String
  ipcGatewayAddr : UInt64
  minValidatorStake : TokenAmount
  minValidators : UInt64
  bottomupCheckPeriod : ChainEpoch
  topdownCheckPeriod : ChainEpoch
deriving DecidableEq

/-- The parameters of a message, before they are encoded. -/
inductive Params
  | empty
  | construct (constructor : ConstructParams)
  | initExec (codeCid : Cid) (constructor : ConstructParams)
  | join (validatorNetAddr : String)
  | fund (subnet : SubnetID)
  | propagate (postboxCid : Cid)
  | whitelistPropagator (postboxCid : Cid) (toAdd : List Address)
  | bottomUp (checkpoint : BottomUpCheckpoint)
  | topDown (checkpoint : TopDownCheckpoint)
deriving DecidableEq

/-- The methods of the actors the agent calls. -/
inductive Method
  | send
  | initExec
  | subnetJoin
  | subnetLeave
  | subnetKill
  | subnetSubmitCheckpoint
  | subnetSetValidatorNetAddr
  | gatewayFund
  | gatewayRelease
  | gatewayPropagate
  | gatewayWhiteListPropagator
  | gatewaySubmitTopDownCheckpoint
deriving DecidableEq

/-- `MpoolPushMessage`; the other fields are always left to the node. -/
structure MpoolPushMessage where
  receiver : Address
  sender : Address
  value : TokenAmount
  method : Method
  params : Params
deriving DecidableEq

def MpoolPushMessage.new (receiver sender : Address) (method : Method) (params : Params) :
    MpoolPushMessage :=
  ⟨receiver, sender, 0, method, params⟩

/-- The requests of `LotusJsonRPCClient`. -/
inductive Rpc
  | mpoolPushMessage (message : MpoolPushMessage)
  | stateWaitMsg (cid : Cid)
  | stateNetworkName
  | stateNetworkVersion
  | stateActorCodeCids (version : Nat)
  | chainHead
  | getTipsetByHeight (epoch : ChainEpoch) (tipSet : Cid)
  | ipcGetPrevCheckpointForChild (child : SubnetID)
  | ipcGetCheckpointTemplate (epoch : ChainEpoch)
  | ipcReadGatewayState (tipSet : Cid)
  | ipcReadSubnetActorState (subnet : SubnetID) (tipSet : Cid)
  | ipcGetTopdownMsgs (subnet : SubnetID) (gateway : Address) (tipSet : Cid) (nonce : UInt64)
deriving DecidableEq

/-! ## Replies -/

structure ChainHeadResponse where
  cids : List CIDMap
  height : UInt64
deriving DecidableEq

structure Voting where
  lastVotingExecuted : ChainEpoch
deriving DecidableEq

structure IPCReadGatewayStateResponse where
  topDownCheckPeriod : ChainEpoch
  appliedTopdownNonce : UInt64
  topDownCheckpointVoting : Voting
  initialized : Bool
deriving DecidableEq

structure Validator where
  addr : String
deriving DecidableEq

structure IPCReadSubnetActorStateResponse where
  bottomUpCheckPeriod : ChainEpoch
  validators : Option (List Validator)
  bottomUpCheckpointVoting : Voting
deriving DecidableEq

structure Receipt where
  exitCode : UInt32
  result : Option String
deriving DecidableEq

/-- What comes back from a call: an error, a decoded reply of some kind, or the end of a
wait. -/
inductive Reply
  | error (message : String)
  | pushed (cid : CIDMap)
  | waited (receipt : Receipt)
  | text (s : String)
  | texts (l : List String)
  | networkVersion (n : Nat)
  | codeCids (l : List (String × CIDMap))
  | tipSet (r : ChainHeadResponse)
  | cid (c : Option CIDMap)
  | gatewayState (r : IPCReadGatewayStateResponse)
  | subnetActorState (r : IPCReadSubnetActorStateResponse)
  | woken (again : Bool)
deriving DecidableEq

structure InitExecReturn where
  idAddress : Address
deriving DecidableEq

end IpcAgent.Lotus
