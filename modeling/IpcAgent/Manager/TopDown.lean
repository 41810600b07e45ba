import IpcAgent.Manager.Checkpoint

/-!
# Top-down checkpoints

`manager/topdown.rs`: the messages the parent has for the child are submitted to the gateway
of the child.
-/

namespace IpcAgent.Manager
open Library Lotus

/-- The tipsets the top-down manager has read. -/
structure TipSets where
  parent : Cid
  child : Cid
deriving DecidableEq

section TopDown

variable (ext : Ext) (child : Subnet)

def submitTopdownCheckpoint (submissionEpoch : ChainEpoch) (seen : TipSets) (account : Address) :
    Prog Side Unit := do
  let state ← ipcReadGatewayState .child seen.child
  let nonce := state.appliedTopdownNonce
  let gatewayAddr ← ofExcept (ext.addressFromStr gatewayActorAddress)
  let submission ← getTipsetByHeight .parent submissionEpoch seen.parent
  let submissionTipSet ← tipSetCid ext submission
  let topDownMsgs ← ipcGetTopdownMsgs ext .parent child.id gatewayAddr submissionTipSet nonce
  let params ← serialize ext (.topDown ⟨submissionEpoch, topDownMsgs⟩) "topdown_checkpoint"
  .tell (.submits account params)
  let _ ← mpoolPushAndWait ext .child
    (.new gatewayAddr account .gatewaySubmitTopDownCheckpoint params)
  pure ()

/-- The heads of both chains and the state of the child's gateway: the parent's epoch, the
tipsets and the gateway. -/
def readHeads : Prog Side (ChainEpoch × TipSets × IPCReadGatewayStateResponse) := do
  let parentHead ← chainHead .parent
  let currEpoch ← epochTryFrom parentHead.height
  let parentTipSet ← tipSetCid ext parentHead
  let childTipSet ← tipSetCid ext (← chainHead .child)
  let childGwState ← ipcReadGatewayState .child childTipSet
  pure (currEpoch, ⟨parentTipSet, childTipSet⟩, childGwState)

theorem emits_readHeads {G : Event (Call Side) Reply Mark → Prop} (all : AllowsRequests G) :
    (readHeads ext).Emits G := by
  refine Program.upholds_bind all.emits_request fun _ _ => ?_
  refine Program.upholds_bind emits_epochTryFrom fun _ _ => ?_
  refine Program.upholds_bind emits_tipSetCid fun _ _ => ?_
  refine Program.upholds_bind all.emits_request fun _ _ => ?_
  refine Program.upholds_bind emits_tipSetCid fun _ _ => ?_
  exact Program.upholds_bind all.emits_request fun _ _ => Program.upholds_pure trivial

def topDown (parentId : SubnetID) : Scheme TipSets where
  readPeriod := do
    let childTipSet ← tipSetCid ext (← chainHead .child)
    let state ← ipcReadGatewayState .child childTipSet
    pure state.topDownCheckPeriod
  observe period := do
    let (currEpoch, seen, childGwState) ← readHeads ext
    let lastExec := childGwState.topDownCheckpointVoting.lastVotingExecuted
    let submissionEpoch := lastExec + period
    if childGwState.initialized ∧ submissionEpoch ≤ currEpoch then do
      let state ← ipcReadSubnetActorState .parent child.id seen.parent
      let validators ← validatorSet ext state.validators
      pure (some (⟨lastExec, period, seen⟩, validators))
    else pure none
  catchUp period _ := do
    let (currEpoch, seen, childGwState) ← readHeads ext
    let lastExec := childGwState.topDownCheckpointVoting.lastVotingExecuted
    let submissionEpoch := lastExec + period
    if submissionEpoch ≤ currEpoch then pure (some ⟨lastExec, period, seen⟩) else pure none
  submit due account := submitTopdownCheckpoint ext child due.epoch due.seen account
  context := "error in manage_topdown_checkpoints() for subnet pair (" ++ parentId.text ++ ", " ++
    child.id.text ++ ")"

theorem emits_topDown {G : Event (Call Side) Reply Mark → Prop} (parentId : SubnetID)
    (all : AllowsRequests G) : (topDown ext child parentId).Emits G where
  readPeriod := by
    refine Program.upholds_bind all.emits_request fun _ _ => ?_
    refine Program.upholds_bind emits_tipSetCid fun _ _ => ?_
    exact Program.upholds_bind all.emits_request fun _ _ => Program.upholds_pure trivial
  observe period := by
    refine Program.upholds_bind (emits_readHeads _ all) fun heads _ => ?_
    dsimp only
    split
    · refine Program.upholds_bind all.emits_request fun _ _ => ?_
      exact Program.upholds_bind emits_validatorSet fun _ _ => Program.upholds_pure trivial
    · exact Program.upholds_pure trivial
  catchUp period outer := by
    refine Program.upholds_bind (emits_readHeads _ all) fun heads _ => ?_
    dsimp only
    split <;> exact Program.upholds_pure trivial
  submit due account := by
    refine Program.upholds_bind all.emits_request fun _ _ => ?_
    refine Program.upholds_bind emits_ofExcept fun _ _ => ?_
    refine Program.upholds_bind all.emits_request fun _ _ => ?_
    refine Program.upholds_bind emits_tipSetCid fun _ _ => ?_
    refine Program.upholds_bind (emits_ipcGetTopdownMsgs (all.request _ _)) fun _ _ => ?_
    refine Program.upholds_bind emits_serialize fun _ _ => ?_
    refine Program.upholds_bind (Program.emits_tell (all.submits _ _)) fun _ _ => ?_
    exact Program.upholds_bind all.emits_mpoolPushAndWait fun _ _ => Program.upholds_pure trivial

def manageTopdownCheckpoints (parentId : SubnetID) : Prog Side Unit :=
  manage (topDown ext child parentId) child.accounts

end TopDown

end IpcAgent.Manager
