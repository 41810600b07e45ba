import IpcAgent.Manager.Checkpoint

/-!
# Bottom-up checkpoints

`manager/bottomup.rs`: checkpoints of the child are submitted to its subnet actor in the
parent.
-/

namespace IpcAgent.Manager
open Library Lotus

section BottomUp

variable (ext : Ext) (child : Subnet)

/-- `BottomUpCheckpoint::new`. -/
def newBottomUpCheckpoint (source : SubnetID) (epoch : ChainEpoch) : BottomUpCheckpoint where
  data := ⟨source, [], epoch, ext.defaultCid, [], ⟨none, 0⟩⟩
  sig := []

/-- The checkpoint for an epoch, up to the point where it is pushed. -/
def buildCheckpoint (childTipSet : Cid) (epoch : ChainEpoch) : Prog Side BottomUpCheckpoint := do
  let checkpoint := newBottomUpCheckpoint ext child.id epoch
  let template ← ipcGetCheckpointTemplate ext .child epoch
  let data := { checkpoint.data with
    children := template.data.children
    crossMsgs := template.data.crossMsgs }
  let data ← match ← ipcGetPrevCheckpointForChild ext .parent child.id with
    | some response => do
      let cid ← cidTryFrom ext response
      pure { data with prevCheck := cid }
    | none => pure data
  pure { checkpoint with data := { data with proof := childTipSet.bytes } }

theorem upholds_buildCheckpoint {G : Event (Call Side) Reply Mark → Prop} {childTipSet : Cid}
    {epoch : ChainEpoch}
    (template : ∀ reply, G (.exchange (.rpc .child (.ipcGetCheckpointTemplate epoch)) reply))
    (prev : ∀ reply, G (.exchange (.rpc .parent (.ipcGetPrevCheckpointForChild child.id)) reply)) :
    (buildCheckpoint ext child childTipSet epoch).Upholds (fun _ => True) G
      (fun cp => cp.data.epoch = epoch) := by
  refine Program.upholds_bind (emits_ipcGetCheckpointTemplate template) fun template _ => ?_
  refine Program.upholds_bind (emits_ipcGetPrevCheckpointForChild prev) fun prev _ => ?_
  cases prev with
  | none => exact Program.upholds_pure rfl
  | some response =>
    exact Program.upholds_bind emits_cidTryFrom fun _ _ => Program.upholds_pure rfl

theorem emits_buildCheckpoint {G : Event (Call Side) Reply Mark → Prop} {childTipSet : Cid}
    {epoch : ChainEpoch}
    (template : ∀ reply, G (.exchange (.rpc .child (.ipcGetCheckpointTemplate epoch)) reply))
    (prev : ∀ reply, G (.exchange (.rpc .parent (.ipcGetPrevCheckpointForChild child.id)) reply)) :
    (buildCheckpoint ext child childTipSet epoch).Emits G :=
  (upholds_buildCheckpoint ext child template prev).mono (fun _ => id) (fun _ => id)
    fun _ _ => trivial

def submitCheckpoint (childTipSet : Cid) (epoch : ChainEpoch) (account : Address) :
    Prog Side Unit := do
  let checkpoint ← buildCheckpoint ext child childTipSet epoch
  let params ← serialize ext (.bottomUp checkpoint) "checkpoint"
  .tell (.submits account params)
  let _ ← mpoolPushAndWait ext .parent
    (.new (ext.subnetActor child.id) account .subnetSubmitCheckpoint params)
  pure ()

/-- The bottom-up manager remembers the child's tipset of the current iteration, also while
it catches up. -/
def bottomUp (parentId : SubnetID) : Scheme Cid where
  readPeriod := do
    let parentTipSet ← tipSetCid ext (← chainHead .parent)
    let state ← ipcReadSubnetActorState .parent child.id parentTipSet
    pure state.bottomUpCheckPeriod
  observe period := do
    let childHead ← chainHead .child
    let currEpoch ← epochTryFrom childHead.height
    let childTipSet ← tipSetCid ext childHead
    let childGwState ← ipcReadGatewayState .child childTipSet
    let parentHead ← chainHead .parent
    assertOneCid parentHead
    let parentTipSet ← tipSetCid ext parentHead
    let state ← ipcReadSubnetActorState .parent child.id parentTipSet
    let lastExec := state.bottomUpCheckpointVoting.lastVotingExecuted
    let submissionEpoch := lastExec + period
    if childGwState.initialized ∧ submissionEpoch ≤ currEpoch then do
      let validators ← validatorSet ext state.validators
      assertOneCid childHead
      let childTipSet ← tipSetCid ext childHead
      pure (some (⟨lastExec, period, childTipSet⟩, validators))
    else pure none
  catchUp period outer := do
    let childHead ← chainHead .child
    let currEpoch ← epochTryFrom childHead.height
    let parentTipSet ← tipSetCid ext (← chainHead .parent)
    let state ← ipcReadSubnetActorState .parent child.id parentTipSet
    let lastExec := state.bottomUpCheckpointVoting.lastVotingExecuted
    let submissionEpoch := lastExec + period
    if submissionEpoch ≤ currEpoch then pure (some ⟨lastExec, period, outer⟩) else pure none
  submit due account := submitCheckpoint ext child due.seen due.epoch account
  context := "error in subnet pair (" ++ parentId.text ++ ", " ++ child.id.text ++ ")"

theorem emits_bottomUp {G : Event (Call Side) Reply Mark → Prop} (parentId : SubnetID)
    (all : AllowsRequests G) : (bottomUp ext child parentId).Emits G where
  readPeriod := by
    refine Program.upholds_bind all.emits_request fun _ _ => ?_
    refine Program.upholds_bind emits_tipSetCid fun _ _ => ?_
    exact Program.upholds_bind all.emits_request fun _ _ => Program.upholds_pure trivial
  observe period := by
    refine Program.upholds_bind all.emits_request fun childHead _ => ?_
    refine Program.upholds_bind emits_epochTryFrom fun currEpoch _ => ?_
    refine Program.upholds_bind emits_tipSetCid fun childTipSet _ => ?_
    refine Program.upholds_bind all.emits_request fun gateway _ => ?_
    refine Program.upholds_bind all.emits_request fun parentHead _ => ?_
    refine Program.upholds_bind upholds_assertOneCid fun _ _ => ?_
    refine Program.upholds_bind emits_tipSetCid fun parentTipSet _ => ?_
    refine Program.upholds_bind all.emits_request fun state _ => ?_
    dsimp only
    split
    · refine Program.upholds_bind emits_validatorSet fun _ _ => ?_
      refine Program.upholds_bind upholds_assertOneCid fun _ _ => ?_
      exact Program.upholds_bind emits_tipSetCid fun _ _ => Program.upholds_pure trivial
    · exact Program.upholds_pure trivial
  catchUp period outer := by
    refine Program.upholds_bind all.emits_request fun childHead _ => ?_
    refine Program.upholds_bind emits_epochTryFrom fun currEpoch _ => ?_
    refine Program.upholds_bind all.emits_request fun parentHead _ => ?_
    refine Program.upholds_bind emits_tipSetCid fun parentTipSet _ => ?_
    refine Program.upholds_bind all.emits_request fun state _ => ?_
    dsimp only
    split <;> exact Program.upholds_pure trivial
  submit due account := by
    refine Program.upholds_bind
      (emits_buildCheckpoint _ _ (all.request _ _) (all.request _ _)) fun _ _ => ?_
    refine Program.upholds_bind emits_serialize fun _ _ => ?_
    refine Program.upholds_bind (Program.emits_tell (all.submits _ _)) fun _ _ => ?_
    exact Program.upholds_bind all.emits_mpoolPushAndWait fun _ _ => Program.upholds_pure trivial

def manageBottomupCheckpoints (parentId : SubnetID) : Prog Side Unit :=
  manage (bottomUp ext child parentId) child.accounts

end BottomUp

end IpcAgent.Manager
