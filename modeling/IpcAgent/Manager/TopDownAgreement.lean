import IpcAgent.Manager.TopDown

/-!
# Agreement on top-down checkpoints

A top-down checkpoint is put together from reads made at different times: the gateway of the
child gives the epoch and the nonce, the parent the tipset at that epoch and its messages. On
chains that behave, all of this is decided by the epoch, so agents that submit a checkpoint
for the same epoch submit the same one.
-/

namespace IpcAgent.Manager
open Library Lotus

/-- A parent chain without reorganisations, and the history of the gateway of a child. -/
structure Chains where
  /-- The height of a tipset of the parent. -/
  height : Cid → ChainEpoch
  /-- The parent's tipset at a height, from any later head. -/
  tipSetAt : ChainEpoch → ChainHeadResponse
  /-- The encoded top-down messages for a subnet in a tipset, from a nonce on. -/
  messages : SubnetID → Address → Cid → UInt64 → List String
  /-- The states of the child's gateway, one after the other. -/
  gateway : Nat → IPCReadGatewayStateResponse
  /-- The state that belongs to a tipset of the child. -/
  version : Cid → Nat
  period : ChainEpoch
  period_eq : ∀ n, (gateway n).topDownCheckPeriod = period
  /-- The last executed epoch and the nonce change only together, and the epoch grows. -/
  advances : ∀ n, (gateway n).topDownCheckpointVoting.lastVotingExecuted <
      (gateway (n + 1)).topDownCheckpointVoting.lastVotingExecuted ∨
    (gateway n).topDownCheckpointVoting = (gateway (n + 1)).topDownCheckpointVoting ∧
      (gateway n).appliedTopdownNonce = (gateway (n + 1)).appliedTopdownNonce

namespace Chains

variable (chains : Chains)

/-- The last executed epoch of a state of the gateway. -/
def executed (n : Nat) : ChainEpoch :=
  (chains.gateway n).topDownCheckpointVoting.lastVotingExecuted

def nonce (n : Nat) : UInt64 := (chains.gateway n).appliedTopdownNonce

theorem step (n : Nat) : chains.executed n < chains.executed (n + 1) ∨
    chains.executed n = chains.executed (n + 1) ∧ chains.nonce n = chains.nonce (n + 1) :=
  (chains.advances n).imp_right fun same => ⟨congrArg Voting.lastVotingExecuted same.1, same.2⟩

theorem executed_mono {n m : Nat} (le : n ≤ m) : chains.executed n ≤ chains.executed m := by
  induction m, le using Nat.le_induction with
  | base => exact Int64.le_refl _
  | succ m le ih =>
    obtain grows | ⟨same, -⟩ := chains.step m
    · exact Int64.le_trans ih (Int64.le_of_lt grows)
    · exact same ▸ ih

/-- The last executed epoch decides the nonce. -/
theorem nonce_eq_of_executed_eq {n m : Nat} (same : chains.executed n = chains.executed m) :
    chains.nonce n = chains.nonce m := by
  wlog le : n ≤ m generalizing n m
  · exact (this same.symm (by omega)).symm
  induction m, le using Nat.le_induction with
  | base => rfl
  | succ m le ih =>
    obtain grows | ⟨epoch, nonce⟩ := chains.step m
    · -- The epoch cannot grow and be the same again.
      exact absurd (same ▸ grows) (Int64.not_lt.mpr (chains.executed_mono le))
    · exact (ih (same.trans epoch.symm)).trans nonce

/-- What the nodes answer comes from these chains. Errors may come at any time. -/
def Answers (ext : Ext) : Event (Call Side) Reply Mark → Prop
  | .exchange (.rpc .parent .chainHead) (.tipSet r) =>
    ∀ c ∈ tipSetOf ext r, IsEpoch r.height → chains.height c = r.height.toInt64
  | .exchange (.rpc .parent (.getTipsetByHeight epoch head)) (.tipSet r) =>
    epoch ≤ chains.height head → r = chains.tipSetAt epoch
  | .exchange (.rpc .parent (.ipcGetTopdownMsgs subnet gateway tipSet nonce)) (.texts l) =>
    l = chains.messages subnet gateway tipSet nonce
  | .exchange (.rpc .child (.ipcReadGatewayState tipSet)) (.gatewayState g) =>
    g = chains.gateway (chains.version tipSet)
  | _ => True

instance (ext : Ext) : DecidablePred (chains.Answers ext) := fun e => by
  unfold Answers
  split <;> infer_instance

/-! ## The checkpoint for an epoch -/

/-- The checkpoint for its epoch, given the state of the gateway after which it is due. -/
def Canonical (ext : Ext) (child : SubnetID) (cp : TopDownCheckpoint) : Prop :=
  ∃ n gateway tipSet, cp.epoch = chains.executed n + chains.period ∧
    ext.addressFromStr gatewayActorAddress = .ok gateway ∧
    tipSetOf ext (chains.tipSetAt cp.epoch) = some tipSet ∧
    (chains.messages child gateway tipSet (chains.nonce n)).mapM (decodeCrossMsg ext) =
      .ok cp.topDownMsgs

theorem canonical_unique {ext : Ext} {child : SubnetID} {cp cp' : TopDownCheckpoint}
    (canonical : chains.Canonical ext child cp) (canonical' : chains.Canonical ext child cp')
    (same : cp.epoch = cp'.epoch) : cp = cp' := by
  obtain ⟨n, gateway, tipSet, epoch, address, atEpoch, msgs⟩ := canonical
  obtain ⟨n', gateway', tipSet', epoch', address', atEpoch', msgs'⟩ := canonical'
  have executed : chains.executed n = chains.executed n' :=
    (Int64.add_left_inj _).mp (epoch.symm.trans (same.trans epoch'))
  obtain rfl := Except.ok.inj (address.symm.trans address')
  obtain rfl : tipSet = tipSet' := by
    rw [same] at atEpoch
    exact Option.some.inj (atEpoch.symm.trans atEpoch')
  rw [chains.nonce_eq_of_executed_eq executed] at msgs
  have msgs := Except.ok.inj (msgs.symm.trans msgs')
  obtain ⟨epoch, topDownMsgs⟩ := cp
  obtain ⟨epoch', topDownMsgs'⟩ := cp'
  simp_all

/-- Only such checkpoints are submitted. -/
def Agreed (ext : Ext) (child : SubnetID) : Event (Call Side) Reply Mark → Prop
  | .mark (.submits _ params) => ∃ cp, params = .topDown cp ∧ chains.Canonical ext child cp
  | _ => True

/-! ## The manager -/

variable {chains} {ext : Ext} {child : Subnet}

/-- What is due belongs to the state of the child's gateway, and the parent's head is late
enough for it. -/
def Consistent (chains : Chains) (due : Due TipSets) : Prop :=
  due.period = chains.period ∧ due.lastExec = chains.executed (chains.version due.seen.child) ∧
    due.epoch ≤ chains.height due.seen.parent

theorem upholds_any {α : Type} {client : Side} {rpc : Rpc} {decode : Reply → Option α} :
    (request client rpc decode).Upholds (chains.Answers ext) (chains.Agreed ext child.id)
      (fun _ => True) := upholds_request fun _ _ => ⟨trivial, fun _ _ => trivial⟩

theorem upholds_gateway (tipSet : Cid) :
    (ipcReadGatewayState .child tipSet).Upholds (chains.Answers ext) (chains.Agreed ext child.id)
      (fun g => g = chains.gateway (chains.version tipSet)) := by
  refine upholds_request fun reply answers => ⟨trivial, fun g hg => ?_⟩
  cases reply <;> simp_all [Answers]

theorem upholds_readHeads :
    (readHeads ext).Upholds (chains.Answers ext) (chains.Agreed ext child.id)
      (fun heads => heads.1 = chains.height heads.2.1.parent ∧
        heads.2.2 = chains.gateway (chains.version heads.2.1.child)) := by
  refine Program.upholds_bind (Q := fun r => ∀ c, tipSetOf ext r = some c →
    IsEpoch r.height → chains.height c = r.height.toInt64) ?_ fun parentHead head => ?_
  · refine upholds_request fun reply answers => ⟨trivial, fun r hr => ?_⟩
    cases reply <;> simp_all [Answers]
  refine Program.upholds_bind (upholds_epochTryFrom (Q := fun e =>
    IsEpoch parentHead.height ∧ e = parentHead.height.toInt64) fun small => ⟨small, rfl⟩)
    fun currEpoch epoch => ?_
  refine Program.upholds_bind (upholds_tipSetCid (Q := fun c => tipSetOf ext parentHead = some c)
    fun _ => id) fun parentTipSet first => ?_
  refine Program.upholds_bind upholds_any fun childHead _ => ?_
  refine Program.upholds_bind (upholds_tipSetCid fun _ _ => trivial) fun childTipSet _ => ?_
  refine Program.upholds_bind (upholds_gateway childTipSet) fun gateway read => ?_
  exact Program.upholds_pure ⟨epoch.2.trans (head _ first epoch.1).symm, read⟩

theorem consistent_of_read {currEpoch period : ChainEpoch} {seen : TipSets}
    {gateway : IPCReadGatewayStateResponse} (fixed : period = chains.period)
    (read : currEpoch = chains.height seen.parent ∧
      gateway = chains.gateway (chains.version seen.child))
    (due : gateway.topDownCheckpointVoting.lastVotingExecuted + period ≤ currEpoch) :
    chains.Consistent ⟨gateway.topDownCheckpointVoting.lastVotingExecuted, period, seen⟩ := by
  obtain ⟨rfl, rfl⟩ := read
  exact ⟨fixed, rfl, due⟩

theorem upholds_submitTopdownCheckpoint {due : Due TipSets} (consistent : chains.Consistent due)
    (account : Address) :
    (submitTopdownCheckpoint ext child due.epoch due.seen account).Upholds (chains.Answers ext)
      (chains.Agreed ext child.id) (fun _ => True) := by
  obtain ⟨period, lastExec, reached⟩ := consistent
  refine Program.upholds_bind (upholds_gateway due.seen.child) fun state read => ?_
  subst read
  refine Program.upholds_bind
    (upholds_ofExcept (Q := fun a => ext.addressFromStr gatewayActorAddress = .ok a) fun _ => id)
    fun gatewayAddr address => ?_
  refine Program.upholds_bind (Q := fun r => r = chains.tipSetAt due.epoch) ?_
    fun submission atEpoch => ?_
  · refine upholds_request fun reply answers => ⟨trivial, fun r hr => ?_⟩
    cases reply <;> simp_all [Answers]
  refine Program.upholds_bind (upholds_tipSetCid (Q := fun c => tipSetOf ext submission = some c)
    fun _ => id) fun tipSet first => ?_
  refine Program.upholds_bind (Q := fun msgs =>
    (chains.messages child.id gatewayAddr tipSet
      (chains.nonce (chains.version due.seen.child))).mapM
      (decodeCrossMsg ext) = .ok msgs) ?_ fun msgs decoded => ?_
  · refine Program.upholds_bind (Q := fun l =>
      l = chains.messages child.id gatewayAddr tipSet
        (chains.nonce (chains.version due.seen.child))) ?_ fun l same => ?_
    · refine upholds_request fun reply answers => ⟨trivial, fun l hl => ?_⟩
      cases reply <;> simp_all [Answers, nonce]
    · exact upholds_ofExcept fun msgs decoded => same ▸ decoded
  refine Program.upholds_bind
    (upholds_serialize (Q := fun params => params = .topDown ⟨due.epoch, msgs⟩) rfl)
    fun params encoded => ?_
  refine Program.upholds_bind (Program.upholds_tell (Q := fun _ => True) ?_ trivial) fun _ _ => ?_
  · refine ⟨_, encoded, chains.version due.seen.child, gatewayAddr, tipSet, ?_, address,
      atEpoch ▸ first, decoded⟩
    rw [← lastExec, ← period]
    rfl
  refine Program.upholds_bind (Q := fun _ => True) ?_ fun _ _ => Program.upholds_pure trivial
  refine Program.upholds_bind upholds_any fun _ _ => ?_
  exact Program.upholds_bind (upholds_cidTryFrom fun _ _ => trivial) fun _ _ => upholds_any

theorem upholds_topDown (parentId : SubnetID) :
    (topDown ext child parentId).Upholds (chains.Answers ext) (chains.Agreed ext child.id)
      (· = chains.period) chains.Consistent where
  readPeriod := by
    refine Program.upholds_bind upholds_any fun _ _ => ?_
    refine Program.upholds_bind (upholds_tipSetCid fun _ _ => trivial) fun tipSet _ => ?_
    refine Program.upholds_bind (upholds_gateway tipSet) fun gateway read => ?_
    exact Program.upholds_pure (read ▸ chains.period_eq _)
  observe period fixed := by
    refine Program.upholds_bind upholds_readHeads fun heads read => ?_
    dsimp only at read ⊢
    split
    · rename_i due
      refine Program.upholds_bind upholds_any fun state _ => ?_
      refine Program.upholds_bind (emits_validatorSet.mono (fun _ _ => trivial) (fun _ => id)
        fun _ => id) fun validators _ => ?_
      refine Program.upholds_pure fun found same => ?_
      obtain rfl := Option.some.inj same
      exact consistent_of_read fixed read due.2
    · exact Program.upholds_pure (by simp)
  catchUp period outer fixed := by
    refine Program.upholds_bind upholds_readHeads fun heads read => ?_
    dsimp only at read ⊢
    split
    · rename_i due
      refine Program.upholds_pure fun found same => ?_
      obtain rfl := Option.some.inj same
      exact consistent_of_read fixed read due
    · exact Program.upholds_pure (by simp)
  submit due account consistent := upholds_submitTopdownCheckpoint consistent account

/-- Whatever is submitted is the checkpoint for its epoch. -/
theorem canonical_of_submits {parentId : SubnetID} {as : List Reply} {account : Address}
    {params : Params}
    (answers : ∀ e ∈ ((manageTopdownCheckpoints ext child parentId).run as).trace,
      chains.Answers ext e)
    (submits : .mark (.submits account params) ∈
      ((manageTopdownCheckpoints ext child parentId).run as).trace) :
    ∃ cp, params = .topDown cp ∧ chains.Canonical ext child.id cp :=
  ((upholds_topDown parentId).manage ⟨fun _ _ => trivial, fun _ _ _ => trivial, fun _ => trivial⟩
    child.accounts as answers).1 _ submits

end Chains

/-- Two agents on the same chains that submit a checkpoint for the same epoch of the same child
submit the same one, whatever they have read before and whenever they did. -/
theorem topdown_agreement (ext : Ext) (chains : Chains) (child child' : Subnet)
    (parentId parentId' : SubnetID) (sameChild : child.id = child'.id) (as as' : List Reply)
    (answers : ∀ e ∈ ((manageTopdownCheckpoints ext child parentId).run as).trace,
      chains.Answers ext e)
    (answers' : ∀ e ∈ ((manageTopdownCheckpoints ext child' parentId').run as').trace,
      chains.Answers ext e)
    (account account' : Address) (cp cp' : TopDownCheckpoint)
    (submits : .mark (.submits account (.topDown cp)) ∈
      ((manageTopdownCheckpoints ext child parentId).run as).trace)
    (submits' : .mark (.submits account' (.topDown cp')) ∈
      ((manageTopdownCheckpoints ext child' parentId').run as').trace)
    (sameEpoch : cp.epoch = cp'.epoch) : cp = cp' := by
  obtain ⟨_, same, canonical⟩ := Chains.canonical_of_submits answers submits
  obtain ⟨_, same', canonical'⟩ := Chains.canonical_of_submits answers' submits'
  cases same
  cases same'
  exact chains.canonical_unique canonical (sameChild ▸ canonical') sameEpoch

/-- Chains on which the checkpoint for epoch 10 has one message. -/
def onePending : Chains where
  height c := if c = ⟨[112]⟩ then 11 else 12
  tipSetAt _ := ⟨[⟨some "e"⟩], 10⟩
  messages _ _ _ _ := ["m"]
  gateway _ := ⟨10, 0, ⟨0⟩, true⟩
  version _ := 0
  period := 10
  period_eq _ := rfl
  advances _ := .inr ⟨rfl, rfl⟩

/-- The replies to an agent that submits on `onePending`, at one of the parent's heads. -/
def untilSubmitted (parentHead : ChainHeadResponse) : List Reply :=
  let gateway : Reply := .gatewayState ⟨10, 0, ⟨0⟩, true⟩
  [.tipSet ⟨[⟨some "c"⟩], 3⟩, gateway, .tipSet parentHead, .tipSet ⟨[⟨some "c"⟩], 3⟩, gateway,
    .subnetActorState ⟨10, some [⟨"a"⟩, ⟨"b"⟩], ⟨0⟩⟩, gateway, .tipSet ⟨[⟨some "e"⟩], 10⟩,
    .texts ["m"]]

theorem topdown_agreement_two_heads :
    ∃ cp cp' : TopDownCheckpoint,
      .mark (.submits ⟨[97]⟩ (.topDown cp)) ∈
        ((manageTopdownCheckpoints .plain ⟨⟨"/root/t01"⟩, [⟨[97]⟩]⟩ ⟨"/root"⟩).run
          (untilSubmitted ⟨[⟨some "p"⟩], 11⟩)).trace ∧
      .mark (.submits ⟨[98]⟩ (.topDown cp')) ∈
        ((manageTopdownCheckpoints .plain ⟨⟨"/root/t01"⟩, [⟨[98]⟩]⟩ ⟨"/root"⟩).run
          (untilSubmitted ⟨[⟨some "q"⟩], 12⟩)).trace ∧ cp = cp' := by
  refine ⟨⟨10, (Ext.plain.cborCrossMsg []).toList⟩, ⟨10, (Ext.plain.cborCrossMsg []).toList⟩,
    by decide +kernel, by decide +kernel, ?_⟩
  exact topdown_agreement .plain onePending ⟨⟨"/root/t01"⟩, [⟨[97]⟩]⟩ ⟨⟨"/root/t01"⟩, [⟨[98]⟩]⟩
    ⟨"/root"⟩ ⟨"/root"⟩ rfl (untilSubmitted ⟨[⟨some "p"⟩], 11⟩)
    (untilSubmitted ⟨[⟨some "q"⟩], 12⟩) (by decide +kernel) (by decide +kernel) ⟨[97]⟩ ⟨[98]⟩ _ _
    (by decide +kernel) (by decide +kernel) rfl

end IpcAgent.Manager
