import IpcAgent.Manager.Subsystem

/-!
# What a manager has read

What an exchange with a node tells of the chains, and that both managers act on it: whatever one
of them finds due it has just read, and a submission announces a checkpoint for the epoch that
was found due.
-/

namespace IpcAgent.Manager
open Library Lotus

/-! ## Reads -/

/-- The chain that has to reach an epoch before a checkpoint for it is due. -/
def Direction.source : Direction → Side
  | .bottomUp => .child
  | .topDown => .parent

/-- The height of a chain, from its head. -/
def heightRead (side : Side) : Event (Call Side) Reply Mark → Option ChainEpoch
  | .exchange (.rpc client .chainHead) (.tipSet r) =>
    if client = side ∧ IsEpoch r.height then some r.height.toInt64 else none
  | _ => none

/-- The state of the gateway in the child. -/
def gatewayRead : Event (Call Side) Reply Mark → Option IPCReadGatewayStateResponse
  | .exchange (.rpc .child (.ipcReadGatewayState _)) (.gatewayState state) => some state
  | _ => none

/-- The state of the child's actor in the parent. -/
def subnetActorRead (child : SubnetID) :
    Event (Call Side) Reply Mark → Option IPCReadSubnetActorStateResponse
  | .exchange (.rpc .parent (.ipcReadSubnetActorState subnet _)) (.subnetActorState state) =>
    if subnet = child then some state else none
  | _ => none

section

variable (ext : Ext) (d : Direction) (child : SubnetID) (e : Event (Call Side) Reply Mark)

def Direction.periodRead : Option ChainEpoch :=
  match d with
  | .bottomUp => (subnetActorRead child e).map (·.bottomUpCheckPeriod)
  | .topDown => (gatewayRead e).map (·.topDownCheckPeriod)

def Direction.lastExecRead : Option ChainEpoch :=
  match d with
  | .bottomUp => (subnetActorRead child e).map (·.bottomUpCheckpointVoting.lastVotingExecuted)
  | .topDown => (gatewayRead e).map (·.topDownCheckpointVoting.lastVotingExecuted)

def validatorsRead : List Address :=
  (((subnetActorRead child e).bind (·.validators)).getD []).filterMap
    fun v => (ext.addressFromStr v.addr).toOption

end

/-- The epoch of a checkpoint that is submitted. -/
def checkpointEpoch : Params → Option ChainEpoch
  | .bottomUp checkpoint => some checkpoint.data.epoch
  | .topDown checkpoint => some checkpoint.epoch
  | _ => none

/-! ## Submissions -/

/-- A message is pushed, or waited for. -/
def commits : Event (Call Side) Reply Mark → Bool
  | .exchange (.rpc _ (.mpoolPushMessage _)) _ | .exchange (.rpc _ (.stateWaitMsg _)) _ => true
  | _ => false

/-- Not part of a submission. -/
def Passive (e : Event (Call Side) Reply Mark) : Prop :=
  commits e = false ∧ ∀ account params, e ≠ .mark (.submits account params)

theorem passive_due (l p : ChainEpoch) : Passive (.mark (.due l p)) := ⟨rfl, by simp⟩

theorem passive_submitted (account : Address) (epoch : ChainEpoch) (ok : Bool) :
    Passive (.mark (.submitted account epoch ok)) := ⟨rfl, by simp⟩

theorem passive_waitOrExit : waitOrExit.Emits Passive := emits_waitOrExit fun _ => ⟨rfl, by simp⟩

/-- `p` puts a checkpoint for `epoch` together, with nothing outside `G` along the way, and then
pushes it in a message of the account. -/
def Pushes (G : Event (Call Side) Reply Mark → Prop) (account : Address) (epoch : ChainEpoch)
    (p : Prog Side Unit) : Prop :=
  ∃ (β : Type) (build : Prog Side β) (ext : Ext) (side : Side) (message : β → MpoolPushMessage),
    p = (do
      let b ← build
      .tell (.submits account (message b).params)
      let _ ← mpoolPushAndWait ext side (message b)
      pure ()) ∧
    build.Upholds (fun _ => True) G (fun b => checkpointEpoch (message b).params = some epoch) ∧
    ∀ b, (message b).sender = account

section Pushes

variable {σ : Type} {s : Scheme σ} {G : Event (Call Side) Reply Mark → Prop} {due : Due σ}
  {account : Address} {epoch : ChainEpoch} {K K' Q : Trace Side → Prop} {h : Trace Side}

theorem emits_mpoolPushAndWait {ext : Ext} {client : Side} {message : MpoolPushMessage} :
    (mpoolPushAndWait ext client message).Emits (commits ·) := by
  refine Program.upholds_bind (emits_request fun _ => rfl) fun _ _ => ?_
  exact Program.upholds_bind emits_cidTryFrom fun _ _ => emits_request fun _ => rfl

theorem wp_of_pushes {p : Prog Side Unit} (pushes : Pushes G account epoch p)
    (built : ∀ ev, (∀ e ∈ ev, G e) → K (h ++ ev))
    (pushed : ∀ ev params sent, (∀ e ∈ ev, G e) → checkpointEpoch params = some epoch →
      (∀ e ∈ sent, commits e) → K (h ++ ev ++ [.mark (.submits account params)] ++ sent)) :
    p.wp (fun _ => K) (fun _ => K) h := by
  obtain ⟨β, build, ext, side, message, rfl, builds, -⟩ := pushes
  refine Program.wp_bind (builds.wp (fun b ev hb allowed => ?_) fun _ ev => built ev)
  refine Program.wp_bind (Program.wp_tell ?_)
  have sends : (do let _ ← mpoolPushAndWait ext side (message b); pure () : Prog Side Unit).Emits
      (commits ·) :=
    Program.upholds_bind emits_mpoolPushAndWait fun _ _ => Program.upholds_pure trivial
  exact sends.wp (fun _ sent _ => pushed ev _ sent allowed hb)
    fun _ sent => pushed ev _ sent allowed hb

/-- `K` holds while a checkpoint is submitted, and `Q` when the submission has returned. -/
theorem wp_trySubmit_of_pushes (pushes : Pushes G account due.epoch (s.submit due account))
    (built : ∀ ev, (∀ e ∈ ev, G e) → K (h ++ ev))
    (pushed : ∀ ev params sent, (∀ e ∈ ev, G e) → checkpointEpoch params = some due.epoch →
      (∀ e ∈ sent, commits e) → K (h ++ ev ++ [.mark (.submits account params)] ++ sent))
    (returned : ∀ h ok, K h → Q (h ++ [.mark (.submitted account due.epoch ok)]))
    (left : ∀ h, K h → K' h) : (trySubmit s due account).wp (fun _ => Q) (fun _ => K') h := by
  refine wp_trySubmit (Program.wp_mono (wp_of_pushes pushes built pushed)
    (fun _ h => returned h true) fun x h hK => ?_)
  cases x with
  | fail e => exact returned h false hK
  | _ => exact left h hK

end Pushes

/-- Every submission so far was for an epoch, and as `P` says of what had happened before it, of
the account and of the epoch. -/
def Submissions (P : Trace Side → Address → ChainEpoch → Prop) (h : Trace Side) : Prop :=
  EachAfter (fun before e => ∀ account params, e = .mark (.submits account params) →
    ∃ epoch, checkpointEpoch params = some epoch ∧ P before account epoch) h

section Submissions

variable {P : Trace Side → Address → ChainEpoch → Prop} {h ev sent : Trace Side}
  {account : Address} {params : Params} {epoch : ChainEpoch}

theorem Submissions.append (all : Submissions P h)
    (none : ∀ e ∈ ev, ∀ account params, e ≠ .mark (.submits account params)) :
    Submissions P (h ++ ev) :=
  EachAfter.append_of_forall all fun e he _ account params same =>
    absurd same (none e he account params)

theorem Submissions.passive (all : Submissions P h) (passive : ∀ e ∈ ev, Passive e) :
    Submissions P (h ++ ev) := all.append fun e he => (passive e he).2

theorem Submissions.submits (all : Submissions P h) (same : checkpointEpoch params = some epoch)
    (hP : P h account epoch) : Submissions P (h ++ [.mark (.submits account params)]) := by
  refine eachAfter_snoc_iff.mpr ⟨all, fun account' params' eq => ?_⟩
  cases eq
  exact ⟨epoch, same, hP⟩

theorem ne_submits_of_commits {e : Event (Call Side) Reply Mark} (he : commits e) :
    ∀ account params, e ≠ .mark (.submits account params) := by
  rintro account params rfl
  cases he

end Submissions

/-! ## Findings -/

section Found

variable {σ : Type} {ext : Ext} {d : Direction} {child : SubnetID} {period : ChainEpoch}
  {due : Due σ} {validators : List Address} {h h' : Trace Side}

/-- What is due is so by the reads in `h`. -/
structure Found (d : Direction) (child : SubnetID) (period : ChainEpoch) (due : Due σ)
    (h : Trace Side) : Prop where
  period : due.period = period
  lastExec : ∃ e ∈ h, d.lastExecRead child e = some due.lastExec
  height : ∃ e ∈ h, ∃ n, heightRead d.source e = some n ∧ due.epoch ≤ n

theorem Found.mono (found : Found d child period due h) (sub : h ⊆ h') :
    Found d child period due h' := by
  obtain ⟨same, ⟨e, mem, last⟩, e', mem', n, head, le⟩ := found
  exact ⟨same, ⟨e, sub mem, last⟩, e', sub mem', n, head, le⟩

/-- The subnet takes votes by the reads in `h`, and from whom. -/
structure Opened (ext : Ext) (child : SubnetID) (validators : List Address) (h : Trace Side) :
    Prop where
  validators : ∀ a ∈ validators, ∃ e ∈ h, a ∈ validatorsRead ext child e
  initialized : ∃ e ∈ h, ∃ state, gatewayRead e = some state ∧ state.initialized = true

theorem Opened.mono (opened : Opened ext child validators h) (sub : h ⊆ h') :
    Opened ext child validators h' := by
  obtain ⟨members, e, mem, ready⟩ := opened
  refine ⟨fun a ha => ?_, e, sub mem, ready⟩
  obtain ⟨e', mem', listed⟩ := members a ha
  exact ⟨e', sub mem', listed⟩

end Found

/-- The manager acts on what it reads. -/
structure Scheme.Informed {σ : Type} (ext : Ext) (d : Direction) (child : SubnetID)
    (s : Scheme σ) : Prop where
  readPeriod : s.readPeriod.Shows Passive fun period ev =>
    ∃ e ∈ ev, d.periodRead child e = some period
  observe : ∀ period, (s.observe period).Shows Passive fun found ev =>
    ∀ f ∈ found, Found d child period f.1 ev ∧ Opened ext child f.2 ev
  catchUp : ∀ period outer, (s.catchUp period outer).Shows Passive fun found ev =>
    ∀ late ∈ found, Found d child period late ev
  submit : ∀ due account, Pushes Passive account due.epoch (s.submit due account)

/-! ## Both managers -/

section Informed

variable {ext : Ext} {client : Side} {subnet : SubnetID} {tipSet : Cid}
  {G : Event (Call Side) Reply Mark → Prop}

theorem passive_exchange {rpc : Rpc} {reply : Reply}
    (read : commits (.exchange (.rpc client rpc) reply) = false) :
    Passive (.exchange (.rpc client rpc) reply) := ⟨read, by simp⟩

theorem shows_chainHead (allowed : ∀ reply, G (.exchange (.rpc client .chainHead) reply)) :
    (chainHead client).Shows G
      (fun r ev => ev = [.exchange (.rpc client .chainHead) (.tipSet r)]) := by
  refine (shows_request allowed).mono ?_
  rintro r _ ⟨reply, decoded, rfl⟩
  cases reply <;> simp_all

theorem shows_ipcReadGatewayState
    (allowed : ∀ reply, G (.exchange (.rpc client (.ipcReadGatewayState tipSet)) reply)) :
    (ipcReadGatewayState client tipSet).Shows G
      (fun state ev => ev = [.exchange (.rpc client (.ipcReadGatewayState tipSet))
        (.gatewayState state)]) := by
  refine (shows_request allowed).mono ?_
  rintro r _ ⟨reply, decoded, rfl⟩
  cases reply <;> simp_all

theorem shows_ipcReadSubnetActorState (allowed : ∀ reply,
      G (.exchange (.rpc client (.ipcReadSubnetActorState subnet tipSet)) reply)) :
    (ipcReadSubnetActorState client subnet tipSet).Shows G
      (fun state ev => ev = [.exchange (.rpc client (.ipcReadSubnetActorState subnet tipSet))
        (.subnetActorState state)]) := by
  refine (shows_request allowed).mono ?_
  rintro r _ ⟨reply, decoded, rfl⟩
  cases reply <;> simp_all

theorem epochTryFrom_spec {height : UInt64} :
    (epochTryFrom height : Prog Side ChainEpoch).Upholds (fun _ => True) G
      (fun n => IsEpoch height ∧ n = height.toInt64) :=
  upholds_epochTryFrom fun small => ⟨small, rfl⟩

theorem mem_validatorsRead {state : IPCReadSubnetActorStateResponse} {a : Address} {v : Validator}
    (listed : v ∈ state.validators.getD []) (parsed : ext.addressFromStr v.addr = .ok a) :
    a ∈ validatorsRead ext subnet (.exchange (.rpc .parent (.ipcReadSubnetActorState subnet tipSet))
      (.subnetActorState state)) := by
  simp only [validatorsRead, subnetActorRead, if_true, Option.bind_some, List.mem_filterMap]
  exact ⟨v, listed, by simp [parsed, Except.toOption]⟩

/-- The reads of an iteration of the bottom-up manager that has found something due. -/
theorem shows_observe_bottomUp (ext : Ext) (child : Subnet) (parentId : SubnetID)
    (period : ChainEpoch) :
    ((bottomUp ext child parentId).observe period).Shows Passive fun found ev => ∀ f ∈ found,
      ∃ childHead gateway parentHead parentTipSet state,
        ev = [.exchange (.rpc .child .chainHead) (.tipSet childHead),
          .exchange (.rpc .child (.ipcReadGatewayState f.1.seen)) (.gatewayState gateway),
          .exchange (.rpc .parent .chainHead) (.tipSet parentHead),
          .exchange (.rpc .parent (.ipcReadSubnetActorState child.id parentTipSet))
            (.subnetActorState state)] ∧
        f.1.lastExec = state.bottomUpCheckpointVoting.lastVotingExecuted ∧ f.1.period = period ∧
        tipSetOf ext childHead = some f.1.seen ∧ IsEpoch childHead.height ∧
        f.1.epoch ≤ childHead.height.toInt64 ∧ gateway.initialized = true ∧
        ∀ a ∈ f.2, ∃ v ∈ state.validators.getD [], ext.addressFromStr v.addr = .ok a := by
  refine Program.shows_bind (shows_chainHead fun _ => passive_exchange rfl) ?_
  rintro childHead _ rfl
  refine Program.shows_bind_silent epochTryFrom_spec ?_
  rintro _ ⟨small, rfl⟩
  refine Program.shows_bind_silent
    (upholds_tipSetCid (Q := fun c => tipSetOf ext childHead = some c) fun _ => id)
    fun childTipSet first => ?_
  refine Program.shows_bind (shows_ipcReadGatewayState fun _ => passive_exchange rfl) ?_
  rintro gateway _ rfl
  refine Program.shows_bind (shows_chainHead fun _ => passive_exchange rfl) ?_
  rintro parentHead _ rfl
  refine Program.shows_bind_silent upholds_assertOneCid fun _ _ => ?_
  refine Program.shows_bind_silent emits_tipSetCid fun parentTipSet _ => ?_
  refine Program.shows_bind (shows_ipcReadSubnetActorState fun _ => passive_exchange rfl) ?_
  rintro state _ rfl
  dsimp only
  split
  · rename_i due
    refine Program.shows_bind_silent upholds_validatorSet fun validators members => ?_
    refine Program.shows_bind_silent upholds_assertOneCid fun _ _ => ?_
    refine Program.shows_bind_silent
      (upholds_tipSetCid (Q := fun c => tipSetOf ext childHead = some c) fun _ => id)
      fun childTipSet' again => Program.shows_pure ?_
    obtain rfl := Option.some.inj (first.symm.trans again)
    rintro _ ⟨⟩
    exact ⟨childHead, gateway, parentHead, parentTipSet, state, by simp, rfl, rfl, first, small,
      due.2, due.1, members⟩
  · exact Program.shows_pure (by simp)

/-- The reads of a round of its catch-up loop that has found something due. -/
theorem shows_catchUp_bottomUp (ext : Ext) (child : Subnet) (parentId : SubnetID)
    (period : ChainEpoch) (outer : Cid)
    (head : ∀ client reply, G (.exchange (.rpc client .chainHead) reply))
    (state : ∀ tipSet reply,
      G (.exchange (.rpc .parent (.ipcReadSubnetActorState child.id tipSet)) reply)) :
    ((bottomUp ext child parentId).catchUp period outer).Shows G fun found ev => ∀ late ∈ found,
      ∃ childHead parentHead parentTipSet state,
        ev = [.exchange (.rpc .child .chainHead) (.tipSet childHead),
          .exchange (.rpc .parent .chainHead) (.tipSet parentHead),
          .exchange (.rpc .parent (.ipcReadSubnetActorState child.id parentTipSet))
            (.subnetActorState state)] ∧
        late.lastExec = state.bottomUpCheckpointVoting.lastVotingExecuted ∧
        late.period = period ∧ late.seen = outer ∧ IsEpoch childHead.height ∧
        late.epoch ≤ childHead.height.toInt64 := by
  refine Program.shows_bind (shows_chainHead (head _)) ?_
  rintro childHead _ rfl
  refine Program.shows_bind_silent epochTryFrom_spec ?_
  rintro _ ⟨small, rfl⟩
  refine Program.shows_bind (shows_chainHead (head _)) ?_
  rintro parentHead _ rfl
  refine Program.shows_bind_silent emits_tipSetCid fun parentTipSet _ => ?_
  refine Program.shows_bind (shows_ipcReadSubnetActorState (state _)) ?_
  rintro state _ rfl
  dsimp only
  split
  · rename_i due
    refine Program.shows_pure ?_
    rintro _ ⟨⟩
    exact ⟨childHead, parentHead, parentTipSet, state, by simp, rfl, rfl, rfl, small, due⟩
  · exact Program.shows_pure (by simp)

theorem pushes_submitCheckpoint {G : Event (Call Side) Reply Mark → Prop} (ext : Ext)
    (child : Subnet) (childTipSet : Cid) (epoch : ChainEpoch) (account : Address)
    (template : ∀ reply, G (.exchange (.rpc .child (.ipcGetCheckpointTemplate epoch)) reply))
    (prev : ∀ reply, G (.exchange (.rpc .parent (.ipcGetPrevCheckpointForChild child.id)) reply)) :
    Pushes G account epoch (submitCheckpoint ext child childTipSet epoch account) := by
  refine ⟨Params, do
    let checkpoint ← buildCheckpoint ext child childTipSet epoch
    serialize ext (.bottomUp checkpoint) "checkpoint", ext, .parent, fun params =>
      .new (ext.subnetActor child.id) account .subnetSubmitCheckpoint params,
    by simp [submitCheckpoint, MpoolPushMessage.new], ?_, fun _ => rfl⟩
  refine Program.upholds_bind (upholds_buildCheckpoint ext child template prev)
    fun checkpoint same => ?_
  exact upholds_serialize (by simp [MpoolPushMessage.new, checkpointEpoch, same])

theorem informed_bottomUp (ext : Ext) (child : Subnet) (parentId : SubnetID) :
    (bottomUp ext child parentId).Informed ext .bottomUp child.id where
  readPeriod := by
    refine Program.shows_bind (shows_chainHead fun _ => passive_exchange rfl) ?_
    rintro head _ rfl
    refine Program.shows_bind_silent emits_tipSetCid fun tipSet _ => ?_
    refine Program.shows_bind (shows_ipcReadSubnetActorState fun _ => passive_exchange rfl) ?_
    rintro state _ rfl
    exact Program.shows_pure (by simp [Direction.periodRead, subnetActorRead])
  observe period := by
    refine (shows_observe_bottomUp ext child parentId period).mono fun found ev shown f hf => ?_
    obtain ⟨childHead, gateway, parentHead, parentTipSet, state, rfl, last, same, -, small, le,
      ready, members⟩ := shown f hf
    refine ⟨⟨same, ?_, ?_⟩, fun a ha => ?_, ?_⟩
    · simp [Direction.lastExecRead, subnetActorRead, last]
    · simpa [heightRead, Direction.source, small] using le
    · obtain ⟨v, listed, parsed⟩ := members a ha
      exact ⟨.exchange (.rpc .parent (.ipcReadSubnetActorState child.id parentTipSet))
        (.subnetActorState state), by simp, mem_validatorsRead listed parsed⟩
    · simp [gatewayRead, ready]
  catchUp period outer := by
    refine (shows_catchUp_bottomUp ext child parentId period outer
      (fun _ _ => passive_exchange rfl) fun _ _ => passive_exchange rfl).mono
      fun found ev shown late hl => ?_
    obtain ⟨childHead, parentHead, parentTipSet, state, rfl, last, same, -, small, le⟩ :=
      shown late hl
    refine ⟨same, ?_, ?_⟩
    · simp [Direction.lastExecRead, subnetActorRead, last]
    · simpa [heightRead, Direction.source, small] using le
  submit due account := pushes_submitCheckpoint ext child due.seen due.epoch account
    (fun _ => passive_exchange rfl) fun _ => passive_exchange rfl

theorem shows_readHeads (ext : Ext) : (readHeads ext).Shows Passive (fun heads ev =>
    (∃ e ∈ ev, heightRead .parent e = some heads.1) ∧
      ∃ e ∈ ev, gatewayRead e = some heads.2.2) := by
  refine Program.shows_bind (shows_chainHead fun _ => passive_exchange rfl) ?_
  rintro parentHead _ rfl
  refine Program.shows_bind_silent epochTryFrom_spec ?_
  rintro _ ⟨small, rfl⟩
  refine Program.shows_bind_silent emits_tipSetCid fun parentTipSet _ => ?_
  refine Program.shows_bind (shows_chainHead fun _ => passive_exchange rfl) ?_
  rintro childHead _ rfl
  refine Program.shows_bind_silent emits_tipSetCid fun childTipSet _ => ?_
  refine Program.shows_bind (shows_ipcReadGatewayState fun _ => passive_exchange rfl) ?_
  rintro gateway _ rfl
  exact Program.shows_pure (by simp [heightRead, gatewayRead, small])

/-- What the top-down manager has found due with the heads it has read. -/
theorem found_topDown {child : SubnetID}
    {heads : ChainEpoch × TipSets × IPCReadGatewayStateResponse} {period : ChainEpoch}
    {h : Trace Side} (head : ∃ e ∈ h, heightRead .parent e = some heads.1)
    (gateway : ∃ e ∈ h, gatewayRead e = some heads.2.2)
    (due : heads.2.2.topDownCheckpointVoting.lastVotingExecuted + period ≤ heads.1) :
    Found .topDown child period
      (⟨heads.2.2.topDownCheckpointVoting.lastVotingExecuted, period, heads.2.1⟩ : Due TipSets)
      h := by
  obtain ⟨e, mem, height⟩ := head
  obtain ⟨e', mem', read⟩ := gateway
  exact ⟨rfl, ⟨e', mem', by simp [Direction.lastExecRead, read]⟩, e, mem, heads.1, height, due⟩

theorem pushes_submitTopdownCheckpoint (ext : Ext) (child : Subnet) (epoch : ChainEpoch)
    (seen : TipSets) (account : Address) :
    Pushes Passive account epoch (submitTopdownCheckpoint ext child epoch seen account) := by
  refine ⟨Address × Params, do
    let state ← ipcReadGatewayState .child seen.child
    let gatewayAddr ← ofExcept (ext.addressFromStr gatewayActorAddress)
    let submission ← getTipsetByHeight .parent epoch seen.parent
    let submissionTipSet ← tipSetCid ext submission
    let topDownMsgs ← ipcGetTopdownMsgs ext .parent child.id gatewayAddr submissionTipSet
      state.appliedTopdownNonce
    let params ← serialize ext (.topDown ⟨epoch, topDownMsgs⟩) "topdown_checkpoint"
    pure (gatewayAddr, params), ext, .child, fun b =>
      .new b.1 account .gatewaySubmitTopDownCheckpoint b.2,
    by simp [submitTopdownCheckpoint, MpoolPushMessage.new], ?_, fun _ => rfl⟩
  refine Program.upholds_bind (emits_request fun _ => passive_exchange rfl) fun state _ => ?_
  refine Program.upholds_bind emits_ofExcept fun gatewayAddr _ => ?_
  refine Program.upholds_bind (emits_request fun _ => passive_exchange rfl) fun submission _ => ?_
  refine Program.upholds_bind emits_tipSetCid fun tipSet _ => ?_
  refine Program.upholds_bind (emits_ipcGetTopdownMsgs fun _ => passive_exchange rfl)
    fun msgs _ => ?_
  refine Program.upholds_bind
    (upholds_serialize (Q := fun params => checkpointEpoch params = some epoch) rfl)
    fun params same => ?_
  exact Program.upholds_pure same

theorem informed_topDown (ext : Ext) (child : Subnet) (parentId : SubnetID) :
    (topDown ext child parentId).Informed ext .topDown child.id where
  readPeriod := by
    refine Program.shows_bind (shows_chainHead fun _ => passive_exchange rfl) ?_
    rintro head _ rfl
    refine Program.shows_bind_silent emits_tipSetCid fun tipSet _ => ?_
    refine Program.shows_bind (shows_ipcReadGatewayState fun _ => passive_exchange rfl) ?_
    rintro state _ rfl
    exact Program.shows_pure (by simp [Direction.periodRead, gatewayRead])
  observe period := by
    refine Program.shows_bind (shows_readHeads ext) ?_
    rintro heads ev ⟨head, gateway⟩
    dsimp only
    split
    · rename_i due
      refine Program.shows_bind (shows_ipcReadSubnetActorState fun _ => passive_exchange rfl) ?_
      rintro state _ rfl
      refine Program.shows_bind_silent upholds_validatorSet fun validators members => ?_
      refine Program.shows_pure ?_
      rintro _ ⟨⟩
      rw [List.append_nil]
      refine ⟨(found_topDown head gateway due.2).mono (List.subset_append_left _ _),
        fun a ha => ?_, ?_⟩
      · obtain ⟨v, listed, parsed⟩ := members a ha
        exact ⟨.exchange (.rpc .parent (.ipcReadSubnetActorState child.id heads.2.1.parent))
          (.subnetActorState state), by simp, mem_validatorsRead listed parsed⟩
      · obtain ⟨e, mem, read⟩ := gateway
        exact ⟨e, List.mem_append_left _ mem, heads.2.2, read, due.1⟩
    · exact Program.shows_pure (by simp)
  catchUp period outer := by
    refine Program.shows_bind (shows_readHeads ext) ?_
    rintro heads ev ⟨head, gateway⟩
    dsimp only
    split
    · rename_i late
      refine Program.shows_pure ?_
      rintro _ ⟨⟩
      rw [List.append_nil]
      exact found_topDown head gateway late
    · exact Program.shows_pure (by simp)
  submit due account := pushes_submitTopdownCheckpoint ext child due.epoch due.seen account

end Informed

end IpcAgent.Manager
