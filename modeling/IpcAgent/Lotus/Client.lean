import IpcAgent.Library.Dialogue
import IpcAgent.Lotus.Message

/-!
# The Lotus client

`lotus/client.rs`. The agent's code is a program in dialogue with Lotus nodes: each request
is a call, answered with whatever the node sends back. A reply of the wrong kind is one that
the client cannot decode.
-/

namespace IpcAgent.Lotus
open Library

/-- A request on one of the clients, or a wait for the next iteration. -/
inductive Call (κ : Type)
  | rpc (client : κ) (request : Rpc)
  | wait
deriving DecidableEq

/-- An `anyhow` error: its contexts, outermost first, and its message. -/
abbrev Error := List String

/-- What ends a program from inside: a panic, or a `return Ok(())`. -/
inductive Stop
  | panic (message : String)
  | exit
deriving DecidableEq

/-- Points of a run of the checkpoint managers. -/
inductive Mark
  /-- With this last executed epoch and this period, it is time to vote. -/
  | due (lastExec period : ChainEpoch)
  /-- A checkpoint is about to be pushed. -/
  | submits (account : Address) (checkpoint : Params)
  /-- A submission has returned. -/
  | submitted (account : Address) (epoch : ChainEpoch) (success : Bool)
deriving DecidableEq

abbrev Prog (κ : Type) := Program (Call κ) Reply Mark Error Stop

abbrev Trace (κ : Type) := List (Event (Call κ) Reply Mark)

/-- The functions of other crates: parsers, decoders and what belongs to a subnet. -/
structure Ext where
  cidFromStr : String → Option Cid
  addressFromStr : String → Except String Address
  parent : SubnetID → Option SubnetID
  subnetActor : SubnetID → Address
  base64 : String → Option (List UInt8)
  cborCheckpoint : List UInt8 → Option BottomUpCheckpoint
  cborCrossMsg : List UInt8 → Option CrossMsg
  cborInitExecReturn : List UInt8 → Option InitExecReturn
  /-- Whether CBOR can encode the parameters. -/
  serializes : Params → Bool
  defaultCid : Cid
  defaultInitExecReturn : InitExecReturn
  initActorAddr : Address
  /-- The name of the subnet actor among the actor codes. -/
  manifestId : String

/-- The simplest choice: a text stands for its own characters, and every encoded value for one
and the same. -/
def Ext.plain : Ext where
  cidFromStr s := some ⟨s.toList.map Char.toUInt8⟩
  addressFromStr s := .ok ⟨s.toList.map Char.toUInt8⟩
  parent subnet := if subnet.text = "/root" then none else some ⟨"/root"⟩
  subnetActor subnet := ⟨subnet.text.toList.map Char.toUInt8⟩
  base64 s := some (s.toList.map Char.toUInt8)
  cborCheckpoint _ := some ⟨⟨⟨"/root"⟩, [], 0, ⟨[]⟩, [], ⟨none, 0⟩⟩, []⟩
  cborCrossMsg _ := some ⟨⟨⟨⟨"/root"⟩, ⟨[]⟩⟩, ⟨⟨"/root"⟩, ⟨[]⟩⟩, 0, [], 0, 0⟩, false⟩
  cborInitExecReturn bytes := some ⟨⟨bytes⟩⟩
  serializes _ := true
  defaultCid := ⟨[]⟩
  defaultInitExecReturn := ⟨⟨[]⟩⟩
  initActorAddr := ⟨[1]⟩
  manifestId := "ipc_subnet_actor"

def gatewayActorAddress : String := "t064"

section Client

variable {κ α : Type} (ext : Ext) (client : κ)

/-! ## Conversions -/

def ofExcept : Except String α → Prog κ α
  | .ok a => pure a
  | .error message => .fail [message]

/-- `Cid::try_from(CIDMap)`. -/
def cidTryFrom (m : CIDMap) : Prog κ Cid :=
  match m.cid with
  | none => .fail ["cid not found"]
  | some s =>
    match ext.cidFromStr s with
    | some cid => pure cid
    | none => .stop (.panic "invalid cid str")

/-- `cids.first().unwrap()`. -/
def firstCid (r : ChainHeadResponse) : Prog κ CIDMap :=
  match r.cids with
  | m :: _ => pure m
  | [] => .stop (.panic "called `Option::unwrap()` on a `None` value")

/-- The CID of the first block of a tipset. -/
def tipSetCid (r : ChainHeadResponse) : Prog κ Cid := do
  cidTryFrom ext (← firstCid r)

/-- `assert_eq!(cids.len(), 1)`. -/
def assertOneCid (r : ChainHeadResponse) : Prog κ Unit :=
  if r.cids.length = 1 then pure ()
  else .stop (.panic "assertion failed: `(left == right)`")

/-- The heights that fit into an epoch. -/
def IsEpoch (height : UInt64) : Prop := height < 0x8000000000000000

instance (height : UInt64) : Decidable (IsEpoch height) := inferInstanceAs (Decidable (_ < _))

/-- `ChainEpoch::try_from(height)`. -/
def epochTryFrom (height : UInt64) : Prog κ ChainEpoch :=
  if IsEpoch height then pure height.toInt64
  else .fail ["out of range integral type conversion attempted"]

/-- `cbor::serialize`. -/
def serialize (params : Params) (description : String) : Prog κ Params :=
  if ext.serializes params then pure params
  else .fail ["failed to serialize '" ++ description ++ "'"]

/-! ## Requests -/

def request (rpc : Rpc) (decode : Reply → Option α) : Prog κ α := do
  match ← .ask (.rpc client rpc) with
  | .error message => .fail [message]
  | reply =>
    match decode reply with
    | some a => pure a
    | none => .fail ["cannot parse json rpc response"]

def chainHead : Prog κ ChainHeadResponse :=
  request client .chainHead (fun | .tipSet r => some r | _ => none)

def getTipsetByHeight (epoch : ChainEpoch) (tipSet : Cid) : Prog κ ChainHeadResponse :=
  request client (.getTipsetByHeight epoch tipSet) (fun | .tipSet r => some r | _ => none)

def ipcReadGatewayState (tipSet : Cid) : Prog κ IPCReadGatewayStateResponse :=
  request client (.ipcReadGatewayState tipSet) (fun | .gatewayState r => some r | _ => none)

def ipcReadSubnetActorState (subnet : SubnetID) (tipSet : Cid) :
    Prog κ IPCReadSubnetActorStateResponse :=
  request client (.ipcReadSubnetActorState subnet tipSet)
    (fun | .subnetActorState r => some r | _ => none)

def ipcGetPrevCheckpointForChild (child : SubnetID) : Prog κ (Option CIDMap) :=
  match ext.parent child with
  | none => .fail ["The child_subnet_id must be a valid child subnet"]
  | some _ => request client (.ipcGetPrevCheckpointForChild child)
      (fun | .cid c => some c | _ => none)

/-- The template for an epoch, from its CBOR bytes in base64. -/
def ipcGetCheckpointTemplate (epoch : ChainEpoch) : Prog κ BottomUpCheckpoint := do
  let r ← request client (.ipcGetCheckpointTemplate epoch) (fun | .text s => some s | _ => none)
  match ext.base64 r with
  | none => .fail ["Invalid byte"]
  | some bytes =>
    match ext.cborCheckpoint bytes with
    | some checkpoint => pure checkpoint
    | none => .fail ["failed to deserialize 'checkpoint'"]

def decodeCrossMsg (s : String) : Except String CrossMsg :=
  match (ext.base64 s).bind ext.cborCrossMsg with
  | some msg => .ok msg
  | none => .error "cannot decode cross-msgs base64 string"

def ipcGetTopdownMsgs (subnet : SubnetID) (gateway : Address) (tipSet : Cid) (nonce : UInt64) :
    Prog κ (List CrossMsg) := do
  let r ← request client (.ipcGetTopdownMsgs subnet gateway tipSet nonce)
    (fun | .texts l => some l | _ => none)
  ofExcept (r.mapM (decodeCrossMsg ext))

def mpoolPushMessage (message : MpoolPushMessage) : Prog κ CIDMap :=
  request client (.mpoolPushMessage message) (fun | .pushed cid => some cid | _ => none)

def stateWaitMsg (cid : Cid) : Prog κ Receipt :=
  request client (.stateWaitMsg cid) (fun | .waited receipt => some receipt | _ => none)

def stateNetworkName : Prog κ String :=
  request client .stateNetworkName (fun | .text s => some s | _ => none)

def stateNetworkVersion : Prog κ Nat :=
  request client .stateNetworkVersion (fun | .networkVersion n => some n | _ => none)

/-- The reply lists a map in the order in which the client walks it. -/
def stateActorCodeCids (version : Nat) : Prog κ (List (String × Cid)) := do
  let r ← request client (.stateActorCodeCids version) (fun | .codeCids l => some l | _ => none)
  r.mapM (fun e => do return (e.1, ← cidTryFrom ext e.2))

/-- Push a message and wait until it is on the chain: `mpool_push_and_wait`, and the end of
both checkpoint submissions. -/
def mpoolPushAndWait (message : MpoolPushMessage) : Prog κ Receipt := do
  let pushed ← mpoolPushMessage client message
  let cid ← cidTryFrom ext pushed
  stateWaitMsg client cid

end Client

/-! ## Rules

The conversions make no calls, so each of their rules is about the result alone. -/

section Rules

variable {κ α : Type} {ext : Ext} {client : κ} {R G : Event (Call κ) Reply Mark → Prop}
  {Q : α → Prop}

theorem upholds_ofExcept {x : Except String α} (ok : ∀ a, x = .ok a → Q a) :
    (ofExcept x : Prog κ α).Upholds R G Q := by
  cases x with
  | ok a => exact Program.upholds_pure (ok a rfl)
  | error e => exact Program.upholds_fail _

/-- The CID in its JSON form, if there is one. -/
def cidOf (ext : Ext) (m : CIDMap) : Option Cid := m.cid.bind ext.cidFromStr

theorem upholds_cidTryFrom {Q : Cid → Prop} {m : CIDMap}
    (ok : ∀ c, cidOf ext m = some c → Q c) : (cidTryFrom ext m : Prog κ Cid).Upholds R G Q := by
  unfold cidTryFrom
  cases hm : m.cid with
  | none => exact Program.upholds_fail _
  | some s =>
    cases hs : ext.cidFromStr s with
    | none => simpa [hs] using Program.upholds_stop _
    | some c => simpa [hs] using Program.upholds_pure (ok c (by simp [cidOf, hm, hs]))

/-- The CID of the first block of a tipset, if there is one. -/
def tipSetOf (ext : Ext) (r : ChainHeadResponse) : Option Cid := r.cids.head?.bind (cidOf ext)

theorem upholds_tipSetCid {Q : Cid → Prop} {r : ChainHeadResponse}
    (ok : ∀ c, tipSetOf ext r = some c → Q c) : (tipSetCid ext r : Prog κ Cid).Upholds R G Q := by
  unfold tipSetCid firstCid
  refine Program.upholds_bind (Q := fun m => r.cids.head? = some m) ?_ fun m hm => ?_
  · split <;> rename_i h
    · exact Program.upholds_pure (by simp [h])
    · exact Program.upholds_stop _
  · exact upholds_cidTryFrom fun c hc => ok c (by simp [tipSetOf, hm, hc])

theorem upholds_assertOneCid {r : ChainHeadResponse} :
    (assertOneCid r : Prog κ Unit).Upholds R G (fun _ => True) := by
  unfold assertOneCid
  split
  · exact Program.upholds_pure trivial
  · exact Program.upholds_stop _

theorem upholds_epochTryFrom {Q : ChainEpoch → Prop} {height : UInt64}
    (ok : IsEpoch height → Q height.toInt64) :
    (epochTryFrom height : Prog κ ChainEpoch).Upholds R G Q := by
  unfold epochTryFrom
  split
  · exact Program.upholds_pure (ok ‹_›)
  · exact Program.upholds_fail _

theorem upholds_serialize {Q : Params → Prop} {params : Params} {description : String}
    (ok : Q params) : (serialize ext params description : Prog κ Params).Upholds R G Q := by
  unfold serialize
  split
  · exact Program.upholds_pure ok
  · exact Program.upholds_fail _

theorem emits_ofExcept {x : Except String α} : (ofExcept x : Prog κ α).Emits G :=
  upholds_ofExcept fun _ _ => trivial

theorem emits_cidTryFrom {m : CIDMap} : (cidTryFrom ext m : Prog κ Cid).Emits G :=
  upholds_cidTryFrom fun _ _ => trivial

theorem emits_tipSetCid {r : ChainHeadResponse} : (tipSetCid ext r : Prog κ Cid).Emits G :=
  upholds_tipSetCid fun _ _ => trivial

theorem emits_epochTryFrom {height : UInt64} :
    (epochTryFrom height : Prog κ ChainEpoch).Emits G := upholds_epochTryFrom fun _ => trivial

theorem emits_serialize {params : Params} {description : String} :
    (serialize ext params description : Prog κ Params).Emits G := upholds_serialize trivial

theorem upholds_request {rpc : Rpc} {decode : Reply → Option α}
    (answered : ∀ reply, R (.exchange (.rpc client rpc) reply) →
      G (.exchange (.rpc client rpc) reply) ∧ ∀ a, decode reply = some a → Q a) :
    (request client rpc decode).Upholds R G Q := by
  refine Program.upholds_bind
    (Q := fun reply => ∀ a, decode reply = some a → Q a) (Program.upholds_ask answered) ?_
  intro reply hQ
  cases hd : decode reply with
  | none => cases reply <;> simp only [hd] <;> exact Program.upholds_fail _
  | some a => cases reply <;> simp only [hd] <;>
      first | exact Program.upholds_pure (hQ a hd) | exact Program.upholds_fail _

theorem emits_request {rpc : Rpc} {decode : Reply → Option α}
    (allowed : ∀ reply, G (.exchange (.rpc client rpc) reply)) :
    (request client rpc decode).Emits G :=
  upholds_request fun reply _ => ⟨allowed reply, fun _ _ => trivial⟩

theorem shows_request {rpc : Rpc} {decode : Reply → Option α}
    (allowed : ∀ reply, G (.exchange (.rpc client rpc) reply)) :
    (request client rpc decode).Shows G
      (fun a ev => ∃ reply, decode reply = some a ∧ ev = [.exchange (.rpc client rpc) reply]) := by
  refine Program.shows_bind (Program.shows_ask allowed) ?_
  rintro reply _ rfl
  split
  · exact Program.shows_fail _
  · cases decoded : decode reply with
    | none => exact Program.shows_fail _
    | some a => exact Program.shows_pure ⟨reply, decoded, rfl⟩

/-- `G` has room for every request but `state_wait_msg`. -/
def AllowsReads (G : Event (Call κ) Reply Mark → Prop) : Prop :=
  ∀ client rpc reply, (∀ cid, rpc ≠ .stateWaitMsg cid) → G (.exchange (.rpc client rpc) reply)

theorem AllowsReads.request {rpc : Rpc} {decode : Reply → Option α} (reads : AllowsReads G)
    (notWait : ∀ cid, rpc ≠ .stateWaitMsg cid) : (request client rpc decode).Emits G :=
  emits_request fun reply => reads client rpc reply notWait

theorem emits_ipcGetCheckpointTemplate {epoch : ChainEpoch}
    (allowed : ∀ reply, G (.exchange (.rpc client (.ipcGetCheckpointTemplate epoch)) reply)) :
    (ipcGetCheckpointTemplate ext client epoch).Emits G := by
  refine Program.upholds_bind (emits_request allowed) fun r _ => ?_
  split
  · exact Program.upholds_fail _
  · split
    · exact Program.upholds_pure trivial
    · exact Program.upholds_fail _

theorem emits_ipcGetPrevCheckpointForChild {child : SubnetID}
    (allowed : ∀ reply, G (.exchange (.rpc client (.ipcGetPrevCheckpointForChild child)) reply)) :
    (ipcGetPrevCheckpointForChild ext client child).Emits G := by
  unfold Lotus.ipcGetPrevCheckpointForChild
  split
  · exact Program.upholds_fail _
  · exact emits_request allowed

theorem emits_ipcGetTopdownMsgs {subnet : SubnetID} {gateway : Address} {tipSet : Cid}
    {nonce : UInt64} (allowed : ∀ reply,
      G (.exchange (.rpc client (.ipcGetTopdownMsgs subnet gateway tipSet nonce)) reply)) :
    (ipcGetTopdownMsgs ext client subnet gateway tipSet nonce).Emits G :=
  Program.upholds_bind (emits_request allowed) fun _ _ => emits_ofExcept

theorem emits_stateActorCodeCids {version : Nat}
    (allowed : ∀ reply, G (.exchange (.rpc client (.stateActorCodeCids version)) reply)) :
    (stateActorCodeCids ext client version).Emits G := by
  refine Program.upholds_bind (emits_request allowed) fun r _ => ?_
  refine Program.upholds_mapM r fun e _ => ?_
  exact Program.upholds_bind emits_cidTryFrom
    fun _ _ => Program.upholds_pure trivial

theorem wp_request {rpc : Rpc} {decode : Reply → Option α} {Q : α → Trace κ → Prop}
    {S : Halt (Call κ) Error Stop → Trace κ → Prop} {h : Trace κ}
    (waiting : S (.await (.rpc client rpc)) h)
    (failed : ∀ e reply, (∃ m, reply = .error m) ∨ decode reply = none →
      S (.fail e) (h ++ [.exchange (.rpc client rpc) reply]))
    (answered : ∀ reply a, decode reply = some a →
      Q a (h ++ [.exchange (.rpc client rpc) reply])) :
    (request client rpc decode).wp Q S h := by
  refine Program.wp_bind (Program.wp_ask waiting fun reply => ?_)
  split
  · exact Program.wp_fail (failed _ _ (.inl ⟨_, rfl⟩))
  · cases hd : decode reply with
    | none => exact Program.wp_fail (failed _ reply (.inr hd))
    | some a => exact Program.wp_pure (answered reply a hd)

end Rules

end IpcAgent.Lotus
