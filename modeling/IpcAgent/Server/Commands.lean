import IpcAgent.Library.JsonFields
import IpcAgent.Server.JsonRpc
import IpcAgent.Server.SubnetHandlers

/-!
# The commands of the agent

A client such as the command line makes a command into a method and parameters
(`cli/commands/`), and the server reads a command from these and runs the handler that belongs
to the method (`server/handlers/mod.rs`). Client and server share the structures of the
parameters, and each of them writes or reads their fields as `serde` derives it.
-/

namespace IpcAgent.Server
open Library Lotus

/-! ## Commands -/

structure ReloadConfigParams where
  path : Option String

structure WalletNewParams where
  subnet : String
  keyType : String

structure WalletListParams where
  subnet : String

structure ListSubnetsParams where
  gatewayAddress : String
  subnetId : String

structure ListBottomUpCheckpointsParams where
  subnetId : String
  fromEpoch : ChainEpoch
  toEpoch : ChainEpoch

structure LastTopDownExecParams where
  subnetId : String

structure QueryValidatorSetParams where
  subnet : String

/-- A command, with the parameters of its handler. -/
inductive Command
  | reloadConfig (params : ReloadConfigParams)
  | send (request : Request)
  | walletNew (params : WalletNewParams)
  | walletList (params : WalletListParams)
  | listChildSubnets (params : ListSubnetsParams)
  | listBottomUpCheckpoints (params : ListBottomUpCheckpointsParams)
  | lastTopDownExecuted (params : LastTopDownExecParams)
  | queryValidatorSet (params : QueryValidatorSetParams)

namespace Command

/-- `json_rpc_methods`. -/
def method : Command → String
  | reloadConfig _ => "ipc_reloadConfig"
  | send (.create _) => "ipc_createSubnet"
  | send (.join _) => "ipc_joinSubnet"
  | send (.leave _) => "ipc_leaveSubnet"
  | send (.kill _) => "ipc_killSubnet"
  | send (.fund _) => "ipc_fund"
  | send (.release _) => "ipc_release"
  | send (.propagate _) => "ipc_propagate"
  | send (.setValidatorNetAddr _) => "ipc_setValidatorNetAddr"
  | send (.whitelistPropagator _) => "ipc_whitelistPropagator"
  | send (.sendValue _) => "ipc_sendValue"
  | walletNew _ => "ipc_walletNew"
  | walletList _ => "ipc_walletList"
  | listChildSubnets _ => "ipc_listChildSubnets"
  | listBottomUpCheckpoints _ => "ipc_listBottomUpCheckpoints"
  | lastTopDownExecuted _ => "ipc_lastTopDownCheckpointExecuted"
  | queryValidatorSet _ => "ipc_queryValidatorSet"

/-- `Serialize for Cid`, where there is nothing better than numbers for the bytes. -/
def ofCid (cid : Cid) : Json := .arr (cid.bytes.map fun byte => .int byte.toNat)

/-- The parameters with their names, in the order in which they are declared. -/
def fields : Command → List (String × Json)
  | reloadConfig params => [("path", .ofOption params.path)]
  | send (.create params) =>
    [("from", .ofOption params.sender), ("parent", .str params.parent), ("name", .str params.name),
      ("min_validator_stake", .int params.minValidatorStake.toNat),
      ("min_validators", .int params.minValidators.toNat),
      ("bottomup_check_period", .int params.bottomupCheckPeriod.toInt),
      ("topdown_check_period", .int params.topdownCheckPeriod.toInt)]
  | send (.join params) =>
    [("subnet", .str params.subnet), ("from", .ofOption params.sender),
      ("collateral", .int params.collateral.toNat),
      ("validator_net_addr", .str params.validatorNetAddr)]
  | send (.leave params) => [("subnet", .str params.subnet), ("from", .ofOption params.sender)]
  | send (.kill params) => [("subnet", .str params.subnet), ("from", .ofOption params.sender)]
  | send (.fund params) =>
    [("subnet", .str params.subnet), ("from", .ofOption params.sender),
      ("amount", .int params.amount.toNat)]
  | send (.release params) =>
    [("subnet", .str params.subnet), ("from", .ofOption params.sender),
      ("amount", .int params.amount.toNat)]
  | send (.propagate params) =>
    [("subnet", .str params.subnet), ("from", .ofOption params.sender),
      ("postbox_msg_cid", ofCid params.postboxMsgCid)]
  | send (.setValidatorNetAddr params) =>
    [("subnet", .str params.subnet), ("from", .ofOption params.sender),
      ("validator_net_addr", .str params.validatorNetAddr)]
  | send (.whitelistPropagator params) =>
    [("subnet", .str params.subnet), ("from", .ofOption params.sender),
      ("postbox_msg_cid", ofCid params.postboxMsgCid), ("to_add", .arr (params.toAdd.map .str))]
  | send (.sendValue params) =>
    [("subnet", .str params.subnet), ("from", .ofOption params.sender),
      ("to", .str params.receiver), ("amount", .int params.amount.toNat)]
  | walletNew params => [("subnet", .str params.subnet), ("key_type", .str params.keyType)]
  | walletList params => [("subnet", .str params.subnet)]
  | listChildSubnets params =>
    [("gateway_address", .str params.gatewayAddress), ("subnet_id", .str params.subnetId)]
  | listBottomUpCheckpoints params =>
    [("subnet_id", .str params.subnetId), ("from_epoch", .int params.fromEpoch.toInt),
      ("to_epoch", .int params.toEpoch.toInt)]
  | lastTopDownExecuted params => [("subnet_id", .str params.subnetId)]
  | queryValidatorSet params => [("subnet", .str params.subnet)]

/-! ## Reading commands -/

section Readers

-- `Cid::try_from`.
variable (cidOfBytes : List UInt8 → Option Cid)

def asCid (value : Json) : Option Cid := do
  cidOfBytes (← Json.asVec Json.asU8 value)

def readReloadConfig (params : Json) : Option Command := do
  let [path] ← Json.fields ["path"] params | none
  return reloadConfig ⟨← Json.asOption Json.asString path⟩

def readCreateSubnet (params : Json) : Option Command := do
  let [sender, parent, name, minValidatorStake, minValidators, bottomupCheckPeriod,
      topdownCheckPeriod] ←
    Json.fields ["from", "parent", "name", "min_validator_stake", "min_validators",
      "bottomup_check_period", "topdown_check_period"] params | none
  return send (.create ⟨← Json.asOption Json.asString sender, ← (← parent).asString,
    ← (← name).asString, ← (← minValidatorStake).asU64, ← (← minValidators).asU64,
    ← (← bottomupCheckPeriod).asI64, ← (← topdownCheckPeriod).asI64⟩)

def readJoinSubnet (params : Json) : Option Command := do
  let [subnet, sender, collateral, validatorNetAddr] ←
    Json.fields ["subnet", "from", "collateral", "validator_net_addr"] params | none
  return send (.join ⟨← (← subnet).asString, ← Json.asOption Json.asString sender,
    ← (← collateral).asU64, ← (← validatorNetAddr).asString⟩)

def readLeaveSubnet (params : Json) : Option Command := do
  let [subnet, sender] ← Json.fields ["subnet", "from"] params | none
  return send (.leave ⟨← (← subnet).asString, ← Json.asOption Json.asString sender⟩)

def readKillSubnet (params : Json) : Option Command := do
  let [subnet, sender] ← Json.fields ["subnet", "from"] params | none
  return send (.kill ⟨← (← subnet).asString, ← Json.asOption Json.asString sender⟩)

def readFund (params : Json) : Option Command := do
  let [subnet, sender, amount] ← Json.fields ["subnet", "from", "amount"] params | none
  return send (.fund ⟨← (← subnet).asString, ← Json.asOption Json.asString sender,
    ← (← amount).asU64⟩)

def readRelease (params : Json) : Option Command := do
  let [subnet, sender, amount] ← Json.fields ["subnet", "from", "amount"] params | none
  return send (.release ⟨← (← subnet).asString, ← Json.asOption Json.asString sender,
    ← (← amount).asU64⟩)

def readPropagate (params : Json) : Option Command := do
  let [subnet, sender, postboxMsgCid] ←
    Json.fields ["subnet", "from", "postbox_msg_cid"] params | none
  return send (.propagate ⟨← (← subnet).asString, ← Json.asOption Json.asString sender,
    ← asCid cidOfBytes (← postboxMsgCid)⟩)

def readSetValidatorNetAddr (params : Json) : Option Command := do
  let [subnet, sender, validatorNetAddr] ←
    Json.fields ["subnet", "from", "validator_net_addr"] params | none
  return send (.setValidatorNetAddr ⟨← (← subnet).asString, ← Json.asOption Json.asString sender,
    ← (← validatorNetAddr).asString⟩)

def readWhitelistPropagator (params : Json) : Option Command := do
  let [subnet, sender, postboxMsgCid, toAdd] ←
    Json.fields ["subnet", "from", "postbox_msg_cid", "to_add"] params | none
  return send (.whitelistPropagator ⟨← (← subnet).asString, ← Json.asOption Json.asString sender,
    ← asCid cidOfBytes (← postboxMsgCid), ← Json.asVec Json.asString (← toAdd)⟩)

def readSendValue (params : Json) : Option Command := do
  let [subnet, sender, receiver, amount] ←
    Json.fields ["subnet", "from", "to", "amount"] params | none
  return send (.sendValue ⟨← (← subnet).asString, ← Json.asOption Json.asString sender,
    ← (← receiver).asString, ← (← amount).asU64⟩)

def readWalletNew (params : Json) : Option Command := do
  let [subnet, keyType] ← Json.fields ["subnet", "key_type"] params | none
  return walletNew ⟨← (← subnet).asString, ← (← keyType).asString⟩

def readWalletList (params : Json) : Option Command := do
  let [subnet] ← Json.fields ["subnet"] params | none
  return walletList ⟨← (← subnet).asString⟩

def readListChildSubnets (params : Json) : Option Command := do
  let [gatewayAddress, subnetId] ← Json.fields ["gateway_address", "subnet_id"] params | none
  return listChildSubnets ⟨← (← gatewayAddress).asString, ← (← subnetId).asString⟩

def readListBottomUpCheckpoints (params : Json) : Option Command := do
  let [subnetId, fromEpoch, toEpoch] ←
    Json.fields ["subnet_id", "from_epoch", "to_epoch"] params | none
  return listBottomUpCheckpoints ⟨← (← subnetId).asString, ← (← fromEpoch).asI64,
    ← (← toEpoch).asI64⟩

def readLastTopDownExecuted (params : Json) : Option Command := do
  let [subnetId] ← Json.fields ["subnet_id"] params | none
  return lastTopDownExecuted ⟨← (← subnetId).asString⟩

def readQueryValidatorSet (params : Json) : Option Command := do
  let [subnet] ← Json.fields ["subnet"] params | none
  return queryValidatorSet ⟨← (← subnet).asString⟩

/-- What each handler makes of its parameters, in the order of `Handlers::new`. -/
def readers : List (String × (Json → Option Command)) :=
  [("ipc_reloadConfig", readReloadConfig), ("ipc_createSubnet", readCreateSubnet),
    ("ipc_leaveSubnet", readLeaveSubnet), ("ipc_killSubnet", readKillSubnet),
    ("ipc_joinSubnet", readJoinSubnet), ("ipc_fund", readFund), ("ipc_release", readRelease),
    ("ipc_propagate", readPropagate cidOfBytes),
    ("ipc_whitelistPropagator", readWhitelistPropagator cidOfBytes),
    ("ipc_sendValue", readSendValue), ("ipc_walletNew", readWalletNew),
    ("ipc_walletList", readWalletList), ("ipc_setValidatorNetAddr", readSetValidatorNetAddr),
    ("ipc_listChildSubnets", readListChildSubnets),
    ("ipc_listBottomUpCheckpoints", readListBottomUpCheckpoints),
    ("ipc_lastTopDownCheckpointExecuted", readLastTopDownExecuted),
    ("ipc_queryValidatorSet", readQueryValidatorSet)]

/-- The one among them that a command is meant for. -/
def reader : Command → Json → Option Command
  | reloadConfig _ => readReloadConfig
  | send (.create _) => readCreateSubnet
  | send (.join _) => readJoinSubnet
  | send (.leave _) => readLeaveSubnet
  | send (.kill _) => readKillSubnet
  | send (.fund _) => readFund
  | send (.release _) => readRelease
  | send (.propagate _) => readPropagate cidOfBytes
  | send (.setValidatorNetAddr _) => readSetValidatorNetAddr
  | send (.whitelistPropagator _) => readWhitelistPropagator cidOfBytes
  | send (.sendValue _) => readSendValue
  | walletNew _ => readWalletNew
  | walletList _ => readWalletList
  | listChildSubnets _ => readListChildSubnets
  | listBottomUpCheckpoints _ => readListBottomUpCheckpoints
  | lastTopDownExecuted _ => readLastTopDownExecuted
  | queryValidatorSet _ => readQueryValidatorSet

/-- `serde_json::from_value` in the handler of the method. -/
def ofCall (call : JsonRpc.Call) : Option Command :=
  (readers cidOfBytes).lookup call.method >>= fun read => read call.params

end Readers

/-! ## What is written is read -/

/-- The CIDs in the parameters. -/
def cids : Command → List Cid
  | send (.propagate params) => [params.postboxMsgCid]
  | send (.whitelistPropagator params) => [params.postboxMsgCid]
  | _ => []

/-- The names of the fields are different. -/
theorem nodup_fields (command : Command) : (command.fields.map Prod.fst).Nodup := by
  cases command with
  | send request => cases request <;> simp [fields]
  | _ => simp [fields]

theorem fields_obj {command : Command} {members : List (String × Json)}
    (perm : members.Perm command.fields) :
    Json.fields (command.fields.map Prod.fst) (.obj members) =
      some (command.fields.map fun field => some field.2) :=
  Json.fields_of_perm command.nodup_fields perm

section RoundTrip

variable {cidOfBytes : List UInt8 → Option Cid} {command : Command}
  {members : List (String × Json)}

theorem asCid_ofCid {cid : Cid} (valid : cidOfBytes cid.bytes = some cid) :
    asCid cidOfBytes (ofCid cid) = some cid := by
  rw [asCid, ofCid, Json.asVec_map Json.asU8_int, Option.bind_eq_bind, Option.bind_some, valid]

theorem lookup_readers (command : Command) :
    (readers cidOfBytes).lookup command.method = some (command.reader cidOfBytes) := by
  cases command with
  | send request => cases request <;> rfl
  | _ => rfl

-- Unlike `Option.bind_some`, this is not a definitional step of `simp`, which would have the
-- bounds of the numbers evaluated.
theorem some_bind {α β : Type} (a : α) (next : α → Option β) : (some a >>= next) = next a := by
  simp

theorem reader_fields {params : Json}
    (valid : ∀ cid ∈ command.cids, cidOfBytes cid.bytes = some cid)
    (read : Json.fields (command.fields.map Prod.fst) params =
      some (command.fields.map fun field => some field.2)) :
    command.reader cidOfBytes params = some command := by
  cases command with
  | send request =>
    cases request with
    | propagate params =>
      have cid := asCid_ofCid (valid params.postboxMsgCid (by simp [cids]))
      simp only [fields, List.map_cons, List.map_nil] at read
      simp only [reader, readPropagate, read, some_bind, Json.asString_str,
        Json.asOption_ofOption, cid, Option.pure_def]
    | whitelistPropagator params =>
      have cid := asCid_ofCid (valid params.postboxMsgCid (by simp [cids]))
      have toAdd := Json.asVec_map Json.asString_str params.toAdd
      simp only [fields, List.map_cons, List.map_nil] at read
      simp only [reader, readWhitelistPropagator, read, some_bind, Json.asString_str,
        Json.asOption_ofOption, cid, toAdd, Option.pure_def]
    | _ =>
      simp only [fields, List.map_cons, List.map_nil] at read
      simp only [reader, readCreateSubnet, readJoinSubnet, readLeaveSubnet, readKillSubnet,
        readFund, readRelease, readSetValidatorNetAddr, readSendValue, read, some_bind,
        Json.asString_str, Json.asOption_ofOption, Json.asU64_int, Json.asI64_int,
        Option.pure_def]
  | _ =>
    simp only [fields, List.map_cons, List.map_nil] at read
    simp only [reader, readReloadConfig, readWalletNew, readWalletList, readListChildSubnets,
      readListBottomUpCheckpoints, readLastTopDownExecuted, readQueryValidatorSet, read,
      some_bind, Json.asString_str, Json.asOption_ofOption, Json.asI64_int, Option.pure_def]

/-- The handler of a command reads the command from its fields, in whatever order. -/
theorem ofCall_fields (valid : ∀ cid ∈ command.cids, cidOfBytes cid.bytes = some cid)
    (perm : members.Perm command.fields) :
    ofCall cidOfBytes ⟨command.method, .obj members⟩ = some command := by
  rw [ofCall, lookup_readers, Option.bind_eq_bind, Option.bind_some]
  exact reader_fields valid (fields_obj perm)

/-! ## Commands as messages -/

/-- What is written for a command has no floats and hardly any depth. -/
theorem fits_fields {float : UInt64 → UInt64} :
    ∀ field ∈ command.fields, field.2.Fits float 1 := by
  cases command with
  | send request => cases request <;> simp [fields, ofCid, Json.fits_arr_map]
  | _ => simp [fields]

theorem travels_fields {float : UInt64 → UInt64} (perm : members.Perm command.fields) :
    JsonRpc.Travels float (.obj members) := by
  have fits : ∀ member ∈ members, member.2.Fits float 1 :=
    fun member mem => fits_fields member (perm.mem_iff.mp mem)
  have shallow := Json.depthMembers_le_iff.mpr fun member mem => (fits member mem).2
  refine ⟨Json.keptMembers_iff.mpr fun member mem => (fits member mem).1, ?_⟩
  rw [Json.depth]
  omega

theorem method_mem : command.method ∈ JsonRpc.Handlers.new.methods := by
  cases command with
  | send request => cases request <;> simp [method, JsonRpc.Handlers.new]
  | _ => simp [method, JsonRpc.Handlers.new]

theorem hasParams_fields (perm : members.Perm command.fields) :
    JsonRpc.hasParams (.obj members) = some true := by
  have given : members ≠ [] := by
    rintro rfl
    have empty : command.fields = [] := perm.symm.eq_nil
    cases command with
    | send request => cases request <;> simp [fields] at empty
    | _ => simp [fields] at empty
  simp [JsonRpc.hasParams, given]

end RoundTrip

end Command

/-! ## Handlers of commands -/

section Serve

variable {C A M X : Type} (cidOfBytes : List UInt8 → Option Cid)
  -- What `serde` says about parameters that cannot be read.
  (unreadable : JsonRpc.Call → String)
  -- `JsonRPCRequestHandler::handle` of each handler, with the response as a value.
  (handlers : Command → Program C A M Error X Json)

/-- A response, or what `to_string` makes of an error. -/
def answerOf : Except Error Json → Except String Json
  | .ok response => .ok response
  | .error e => .error (e.headD "")

/-- `HandlerWrapper::handle` of the handler that belongs to the method. -/
def wrappedHandle (call : JsonRpc.Call) : Program C A M Error X (Except String Json) :=
  match Command.ofCall cidOfBytes call with
  | none => pure (.error (unreadable call))
  | some command => answerOf <$> (handlers command).attempt

end Serve

/-- Whatever its handler does, a command that arrives comes to it with all its parameters and to
no other, and the client gets the decoded response or an error. It does not matter in which order
the parameters are written. -/
theorem command_reaches_own_handler {C A M X τ : Type} (float : UInt64 → UInt64)
    (transport : JsonRpc.Transport) (cidOfBytes : List UInt8 → Option Cid)
    (unreadable : JsonRpc.Call → String) (handlers : Command → Program C A M Error X Json)
    (decode : Json → Option τ) (command : Command)
    (valid : ∀ cid ∈ command.cids, cidOfBytes cid.bytes = some cid)
    (members : List (String × Json)) (perm : members.Perm command.fields)
    (arrives : transport.arrives = true) :
    wrappedHandle cidOfBytes unreadable handlers ⟨command.method, .obj members⟩ =
      answerOf <$> (handlers command).attempt ∧
    ∀ answer : Except String Json,
      (∀ result, answer = .ok result →
        JsonRpc.Travels float result ∧ transport.returns = true) →
      ∃ e, (JsonRpc.request decode float transport .new command.method (.obj members)).run
          [answer] =
        ⟨JsonRpc.returning e (answer.toOption.bind decode), [],
          [.exchange ⟨command.method, .obj members⟩ answer]⟩ := by
  refine ⟨?_, fun answer back => ?_⟩
  · rw [wrappedHandle, Command.ofCall_fields valid perm]
  · exact JsonRpc.run_request_of_travels decode Command.method_mem (Command.hasParams_fields perm)
      (Command.travels_fields perm) arrives back

/-- A command with a CID and a list, its fields written in the opposite order. -/
def whitelists : Command := .send (.whitelistPropagator ⟨"/root", none, ⟨[1, 85]⟩, ["t01"]⟩)

/-- Its handler has nothing to return, and this is what the client gets. -/
theorem command_reaches_own_handler_whitelists :
    (∀ cid ∈ whitelists.cids, some (⟨cid.bytes⟩ : Cid) = some cid) ∧
      whitelists.fields.reverse.Perm whitelists.fields ∧
      ∃ e, (JsonRpc.request JsonRpc.asUnit id (.replied 29999) .new "ipc_whitelistPropagator"
        (.obj whitelists.fields.reverse)).run [.ok .null] =
        ⟨JsonRpc.returning e (some ()), [],
          [.exchange ⟨"ipc_whitelistPropagator", .obj whitelists.fields.reverse⟩ (.ok .null)]⟩ := by
  have perm : whitelists.fields.reverse.Perm whitelists.fields := List.reverse_perm _
  refine ⟨fun cid _ => rfl, perm, ?_⟩
  have reaches := command_reaches_own_handler id (.replied 29999) (fun bytes => some ⟨bytes⟩)
    (fun _ => "") (fun _ => (pure .null : Program Empty Empty Empty Error Empty Json))
    JsonRpc.asUnit whitelists (fun cid _ => rfl) whitelists.fields.reverse perm rfl
  refine reaches.2 (.ok .null) fun result same => ?_
  cases same
  exact ⟨⟨trivial, by simp [Json.depth]⟩, rfl⟩

end IpcAgent.Server
