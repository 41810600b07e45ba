import IpcAgent.Manager.BottomUp
import IpcAgent.Manager.LotusSubnetManager
import IpcAgent.Manager.TopDown

/-!
# What success says about the receipt

Every operation ends with a `state_wait_msg`, whose reply carries the receipt of the message.
None of them looks at its exit code, so an operation reports success for a message that was
mined and then aborted.
-/

namespace IpcAgent.Manager
open Library Lotus

/-! ## The receipts of a run -/

section Receipts

variable {κ : Type}

def receiptOf : Event (Call κ) Reply Mark → Option Receipt
  | .exchange (.rpc _ (.stateWaitMsg _)) (.waited receipt) => some receipt
  | _ => none

/-- The receipts the node has returned. -/
def receipts (t : Trace κ) : List Receipt := t.filterMap receiptOf

theorem receipts_append (h ev : Trace κ) : receipts (h ++ ev) = receipts h ++ receipts ev :=
  List.filterMap_append

theorem receipts_eq_nil {ev : Trace κ} (quiet : ∀ e ∈ ev, receiptOf e = none) :
    receipts ev = [] := List.filterMap_eq_nil_iff.mpr quiet

/-- The part of an operation before its message is waited for. -/
abbrev Quiet {α : Type} (p : Prog κ α) : Prop := p.Emits (fun e => receiptOf e = none)

variable {α : Type} {ext : Ext} {client : κ}

theorem allowsReads_quiet :
    AllowsReads (fun e : Event (Call κ) Reply Mark => receiptOf e = none) := by
  intro client rpc reply notWait
  cases rpc <;> first | rfl | exact absurd rfl (notWait _)

theorem quiet_request {rpc : Rpc} {decode : Reply → Option α}
    (notWait : ∀ cid, rpc ≠ .stateWaitMsg cid) : Quiet (request client rpc decode) :=
  allowsReads_quiet.request notWait

/-- `p` turns the receipt of its message into its result, if it gets that far. -/
def Yields (result : Receipt → Except String α) (p : Prog κ α) : Prop :=
  ∀ h, p.wp (fun a h' => ∃ r, receipts h' = receipts h ++ [r] ∧ result r = .ok a)
    (fun _ h' => receipts h' = receipts h ∨
      ∃ r m, receipts h' = receipts h ++ [r] ∧ result r = .error m) h

variable {β : Type} {result : Receipt → Except String α}

theorem Quiet.yields {p : Prog κ β} {f : β → Prog κ α} (hp : Quiet p)
    (hf : ∀ b, Yields result (f b)) : Yields result (p >>= f) := by
  intro h
  refine Program.wp_bind (hp.wp (fun b ev _ quiet => ?_) fun x ev quiet => .inl ?_)
  · simpa [receipts_append, receipts_eq_nil quiet] using hf b (h ++ ev)
  · simp [receipts_append, receipts_eq_nil quiet]

theorem Yields.fail (e : Error) : Yields result (.fail e : Prog κ α) :=
  fun _ => Program.wp_fail (.inl rfl)

theorem Yields.ofExcept {p : Prog κ α} (hp : Yields result p) (g : α → Except String β) :
    Yields (fun r => (result r).bind g) (p >>= fun a => Lotus.ofExcept (g a)) := by
  refine fun h => Program.wp_bind (Program.wp_mono (hp h) ?_ ?_)
  · rintro a h' ⟨r, fresh, ok⟩
    cases hg : g a with
    | ok b => exact Program.wp_pure ⟨r, fresh, by simp [ok, Except.bind, hg]⟩
    | error m => exact Program.wp_fail (.inr ⟨r, m, fresh, by simp [ok, Except.bind, hg]⟩)
  · rintro x h' (same | ⟨r, m, fresh, error⟩)
    · exact .inl same
    · exact .inr ⟨r, m, fresh, by simp [error, Except.bind]⟩

theorem ofExcept_map (x : Except String α) (g : α → β) :
    (Lotus.ofExcept x >>= fun a => pure (g a) : Prog κ β) = Lotus.ofExcept (x.map g) := by
  cases x <;> rfl

theorem yields_stateWaitMsg (cid : Cid) : Yields .ok (stateWaitMsg client cid) := by
  refine fun h => wp_request (.inl rfl) (fun _ reply hr => .inl ?_) fun reply receipt hr => ?_
  · have none : receiptOf (.exchange (.rpc client (.stateWaitMsg cid)) reply) = none := by
      cases reply <;> simp_all [receiptOf]
    simp [receipts, none]
  · cases reply <;> simp_all [receipts, receiptOf]

theorem yields_mpoolPushAndWait (message : MpoolPushMessage) :
    Yields .ok (mpoolPushAndWait ext client message) := by
  refine Quiet.yields (quiet_request (by simp)) fun pushed => ?_
  exact Quiet.yields emits_cidTryFrom yields_stateWaitMsg

/-- An operation that does not look at its receipt. -/
theorem Yields.done {p : Prog κ Receipt} (hp : Yields .ok p) (b : β) :
    Yields (fun _ => .ok b) (p >>= fun _ => pure b) := hp.ofExcept fun _ => .ok b

end Receipts

/-! ## The operations -/

section Operations

variable {κ : Type} {ext : Ext} {client : κ}

open LotusSubnetManager

theorem quiet_parentOf {subnet : SubnetID} {root : String} :
    Quiet (parentOf ext subnet root : Prog κ SubnetID) := by
  unfold parentOf
  split
  · exact Program.upholds_pure trivial
  · exact Program.upholds_fail _

theorem quiet_pure {α : Type} {a : α} : Quiet (pure a : Prog κ α) :=
  Program.upholds_pure trivial

theorem quiet_serialize_pure {α : Type} {f : Params → α} {params : Params}
    {description : String} :
    Quiet (do let params ← serialize ext params description; pure (f params) : Prog κ α) :=
  Program.upholds_bind emits_serialize fun _ _ => quiet_pure

theorem yields_sendOn {network : SubnetID} {mismatch : String} {message : Prog κ MpoolPushMessage}
    (quiet : Quiet message) : Yields .ok (sendOn ext client network mismatch message) := by
  refine Quiet.yields (Program.upholds_bind (quiet_request (by simp))
    fun _ _ => Program.upholds_pure trivial) fun isMatch => ?_
  split
  · exact Quiet.yields quiet yields_mpoolPushAndWait
  · exact Yields.fail _

/-- The operations that change the state of a chain, with their arguments. -/
inductive Operation
  | createSubnet (sender : Address) (params : ConstructParams)
  | joinSubnet (subnet : SubnetID) (sender : Address) (collateral : TokenAmount)
      (validatorNetAddr : String)
  | leaveSubnet (subnet : SubnetID) (sender : Address)
  | killSubnet (subnet : SubnetID) (sender : Address)
  | fund (subnet : SubnetID) (gatewayAddr sender : Address) (amount : TokenAmount)
  | release (subnet : SubnetID) (gatewayAddr sender : Address) (amount : TokenAmount)
  | propagate (subnet : SubnetID) (gatewayAddr sender : Address) (postboxMsgCid : Cid)
  | setValidatorNetAddr (subnet : SubnetID) (sender : Address) (validatorNetAddr : String)
  | whitelistPropagator (subnet : SubnetID) (gatewayAddr : Address) (postboxMsgCid : Cid)
      (sender : Address) (toAdd : List Address)
  | sendValue (sender receiver : Address) (amount : TokenAmount)
  | submitCheckpoint (child : Subnet) (childTipSet : Cid) (epoch : ChainEpoch)
      (account : Address)
  | submitTopdownCheckpoint (child : Subnet) (epoch : ChainEpoch) (seen : TipSets)
      (account : Address)

namespace Operation

/-- Only `create_subnet` returns something. The submissions have a client for each chain, the
other operations one client. -/
def program (ext : Ext) (client : Side) : Operation → Prog Side (Option Address)
  | createSubnet sender params => do
    return some (← LotusSubnetManager.createSubnet ext client sender params)
  | joinSubnet subnet sender collateral validatorNetAddr => do
    LotusSubnetManager.joinSubnet ext client subnet sender collateral validatorNetAddr
    return none
  | leaveSubnet subnet sender => do
    LotusSubnetManager.leaveSubnet ext client subnet sender
    return none
  | killSubnet subnet sender => do
    LotusSubnetManager.killSubnet ext client subnet sender
    return none
  | fund subnet gatewayAddr sender amount => do
    LotusSubnetManager.fund ext client subnet gatewayAddr sender amount
    return none
  | release subnet gatewayAddr sender amount => do
    LotusSubnetManager.release ext client subnet gatewayAddr sender amount
    return none
  | propagate subnet gatewayAddr sender postboxMsgCid => do
    LotusSubnetManager.propagate ext client subnet gatewayAddr sender postboxMsgCid
    return none
  | setValidatorNetAddr subnet sender validatorNetAddr => do
    LotusSubnetManager.setValidatorNetAddr ext client subnet sender validatorNetAddr
    return none
  | whitelistPropagator subnet gatewayAddr postboxMsgCid sender toAdd => do
    LotusSubnetManager.whitelistPropagator ext client subnet gatewayAddr postboxMsgCid sender
      toAdd
    return none
  | sendValue sender receiver amount => do
    LotusSubnetManager.sendValue ext client sender receiver amount
    return none
  | submitCheckpoint child childTipSet epoch account => do
    Manager.submitCheckpoint ext child childTipSet epoch account
    return none
  | submitTopdownCheckpoint child epoch seen account => do
    Manager.submitTopdownCheckpoint ext child epoch seen account
    return none

/-- What the operation makes of its receipt. -/
def result (ext : Ext) (r : Receipt) : Operation → Except String (Option Address)
  | createSubnet _ _ =>
    ((parseResultInto ext ext.cborInitExecReturn ext.defaultInitExecReturn r).map
      InitExecReturn.idAddress).map some
  | _ => .ok none

/-- Every operation is pushed and waited for at most once, and its result is decided by the
receipt. -/
theorem yields_program (ext : Ext) (client : Side) (op : Operation) :
    Yields (fun r => op.result ext r) (op.program ext client) := by
  cases op with
  | createSubnet sender params =>
    simp only [program, LotusSubnetManager.createSubnet, bind_assoc, ofExcept_map]
    refine (yields_sendOn ?_).ofExcept fun r => ((parseResultInto ext ext.cborInitExecReturn
      ext.defaultInitExecReturn r).map InitExecReturn.idAddress).map some
    refine Program.upholds_bind
      (emits_getSubnetActorCodeCid (fun _ => rfl) fun _ _ => rfl) fun codeCid _ => ?_
    exact Program.upholds_bind emits_serialize fun _ _ => quiet_serialize_pure
  | joinSubnet subnet sender collateral validatorNetAddr =>
    simp only [program, LotusSubnetManager.joinSubnet, bind_assoc, pure_bind]
    exact Quiet.yields quiet_parentOf fun _ => (yields_sendOn quiet_serialize_pure).done none
  | leaveSubnet subnet sender =>
    simp only [program, LotusSubnetManager.leaveSubnet, bind_assoc, pure_bind]
    exact Quiet.yields quiet_parentOf fun _ => (yields_sendOn quiet_pure).done none
  | killSubnet subnet sender =>
    simp only [program, LotusSubnetManager.killSubnet, bind_assoc, pure_bind]
    exact Quiet.yields quiet_parentOf fun _ => (yields_sendOn quiet_pure).done none
  | fund subnet gatewayAddr sender amount =>
    simp only [program, LotusSubnetManager.fund, bind_assoc, pure_bind]
    exact Quiet.yields quiet_parentOf fun _ => (yields_sendOn quiet_serialize_pure).done none
  | release subnet gatewayAddr sender amount =>
    simp only [program, LotusSubnetManager.release, bind_assoc, pure_bind]
    exact (yields_sendOn quiet_pure).done none
  | propagate subnet gatewayAddr sender postboxMsgCid =>
    simp only [program, LotusSubnetManager.propagate, bind_assoc, pure_bind]
    exact (yields_sendOn quiet_serialize_pure).done none
  | setValidatorNetAddr subnet sender validatorNetAddr =>
    simp only [program, LotusSubnetManager.setValidatorNetAddr, bind_assoc, pure_bind]
    exact Quiet.yields quiet_parentOf fun _ => (yields_sendOn quiet_serialize_pure).done none
  | whitelistPropagator subnet gatewayAddr postboxMsgCid sender toAdd =>
    simp only [program, LotusSubnetManager.whitelistPropagator, bind_assoc, pure_bind]
    exact (yields_sendOn quiet_serialize_pure).done none
  | sendValue sender receiver amount =>
    simp only [program, LotusSubnetManager.sendValue, bind_assoc, pure_bind]
    exact (yields_mpoolPushAndWait _).done none
  | submitCheckpoint child childTipSet epoch account =>
    simp only [program, Manager.submitCheckpoint, bind_assoc, pure_bind]
    refine Quiet.yields (emits_buildCheckpoint _ _ (fun _ => rfl) fun _ => rfl) fun checkpoint => ?_
    refine Quiet.yields emits_serialize fun params => ?_
    refine Quiet.yields (Program.emits_tell rfl) fun _ => ?_
    exact (yields_mpoolPushAndWait _).done none
  | submitTopdownCheckpoint child epoch seen account =>
    simp only [program, Manager.submitTopdownCheckpoint, bind_assoc, pure_bind]
    refine Quiet.yields (quiet_request (by simp)) fun state => ?_
    refine Quiet.yields emits_ofExcept fun gatewayAddr => ?_
    refine Quiet.yields (quiet_request (by simp)) fun submission => ?_
    refine Quiet.yields emits_tipSetCid fun tipSet => ?_
    refine Quiet.yields (emits_ipcGetTopdownMsgs fun _ => rfl) fun msgs => ?_
    refine Quiet.yields emits_serialize fun params => ?_
    refine Quiet.yields (Program.emits_tell rfl) fun _ => ?_
    exact (yields_mpoolPushAndWait _).done none

/-! ### Success -/

/-- A run that returns has been given a receipt with exit code 0, and an address it returns
was decoded from that receipt. -/
def SuccessMeansExecuted (ext : Ext) (r : Run (Call Side) Reply Mark Error Stop (Option Address)) :
    Prop :=
  ∀ v, r.outcome = .ret v → ∃ receipt ∈ receipts r.trace, receipt.exitCode = 0 ∧
    ∀ address, v = some address → decodedAddress ext receipt = some address

/-- The receipts that cannot be mistaken for a success. Decoding the return value saves
`create_subnet` from some of the others, but not from a missing return value. -/
def Unmistakable (ext : Ext) (r : Receipt) : Operation → Prop
  | createSubnet _ _ =>
    r.result.isSome ∧ ((decodedAddress ext r).isSome → r.exitCode = 0)
  | _ => r.exitCode = 0

/-- The result of `create_subnet`: a receipt with a return value is decoded, one without is
taken for the default. -/
theorem result_createSubnet (ext : Ext) (sender : Address) (params : ConstructParams)
    (r : Receipt) :
    (r.result = none ∧
      (createSubnet sender params).result ext r = .ok (some ext.defaultInitExecReturn.idAddress)) ∨
    (∃ m, r.result.isSome ∧ decodedAddress ext r = none ∧
      (createSubnet sender params).result ext r = .error m) ∨
    (∃ a, r.result.isSome ∧ decodedAddress ext r = some a ∧
      (createSubnet sender params).result ext r = .ok (some a)) := by
  cases hr : r.result with
  | none => simp [result, parseResultInto, hr, Except.map]
  | some s =>
    cases hs : ext.base64 s with
    | none => simp [result, parseResultInto, decodedAddress, hr, hs, Except.map]
    | some bytes => cases hb : ext.cborInitExecReturn bytes <;>
        simp [result, parseResultInto, decodedAddress, hr, hs, hb, Except.map]

theorem unmistakable_of_ok {op : Operation} {r : Receipt} {v : Option Address}
    (ok : op.result ext r = .ok v) : op.Unmistakable ext r ↔ r.exitCode = 0 ∧
      ∀ address, v = some address → decodedAddress ext r = some address := by
  cases op with
  | createSubnet sender params =>
    obtain ⟨missing, value⟩ | ⟨m, _, _, error⟩ | ⟨a, present, decoded, value⟩ :=
      result_createSubnet ext sender params r
    · obtain rfl := Except.ok.inj (value.symm.trans ok)
      simp [Unmistakable, decodedAddress, missing]
    · cases error.symm.trans ok
    · obtain rfl := Except.ok.inj (value.symm.trans ok)
      simp [Unmistakable, present, decoded]
  | _ =>
    cases ok
    simp [Unmistakable]

theorem unmistakable_of_error {op : Operation} {r : Receipt} {m : String}
    (error : op.result ext r = .error m) : op.Unmistakable ext r := by
  cases op with
  | createSubnet sender params =>
    obtain ⟨_, value⟩ | ⟨m, present, undecoded, _⟩ | ⟨a, _, _, value⟩ :=
      result_createSubnet ext sender params r
    · cases value.symm.trans error
    · simp [Unmistakable, present, undecoded]
    · cases value.symm.trans error
  | _ => cases error

/-- An operation reports its outcome faithfully just when the node returns no receipt that
can be mistaken. -/
theorem successMeansExecuted_iff (ext : Ext) (client : Side) (op : Operation) (as : List Reply) :
    SuccessMeansExecuted ext ((op.program ext client).run as) ↔
      ∀ r ∈ receipts ((op.program ext client).run as).trace, op.Unmistakable ext r := by
  have yields := yields_program ext client op [] as
  unfold Program.Meets at yields
  unfold SuccessMeansExecuted
  cases out : ((op.program ext client).run as).outcome with
  | ret v =>
    simp only [out] at yields
    obtain ⟨r, one, ok⟩ := yields
    have one : receipts ((op.program ext client).run as).trace = [r] := one
    simp [one, unmistakable_of_ok ok]
  | halt x =>
    simp only [out] at yields
    refine ⟨fun _ r hr => ?_, fun _ v h => by cases h⟩
    obtain none | ⟨r', m, one, error⟩ := yields
    · have none : receipts ((op.program ext client).run as).trace = [] := none
      simp [none] at hr
    · have one : receipts ((op.program ext client).run as).trace = [r'] := one
      obtain rfl : r = r' := by simpa [one] using hr
      exact unmistakable_of_error error

theorem not_successMeansExecuted
    {r : Run (Call Side) Reply Mark Error Stop (Option Address)} {v : Option Address}
    (returned : r.outcome = .ret v) (aborted : ∀ receipt ∈ receipts r.trace, receipt.exitCode ≠ 0) :
    ¬ SuccessMeansExecuted ext r := by
  intro executed
  obtain ⟨receipt, mem, code, -⟩ := executed v returned
  exact aborted receipt mem code

/-- A message that runs out of gas or is rejected by the actor: `join_subnet` returns `Ok`, and
`create_subnet` returns the default address. -/
theorem aborted_reported_as_success :
    ¬ SuccessMeansExecuted .plain
      (((joinSubnet ⟨"/root/t01"⟩ ⟨[7]⟩ 10 "addr").program .plain .parent).run
        [.text "/root", .pushed ⟨some "m"⟩, .waited ⟨16, none⟩]) ∧
    ¬ SuccessMeansExecuted .plain
      (((createSubnet ⟨[7]⟩ ⟨⟨"/root"⟩, "net", 64, 10, 1, 10, 10⟩).program .plain .parent).run
        [.text "/root", .networkVersion 18, .codeCids [("ipc_subnet_actor", ⟨some "c"⟩)],
          .pushed ⟨some "m"⟩, .waited ⟨7, none⟩]) := by
  constructor
  · exact not_successMeansExecuted (v := none) (by decide +kernel) (by decide +kernel)
  · exact not_successMeansExecuted (v := some ⟨[]⟩) (by decide +kernel) (by decide +kernel)

end Operation

end Operations

end IpcAgent.Manager
