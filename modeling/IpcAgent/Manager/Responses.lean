import IpcAgent.Library.Partner
import IpcAgent.Manager.Reads

/-!
# Chains that respond

The two chains of a manager as the partner of its program. They answer every call, and a vote of
one of the manager's accounts is enough to have an epoch executed. The state that is read is the
one at the tipset asked for, which may be an old one. A vote for an epoch that has been executed
by then may be refused. How far the chains get from one call to the next, and what other
validators do, is up to them.
-/

namespace IpcAgent.Manager
open Library Lotus

/-! ## The chains -/

/-- The chain that the votes go to. -/
def Direction.target : Direction → Side
  | .bottomUp => .parent
  | .topDown => .child

/-- What is known of the two chains. -/
structure Ledger where
  /-- The last executed epoch, at the head of the chain that the votes go to. -/
  executed : ChainEpoch
  /-- The height last reported of the chain that the checkpoints are about. -/
  head : ChainEpoch
  /-- The last executed epoch at the tipsets that were reported as the head, each by the CID of its
  first block. -/
  asOf : Cid → Option ChainEpoch
  /-- The votes that were pushed, each with the CID of the message. -/
  sent : List (Cid × ChainEpoch)
  /-- Since that height was reported a vote has been refused, and more was due. -/
  overtaken : Bool

/-- Nothing has been reported yet. -/
def Ledger.start (executed head : ChainEpoch) : Ledger := ⟨executed, head, fun _ => none, [], false⟩

/-- An error in reply to a vote for an epoch that has been executed. -/
def Ledger.Refuses (w : Ledger) (c : Call Side) (reply : Reply) : Prop :=
  ∃ side message epoch text, c = .rpc side (.mpoolPushMessage message) ∧ reply = .error text ∧
    checkpointEpoch message.params = some epoch ∧ epoch.toInt ≤ w.executed.toInt

/-- Replies without errors, all of which the client can decode. The bottom-up manager wants
tipsets of a single block. -/
def Readable (ext : Ext) (d : Direction) : Call Side → Reply → Prop
  | .wait, reply => reply = .woken true
  | .rpc _ .chainHead, reply => ∃ r c, reply = .tipSet r ∧ tipSetOf ext r = some c ∧
    IsEpoch r.height ∧ (d = .bottomUp → r.cids.length = 1)
  | .rpc _ (.getTipsetByHeight _ _), reply => ∃ r c, reply = .tipSet r ∧ tipSetOf ext r = some c
  | .rpc _ (.ipcReadGatewayState _), reply => ∃ g, reply = .gatewayState g ∧ g.initialized = true
  | .rpc _ (.ipcReadSubnetActorState _ _), reply => ∃ s, reply = .subnetActorState s ∧
    ∀ v ∈ s.validators.getD [], ∃ a, ext.addressFromStr v.addr = .ok a
  | .rpc _ (.ipcGetCheckpointTemplate _), reply => ∃ s bytes template, reply = .text s ∧
    ext.base64 s = some bytes ∧ ext.cborCheckpoint bytes = some template
  | .rpc _ (.ipcGetPrevCheckpointForChild _), reply => ∃ prev, reply = .cid prev ∧
    ∀ m ∈ prev, ∃ c, cidOf ext m = some c
  | .rpc _ (.ipcGetTopdownMsgs _ _ _ _), reply => ∃ l msgs, reply = .texts l ∧
    l.mapM (decodeCrossMsg ext) = .ok msgs
  | .rpc _ (.mpoolPushMessage _), reply => ∃ m c, reply = .pushed m ∧ cidOf ext m = some c
  | .rpc _ (.stateWaitMsg _), reply => ∃ receipt, reply = .waited receipt
  | _, _ => True

/-- The tipset that a chain reports as its head. -/
def tipSetRead (ext : Ext) (side : Side) : Event (Call Side) Reply Mark → Option Cid
  | .exchange (.rpc client .chainHead) (.tipSet r) =>
    if client = side then tipSetOf ext r else none
  | _ => none

/-- The tipset whose state is asked for. -/
def tipSetAsked : Call Side → Option Cid
  | .rpc _ (.ipcReadGatewayState tipSet) | .rpc _ (.ipcReadSubnetActorState _ tipSet) => some tipSet
  | _ => none

/-- The message votes for a checkpoint of the child, in the direction of the manager. -/
def IsVote (ext : Ext) (d : Direction) (child : SubnetID) (side : Side)
    (message : MpoolPushMessage) : Prop :=
  match d with
  | .bottomUp => side = .parent ∧ message.receiver = ext.subnetActor child ∧
    message.method = .subnetSubmitCheckpoint
  | .topDown => side = .child ∧ ext.addressFromStr gatewayActorAddress = .ok message.receiver ∧
    message.method = .gatewaySubmitTopDownCheckpoint

theorem IsVote.side_eq {ext : Ext} {d : Direction} {child : SubnetID} {side : Side}
    {message : MpoolPushMessage} (isVote : IsVote ext d child side message) : side = d.target := by
  cases d <;> exact isVote.1

/-- A manager, and what it may count on: there is a period, the votes of some addresses count, and
everything that it submits can be serialized. No epoch up to the limit is too large to compute
with. -/
structure Setting where
  ext : Ext
  task : Task
  period : ChainEpoch
  voters : List Address
  limit : Int
  positive : 0 < period.toInt
  fits : limit + period.toInt ≤ Int64.maxValue.toInt
  parent : ∃ id, ext.parent task.child.id = some id
  gateway : ∃ a, ext.addressFromStr gatewayActorAddress = .ok a
  serializes : ∀ params, ext.serializes params = true

namespace Setting

variable (S : Setting)

/-- Both numbers are within the limit. -/
structure Within (w : Ledger) : Prop where
  executed : w.executed.toInt ≤ S.limit
  head : w.head.toInt ≤ S.limit

/-- Nothing is due as far as is known. -/
def CaughtUp (w : Ledger) : Prop := w.head.toInt < w.executed.toInt + S.period.toInt

instance (w : Ledger) : Decidable (S.CaughtUp w) := Int.decLt _ _

/-- Nothing is due, or others have been faster. -/
def AtRest (w : Ledger) : Prop := S.CaughtUp w ∨ w.overtaken = true

/-- Epochs are executed one period after the other, and never taken back. -/
def Grows (w w' : Ledger) : Prop :=
  w'.executed = w.executed ∨ w.executed.toInt + S.period.toInt ≤ w'.executed.toInt

def overtakenAfter (w : Ledger) : Call Side → Reply → Bool
  | .rpc side .chainHead, _ => if side = S.task.direction.source then false else w.overtaken
  | .rpc _ (.mpoolPushMessage _), .error _ => w.overtaken || !decide (S.CaughtUp w)
  | _, _ => w.overtaken

/-- What may be answered to a call, and what happens on the chains with it. -/
structure Responds (w : Ledger) (c : Call Side) (reply : Reply) (w' : Ledger) : Prop where
  answers : Readable S.ext S.task.direction c reply ∨ w.Refuses c reply
  within : S.Within w → S.Within w'
  grows : S.Grows w w'
  head : w'.head = (heightRead S.task.direction.source (.exchange c reply)).getD w.head
  asOf : w'.asOf = (tipSetRead S.ext S.task.direction.target (.exchange c reply)).elim w.asOf
    fun tipSet => Function.update w.asOf tipSet (some w'.executed)
  overtaken : w'.overtaken = S.overtakenAfter w c reply
  period : ∀ p ∈ S.task.direction.periodRead S.task.child.id (.exchange c reply), p = S.period
  lastExec : ∀ n ∈ S.task.direction.lastExecRead S.task.child.id (.exchange c reply),
    ∀ tipSet ∈ tipSetAsked c, ∀ known ∈ w.asOf tipSet, n = known
  /-- The validators are some of those whose votes count, one of the manager's accounts among
  them. -/
  validators : (subnetActorRead S.task.child.id (.exchange c reply)).isSome →
    (∀ a ∈ validatorsRead S.ext S.task.child.id (.exchange c reply), a ∈ S.voters) ∧
      ∃ a ∈ S.task.child.accounts, a ∈ validatorsRead S.ext S.task.child.id (.exchange c reply)
  /-- A vote for an epoch that the chain has come to goes into the books. -/
  sent : ∀ side message epoch m cid, c = .rpc side (.mpoolPushMessage message) →
    reply = .pushed m → cidOf S.ext m = some cid →
    IsVote S.ext S.task.direction S.task.child.id side message → message.sender ∈ S.voters →
    checkpointEpoch message.params = some epoch → epoch.toInt ≤ w.head.toInt →
    (cid, epoch) ∈ w'.sent
  /-- When it is on the chain, the epoch is executed, if it was the next one. -/
  counted : ∀ cid epoch, c = .rpc S.task.direction.target (.stateWaitMsg cid) →
    (cid, epoch) ∈ w.sent → epoch.toInt ≤ w.executed.toInt + S.period.toInt →
    epoch.toInt ≤ w'.executed.toInt

/-- Time has passed, in which the reported height has stayed as it was. -/
structure Later (w w' : Ledger) : Prop where
  within : S.Within w'
  grows : S.Grows w w'
  head : w'.head = w.head
  overtaken : w.overtaken = true → w'.overtaken = true

section Later

variable {S} {w w' w'' : Ledger}

theorem Grows.le (grows : S.Grows w w') : w.executed.toInt ≤ w'.executed.toInt := by
  have positive := S.positive
  obtain same | more := grows
  · rw [same]
  · omega

theorem Grows.trans (first : S.Grows w w') (second : S.Grows w' w'') : S.Grows w w'' := by
  have le := first.le
  obtain same | more := second
  · exact first.imp same.trans fun more => same ▸ more
  · exact .inr (by omega)

theorem Later.trans (first : S.Later w w') (second : S.Later w' w'') : S.Later w w'' :=
  ⟨second.within, first.grows.trans second.grows, second.head.trans first.head,
    second.overtaken ∘ first.overtaken⟩

theorem Later.caughtUp (later : S.Later w w') (caughtUp : S.CaughtUp w) : S.CaughtUp w' := by
  have le := later.grows.le
  unfold CaughtUp at *
  rw [later.head]
  omega

theorem Later.atRest (later : S.Later w w') (atRest : S.AtRest w) : S.AtRest w' :=
  atRest.imp later.caughtUp later.overtaken

variable {c : Call Side} {reply : Reply}

theorem Responds.readable (responds : S.Responds w c reply w')
    (other : ∀ side message, c ≠ .rpc side (.mpoolPushMessage message)) :
    Readable S.ext S.task.direction c reply := by
  refine responds.answers.resolve_right ?_
  rintro ⟨side, message, epoch, text, same, -⟩
  exact other side message same

/-- A call that does not ask for the height. -/
theorem Responds.later (responds : S.Responds w c reply w') (within : S.Within w)
    (other : c ≠ .rpc S.task.direction.source .chainHead) : S.Later w w' := by
  refine ⟨responds.within within, responds.grows, ?_, fun overtaken => ?_⟩
  · rw [responds.head]
    unfold heightRead
    split <;> simp_all
  · rw [responds.overtaken]
    unfold overtakenAfter
    split <;> simp_all

end Later

end Setting

/-! ## Calls -/

section Client

variable {κ α W : Type} {e : Partner (Call κ) Reply W} {ok : Call κ → W → Prop} {w : W}
  {Q : α → W → Prop}

/-- A request, to a partner whose replies can be decoded. -/
theorem will_request {client : κ} {rpc : Rpc} {decode : Reply → Option α}
    (allowed : ok (.rpc client rpc) w)
    (answered : ∀ reply w', e w (.rpc client rpc) reply w' →
      (∀ message, reply ≠ .error message) ∧ ∃ a, decode reply = some a ∧ Q a w') :
    (request client rpc decode).Will e ok Q [] w := by
  refine (Program.will_ask (Q := fun reply w' => e w (.rpc client rpc) reply w') allowed
    fun _ _ => id).bind fun reply w' responds => ?_
  obtain ⟨noError, a, decoded, post⟩ := answered reply w' responds
  cases reply with
  | error message => exact absurd rfl (noError message)
  | _ =>
    simp only [decoded]
    exact Program.will_pure post

/-- A request that may fail, within something that is attempted. -/
theorem will_attempt_request_bind {β : Type} {client : κ} {rpc : Rpc} {decode : Reply → Option α}
    {f : α → Prog κ β} {R : Except Error β → W → Prop} (allowed : ok (.rpc client rpc) w)
    (failed : ∀ text w', e w (.rpc client rpc) (.error text) w' → R (.error [text]) w')
    (answered : ∀ reply w', e w (.rpc client rpc) reply w' → (∀ text, reply ≠ .error text) →
      ∃ a, decode reply = some a ∧ (f a).attempt.Will e ok R [] w') :
    (request client rpc decode >>= f).attempt.Will e ok R [] w := by
  unfold request
  rw [bind_assoc]
  refine (Program.will_ask (Q := fun reply w' => e w (.rpc client rpc) reply w') allowed
    fun _ _ => id).attempt_bind fun reply w' responds => ?_
  cases reply with
  | error text => exact .done rfl rfl (failed text w' responds)
  | _ =>
    obtain ⟨a, decoded, next⟩ := answered _ w' responds (by simp)
    simp only [decoded, pure_bind]
    exact next

theorem cidTryFrom_eq {ext : Ext} {m : CIDMap} {c : Cid} (cid : cidOf ext m = some c) :
    (cidTryFrom ext m : Prog κ Cid) = pure c := by
  obtain ⟨s, isText, parsed⟩ := Option.bind_eq_some_iff.mp cid
  simp [cidTryFrom, isText, parsed]

end Client

section Calls

variable {S : Setting} {α : Type} {w : Ledger} {Q : α → Ledger → Prop}

/-- The program ends, whatever the chains do, and waits only at rest. -/
abbrev Works (S : Setting) (p : Prog Side α) (Q : α → Ledger → Prop) (w : Ledger) : Prop :=
  p.Will S.Responds (fun c w => c = .wait → S.AtRest w) Q [] w

theorem works_request {client : Side} {rpc : Rpc} {decode : Reply → Option α}
    (answered : ∀ reply w', S.Responds w (.rpc client rpc) reply w' →
      (∀ message, reply ≠ .error message) ∧ ∃ a, decode reply = some a ∧ Q a w') :
    Works S (request client rpc decode) Q w := will_request (by simp) answered

/-- The head of a chain: its height, or that from now on its state is known. -/
theorem works_chainHead (within : S.Within w) (side : Side) :
    Works S (chainHead side) (fun r w' => ∃ c, tipSetOf S.ext r = some c ∧
      (S.task.direction = .bottomUp → r.cids.length = 1) ∧ IsEpoch r.height ∧ S.Within w' ∧
      S.Grows w w' ∧ (side = S.task.direction.source → w'.head = r.height.toInt64) ∧
      (side = S.task.direction.target → S.Later w w' ∧ w'.asOf c = some w'.executed)) w := by
  refine works_request fun reply w' responds => ?_
  obtain ⟨r, c, rfl, cid, epoch, one⟩ := responds.readable (by simp)
  refine ⟨by simp, r, rfl, c, cid, one, epoch, responds.within within, responds.grows,
    fun same => ?_, fun same => ⟨responds.later within ?_, ?_⟩⟩
  · rw [responds.head]
    simp [heightRead, same, epoch]
  · subst same
    cases S.task.direction <;> simp [Direction.source, Direction.target]
  · rw [responds.asOf]
    simp [tipSetRead, same, cid]

theorem works_gateway (within : S.Within w) (tipSet : Cid) :
    Works S (ipcReadGatewayState .child tipSet) (fun g w' => S.Later w w' ∧
      g.initialized = true ∧ (S.task.direction = .topDown →
        g.topDownCheckPeriod = S.period ∧ ∀ known, w.asOf tipSet = some known →
          g.topDownCheckpointVoting.lastVotingExecuted = known)) w := by
  refine works_request fun reply w' responds => ?_
  obtain ⟨g, rfl, initialized⟩ := responds.readable (by simp)
  refine ⟨by simp, g, rfl, responds.later within (by simp), initialized, fun direction => ?_⟩
  have period := responds.period
  have lastExec := responds.lastExec
  rw [direction] at period lastExec
  exact ⟨period _ rfl, lastExec _ rfl tipSet rfl⟩

/-- The votes of these validators count, and one of them is an account of the manager. -/
structure Electorate (S : Setting) (validators : List Address) : Prop where
  counted : ∀ a ∈ validators, a ∈ S.voters
  own : ∃ a ∈ S.task.child.accounts, a ∈ validators

theorem works_subnetActor (within : S.Within w) (tipSet : Cid) :
    Works S (ipcReadSubnetActorState .parent S.task.child.id tipSet) (fun s w' => S.Later w w' ∧
      (∀ v ∈ s.validators.getD [], ∃ a, S.ext.addressFromStr v.addr = .ok a) ∧
      Electorate S
        ((s.validators.getD []).filterMap fun v => (S.ext.addressFromStr v.addr).toOption) ∧
      (S.task.direction = .bottomUp →
        s.bottomUpCheckPeriod = S.period ∧ ∀ known, w.asOf tipSet = some known →
          s.bottomUpCheckpointVoting.lastVotingExecuted = known)) w := by
  refine works_request fun reply w' responds => ?_
  obtain ⟨s, rfl, readable⟩ := responds.readable (by simp)
  have validators := responds.validators (by simp [subnetActorRead])
  refine ⟨by simp, s, rfl, responds.later within (by simp), readable, ?_, fun direction => ?_⟩
  · obtain ⟨counted, own⟩ := validators
    exact ⟨by simpa [validatorsRead, subnetActorRead] using counted,
      by simpa [validatorsRead, subnetActorRead] using own⟩
  · have period := responds.period
    have lastExec := responds.lastExec
    rw [direction] at period lastExec
    exact ⟨period _ (by simp [Direction.periodRead, subnetActorRead]),
      lastExec _ (by simp [Direction.lastExecRead, subnetActorRead]) tipSet rfl⟩

/-- A call that is only about its own reply. -/
theorem works_other {client : Side} {rpc : Rpc} {decode : Reply → Option α} {P : α → Prop}
    (within : S.Within w) (other : rpc ≠ .chainHead)
    (reads : ∀ message, rpc ≠ .mpoolPushMessage message)
    (answered : ∀ reply, Readable S.ext S.task.direction (.rpc client rpc) reply →
      (∀ message, reply ≠ .error message) ∧ ∃ a, decode reply = some a ∧ P a) :
    Works S (request client rpc decode) (fun a w' => P a ∧ S.Later w w') w := by
  refine works_request fun reply w' responds => ?_
  obtain ⟨noError, a, decoded, holds⟩ :=
    answered reply (responds.readable (by simp [reads]))
  exact ⟨noError, a, decoded, holds, responds.later within (by simp [other])⟩

/-! ## Conversions -/

variable {ext : Ext}

theorem tipSetCid_eq {r : ChainHeadResponse} {c : Cid} (cid : tipSetOf ext r = some c) :
    (tipSetCid ext r : Prog Side Cid) = pure c := by
  obtain ⟨m, isHead, parsed⟩ := Option.bind_eq_some_iff.mp cid
  obtain ⟨rest, listed⟩ := List.head?_eq_some_iff.mp isHead
  simp [tipSetCid, firstCid, listed, cidTryFrom_eq parsed]

theorem assertOneCid_eq {r : ChainHeadResponse} (one : r.cids.length = 1) :
    (assertOneCid r : Prog Side Unit) = pure () := by
  simp [assertOneCid, one]

theorem epochTryFrom_eq {height : UInt64} (epoch : IsEpoch height) :
    (epochTryFrom height : Prog Side ChainEpoch) = pure height.toInt64 := by
  simp [epochTryFrom, epoch]

theorem serialize_eq (S : Setting) (params : Params) (description : String) :
    (serialize S.ext params description : Prog Side Params) = pure params := by
  simp [serialize, S.serializes]

theorem mapM_ofExcept {β : Type} {f : β → Except String α} (l : List β)
    (ok : ∀ b ∈ l, ∃ a, f b = .ok a) :
    (l.mapM fun b => (ofExcept (f b) : Prog Side α)) =
      pure (l.filterMap fun b => (f b).toOption) := by
  induction l with
  | nil => rfl
  | cons b l ih =>
    obtain ⟨a, parsed⟩ := ok b List.mem_cons_self
    have first : (ofExcept (f b) : Prog Side α) = pure a := by rw [parsed]; rfl
    have kept : (f b).toOption = some a := by rw [parsed]; rfl
    have rest := ih fun b mem => ok b (List.mem_cons_of_mem _ mem)
    simp [List.mapM_cons, first, kept, rest]

theorem validatorSet_eq {validators : Option (List Validator)}
    (readable : ∀ v ∈ validators.getD [], ∃ a, ext.addressFromStr v.addr = .ok a) :
    validatorSet ext validators = pure ((validators.getD []).filterMap fun v =>
      (ext.addressFromStr v.addr).toOption) := by
  cases validators with
  | none => rfl
  | some l => exact mapM_ofExcept l readable

end Calls

/-! ## Submissions -/

section Submit

variable {S : Setting} {w : Ledger} {account : Address}

/-- What has been found due: the next epoch still, and the chain has come that far, or by now an
executed one. -/
structure Open {σ : Type} (S : Setting) (due : Due σ) (w : Ledger) : Prop where
  epoch : due.epoch.toInt = due.lastExec.toInt + S.period.toInt
  status : due.lastExec.toInt = w.executed.toInt ∧ due.epoch.toInt ≤ w.head.toInt ∨
    due.epoch.toInt ≤ w.executed.toInt

theorem Open.later {σ : Type} {due : Due σ} {w' : Ledger} (isOpen : Open S due w)
    (later : S.Later w w') : Open S due w' where
  epoch := isOpen.epoch
  status := by
    have epoch := isOpen.epoch
    have le := later.grows.le
    obtain ⟨same, reached⟩ | executed := isOpen.status
    · obtain kept | more := later.grows
      · exact .inl ⟨by rw [kept, same], by rw [later.head]; exact reached⟩
      · exact .inr (by omega)
    · exact .inr (by omega)

/-- A vote that is refused: its epoch has been executed, and either nothing more is due or the
manager has been overtaken. -/
theorem atRest_of_refuses {side : Side} {message : MpoolPushMessage} {text : String}
    {w' : Ledger} (within : S.Within w)
    (responds : S.Responds w (.rpc side (.mpoolPushMessage message)) (.error text) w') :
    S.AtRest w' := by
  have later := responds.later within (by simp)
  by_cases caughtUp : S.CaughtUp w
  · exact .inl (later.caughtUp caughtUp)
  · refine .inr ?_
    rw [responds.overtaken]
    simp [Setting.overtakenAfter, caughtUp]

/-- Wait for a vote that is in the books, or no longer needed. -/
theorem works_stateWaitMsg {cid : Cid} (epoch : ChainEpoch) (within : S.Within w)
    (booked : (cid, epoch) ∈ w.sent ∧ epoch.toInt ≤ w.executed.toInt + S.period.toInt ∨
      epoch.toInt ≤ w.executed.toInt) :
    Works S (stateWaitMsg S.task.direction.target cid)
      (fun _ w' => S.Later w w' ∧ epoch.toInt ≤ w'.executed.toInt) w := by
  refine works_request fun reply w' responds => ?_
  obtain ⟨receipt, rfl⟩ := responds.readable (by simp)
  have later := responds.later within (by simp)
  have le := later.grows.le
  refine ⟨by simp, receipt, rfl, later, ?_⟩
  obtain ⟨sent, next⟩ | executed := booked
  · exact responds.counted cid epoch rfl sent next
  · omega

/-- The end of a submission: push a vote for what is due, and wait for it. -/
theorem works_push {σ : Type} {due : Due σ} {side : Side} {message : MpoolPushMessage}
    (within : S.Within w) (isOpen : Open S due w)
    (isVote : IsVote S.ext S.task.direction S.task.child.id side message)
    (voter : message.sender ∈ S.voters)
    (epoch : checkpointEpoch message.params = some due.epoch) :
    Works S (do let _ ← mpoolPushAndWait S.ext side message; pure () : Prog Side Unit).attempt
      (fun r w' => S.Later w w' ∧ due.epoch.toInt ≤ w'.executed.toInt ∧
        (r = .ok () ∨ S.AtRest w')) w := by
  unfold mpoolPushAndWait
  rw [bind_assoc]
  refine will_attempt_request_bind (by simp) (fun text w' responds => ?_)
    fun reply w' responds noError => ?_
  · have later := responds.later within (by simp)
    obtain ⟨_, _, impossible, -⟩ | ⟨_, _, stale, _, same, -, isStale, executed⟩ :=
      responds.answers
    · cases impossible
    · cases same
      obtain rfl := Option.some.inj (epoch.symm.trans isStale)
      have le := later.grows.le
      exact ⟨later, by omega, .inr (atRest_of_refuses within responds)⟩
  · have later := responds.later within (by simp)
    obtain ⟨m, cid, rfl, isCid⟩ | ⟨_, _, _, text, -, refused, -⟩ := responds.answers
    · refine ⟨m, rfl, ?_⟩
      rw [cidTryFrom_eq isCid, pure_bind, isVote.side_eq]
      refine (works_stateWaitMsg due.epoch later.within ?_).attempt_bind ?_
      · have le := later.grows.le
        have next := isOpen.epoch
        obtain ⟨same, reached⟩ | executed := isOpen.status
        · exact .inl ⟨responds.sent side message due.epoch m cid rfl rfl isCid isVote voter epoch
            reached, by omega⟩
        · exact .inr (by omega)
      · rintro receipt w'' ⟨later', executed⟩
        exact .done rfl rfl ⟨later.trans later', executed, .inl rfl⟩
    · exact absurd refused (noError text)

end Submit

end IpcAgent.Manager
