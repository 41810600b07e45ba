import IpcAgent.Lotus.Client

/-!
# The checkpoint managers

`manager/bottomup.rs` and `manager/topdown.rs`. Both managers have the same shape: they read
the two chains, vote with each of their accounts when it is time, and then catch up with the
checkpoints they have missed. `manage` is that shape; a `Scheme` says what a manager reads
and submits.
-/

namespace IpcAgent.Manager
open Library Lotus

/-- The two clients of a manager. -/
inductive Side
  | child
  | parent
deriving DecidableEq

/-- The part of a subnet's configuration the managers use. -/
structure Subnet where
  id : SubnetID
  accounts : List Address

/-- `wait_next_iteration`: true to go on, false if the stop signal was received. -/
def waitNextIteration : Prog Side Bool := do
  match ← .ask .wait with
  | .woken again => pure again
  | _ => .fail []

/-- Go on after a wait, or return. -/
def waitOrExit : Prog Side Unit := do
  if ← waitNextIteration then pure () else .stop .exit

/-- The addresses of the validators in the state of the subnet actor. -/
def validatorSet (ext : Ext) : Option (List Validator) → Prog Side (List Address)
  | none => pure []
  | some validators => validators.mapM (fun v => ofExcept (ext.addressFromStr v.addr))

/-- What a manager has found when it is time to vote: the last executed epoch, and what a
submission needs to know of the chains. -/
structure Due (σ : Type) where
  lastExec : ChainEpoch
  period : ChainEpoch
  seen : σ

/-- The epoch to vote for. -/
def Due.epoch {σ : Type} (due : Due σ) : ChainEpoch := due.lastExec + due.period

/-- What tells the managers apart. -/
structure Scheme (σ : Type) where
  /-- The period between checkpoints. -/
  readPeriod : Prog Side ChainEpoch
  /-- The reads of an iteration: what is due, if anything, and who may vote. -/
  observe (period : ChainEpoch) : Prog Side (Option (Due σ × List Address))
  /-- The reads of a round of the catch-up loop. -/
  catchUp (period : ChainEpoch) (outer : σ) : Prog Side (Option (Due σ))
  submit (due : Due σ) (account : Address) : Prog Side Unit
  /-- The context of the manager's errors. -/
  context : String

section Manage

variable {σ : Type} (s : Scheme σ)

/-- Submit a checkpoint; false if that has failed. -/
def trySubmit (due : Due σ) (account : Address) : Prog Side Bool := do
  match ← (s.submit due account).attempt with
  | .ok () =>
    .tell (.submitted account due.epoch true)
    pure true
  | .error _ =>
    .tell (.submitted account due.epoch false)
    pure false

/-- Submit the checkpoints that are still outstanding. -/
def catchUpLoop (period : ChainEpoch) (outer : σ) (account : Address) : Prog Side Unit :=
  .loop (do
    match ← s.catchUp period outer with
    | none => pure false
    | some due =>
      .tell (.due due.lastExec due.period)
      if ← trySubmit s due account then pure true
      else
        waitOrExit
        pure false)

/-- The vote of one account. -/
def vote (period : ChainEpoch) (due : Due σ) (validators : List Address) (account : Address) :
    Prog Side Unit :=
  -- The check whether the validator has voted already is commented out in the source.
  if account ∈ validators then do
    if ← trySubmit s due account then catchUpLoop s period due.seen account
    else waitOrExit
  else pure ()

def iteration (accounts : List Address) (period : ChainEpoch) : Prog Side Bool := do
  match ← s.observe period with
  | none => pure ()
  | some (due, validators) =>
    .tell (.due due.lastExec due.period)
    accounts.forM (vote s period due validators)
  waitOrExit
  pure true

/-- The body of a manager, without the context of its errors. -/
def manage (accounts : List Address) : Prog Side Unit := do
  let period ← s.readPeriod
  .loop (iteration s accounts period)

end Manage

/-! ## What the managers do -/

section Emits

variable {α σ : Type} {G : Event (Call Side) Reply Mark → Prop}

/-- `G` has room for every request, and for the mark before a submission. -/
structure AllowsRequests (G : Event (Call Side) Reply Mark → Prop) : Prop where
  request : ∀ client rpc reply, G (.exchange (.rpc client rpc) reply)
  submits : ∀ account params, G (.mark (.submits account params))

theorem AllowsRequests.emits_request {client : Side} {rpc : Rpc} {decode : Reply → Option α}
    (all : AllowsRequests G) : (Lotus.request client rpc decode).Emits G :=
  Lotus.emits_request (all.request client rpc)

theorem AllowsRequests.emits_mpoolPushAndWait {ext : Ext} {client : Side}
    {message : MpoolPushMessage} (all : AllowsRequests G) :
    (mpoolPushAndWait ext client message).Emits G := by
  refine Program.upholds_bind all.emits_request fun _ _ => ?_
  exact Program.upholds_bind emits_cidTryFrom fun _ _ => all.emits_request

theorem upholds_validatorSet {ext : Ext} {validators : Option (List Validator)} :
    (validatorSet ext validators).Upholds (fun _ => True) G
      (fun set => ∀ a ∈ set, ∃ v ∈ validators.getD [], ext.addressFromStr v.addr = .ok a) := by
  cases validators with
  | none => exact Program.upholds_pure (by simp)
  | some l => exact Program.upholds_mapM_mem l fun _ _ => upholds_ofExcept fun _ => id

theorem emits_validatorSet {ext : Ext} {validators : Option (List Validator)} :
    (validatorSet ext validators).Emits G :=
  upholds_validatorSet.mono (fun _ => id) (fun _ => id) fun _ _ => trivial

/-- All that a scheme reads and submits is in `G`. -/
structure Scheme.Emits (G : Event (Call Side) Reply Mark → Prop) (s : Scheme σ) : Prop where
  readPeriod : s.readPeriod.Emits G
  observe : ∀ period, (s.observe period).Emits G
  catchUp : ∀ period outer, (s.catchUp period outer).Emits G
  submit : ∀ due account, (s.submit due account).Emits G

theorem emits_waitOrExit (wait : ∀ r, G (.exchange .wait r)) : waitOrExit.Emits G := by
  refine Program.upholds_bind (Q := fun _ => True) ?_ fun again _ => ?_
  · refine Program.upholds_bind (Q := fun _ => True)
      (Program.upholds_ask fun r _ => ⟨wait r, trivial⟩) fun r _ => ?_
    split
    · exact Program.upholds_pure trivial
    · exact Program.upholds_fail _
  · split
    · exact Program.upholds_pure trivial
    · exact Program.upholds_stop _

end Emits

/-! ## The loops of a manager -/

section Loops

variable {σ : Type} {s : Scheme σ} {accounts : List Address} {I : Trace Side → Prop}
  {W : Due σ → List Address → Trace Side → Prop}
  {V : Due σ → Address → List Address → Trace Side → Prop}
  {S : Halt (Call Side) Error Stop → Trace Side → Prop} {h : Trace Side}

theorem wp_trySubmit {due : Due σ} {account : Address} {Q : Bool → Trace Side → Prop}
    (submit : (s.submit due account).wp
      (fun _ h => Q true (h ++ [.mark (.submitted account due.epoch true)]))
      (fun
        | .fail _, h => Q false (h ++ [.mark (.submitted account due.epoch false)])
        | x, h => S x h) h) : (trySubmit s due account).wp Q S h := by
  refine Program.wp_bind (Program.wp_attempt (Program.wp_mono submit
    (fun _ h next => Program.wp_bind (Program.wp_tell (Program.wp_pure next))) fun x h next => ?_))
  cases x with
  | fail e => exact Program.wp_bind (Program.wp_tell (Program.wp_pure next))
  | _ => exact next

/-- Invariants of an iteration of a manager with a given period. `I` holds before and after it,
`W found left` while it is the turn of the accounts in `left`, and `V found account left` while
`account` votes and catches up; `found` is what the iteration has found due, with the validators.
`S` is what is known when the manager is left. -/
structure Rounds (s : Scheme σ) (accounts : List Address) (period : ChainEpoch)
    (I : Trace Side → Prop)
    (W : Due σ × List Address → List Address → Trace Side → Prop)
    (V : Due σ × List Address → Address → List Address → Trace Side → Prop)
    (S : Halt (Call Side) Error Stop → Trace Side → Prop) : Prop where
  observe : ∀ h, I h → (s.observe period).wp (fun found h => found.elim (I h)
    fun f => W f accounts (h ++ [.mark (.due f.1.lastExec f.1.period)])) S h
  skip : ∀ found account left h, W found (account :: left) h → W found left h
  submit : ∀ found account left h, account ∈ found.2 → W found (account :: left) h →
    (trySubmit s found.1 account).wp (fun _ => V found account left) S h
  catchUp : ∀ found account left h, V found account left h →
    (s.catchUp period found.1.seen).wp (fun late h => late.elim (V found account left h)
      fun late => (trySubmit s late account).wp (fun _ => V found account left) S
        (h ++ [.mark (.due late.lastExec late.period)])) S h
  voted : ∀ found account left h, V found account left h → W found left h
  done : ∀ found h, W found [] h → I h
  wait : ∀ h, I h → waitOrExit.wp (fun _ => I) S h
  retry : ∀ found account left h, V found account left h →
    waitOrExit.wp (fun _ => V found account left) S h
  spinVote : ∀ found account left h, V found account left h → S .spin h

namespace Rounds

variable {period : ChainEpoch} {W : Due σ × List Address → List Address → Trace Side → Prop}
  {V : Due σ × List Address → Address → List Address → Trace Side → Prop}
  {found : Due σ × List Address} {account : Address} {left : List Address}
  (rounds : Rounds s accounts period I W V S)

include rounds

theorem catchUpLoop (start : V found account left h) :
    (catchUpLoop s period found.1.seen account).wp (fun _ => V found account left) S h := by
  refine Program.wp_loop (V found account left) start (rounds.spinVote found account left)
    fun h hV => Program.wp_bind ?_
  refine Program.wp_mono (rounds.catchUp found account left h hV) (fun late h next => ?_)
    fun _ _ => id
  cases late with
  | none => exact Program.wp_pure (by simpa using next)
  | some late =>
    refine Program.wp_bind (Program.wp_tell (Program.wp_bind ?_))
    refine Program.wp_mono next (fun ok h hV => ?_) fun _ _ => id
    cases ok with
    | true => exact Program.wp_pure (by simpa using hV)
    | false => exact Program.wp_bind (Program.wp_mono (rounds.retry found account left h hV)
        (fun _ _ hV => Program.wp_pure (by simpa using hV)) fun _ _ => id)

theorem vote (start : W found (account :: left) h) :
    (vote s period found.1 found.2 account).wp (fun _ => W found left) S h := by
  unfold Manager.vote
  split
  · rename_i validator
    refine Program.wp_bind (Program.wp_mono (rounds.submit found account left h validator start)
      (fun ok h hV => ?_) fun _ _ => id)
    cases ok with
    | true =>
      exact Program.wp_mono (rounds.catchUpLoop hV) (fun _ _ => rounds.voted found account left _)
        fun _ _ => id
    | false =>
      exact Program.wp_mono (rounds.retry found account left h hV)
        (fun _ _ => rounds.voted found account left _) fun _ _ => id
  · exact Program.wp_pure (rounds.skip found account left h start)

theorem iteration (start : I h) :
    (iteration s accounts period).wp (fun again h => again ∧ I h) S h := by
  have waits : ∀ h, I h →
      (do waitOrExit; pure true : Prog Side Bool).wp (fun again h => again ∧ I h) S h := fun h hI =>
    Program.wp_bind (Program.wp_mono (rounds.wait h hI)
      (fun _ _ hI => Program.wp_pure ⟨rfl, hI⟩) fun _ _ => id)
  refine Program.wp_bind (Program.wp_mono (rounds.observe h start) (fun found h next => ?_)
    fun _ _ => id)
  cases found with
  | none => exact waits h next
  | some found =>
    refine Program.wp_bind (Program.wp_tell (Program.wp_bind ?_))
    exact Program.wp_forM (W found) accounts next (fun h hW => waits h (rounds.done found h hW))
      fun account left h hW => rounds.vote hW

end Rounds

/-- A manager all of whose iterations keep the invariants. -/
theorem wp_manage {W : Due σ × List Address → List Address → Trace Side → Prop}
    {V : Due σ × List Address → Address → List Address → Trace Side → Prop}
    (readPeriod : s.readPeriod.wp (fun _ => I) S h)
    (rounds : ∀ period, Rounds s accounts period I W V S) (spin : ∀ h, I h → S .spin h) :
    (manage s accounts).wp (fun _ => I) S h := by
  refine Program.wp_bind (Program.wp_mono readPeriod (fun period h hI => ?_) fun _ _ => id)
  refine Program.wp_loop I hI spin fun h hI => ?_
  refine Program.wp_mono ((rounds period).iteration hI) (fun again h next => ?_) fun _ _ => id
  simpa [next.1] using next.2

/-- Invariants of the loops of a manager: `I` holds between iterations, and `W` and `V` are as
above, for any period and without regard to the validators. -/
structure Loops (s : Scheme σ) (accounts : List Address) (I : Trace Side → Prop)
    (W : Due σ → List Address → Trace Side → Prop)
    (V : Due σ → Address → List Address → Trace Side → Prop)
    (S : Halt (Call Side) Error Stop → Trace Side → Prop) : Prop where
  readPeriod : ∀ h, I h → s.readPeriod.wp (fun _ => I) S h
  observe : ∀ period h, I h → (s.observe period).wp (fun found h => found.elim (I h)
    fun f => W f.1 accounts (h ++ [.mark (.due f.1.lastExec f.1.period)])) S h
  skip : ∀ due account left h, W due (account :: left) h → W due left h
  submit : ∀ due account left h, W due (account :: left) h →
    (trySubmit s due account).wp (fun _ => V due account left) S h
  catchUp : ∀ period due account left h, V due account left h →
    (s.catchUp period due.seen).wp (fun found h => found.elim (V due account left h)
      fun late => (trySubmit s late account).wp (fun _ => V due account left) S
        (h ++ [.mark (.due late.lastExec late.period)])) S h
  voted : ∀ due account left h, V due account left h → W due left h
  done : ∀ due h, W due [] h → I h
  wait : ∀ h, I h → waitOrExit.wp (fun _ => I) S h
  retry : ∀ due account left h, V due account left h →
    waitOrExit.wp (fun _ => V due account left) S h
  spin : ∀ h, I h → S .spin h
  spinVote : ∀ due account left h, V due account left h → S .spin h

theorem Loops.rounds (loops : Loops s accounts I W V S) (period : ChainEpoch) :
    Rounds s accounts period I (fun found => W found.1) (fun found => V found.1) S where
  observe := loops.observe period
  skip found := loops.skip found.1
  submit found account left h _ := loops.submit found.1 account left h
  catchUp found := loops.catchUp period found.1
  voted found := loops.voted found.1
  done found := loops.done found.1
  wait := loops.wait
  retry found := loops.retry found.1
  spinVote found := loops.spinVote found.1

theorem Loops.manage (loops : Loops s accounts I W V S) (start : I h) :
    (manage s accounts).wp (fun _ => I) S h :=
  wp_manage (loops.readPeriod h start) loops.rounds loops.spin

end Loops

/-! ## Managers that rely on the chains -/

section Upholds

variable {σ : Type} {R G : Event (Call Side) Reply Mark → Prop} {V : ChainEpoch → Prop}
  {D : Due σ → Prop}

/-- If the answers are as in `R`, the period is in `V`, what is found due is in `D`, and
submissions of that kind stay in `G`. -/
structure Scheme.Upholds (R G : Event (Call Side) Reply Mark → Prop) (V : ChainEpoch → Prop)
    (D : Due σ → Prop) (s : Scheme σ) : Prop where
  readPeriod : s.readPeriod.Upholds R G V
  observe : ∀ period, V period → (s.observe period).Upholds R G (fun found => ∀ f ∈ found, D f.1)
  catchUp : ∀ period outer, V period →
    (s.catchUp period outer).Upholds R G (fun found => ∀ due ∈ found, D due)
  submit : ∀ due account, D due → (s.submit due account).Upholds R G (fun _ => True)

/-- `G` has room for what the loops of a manager do themselves. -/
structure AllowsLoops (G : Event (Call Side) Reply Mark → Prop) : Prop where
  due : ∀ l p, G (.mark (.due l p))
  submitted : ∀ account epoch ok, G (.mark (.submitted account epoch ok))
  wait : ∀ r, G (.exchange .wait r)

theorem AllowsLoops.upholds_waitOrExit (own : AllowsLoops G) :
    waitOrExit.Upholds R G (fun _ => True) :=
  (emits_waitOrExit own.wait).mono (fun _ _ => trivial) (fun _ => id) fun _ => id

theorem AllowsLoops.upholds_due (own : AllowsLoops G) (l p : ChainEpoch) :
    (Program.tell (.due l p) : Prog Side Unit).Upholds R G (fun _ => True) :=
  Program.upholds_tell (own.due l p) trivial

namespace Scheme.Upholds

variable {s : Scheme σ} (upholds : s.Upholds R G V D) (own : AllowsLoops G)

include upholds own

theorem trySubmit {due : Due σ} (hD : D due) (account : Address) :
    (trySubmit s due account).Upholds R G (fun _ => True) := by
  refine Program.upholds_bind (Q := fun _ => True)
    (Program.upholds_attempt (upholds.submit due account hD) fun _ => trivial) fun result _ => ?_
  cases result <;> exact Program.upholds_bind
    (Program.upholds_tell (Q := fun _ => True) (own.submitted _ _ _) trivial)
    fun _ _ => Program.upholds_pure trivial

theorem catchUpLoop {period : ChainEpoch} (hV : V period) (outer : σ) (account : Address) :
    (catchUpLoop s period outer account).Upholds R G (fun _ => True) := by
  refine Program.upholds_loop (Program.upholds_bind (upholds.catchUp period outer hV)
    fun found hD => ?_)
  cases found with
  | none => exact Program.upholds_pure trivial
  | some late =>
    refine Program.upholds_bind (own.upholds_due _ _) fun _ _ => ?_
    refine Program.upholds_bind (upholds.trySubmit own (hD late rfl) account) fun ok _ => ?_
    cases ok with
    | true => exact Program.upholds_pure trivial
    | false =>
      exact Program.upholds_bind own.upholds_waitOrExit fun _ _ => Program.upholds_pure trivial

theorem vote {period : ChainEpoch} {due : Due σ} (hV : V period) (hD : D due)
    (validators : List Address) (account : Address) :
    (vote s period due validators account).Upholds R G (fun _ => True) := by
  unfold Manager.vote
  split
  · refine Program.upholds_bind (upholds.trySubmit own hD account) fun ok _ => ?_
    cases ok with
    | true => exact upholds.catchUpLoop own hV due.seen account
    | false => exact own.upholds_waitOrExit
  · exact Program.upholds_pure trivial

theorem manage (accounts : List Address) :
    (manage s accounts).Upholds R G (fun _ => True) := by
  have waits : (do waitOrExit; pure true : Prog Side Bool).Upholds R G (fun _ => True) :=
    Program.upholds_bind own.upholds_waitOrExit fun _ _ => Program.upholds_pure trivial
  refine Program.upholds_bind upholds.readPeriod fun period hV => Program.upholds_loop ?_
  refine Program.upholds_bind (upholds.observe period hV) fun found hD => ?_
  cases found with
  | none => exact waits
  | some found =>
    refine Program.upholds_bind (own.upholds_due _ _) fun _ _ => ?_
    exact Program.upholds_bind (Program.upholds_forM accounts fun account _ =>
      upholds.vote own hV (hD _ rfl) found.2 account) fun _ _ => waits

end Scheme.Upholds

end Upholds

/-- How a manager's task ends: `return Ok(())` leaves it with success, an error gets the
manager's context. The loop itself never ends. -/
inductive TaskResult
  | ok
  | err (e : Error)
  | panicked (message : String)
deriving DecidableEq

/-- The result of a manager, if it has ended. -/
def taskResult {σ : Type} (s : Scheme σ) :
    Outcome (Call Side) Error Stop Unit → Option TaskResult
  | .ret () => some .ok
  | .halt (.stop .exit) => some .ok
  | .halt (.stop (.panic message)) => some (.panicked message)
  | .halt (.fail e) => some (.err (s.context :: e))
  | .halt (.await _) | .halt .spin => none

end IpcAgent.Manager
