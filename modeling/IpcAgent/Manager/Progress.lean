import IpcAgent.Manager.Responses

/-!
# Managers keep up

A manager may find that checkpoints have been missed. On chains that respond, it does not rest
before it has made up for all of them, unless others are faster: the catch-up loop ends, since
every round but the last has an epoch executed.
-/

namespace IpcAgent.Manager
open Library Lotus

/-! ## What is due -/

section Due

variable {S : Setting} {σ : Type} {w : Ledger}

theorem toInt_add_period {n : ChainEpoch} (le : n.toInt ≤ S.limit) :
    (n + S.period).toInt = n.toInt + S.period.toInt := by
  have positive := S.positive
  have fits : S.limit + S.period.toInt ≤ 9223372036854775807 := S.fits
  have lower : -9223372036854775808 ≤ n.toInt := n.minValue_le_toInt
  rw [Int64.toInt_add, Int.bmod_eq_of_le] <;> omega

theorem open_of_le (within : S.Within w) (seen : σ) (due : w.executed + S.period ≤ w.head) :
    Open S (⟨w.executed, S.period, seen⟩ : Due σ) w where
  epoch := toInt_add_period within.executed
  status := .inl ⟨rfl, Int64.le_iff_toInt_le.mp due⟩

theorem caughtUp_of_not_le (within : S.Within w) (early : ¬ w.executed + S.period ≤ w.head) :
    S.CaughtUp w := by
  rw [Int64.le_iff_toInt_le, toInt_add_period within.executed] at early
  exact Int.not_le.mp early

end Due

/-- What a manager's scheme has to do for it to keep up. -/
structure Scheme.Keeps {σ : Type} (S : Setting) (s : Scheme σ) : Prop where
  asksObserve : ∀ period, (s.observe period).Asks
  asksCatchUp : ∀ period outer, (s.catchUp period outer).Asks
  readPeriod : ∀ w, S.Within w → Works S s.readPeriod (fun p w' => p = S.period ∧ S.Within w') w
  observe : ∀ w, S.Within w → Works S (s.observe S.period) (fun found w' => S.Within w' ∧
    found.elim (S.CaughtUp w') fun f => Open S f.1 w' ∧ Electorate S f.2) w
  catchUp : ∀ w outer, S.Within w → Works S (s.catchUp S.period outer) (fun found w' =>
    S.Within w' ∧ w.executed.toInt ≤ w'.executed.toInt ∧ found.elim (S.CaughtUp w') fun late =>
      w.executed.toInt ≤ late.lastExec.toInt ∧ Open S late w') w
  submit : ∀ w due account, S.Within w → Open S due w → account ∈ S.voters →
    Works S (s.submit due account).attempt (fun r w' => S.Later w w' ∧
      due.epoch.toInt ≤ w'.executed.toInt ∧ (r = .ok () ∨ S.AtRest w')) w

theorem asks_request {α : Type} {client : Side} {rpc : Rpc} {decode : Reply → Option α} :
    (request client rpc decode : Prog Side α).Asks :=
  (Program.asks_ask _).bind _

/-! ## Both managers -/

theorem works_buildCheckpoint {S : Setting} {w : Ledger} (within : S.Within w) (tipSet : Cid)
    (epoch : ChainEpoch) :
    Works S (buildCheckpoint S.ext S.task.child tipSet epoch)
      (fun cp w' => cp.data.epoch = epoch ∧ S.Later w w') w := by
  obtain ⟨id, isParent⟩ := S.parent
  refine Program.Will.bind (Q := fun _ w' => S.Later w w') ?_ fun template w₁ later₁ => ?_
  · refine (works_other (P := fun s => ∃ bytes template, S.ext.base64 s = some bytes ∧
      S.ext.cborCheckpoint bytes = some template) within (by simp) (by simp) ?_).bind ?_
    · rintro reply ⟨s, bytes, template, rfl, decoded⟩
      exact ⟨by simp, s, rfl, bytes, template, decoded⟩
    · rintro s w₁ ⟨⟨bytes, template, base64, cbor⟩, later⟩
      simp only [base64, cbor]
      exact Program.will_pure later
  · refine Program.Will.bind (Q := fun prev w' => (∀ m ∈ prev, ∃ c, cidOf S.ext m = some c) ∧
      S.Later w₁ w') ?_ ?_
    · simp only [ipcGetPrevCheckpointForChild, isParent]
      refine works_other later₁.within (by simp) (by simp) ?_
      rintro reply ⟨prev, rfl, cids⟩
      exact ⟨by simp, prev, rfl, cids⟩
    · rintro prev w₂ ⟨cids, later₂⟩
      have later := later₁.trans later₂
      cases prev with
      | none => exact Program.will_pure ⟨rfl, later⟩
      | some m =>
        obtain ⟨c, cid⟩ := cids m rfl
        simp only [cidTryFrom_eq cid, pure_bind]
        exact Program.will_pure ⟨rfl, later⟩

theorem keeps_bottomUp (S : Setting) (up : S.task.direction = .bottomUp) (parentId : SubnetID) :
    (bottomUp S.ext S.task.child parentId).Keeps S where
  asksObserve period := asks_request.bind _
  asksCatchUp period outer := asks_request.bind _
  readPeriod w within := by
    refine (works_chainHead within .parent).bind ?_
    rintro r w₁ ⟨c, cid, -, -, within, -⟩
    rw [tipSetCid_eq cid, pure_bind]
    refine (works_subnetActor within c).bind ?_
    rintro s w₂ ⟨later, -, -, reads⟩
    exact Program.will_pure ⟨(reads up).1, later.within⟩
  observe w within := by
    refine (works_chainHead within .child).bind ?_
    rintro head w₁ ⟨c, cid, one, epoch, within, -, height, -⟩
    have height := height (by simp [up, Direction.source])
    rw [epochTryFrom_eq epoch, pure_bind, tipSetCid_eq cid, pure_bind]
    refine (works_gateway within c).bind ?_
    rintro g w₂ ⟨later₂, initialized, -⟩
    refine (works_chainHead later₂.within .parent).bind ?_
    rintro head' w₃ ⟨c', cid', one', -, -, -, -, target⟩
    obtain ⟨later₃, known⟩ := target (by simp [up, Direction.target])
    rw [assertOneCid_eq (one' up), pure_bind, tipSetCid_eq cid', pure_bind]
    refine (works_subnetActor later₃.within c').bind ?_
    rintro s w₄ ⟨later₄, readable, electorate, reads⟩
    have lastExec := (reads up).2 _ known
    have same : w₃.head = head.height.toInt64 := by rw [later₃.head, later₂.head, height]
    simp only [initialized, lastExec, ← same, true_and]
    split
    · rename_i due
      rw [validatorSet_eq readable, pure_bind, assertOneCid_eq (one up), pure_bind, pure_bind]
      exact Program.will_pure
        ⟨later₄.within, (open_of_le later₃.within c due).later later₄, electorate⟩
    · rename_i early
      exact Program.will_pure
        ⟨later₄.within, later₄.caughtUp (caughtUp_of_not_le later₃.within early)⟩
  catchUp w outer within := by
    refine (works_chainHead within .child).bind ?_
    rintro head w₁ ⟨c, cid, -, epoch, within, grows, height, -⟩
    have height := height (by simp [up, Direction.source])
    rw [epochTryFrom_eq epoch, pure_bind]
    refine (works_chainHead within .parent).bind ?_
    rintro head' w₂ ⟨c', cid', -, -, -, -, -, target⟩
    obtain ⟨later₂, known⟩ := target (by simp [up, Direction.target])
    rw [tipSetCid_eq cid', pure_bind]
    refine (works_subnetActor later₂.within c').bind ?_
    rintro s w₃ ⟨later₃, -, -, reads⟩
    have lastExec := (reads up).2 _ known
    have same : w₂.head = head.height.toInt64 := by rw [later₂.head, height]
    have since := (grows.trans later₂.grows).le
    have grown := since.trans later₃.grows.le
    simp only [lastExec, ← same]
    split
    · rename_i due
      exact Program.will_pure
        ⟨later₃.within, grown, since, (open_of_le later₂.within outer due).later later₃⟩
    · rename_i early
      exact Program.will_pure
        ⟨later₃.within, grown, later₃.caughtUp (caughtUp_of_not_le later₂.within early)⟩
  submit w due account within isOpen voter := by
    refine (works_buildCheckpoint within due.seen due.epoch).attempt_bind ?_
    rintro cp w₁ ⟨epoch, later⟩
    rw [serialize_eq, pure_bind]
    refine (Program.will_tell (Q := fun _ w => w = w₁) rfl).attempt_bind ?_
    rintro _ _ rfl
    refine (works_push later.within (isOpen.later later) ?_ voter ?_).mono ?_
    · rw [up]
      exact ⟨rfl, rfl, rfl⟩
    · exact congrArg some epoch
    · rintro r w₂ ⟨later', executed⟩
      exact ⟨later.trans later', executed⟩

theorem works_readHeads {S : Setting} {w : Ledger} (down : S.task.direction = .topDown)
    (within : S.Within w) :
    Works S (readHeads S.ext) (fun heads w' => ∃ w₁, S.Within w₁ ∧ S.Grows w w₁ ∧ S.Later w₁ w' ∧
      heads.1 = w₁.head ∧ heads.2.2.initialized = true ∧
      heads.2.2.topDownCheckpointVoting.lastVotingExecuted = w₁.executed) w := by
  refine (works_chainHead within .parent).bind ?_
  rintro head w₁ ⟨c, cid, -, epoch, within, grows, height, -⟩
  have height := height (by simp [down, Direction.source])
  rw [epochTryFrom_eq epoch, pure_bind, tipSetCid_eq cid, pure_bind]
  refine (works_chainHead within .child).bind ?_
  rintro head' w₂ ⟨c', cid', -, -, -, -, -, target⟩
  obtain ⟨later₂, known⟩ := target (by simp [down, Direction.target])
  rw [tipSetCid_eq cid', pure_bind]
  refine (works_gateway later₂.within c').bind ?_
  rintro g w₃ ⟨later₃, initialized, reads⟩
  exact Program.will_pure ⟨w₂, later₂.within, grows.trans later₂.grows, later₃,
    by rw [later₂.head, height], initialized, (reads down).2 _ known⟩

theorem keeps_topDown (S : Setting) (down : S.task.direction = .topDown) (parentId : SubnetID) :
    (topDown S.ext S.task.child parentId).Keeps S where
  asksObserve period := (asks_request.bind _).bind _
  asksCatchUp period outer := (asks_request.bind _).bind _
  readPeriod w within := by
    refine (works_chainHead within .child).bind ?_
    rintro r w₁ ⟨c, cid, -, -, within, -⟩
    rw [tipSetCid_eq cid, pure_bind]
    refine (works_gateway within c).bind ?_
    rintro g w₂ ⟨later, -, reads⟩
    exact Program.will_pure ⟨(reads down).1, later.within⟩
  observe w within := by
    refine (works_readHeads down within).bind ?_
    rintro ⟨currEpoch, seen, g⟩ w₂ ⟨w₁, within, -, later, height, initialized, lastExec⟩
    dsimp only at height initialized lastExec
    simp only [initialized, lastExec, height, true_and]
    split
    · rename_i due
      refine (works_subnetActor later.within seen.parent).bind ?_
      rintro s w₃ ⟨later', readable, electorate, -⟩
      rw [validatorSet_eq readable, pure_bind]
      exact Program.will_pure ⟨later'.within,
        (open_of_le within seen due).later (later.trans later'), electorate⟩
    · rename_i early
      exact Program.will_pure ⟨later.within, later.caughtUp (caughtUp_of_not_le within early)⟩
  catchUp w outer within := by
    refine (works_readHeads down within).bind ?_
    rintro ⟨currEpoch, seen, g⟩ w₂ ⟨w₁, within, grows, later, height, -, lastExec⟩
    dsimp only at height lastExec
    have grown := grows.le.trans later.grows.le
    simp only [lastExec, height]
    split
    · rename_i due
      exact Program.will_pure
        ⟨later.within, grown, grows.le, (open_of_le within seen due).later later⟩
    · rename_i early
      exact Program.will_pure
        ⟨later.within, grown, later.caughtUp (caughtUp_of_not_le within early)⟩
  submit w due account within isOpen voter := by
    obtain ⟨gateway, isGateway⟩ := S.gateway
    have address : (ofExcept (S.ext.addressFromStr gatewayActorAddress) : Prog Side Address) =
        pure gateway := by rw [isGateway]; rfl
    refine (works_gateway within due.seen.child).attempt_bind ?_
    rintro g w₁ ⟨later₁, -, -⟩
    rw [address, pure_bind]
    refine (works_other (P := fun r => ∃ c, tipSetOf S.ext r = some c) later₁.within (by simp)
      (by simp) ?_).attempt_bind ?_
    · rintro reply ⟨r, c, rfl, cid⟩
      exact ⟨by simp, r, rfl, c, cid⟩
    rintro r w₂ ⟨⟨c, cid⟩, later₂⟩
    rw [tipSetCid_eq cid, pure_bind]
    refine Program.Will.attempt_bind (Q := fun _ w' => S.Later w₂ w') ?_ fun msgs w₃ later₃ => ?_
    · refine (works_other (P := fun l => ∃ msgs, l.mapM (decodeCrossMsg S.ext) = .ok msgs)
        later₂.within (by simp) (by simp) ?_).bind ?_
      · rintro reply ⟨l, msgs, rfl, decoded⟩
        exact ⟨by simp, l, rfl, msgs, decoded⟩
      · rintro l w₃ ⟨⟨msgs, decoded⟩, later₃⟩
        simp only [decoded]
        exact Program.will_pure later₃
    have later := (later₁.trans later₂).trans later₃
    rw [serialize_eq, pure_bind]
    refine (Program.will_tell (Q := fun _ w => w = w₃) rfl).attempt_bind ?_
    rintro _ _ rfl
    refine (works_push later.within (isOpen.later later) ?_ voter rfl).mono ?_
    · rw [down]
      exact ⟨rfl, isGateway, rfl⟩
    · rintro r w₄ ⟨later', executed⟩
      exact ⟨later.trans later', executed⟩

/-! ## The loops -/

section Loops

variable {σ : Type} {S : Setting} {s : Scheme σ} (keeps : s.Keeps S) {w : Ledger}
  {account : Address}

include keeps

theorem works_trySubmit {due : Due σ} (within : S.Within w) (isOpen : Open S due w)
    (voter : account ∈ S.voters) :
    Works S (trySubmit s due account) (fun success w' => S.Later w w' ∧
      due.epoch.toInt ≤ w'.executed.toInt ∧ (success = true ∨ S.AtRest w')) w := by
  refine (keeps.submit w due account within isOpen voter).bind ?_
  rintro r w₁ ⟨later, executed, submitted⟩
  cases r with
  | ok _ =>
    exact (Program.will_tell (Q := fun _ w => w = w₁) rfl).bind fun _ _ same =>
      Program.will_pure (same ▸ ⟨later, executed, .inl rfl⟩)
  | error e =>
    have atRest := submitted.resolve_left (by simp)
    exact (Program.will_tell (Q := fun _ w => w = w₁) rfl).bind fun _ _ same =>
      Program.will_pure (same ▸ ⟨later, executed, .inr atRest⟩)

omit keeps in
theorem works_waitOrExit (within : S.Within w) (atRest : S.AtRest w) :
    Works S waitOrExit (fun _ => S.Later w) w := by
  refine Program.Will.bind (Q := fun again w' => again = true ∧ S.Later w w') ?_ ?_
  · refine (Program.will_ask (Q := fun reply w' => S.Responds w .wait reply w') (fun _ => atRest)
      fun _ _ => id).bind fun reply w' responds => ?_
    obtain rfl : reply = .woken true := responds.readable (by simp)
    exact Program.will_pure ⟨rfl, responds.later within (by simp)⟩
  · rintro _ w' ⟨rfl, later⟩
    exact Program.will_pure later

/-- However many checkpoints are outstanding, the catch-up loop ends, and then none is, or others
are at it. -/
theorem works_catchUpLoop (within : S.Within w) (outer : σ) (voter : account ∈ S.voters) :
    Works S (catchUpLoop s S.period outer account)
      (fun _ w' => S.Within w' ∧ S.AtRest w' ∧ w.executed.toInt ≤ w'.executed.toInt) w := by
  -- Each round but the last executes an epoch, and there are only so many up to the limit.
  refine Program.will_loop ((keeps.asksCatchUp _ _).bind _)
    (fun w₁ => S.Within w₁ ∧ w.executed.toInt ≤ w₁.executed.toInt)
    (fun w => (S.limit - w.executed.toInt).toNat) ⟨within, Int.le_refl _⟩ ?_
  rintro w₁ ⟨within, since⟩
  refine (keeps.catchUp w₁ outer within).bind ?_
  rintro found w₂ ⟨within, grown, next⟩
  cases found with
  | none => exact Program.will_pure ⟨within, .inl next, by omega⟩
  | some late =>
    obtain ⟨lastExec, isOpen⟩ := next
    refine (Program.will_tell (Q := fun _ w => w = w₂) rfl).bind ?_
    rintro _ _ rfl
    refine (works_trySubmit keeps within isOpen voter).bind ?_
    rintro success w₃ ⟨later, executed, submitted⟩
    have le := later.grows.le
    cases success with
    | true =>
      have positive := S.positive
      have epoch := isOpen.epoch
      have reached := later.within.executed
      refine Program.will_pure ⟨⟨later.within, ?_⟩, ?_⟩ <;> omega
    | false =>
      have atRest := submitted.resolve_left (by simp)
      refine (works_waitOrExit later.within atRest).bind fun _ w₄ later' => ?_
      have le' := later'.grows.le
      exact Program.will_pure ⟨later'.within, later'.atRest atRest, by omega⟩

/-- Before the turn of the accounts in `left`: there is nothing to do, or one of them may. -/
structure Waiting (S : Setting) (due : Due σ) (validators left : List Address) (w : Ledger) :
    Prop where
  within : S.Within w
  isOpen : Open S due w
  voter : S.AtRest w ∨ ∃ a ∈ left, a ∈ validators

theorem works_vote {due : Due σ} {validators left : List Address}
    (electorate : Electorate S validators) (turn : Waiting S due validators (account :: left) w) :
    Works S (vote s S.period due validators account)
      (fun _ => Waiting S due validators left) w := by
  unfold vote
  split
  · rename_i member
    have voter := electorate.counted account member
    refine (works_trySubmit keeps turn.within turn.isOpen voter).bind ?_
    rintro success w₁ ⟨later, executed, submitted⟩
    cases success with
    | true =>
      refine (works_catchUpLoop keeps later.within due.seen voter).mono ?_
      rintro _ w₂ ⟨within, atRest, grown⟩
      exact ⟨within, ⟨turn.isOpen.epoch, .inr (by omega)⟩, .inl atRest⟩
    | false =>
      have atRest := submitted.resolve_left (by simp)
      refine (works_waitOrExit later.within atRest).mono fun _ w₂ later' => ?_
      exact ⟨later'.within, turn.isOpen.later (later.trans later'), .inl (later'.atRest atRest)⟩
  · rename_i other
    refine Program.will_pure ⟨turn.within, turn.isOpen, turn.voter.imp_right ?_⟩
    rintro ⟨a, mem, validator⟩
    obtain rfl | mem := List.mem_cons.mp mem
    · exact absurd validator other
    · exact ⟨a, mem, validator⟩

omit keeps in
theorem recurs_wait {n : Nat} {next : Bool → Prog Side Unit} (within : S.Within w)
    (atRest : S.AtRest w)
    (again : ∀ w', S.Within w' → (next true).Recurs S.Responds (· = .wait) S.AtRest n [] w') :
    ((do waitOrExit; pure true) >>= next).Recurs S.Responds (· = .wait) S.AtRest (n + 1) []
      w := by
  simp only [waitOrExit, waitNextIteration, bind_assoc]
  refine Program.recurs_ask rfl atRest fun reply w' responds => ?_
  obtain rfl : reply = .woken true := responds.readable (by simp)
  simpa using again w' (responds.within within)

/-- An iteration comes to its wait with nothing left to do. -/
theorem recurs_iteration {n : Nat} {next : Bool → Prog Side Unit} (within : S.Within w)
    (again : ∀ w', S.Within w' → (next true).Recurs S.Responds (· = .wait) S.AtRest n [] w') :
    (iteration s S.task.child.accounts S.period >>= next).Recurs S.Responds (· = .wait) S.AtRest
      (n + 1) [] w := by
  unfold iteration
  rw [bind_assoc]
  refine (keeps.observe w within).recurs ?_
  rintro found w₁ ⟨within, next⟩
  cases found with
  | none => exact recurs_wait within (.inl next) again
  | some found =>
    obtain ⟨isOpen, electorate⟩ := next
    have votes : Works S (S.task.child.accounts.forM (vote s S.period found.1 found.2))
        (fun _ => Waiting S found.1 found.2 []) w₁ :=
      Program.will_forM (Waiting S found.1 found.2) _ ⟨within, isOpen, .inr electorate.own⟩
        fun _ _ _ => works_vote keeps electorate
    simp only [bind_assoc]
    refine (Program.will_tell (Q := fun _ w => w = w₁) rfl).recurs ?_
    rintro _ _ rfl
    refine votes.recurs fun _ w₂ turn => ?_
    have atRest : S.AtRest w₂ := turn.voter.resolve_right (by simp)
    simpa only [bind_assoc] using recurs_wait turn.within atRest again

/-- The whole manager. -/
theorem recurs_manage (within : S.Within w) (n : Nat) :
    (manage s S.task.child.accounts).Recurs S.Responds (· = .wait) S.AtRest n [] w := by
  refine (keeps.readPeriod w within).recurs ?_
  rintro period w₁ ⟨rfl, within⟩
  induction n generalizing w₁ with
  | zero => exact .enough
  | succ n ih =>
    have asks : (iteration s S.task.child.accounts S.period).Asks := (keeps.asksObserve _).bind _
    rw [Program.loop_eq asks]
    exact recurs_iteration keeps within fun w' within => by simpa using ih w' within

end Loops

/-- A top-down manager with both validators of a child. -/
def twoValidators : Setting where
  ext := .plain
  task := ⟨.topDown, ⟨⟨"/root/t01"⟩, [⟨[97]⟩, ⟨[98]⟩]⟩, ⟨⟨"/root"⟩, []⟩⟩
  period := 10
  voters := [⟨[97]⟩, ⟨[98]⟩]
  limit := 1000
  positive := by decide
  fits := by decide
  parent := ⟨⟨"/root"⟩, by decide⟩
  gateway := ⟨_, rfl⟩
  serializes _ := rfl

/-- The parent stays at height 25, so that only votes up to there are in the books. -/
structure Slow (w : Ledger) : Prop where
  executed : w.executed.toInt ≤ 35
  head : w.head.toInt ≤ 25
  sent : ∀ x ∈ w.sent, x.2.toInt ≤ 25

theorem Slow.within {w : Ledger} (slow : Slow w) : twoValidators.Within w := by
  have executed := slow.executed
  have head := slow.head
  have limit : twoValidators.limit = 1000 := rfl
  exact ⟨by omega, by omega⟩

/-- Where the call has nothing to do with what is known of the chains. -/
theorem twoValidators_responds_other {w : Ledger} {c : Call Side} {reply : Reply}
    (readable : Readable .plain .topDown c reply)
    (other : ∀ side, c ≠ .rpc side .chainHead ∧
      (∀ tipSet, c ≠ .rpc side (.ipcReadGatewayState tipSet)) ∧
      (∀ subnet tipSet, c ≠ .rpc side (.ipcReadSubnetActorState subnet tipSet)) ∧
      (∀ message, c ≠ .rpc side (.mpoolPushMessage message)) ∧
      ∀ cid, c ≠ .rpc side (.stateWaitMsg cid)) :
    twoValidators.Responds w c reply w := by
  have height : heightRead .parent (.exchange c reply) = none := by
    unfold heightRead
    split <;> simp_all
  have tipSet : tipSetRead .plain .child (.exchange c reply) = none := by
    unfold tipSetRead
    split <;> simp_all
  have gateway : gatewayRead (.exchange c reply) = none := by
    unfold gatewayRead
    split <;> simp_all
  have actor : subnetActorRead ⟨"/root/t01"⟩ (.exchange c reply) = none := by
    unfold subnetActorRead
    split <;> simp_all
  exact
    { answers := .inl readable
      within := id
      grows := .inl rfl
      head := by simp [twoValidators, Direction.source, height]
      asOf := by simp [twoValidators, Direction.target, tipSet]
      overtaken := by
        unfold Setting.overtakenAfter
        split <;> simp_all
      period := by simp [twoValidators, Direction.periodRead, gateway]
      lastExec := by simp [twoValidators, Direction.lastExecRead, gateway]
      validators := by simp [twoValidators, actor]
      sent := fun side message _ _ _ same => absurd same ((other side).2.2.2.1 message)
      counted := fun cid _ same => absurd same ((other _).2.2.2.2 cid) }

/-- The child always reports the same tipset, with the state that it has by then. -/
theorem twoValidators_chainHead {w : Ledger} (slow : Slow w) (side : Side) :
    ∃ reply w', Slow w' ∧ twoValidators.Responds w (.rpc side .chainHead) reply w' := by
  have epoch : IsEpoch 25 := by decide
  have height : (25 : UInt64).toInt64.toInt ≤ 25 := by decide
  let head : ChainHeadResponse := ⟨[⟨some "c"⟩], 25⟩
  have tipSet : tipSetOf .plain head = some ⟨[99]⟩ := by decide
  let w' : Ledger :=
    if side = .parent then { w with head := (25 : UInt64).toInt64, overtaken := false }
    else { w with asOf := Function.update w.asOf ⟨[99]⟩ (some w.executed) }
  have slow' : Slow w' := by
    cases side with
    | parent => exact ⟨slow.executed, height, slow.sent⟩
    | child => exact ⟨slow.executed, slow.head, slow.sent⟩
  refine ⟨.tipSet head, w', slow', ?_⟩
  exact
    { answers := .inl ⟨head, _, rfl, tipSet, epoch, by simp [twoValidators]⟩
      within := fun _ => slow'.within
      grows := .inl (by cases side <;> rfl)
      head := by cases side <;> simp [w', twoValidators, Direction.source, heightRead, head, epoch]
      asOf := by
        cases side <;> simp [w', twoValidators, Direction.target, tipSetRead, tipSet]
      overtaken := by
        cases side <;> simp [w', twoValidators, Direction.source, Setting.overtakenAfter]
      period := by simp [twoValidators, Direction.periodRead, gatewayRead]
      lastExec := by simp [twoValidators, Direction.lastExecRead, gatewayRead]
      validators := by simp [twoValidators, subnetActorRead]
      sent := by simp
      counted := by simp }

theorem twoValidators_gateway {w : Ledger} (side : Side) (tipSet : Cid) :
    ∃ reply, twoValidators.Responds w (.rpc side (.ipcReadGatewayState tipSet)) reply w := by
  let state : IPCReadGatewayStateResponse := ⟨10, 0, ⟨(w.asOf tipSet).getD 0⟩, true⟩
  have read : ∀ g ∈ gatewayRead (.exchange (.rpc side (.ipcReadGatewayState tipSet))
      (.gatewayState state)), g = state := by
    cases side <;> simp [gatewayRead]
  refine ⟨.gatewayState state, ?_⟩
  exact
    { answers := .inl ⟨state, rfl, rfl⟩
      within := id
      grows := .inl rfl
      head := by simp [heightRead]
      asOf := by simp [tipSetRead]
      overtaken := rfl
      period := by
        intro p mem
        obtain ⟨g, isRead, rfl⟩ := Option.map_eq_some_iff.mp mem
        rw [read g isRead]
        rfl
      lastExec := by
        intro n mem _ same known isKnown
        obtain ⟨g, isRead, rfl⟩ := Option.map_eq_some_iff.mp mem
        cases same
        rw [read g isRead]
        simp [state, Option.mem_def.mp isKnown]
      validators := by simp [subnetActorRead]
      sent := by simp
      counted := by simp }

theorem twoValidators_subnetActor {w : Ledger} (side : Side) (subnet : SubnetID) (tipSet : Cid) :
    ∃ reply, twoValidators.Responds w (.rpc side (.ipcReadSubnetActorState subnet tipSet)) reply
      w := by
  let state : IPCReadSubnetActorStateResponse := ⟨10, some [⟨"a"⟩, ⟨"b"⟩], ⟨0⟩⟩
  have read : ∀ s ∈ subnetActorRead ⟨"/root/t01"⟩ (.exchange
      (.rpc side (.ipcReadSubnetActorState subnet tipSet)) (.subnetActorState state)),
      s = state := by
    intro s mem
    cases side with
    | child => simp [subnetActorRead] at mem
    | parent =>
      simp only [subnetActorRead, Option.mem_ite_none_right] at mem
      exact (Option.some.inj mem.2).symm
  refine ⟨.subnetActorState state, ?_⟩
  exact
    { answers := .inl ⟨state, rfl, fun _ _ => ⟨_, rfl⟩⟩
      within := id
      grows := .inl rfl
      head := by simp [heightRead]
      asOf := by simp [tipSetRead]
      overtaken := rfl
      period := by simp [twoValidators, Direction.periodRead, gatewayRead]
      lastExec := by simp [twoValidators, Direction.lastExecRead, gatewayRead]
      validators := by
        intro isRead
        obtain ⟨s, isRead⟩ := Option.isSome_iff_exists.mp isRead
        have both : validatorsRead twoValidators.ext twoValidators.task.child.id (.exchange
            (.rpc side (.ipcReadSubnetActorState subnet tipSet)) (.subnetActorState state)) =
            [⟨[97]⟩, ⟨[98]⟩] := by
          rw [validatorsRead, isRead, read s isRead]
          decide
        rw [both]
        exact ⟨fun _ => id, ⟨[97]⟩, by simp [twoValidators], by simp⟩
      sent := by simp
      counted := by simp }

/-- A vote that comes too late is refused. -/
theorem twoValidators_refuses {w : Ledger} (slow : Slow w) (side : Side)
    {message : MpoolPushMessage} {epoch : ChainEpoch}
    (isEpoch : checkpointEpoch message.params = some epoch)
    (executed : epoch.toInt ≤ w.executed.toInt) : ∃ reply w', Slow w' ∧
      twoValidators.Responds w (.rpc side (.mpoolPushMessage message)) reply w' := by
  refine ⟨.error "", { w with overtaken := w.overtaken || !decide (twoValidators.CaughtUp w) },
    ⟨slow.executed, slow.head, slow.sent⟩, ?_⟩
  exact
    { answers := .inr ⟨side, message, epoch, _, rfl, rfl, isEpoch, executed⟩
      within := fun within => ⟨within.executed, within.head⟩
      grows := .inl rfl
      head := by simp [heightRead]
      asOf := by simp [tipSetRead]
      overtaken := rfl
      period := by simp [twoValidators, Direction.periodRead, gatewayRead]
      lastExec := by simp [twoValidators, Direction.lastExecRead, gatewayRead]
      validators := by simp [subnetActorRead]
      sent := by simp
      counted := by simp }

/-- Any other message is taken, and a vote up to the height of the parent goes into the books. -/
theorem twoValidators_takes {w : Ledger} (slow : Slow w) (side : Side)
    (message : MpoolPushMessage) : ∃ reply w', Slow w' ∧
      twoValidators.Responds w (.rpc side (.mpoolPushMessage message)) reply w' := by
  let reached := (checkpointEpoch message.params).toList.filter
    fun epoch => epoch.toInt ≤ w.head.toInt
  refine ⟨.pushed ⟨some "m"⟩, { w with sent := reached.map (⟨[109]⟩, ·) ++ w.sent },
    ⟨slow.executed, slow.head, fun x mem => ?_⟩, ?_⟩
  · rcases List.mem_append.mp mem with new | old
    · obtain ⟨epoch, isReached, rfl⟩ := List.mem_map.mp new
      exact Int.le_trans (of_decide_eq_true (List.mem_filter.mp isReached).2) slow.head
    · exact slow.sent x old
  · exact
      { answers := .inl ⟨_, _, rfl, rfl⟩
        within := fun within => ⟨within.executed, within.head⟩
        grows := .inl rfl
        head := by simp [heightRead]
        asOf := by simp [tipSetRead]
        overtaken := rfl
        period := by simp [twoValidators, Direction.periodRead, gatewayRead]
        lastExec := by simp [twoValidators, Direction.lastExecRead, gatewayRead]
        validators := by simp [subnetActorRead]
        sent := by
          intro _ _ epoch m cid same pushed isCid _ _ isEpoch isReached
          cases same
          cases pushed
          cases isCid
          exact List.mem_append_left _ (List.mem_map.mpr
            ⟨epoch, List.mem_filter.mpr ⟨by simp [isEpoch], decide_eq_true isReached⟩, rfl⟩)
        counted := by simp }

/-- A vote for the next epoch executes it when it is on the chain. -/
theorem twoValidators_wait {w : Ledger} (slow : Slow w) (side : Side) (cid : Cid) :
    ∃ reply w', Slow w' ∧ twoValidators.Responds w (.rpc side (.stateWaitMsg cid)) reply w' := by
  have fits : (w.executed + 10).toInt = w.executed.toInt + 10 :=
    toInt_add_period (S := twoValidators) slow.within.executed
  have response : ∀ executed, executed.toInt ≤ 35 →
      (executed = w.executed ∨ w.executed.toInt + 10 ≤ executed.toInt) →
      (∀ epoch, (cid, epoch) ∈ w.sent → epoch.toInt ≤ w.executed.toInt + 10 →
        epoch.toInt ≤ executed.toInt) →
      ∃ reply w', Slow w' ∧
        twoValidators.Responds w (.rpc side (.stateWaitMsg cid)) reply w' := by
    intro executed bound grows counted
    have slow' : Slow { w with executed := executed } := ⟨bound, slow.head, slow.sent⟩
    refine ⟨.waited ⟨0, none⟩, _, slow', ?_⟩
    exact
      { answers := .inl ⟨_, rfl⟩
        within := fun _ => slow'.within
        grows := grows
        head := by simp [heightRead]
        asOf := by simp [tipSetRead]
        overtaken := rfl
        period := by simp [twoValidators, Direction.periodRead, gatewayRead]
        lastExec := by simp [twoValidators, Direction.lastExecRead, gatewayRead]
        validators := by simp [subnetActorRead]
        sent := by simp
        counted := by
          intro cid' epoch same booked next
          cases same
          exact counted epoch booked next }
  by_cases next : ∃ epoch, (cid, epoch) ∈ w.sent ∧ w.executed.toInt < epoch.toInt
  · obtain ⟨epoch, booked, ahead⟩ := next
    have early := slow.sent _ booked
    dsimp only at early
    exact response (w.executed + 10) (by omega) (.inr (by omega)) fun epoch' _ next => by omega
  · refine response w.executed slow.executed (.inl rfl) fun epoch booked _ => ?_
    exact Int.not_lt.mp fun ahead => next ⟨epoch, booked, ahead⟩

theorem twoValidators_responds {w : Ledger} (slow : Slow w) (c : Call Side) :
    ∃ reply w', Slow w' ∧ twoValidators.Responds w c reply w' := by
  cases c with
  | wait => exact ⟨.woken true, w, slow, twoValidators_responds_other rfl (by simp)⟩
  | rpc side rpc =>
    cases rpc with
    | chainHead => exact twoValidators_chainHead slow side
    | ipcReadGatewayState tipSet =>
      obtain ⟨reply, responds⟩ := twoValidators_gateway (w := w) side tipSet
      exact ⟨reply, w, slow, responds⟩
    | ipcReadSubnetActorState subnet tipSet =>
      obtain ⟨reply, responds⟩ := twoValidators_subnetActor (w := w) side subnet tipSet
      exact ⟨reply, w, slow, responds⟩
    | mpoolPushMessage message =>
      by_cases stale : ∃ epoch, checkpointEpoch message.params = some epoch ∧
          epoch.toInt ≤ w.executed.toInt
      · obtain ⟨epoch, isEpoch, executed⟩ := stale
        exact twoValidators_refuses slow side isEpoch executed
      · exact twoValidators_takes slow side message
    | stateWaitMsg cid => exact twoValidators_wait slow side cid
    | getTipsetByHeight epoch tipSet =>
      exact ⟨.tipSet ⟨[⟨some "c"⟩], 25⟩, w, slow,
        twoValidators_responds_other ⟨_, _, rfl, rfl⟩ (by simp)⟩
    | ipcGetCheckpointTemplate epoch =>
      exact ⟨.text "t", w, slow, twoValidators_responds_other ⟨_, _, _, rfl, rfl, rfl⟩ (by simp)⟩
    | ipcGetPrevCheckpointForChild child =>
      exact ⟨.cid none, w, slow, twoValidators_responds_other ⟨_, rfl, by simp⟩ (by simp)⟩
    | ipcGetTopdownMsgs subnet gateway tipSet nonce =>
      exact ⟨.texts [], w, slow, twoValidators_responds_other ⟨_, _, rfl, rfl⟩ (by simp)⟩
    | _ => exact ⟨.error "", w, slow, twoValidators_responds_other trivial (by simp)⟩

end IpcAgent.Manager
