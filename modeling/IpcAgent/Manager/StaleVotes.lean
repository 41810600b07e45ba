import IpcAgent.Manager.BottomUpAgreement
import IpcAgent.Manager.Votes

/-!
# Votes for executed epochs

An iteration computes the epoch to vote for once, and then serves its accounts one after the
other. If the vote of one account makes the chain execute the epoch, the accounts after it still
vote for the same epoch. This does not happen as long as nobody is left to vote when the chain
executes an epoch, as with a single validator among the accounts.
-/

namespace IpcAgent.Manager
open Library Lotus

/-! ## The last executed epoch -/

/-- The chain holds `held h` as its last executed epoch when `h` has happened. What is read of it
is true, and it advances only while a submission of the manager is pushed and waited for. -/
def Holding (d : Direction) (child : SubnetID) (held : Trace Side → ChainEpoch)
    (before : Trace Side) (e : Event (Call Side) Reply Mark) : Prop :=
  (d.lastExecRead child e).getD (held before) = held before ∧
    (commits e = false → held (before ++ [e]) = held before) ∧ held before ≤ held (before ++ [e])

instance (d : Direction) (child : SubnetID) (held : Trace Side → ChainEpoch)
    (before : Trace Side) (e : Event (Call Side) Reply Mark) :
    Decidable (Holding d child held before e) := inferInstanceAs (Decidable (_ ∧ _ ∧ _))

/-- Every vote was for an epoch that the chain had not executed. -/
def Current (held : Trace Side → ChainEpoch) : Trace Side → Prop :=
  Submissions fun before _ epoch => held before < epoch

/-- The account a submission is made with. -/
def submitter : Event (Call Side) Reply Mark → Option Address
  | .mark (.submits account _) => some account
  | _ => none

/-- None of the accounts after this one is a validator, as far as was read. -/
def LastVoter (ext : Ext) (child : Subnet) (account : Address) (h : Trace Side) : Prop :=
  ∀ l₁ l₂, child.accounts = l₁ ++ account :: l₂ →
    ∀ a ∈ l₂, ∀ e ∈ h, a ∉ validatorsRead ext child.id e

/-- The epoch that is due comes after the last executed one. -/
def dueAhead : Event (Call Side) Reply Mark → Bool
  | .mark (.due l p) => l < l + p
  | _ => true

/-- What is asked of a run, entry by entry. -/
structure Orderly (ext : Ext) (d : Direction) (child : Subnet) (held : Trace Side → ChainEpoch)
    (before : Trace Side) (e : Event (Call Side) Reply Mark) : Prop where
  holding : Holding d child.id held before e
  ahead : dueAhead e
  last : held (before ++ [e]) ≠ held before →
    ∀ account ∈ latest submitter before, LastVoter ext child account before

section Held

variable {ext : Ext} {d : Direction} {child : Subnet} {held : Trace Side → ChainEpoch}
  {h ev sent : Trace Side} {account : Address}

theorem held_append (orderly : EachAfter (Orderly ext d child held) (h ++ ev))
    (passive : ∀ e ∈ ev, Passive e) : held (h ++ ev) = held h := by
  induction ev using List.reverseRecOn with
  | nil => simp
  | append_singleton ev e ih =>
    rw [← List.append_assoc] at orderly ⊢
    obtain ⟨earlier, last⟩ := eachAfter_snoc_iff.mp orderly
    rw [last.holding.2.1 (passive e (by simp)).1]
    exact ih earlier fun e he => passive e (List.mem_append_left _ he)

/-- What was read is still true as long as nothing is submitted. -/
theorem held_of_read {e : Event (Call Side) Reply Mark} {l : ChainEpoch}
    (orderly : EachAfter (Orderly ext d child held) (h ++ ev))
    (passive : ∀ e ∈ ev, Passive e) (mem : e ∈ ev)
    (read : d.lastExecRead child.id e = some l) : held (h ++ ev) = l := by
  obtain ⟨before, after, rfl⟩ := List.append_of_mem mem
  have true_before : l = held (h ++ before) := by
    simpa [read] using (orderly (h ++ before) e after (by simp)).holding.1
  have whole : EachAfter (Orderly ext d child held) (h ++ before ++ e :: after) := by
    simpa using orderly
  rw [held_append orderly passive, true_before]
  exact (held_append whole.of_append fun e he => passive e (List.mem_append_left _ he)).symm

theorem LastVoter.of_append (last : LastVoter ext child account (h ++ ev)) :
    LastVoter ext child account h :=
  fun l₁ l₂ split a ha e he => last l₁ l₂ split a ha e (List.mem_append_left _ he)

/-- While a message is pushed and waited for, the epoch stays, unless nobody is left to vote. -/
theorem held_sent (orderly : EachAfter (Orderly ext d child held) (h ++ sent))
    (submits : latest submitter h = some account) (sends : ∀ e ∈ sent, commits e) :
    held (h ++ sent) = held h ∨ LastVoter ext child account h := by
  induction sent using List.reverseRecOn with
  | nil => simp
  | append_singleton sent e ih =>
    rw [← List.append_assoc] at orderly ⊢
    obtain ⟨earlier, last⟩ := eachAfter_snoc_iff.mp orderly
    have sends' : ∀ e ∈ sent, commits e := fun e he => sends e (List.mem_append_left _ he)
    have still : latest submitter (h ++ sent) = some account := by
      rw [latest_append fun e he => ?_, submits]
      cases e with
      | exchange call reply => rfl
      | mark m => exact absurd (sends' _ he) (by simp [commits])
    by_cases advanced : held (h ++ sent ++ [e]) = held (h ++ sent)
    · rw [advanced]
      exact ih earlier sends'
    · exact .inr (last.last advanced account still).of_append

end Held

/-! ## The run of a manager -/

section Rounds

variable {σ : Type} {s : Scheme σ} {ext : Ext} {d : Direction} {child : Subnet}
  {held : Trace Side → ChainEpoch} {found : Due σ × List Address} {due : Due σ}
  {account : Address} {left : List Address} {h ev : Trace Side}

/-- While it is the turn of the accounts in `left`: either what was found due still is, or none of
them has a vote. -/
structure Turn (ext : Ext) (child : Subnet) (held : Trace Side → ChainEpoch)
    (found : Due σ × List Address) (left : List Address) (h : Trace Side) : Prop where
  all : Current held h
  due : held h = found.1.lastExec ∨ ∀ a ∈ left, a ∉ found.2
  ahead : found.1.lastExec < found.1.epoch
  listed : ∀ a ∈ found.2, ∃ e ∈ h, a ∈ validatorsRead ext child.id e

/-- The same, if the run is as expected up to here. -/
def TurnOf (ext : Ext) (d : Direction) (child : Subnet) (held : Trace Side → ChainEpoch)
    (found : Due σ × List Address) (left : List Address) (h : Trace Side) : Prop :=
  EachAfter (Orderly ext d child held) h → Turn ext child held found left h

/-- Every vote was current, if the run is as expected up to here. -/
def CurrentOf (ext : Ext) (d : Direction) (child : Subnet) (held : Trace Side → ChainEpoch)
    (h : Trace Side) : Prop :=
  EachAfter (Orderly ext d child held) h → Current held h

theorem CurrentOf.append (all : CurrentOf ext d child held h) (passive : ∀ e ∈ ev, Passive e) :
    CurrentOf ext d child held (h ++ ev) :=
  fun orderly => Submissions.passive (all orderly.of_append) passive

theorem TurnOf.append (turn : TurnOf ext d child held found left h)
    (passive : ∀ e ∈ ev, Passive e) : TurnOf ext d child held found left (h ++ ev) := by
  intro orderly
  obtain ⟨all, due, ahead, listed⟩ := turn orderly.of_append
  refine ⟨Submissions.passive all passive, ?_, ahead, fun a ha => ?_⟩
  · rwa [held_append orderly passive]
  · obtain ⟨e, mem, member⟩ := listed a ha
    exact ⟨e, List.mem_append_left _ mem, member⟩

/-- What has just been read and found due is held, and the epoch to vote for lies ahead of it. -/
theorem Found.fresh {period : ChainEpoch} (reads : Found d child.id period due ev)
    (passive : ∀ e ∈ ev, Passive e) (orderly : EachAfter (Orderly ext d child held)
      (h ++ ev ++ [.mark (.due due.lastExec due.period)])) :
    held (h ++ ev ++ [.mark (.due due.lastExec due.period)]) = due.lastExec ∧
      due.lastExec < due.epoch := by
  obtain ⟨earlier, marked⟩ := eachAfter_snoc_iff.mp orderly
  obtain ⟨e, mem, read⟩ := reads.lastExec
  refine ⟨?_, of_decide_eq_true marked.ahead⟩
  rw [marked.holding.2.1 rfl]
  exact held_of_read earlier passive mem read

theorem TurnOf.skip (turn : TurnOf ext d child held found (account :: left) h) :
    TurnOf ext d child held found left h := by
  intro orderly
  obtain ⟨all, due, ahead, listed⟩ := turn orderly
  exact ⟨all, due.imp_right fun none a ha => none a (List.mem_cons_of_mem _ ha), ahead, listed⟩

/-- A vote that is made when nothing has changed since the epoch was found due. -/
theorem TurnOf.trySubmit (informed : s.Informed ext d child.id)
    (turn : TurnOf ext d child held found left h) (suffix : account :: left <:+ child.accounts)
    (fresh : EachAfter (Orderly ext d child held) h → held h = due.lastExec ∧
      due.lastExec < due.epoch) :
    (trySubmit s due account).wp (fun _ => TurnOf ext d child held found left)
      (fun _ => CurrentOf ext d child held) h := by
  refine wp_trySubmit_of_pushes (informed.submit due account) (fun ev => turn.append)
    (fun ev params sent passive epoch sends orderly => ?_)
    (fun h ok turn => turn.append (by simpa using passive_submitted account due.epoch ok))
    fun h turn orderly => (turn orderly).all
  have marked : EachAfter (Orderly ext d child held)
      (h ++ ev ++ [.mark (.submits account params)]) := orderly.of_append
  have built := turn.append passive marked.of_append
  obtain ⟨start, less⟩ := fresh marked.of_append.of_append
  have before : held (h ++ ev) = held h := held_append marked.of_append passive
  have current : Current held (h ++ ev ++ [.mark (.submits account params)]) :=
    Submissions.submits built.all epoch (by rw [before, start]; exact less)
  have at_mark : held (h ++ ev ++ [.mark (.submits account params)]) = held (h ++ ev) :=
    (eachAfter_snoc_iff.mp marked).2.holding.2.1 rfl
  have submits :
      latest submitter (h ++ ev ++ [.mark (.submits account params)]) = some account := by
    rw [latest_snoc]
    rfl
  refine ⟨Submissions.append current fun e he => ne_submits_of_commits (sends e he), ?_,
    built.ahead, fun a ha => ?_⟩
  · rcases held_sent orderly submits sends with same | last
    · rw [same, at_mark]
      exact built.due
    · -- The chain has executed the epoch, and nobody is left.
      obtain ⟨l₁, split⟩ := suffix
      refine .inr fun a ha validator => ?_
      obtain ⟨e, mem, member⟩ := built.listed a validator
      exact last l₁ left split.symm a ha e (List.mem_append_left _ mem) member
  · obtain ⟨e, mem, member⟩ := built.listed a ha
    exact ⟨e, List.mem_append_left _ (List.mem_append_left _ mem), member⟩

theorem rounds_current (informed : s.Informed ext d child.id) (period : ChainEpoch) :
    Rounds s child.accounts period (CurrentOf ext d child held)
      (fun found left h => left <:+ child.accounts ∧ TurnOf ext d child held found left h)
      (fun found account left h => account :: left <:+ child.accounts ∧
        TurnOf ext d child held found left h)
      (fun _ => CurrentOf ext d child held) where
  observe h all := by
    refine (informed.observe period).wp (fun found ev shown passive => ?_)
      fun _ ev => all.append
    cases found with
    | none => exact all.append passive
    | some f =>
      refine ⟨List.suffix_rfl, fun orderly => ?_⟩
      obtain ⟨reads, opened⟩ := shown f rfl
      obtain ⟨due, ahead⟩ := reads.fresh passive orderly
      refine ⟨?_, .inl due, ahead, fun a ha => ?_⟩
      · exact (all.append passive).append (by simpa using passive_due _ _) orderly
      · obtain ⟨e, mem, member⟩ := opened.validators a ha
        exact ⟨e, by simp [mem], member⟩
  skip found account left h := by
    rintro ⟨suffix, turn⟩
    exact ⟨(List.suffix_cons account left).trans suffix, turn.skip⟩
  submit found account left h validator := by
    rintro ⟨suffix, turn⟩
    refine Program.wp_mono (turn.skip.trySubmit informed suffix fun orderly => ?_)
      (fun _ _ turn => ⟨suffix, turn⟩) fun _ _ => id
    -- The account has a vote, so what was found due still is.
    obtain ⟨-, due, ahead, -⟩ := turn orderly
    exact ⟨due.resolve_right fun none => none account List.mem_cons_self validator, ahead⟩
  catchUp found account left h := by
    rintro ⟨suffix, turn⟩
    refine (informed.catchUp period found.1.seen).wp (fun late ev shown passive => ?_)
      fun _ ev passive orderly => (turn.append passive orderly).all
    cases late with
    | none => exact ⟨suffix, turn.append passive⟩
    | some late =>
      have marked : TurnOf ext d child held found left
          (h ++ ev ++ [.mark (.due late.lastExec late.period)]) :=
        (turn.append passive).append (by simpa using passive_due _ _)
      exact Program.wp_mono (marked.trySubmit informed suffix ((shown late rfl).fresh passive))
        (fun _ _ turn => ⟨suffix, turn⟩) fun _ _ => id
  voted found account left h := by
    rintro ⟨suffix, turn⟩
    exact ⟨(List.suffix_cons account left).trans suffix, turn⟩
  done found h := by
    rintro ⟨-, turn⟩ orderly
    exact (turn orderly).all
  wait h all := passive_waitOrExit.wp (fun _ ev _ => all.append) fun _ ev => all.append
  retry found account left h := by
    rintro ⟨suffix, turn⟩
    exact passive_waitOrExit.wp (fun _ ev _ passive => ⟨suffix, turn.append passive⟩)
      fun _ ev passive orderly => (turn.append passive orderly).all
  spinVote found account left h := by
    rintro ⟨-, turn⟩ orderly
    exact (turn orderly).all

theorem current_manage (informed : s.Informed ext d child.id) (as : List Reply)
    (orderly : EachAfter (Orderly ext d child held) ((manage s child.accounts).run as).trace) :
    Current held ((manage s child.accounts).run as).trace := by
  have start : CurrentOf ext d child held [] := fun _ => eachAfter_nil
  have reads : s.readPeriod.wp (fun _ => CurrentOf ext d child held)
      (fun _ => CurrentOf ext d child held) [] :=
    informed.readPeriod.wp (fun _ ev _ => start.append) fun _ ev => start.append
  exact Program.wp_trace (h := []) (wp_manage reads (rounds_current informed) fun _ => id) as
    orderly

end Rounds

/-! ## Both managers -/

/-- If whoever makes the chain execute an epoch is the last of the accounts with a vote, then no
vote is for an executed epoch. -/
theorem current_of_last_voter (ext : Ext) (t : Task) (as : List Reply)
    (held : Trace Side → ChainEpoch)
    (holding : EachAfter (Holding t.direction t.child.id held) ((t.program ext).run as).trace)
    (ahead : ∀ e ∈ ((t.program ext).run as).trace, dueAhead e)
    (last : EachAfter (fun before e => held (before ++ [e]) ≠ held before →
      ∀ account ∈ latest submitter before, LastVoter ext t.child account before)
      ((t.program ext).run as).trace) :
    Current held ((t.program ext).run as).trace := by
  have orderly : EachAfter (Orderly ext t.direction t.child held)
      ((t.program ext).run as).trace := by
    intro before e after split
    exact ⟨holding before e after split, ahead e (by simp [split]), last before e after split⟩
  obtain ⟨direction, child, parent⟩ := t
  cases direction with
  | bottomUp => exact current_manage (informed_bottomUp ext child parent.id) as orderly
  | topDown => exact current_manage (informed_topDown ext child parent.id) as orderly

/-- The chain executes epoch 10 with the first message that is pushed. -/
def executesTen (h : Trace Side) : ChainEpoch := if h.any commits then 10 else 0

theorem lastVoter_of_single {ext : Ext} {id : SubnetID} {a account : Address} {h : Trace Side} :
    LastVoter ext ⟨id, [a]⟩ account h := by
  intro l₁ l₂ split
  cases l₁ with
  | nil => simp_all
  | cons b l₁ => simp at split

theorem current_of_last_voter_single :
    Current executesTen ((oneVoter.program .plain).run
      (untilFirstVote ++ submission ++ catchUpReads 10)).trace :=
  current_of_last_voter .plain oneVoter _ executesTen (by decide +kernel) (by decide +kernel)
    fun _ _ _ _ _ _ _ => lastVoter_of_single

/-- A bottom-up manager with two accounts, both of them validators. -/
def twoVoters : Task := ⟨.bottomUp, ⟨⟨"/root/t01"⟩, [⟨[97]⟩, ⟨[98]⟩]⟩, ⟨⟨"/root"⟩, []⟩⟩

/-- The child is at height 10 and the period is 10. The first account votes for epoch 10, and the
catch-up loop finds that executed; then the second account votes. -/
def untilSecondVote : List Reply :=
  let actor (lastExec : ChainEpoch) : Reply :=
    .subnetActorState ⟨10, some [⟨"a"⟩, ⟨"b"⟩], ⟨lastExec⟩⟩
  let child : Reply := .tipSet ⟨[⟨some "c"⟩], 10⟩
  let parent : Reply := .tipSet ⟨[⟨some "p"⟩], 5⟩
  [parent, actor 0, child, .gatewayState ⟨10, 0, ⟨0⟩, true⟩, parent, actor 0] ++ submission ++
    [child, parent, actor 10, .text "t", .cid none]

/-- The second account votes for the epoch that the vote of the first one has executed. -/
theorem executed_epoch_voted_for :
    let t := ((twoVoters.program .plain).run untilSecondVote).trace
    EachAfter (Holding .bottomUp twoVoters.child.id executesTen) t ∧ (∀ e ∈ t, dueAhead e) ∧
      ¬ Current executesTen t := by
  refine ⟨by decide +kernel, by decide +kernel, fun current => ?_⟩
  obtain ⟨epoch, same, less⟩ := current
    ((twoVoters.program .plain).run untilSecondVote).trace.dropLast
    (.mark (.submits ⟨[98]⟩ (.bottomUp (checkpointAt [99])))) [] (by decide +kernel) _ _ rfl
  obtain rfl : 10 = epoch := Option.some.inj same
  exact absurd less (by decide +kernel)

end IpcAgent.Manager
