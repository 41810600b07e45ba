import IpcAgent.Manager.Subsystem

/-!
# How often an account votes

The check whether a validator has voted already is commented out in both managers, so an
account votes again for as long as the chain shows the epoch before as the last executed one.
Here is what remains true: nobody repeats a vote unless the chain was found waiting for the
same epoch again.
-/

namespace IpcAgent.Manager
open Library Lotus

/-- A successful submission. -/
abbrev success (a : Address) (e : ChainEpoch) : Event (Call Side) Reply Mark :=
  .mark (.submitted a e true)

/-- No account has two successful submissions for one epoch. -/
def VotesOnce (t : Trace Side) : Prop := ∀ a e, t.count (success a e) ≤ 1

/-- The first event is a vote for an epoch, and with the second the chain asks for it: the
last executed epoch that was read is one period before. -/
def asksAgain : Event (Call Side) Reply Mark → Event (Call Side) Reply Mark → Bool
  | .mark (.submitted _ e true), .mark (.due l p) => l + p == e
  | _, _ => false

/-- Once a vote for an epoch has succeeded, the chain does not ask for that epoch again. -/
def Unasked (t : Trace Side) : Prop := t.Pairwise (fun x y => asksAgain x y = false)

instance (t : Trace Side) : Decidable (Unasked t) := inferInstanceAs (Decidable (t.Pairwise _))

/-! ## Votes that stand -/

/-- `a` has voted for `e`, and the chain has not asked for `e` since. -/
def Stands (a : Address) (e : ChainEpoch) (h : Trace Side) : Prop :=
  ∃ l₁ l₂, h = l₁ ++ success a e :: l₂ ∧ ∀ l p, .mark (.due l p) ∈ l₂ → l + p ≠ e

/-- No vote was repeated while an earlier one stood. -/
def NoRepeat (h : Trace Side) : Prop :=
  ∀ a e l₁ l₂, h = l₁ ++ success a e :: l₂ → ¬ Stands a e l₁

section

variable {a : Address} {e : ChainEpoch} {h ev : Trace Side}
  {x : Event (Call Side) Reply Mark}

theorem Stands.of_snoc (stands : Stands a e (h ++ [x])) :
    x = success a e ∨ Stands a e h ∧ ∀ l p, x = .mark (.due l p) → l + p ≠ e := by
  obtain ⟨l₁, l₂, split, unasked⟩ := stands
  obtain ⟨rfl, -⟩ | ⟨l, rfl, same⟩ := snoc_eq_append_cons split
  · exact .inl rfl
  · refine .inr ⟨⟨l₁, l, same, fun l' p mem => ?_⟩, fun l' p eq => ?_⟩
    · exact unasked l' p (List.mem_append_left _ mem)
    · exact unasked l' p (by simp [eq])

theorem NoRepeat.snoc (noRepeat : NoRepeat h)
    (new : ∀ a e, x = success a e → ¬ Stands a e h) : NoRepeat (h ++ [x]) := by
  intro a e l₁ l₂ split
  obtain ⟨rfl, rfl⟩ | ⟨l, rfl, same⟩ := snoc_eq_append_cons split
  · exact new a e rfl
  · exact noRepeat a e l₁ l same

theorem NoRepeat.votesOnce (noRepeat : NoRepeat h) (unasked : Unasked h) : VotesOnce h := by
  intro a e
  by_contra! twice
  -- Take the first success apart, then another one after it.
  obtain ⟨l₁, l₂, rfl, fresh⟩ := List.eq_append_cons_of_mem
    (List.count_pos_iff.mp (by omega : 0 < h.count (success a e)))
  have again : 0 < l₂.count (success a e) := by
    simpa [List.count_append, List.count_eq_zero_of_not_mem fresh] using twice
  obtain ⟨m₁, m₂, rfl⟩ := List.append_of_mem (List.count_pos_iff.mp again)
  refine noRepeat a e (l₁ ++ success a e :: m₁) m₂ (by simp) ⟨l₁, m₁, rfl, fun l p mem => ?_⟩
  have later := (List.pairwise_cons.mp (List.pairwise_append.mp unasked).2.1).1
  simpa [asksAgain] using later _ (List.mem_append_left _ mem)

end

/-! ## The run of a manager -/

/-- Not the business of this module. -/
def Silent : Event (Call Side) Reply Mark → Prop
  | .mark (.due _ _) | .mark (.submitted _ _ _) => False
  | _ => True

/-- No vote was repeated, and none of the accounts in `waiting` has a vote for `e` that
stands. -/
def Idle (waiting : List Address) (e : ChainEpoch) (h : Trace Side) : Prop :=
  NoRepeat h ∧ ∀ a ∈ waiting, ¬ Stands a e h

section Silent

variable {α : Type} {waiting : List Address} {e : ChainEpoch} {h ev : Trace Side}

theorem Idle.silent (idle : Idle waiting e h) (silent : ∀ x ∈ ev, Silent x) :
    Idle waiting e (h ++ ev) := by
  induction ev using List.reverseRecOn with
  | nil => simpa using idle
  | append_singleton ev x ih =>
    obtain ⟨noRepeat, stands⟩ := ih fun y hy => silent y (List.mem_append_left _ hy)
    have quiet : Silent x := silent x (by simp)
    rw [← List.append_assoc]
    refine ⟨noRepeat.snoc fun a e eq => ?_, fun a ha new => ?_⟩
    · simp [eq, Silent] at quiet
    · obtain rfl | ⟨old, -⟩ := new.of_snoc
      · simp [Silent] at quiet
      · exact stands a ha old

theorem NoRepeat.silent (noRepeat : NoRepeat h) (silent : ∀ x ∈ ev, Silent x) :
    NoRepeat (h ++ ev) := by
  have idle : Idle [] 0 h := ⟨noRepeat, by simp⟩
  exact (idle.silent silent).1

/-- After the chain has asked for an epoch, no vote for it stands. -/
theorem NoRepeat.due (noRepeat : NoRepeat h) (l p : ChainEpoch) (waiting : List Address) :
    Idle waiting (l + p) (h ++ [.mark (.due l p)]) := by
  refine ⟨noRepeat.snoc fun a e eq => by simp at eq, fun a _ stands => ?_⟩
  obtain eq | ⟨-, unasked⟩ := stands.of_snoc
  · simp at eq
  · exact unasked l p rfl rfl

theorem Idle.due (idle : Idle waiting e h) (l p : ChainEpoch) :
    Idle waiting e (h ++ [.mark (.due l p)]) := by
  refine ⟨idle.1.snoc fun a e eq => by simp at eq, fun a ha stands => ?_⟩
  obtain eq | ⟨old, -⟩ := stands.of_snoc
  · simp at eq
  · exact idle.2 a ha old

/-- A vote of an account that is not waiting. -/
theorem Idle.submitted {c : Address} {f : ChainEpoch} {ok : Bool} (idle : Idle waiting e h)
    (free : ¬ Stands c f h) (other : c ∉ waiting) :
    Idle waiting e (h ++ [.mark (.submitted c f ok)]) := by
  refine ⟨idle.1.snoc fun a e eq => ?_, fun a ha stands => ?_⟩
  · simp only [Event.mark.injEq, Mark.submitted.injEq] at eq
    obtain ⟨rfl, rfl, -⟩ := eq
    exact free
  · obtain eq | ⟨old, -⟩ := stands.of_snoc
    · simp only [Event.mark.injEq, Mark.submitted.injEq] at eq
      exact other (eq.1 ▸ ha)
    · exact idle.2 a ha old

end Silent

theorem silent_waitOrExit : waitOrExit.Emits Silent := emits_waitOrExit fun _ => trivial

theorem Idle.trySubmit {σ : Type} {s : Scheme σ} (silent : s.Emits Silent)
    {waiting : List Address} {e : ChainEpoch} {h : Trace Side} {account : Address} {due : Due σ}
    (idle : Idle waiting e h) (free : ¬ Stands account due.epoch h) (other : account ∉ waiting) :
    (trySubmit s due account).wp (fun _ => Idle waiting e) (fun _ => NoRepeat) h := by
  have submitted : ∀ ok ev, (∀ x ∈ ev, Silent x) →
      Idle waiting e (h ++ ev ++ [.mark (.submitted account due.epoch ok)]) := by
    intro ok ev quiet
    have alone : Idle [account] due.epoch h := ⟨idle.1, by simpa using free⟩
    exact (idle.silent quiet).submitted ((alone.silent quiet).2 account (by simp)) other
  refine wp_trySubmit ((silent.submit due account).wp (fun _ ev _ quiet => submitted true ev quiet)
    fun x ev quiet => ?_)
  cases x with
  | fail e' => exact submitted false ev quiet
  | _ => exact idle.1.silent quiet

/-- While an account votes, those that are left have no vote for the epoch of the
iteration. -/
theorem loops_noRepeat {σ : Type} {s : Scheme σ} (silent : s.Emits Silent)
    {accounts : List Address} (nodup : accounts.Nodup) :
    Loops s accounts NoRepeat
      (fun due left h => left.Nodup ∧ Idle left due.epoch h)
      (fun due account left h => account ∉ left ∧ left.Nodup ∧ Idle left due.epoch h)
      (fun _ => NoRepeat) where
  readPeriod h hI := silent.readPeriod.wp (fun _ _ _ quiet => hI.silent quiet)
    fun _ _ quiet => hI.silent quiet
  observe period h hI := by
    refine (silent.observe period).wp (fun found ev _ quiet => ?_) fun _ _ quiet => hI.silent quiet
    cases found with
    | none => exact hI.silent quiet
    | some found => exact ⟨nodup, (hI.silent quiet).due _ _ accounts⟩
  skip due account left h := by
    rintro ⟨nodup, idle⟩
    exact ⟨nodup.of_cons, idle.1, fun a ha => idle.2 a (List.mem_cons_of_mem _ ha)⟩
  submit due account left h := by
    rintro ⟨nodup, idle⟩
    obtain ⟨other, rest⟩ := List.nodup_cons.mp nodup
    have left : Idle left due.epoch h := ⟨idle.1, fun a ha => idle.2 a (List.mem_cons_of_mem _ ha)⟩
    exact Program.wp_mono (left.trySubmit silent (idle.2 account List.mem_cons_self) other)
      (fun _ _ hi => ⟨other, rest, hi⟩) fun _ _ => id
  catchUp period due account left h := by
    rintro ⟨other, rest, idle⟩
    refine (silent.catchUp period due.seen).wp (fun found ev _ quiet => ?_)
      fun _ _ quiet => idle.1.silent quiet
    cases found with
    | none => exact ⟨other, rest, idle.silent quiet⟩
    | some late =>
      -- The chain has just asked for this epoch, so no vote for it stands.
      have free := ((idle.silent quiet).1.due late.lastExec late.period [account]).2 account
        (by simp)
      exact Program.wp_mono (((idle.silent quiet).due _ _).trySubmit silent free other)
        (fun _ _ hi => ⟨other, rest, hi⟩) fun _ _ => id
  voted _ _ _ _ hV := hV.2
  done _ _ hW := hW.2.1
  wait h hI := silent_waitOrExit.wp (fun _ _ _ quiet => hI.silent quiet)
    fun _ _ quiet => hI.silent quiet
  retry due account left h := by
    rintro ⟨other, rest, idle⟩
    exact silent_waitOrExit.wp (fun _ _ _ quiet => ⟨other, rest, idle.silent quiet⟩)
      fun _ _ quiet => idle.1.silent quiet
  spin _ := id
  spinVote _ _ _ _ hV := hV.2.2.1

theorem noRepeat_manage {σ : Type} {s : Scheme σ} (silent : s.Emits Silent)
    {accounts : List Address} (nodup : accounts.Nodup) (as : List Reply) :
    NoRepeat ((manage s accounts).run as).trace := by
  have start : NoRepeat ([] : Trace Side) := fun a e l₁ l₂ split => by simp at split
  exact Program.wp_trace (h := []) ((loops_noRepeat silent nodup).manage start) as

/-! ## Both managers -/

theorem allowsRequests_silent : AllowsRequests Silent :=
  ⟨fun _ _ _ => trivial, fun _ _ => trivial⟩

theorem noRepeat_program (ext : Ext) (t : Task) (nodup : t.child.accounts.Nodup)
    (as : List Reply) : NoRepeat ((t.program ext).run as).trace := by
  obtain ⟨direction, child, parent⟩ := t
  cases direction with
  | bottomUp => exact noRepeat_manage (emits_bottomUp _ _ _ allowsRequests_silent) nodup as
  | topDown => exact noRepeat_manage (emits_topDown _ _ _ allowsRequests_silent) nodup as

/-- If the accounts are different and the chain never asks again for an epoch an account has
voted for, each account votes at most once per epoch. -/
theorem votesOnce_of_unasked (ext : Ext) (t : Task) (as : List Reply)
    (nodup : t.child.accounts.Nodup) (unasked : Unasked ((t.program ext).run as).trace) :
    VotesOnce ((t.program ext).run as).trace :=
  (noRepeat_program ext t nodup as).votesOnce unasked

/-- A bottom-up manager with one account, which is a validator. -/
def oneVoter : Task := ⟨.bottomUp, ⟨⟨"/root/t01"⟩, [⟨[97]⟩]⟩, ⟨⟨"/root"⟩, []⟩⟩

/-- The replies up to the first submission: the child is at height 10, the period is 10 and the
last executed epoch is 0. -/
def untilFirstVote : List Reply :=
  let actor : Reply := .subnetActorState ⟨10, some [⟨"a"⟩], ⟨0⟩⟩
  [.tipSet ⟨[⟨some "p"⟩], 5⟩, actor, .tipSet ⟨[⟨some "c"⟩], 10⟩, .gatewayState ⟨10, 0, ⟨0⟩, true⟩,
    .tipSet ⟨[⟨some "p"⟩], 5⟩, actor]

/-- The replies to a submission that succeeds. -/
def submission : List Reply := [.text "t", .cid none, .pushed ⟨some "m"⟩, .waited ⟨0, none⟩]

/-- The replies to the reads of the catch-up loop. -/
def catchUpReads (lastExec : ChainEpoch) : List Reply :=
  [.tipSet ⟨[⟨some "c"⟩], 10⟩, .tipSet ⟨[⟨some "p"⟩], 5⟩,
    .subnetActorState ⟨10, some [⟨"a"⟩], ⟨lastExec⟩⟩]

theorem votesOnce_with_quorum :
    VotesOnce ((oneVoter.program .plain).run
      (untilFirstVote ++ submission ++ catchUpReads 10)).trace :=
  votesOnce_of_unasked .plain oneVoter _ (by decide) (by decide +kernel)

/-- The vote does not reach the quorum, so the last executed epoch stays where it is and the
catch-up loop submits the same checkpoint again. -/
theorem votes_twice_without_quorum :
    ¬ VotesOnce ((oneVoter.program .plain).run
      (untilFirstVote ++ submission ++ catchUpReads 0 ++ submission)).trace := by
  intro once
  exact absurd (once ⟨[97]⟩ 10) (by decide +kernel)

end IpcAgent.Manager
