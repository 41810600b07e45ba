import IpcAgent.Manager.JustifiedVotes
import IpcAgent.Manager.PushOnce

/-!
# Announced and pushed

A manager marks a submission in its history before it pushes the message, and what is known of
its votes is said of these marks. Here they are tied to the messages: every message is the one
that has just been marked, and every mark is followed by its message, unless the run ends while
the manager waits for the reply to it.
-/

namespace IpcAgent.Manager
open Library Lotus

/-- The account and the checkpoint of a submission that is announced. -/
def announced : Event (Call Side) Reply Mark → Option (Address × Params)
  | .mark (.submits account params) => some (account, params)
  | _ => none

/-- The sender and the parameters of a message that is pushed. -/
def votePushed (e : Event (Call Side) Reply Mark) : Option (Address × Params) :=
  (pushOf e).map fun push => (push.2.sender, push.2.params)

/-- Every message comes right after its announcement. -/
def Adjacent (h : Trace Side) : Prop :=
  EachAfter (fun before e => ∀ account params, votePushed e = some (account, params) →
    ∃ earlier, before = earlier ++ [.mark (.submits account params)]) h

/-- What has been announced has been pushed. -/
structure Paired (h : Trace Side) : Prop where
  same : h.filterMap announced = h.filterMap votePushed
  adjacent : Adjacent h

/-- The last announcement is of the message that the reply is awaited to. -/
def Pending (x : Halt (Call Side) Error Stop) (h : Trace Side) : Prop :=
  ∃ side message earlier, x = .await (.rpc side (.mpoolPushMessage message)) ∧ Paired earlier ∧
    h = earlier ++ [.mark (.submits message.sender message.params)]

section Paired

variable {h ev : Trace Side} {e : Event (Call Side) Reply Mark}

/-- Neither of the two. -/
def Voteless (e : Event (Call Side) Reply Mark) : Prop := announced e = none ∧ votePushed e = none

theorem voteless_of_passive (passive : Passive e) : Voteless e := by
  obtain ⟨commits, unmarked⟩ := passive
  constructor
  · unfold announced
    split <;> simp_all
  · unfold votePushed pushOf
    split <;> simp_all [Manager.commits]

theorem Adjacent.append (adjacent : Adjacent h) (voteless : ∀ e ∈ ev, Voteless e) :
    Adjacent (h ++ ev) := by
  refine EachAfter.append_of_forall adjacent fun e mem before account params pushed => ?_
  rw [(voteless e mem).2] at pushed
  cases pushed

theorem Paired.append (paired : Paired h) (voteless : ∀ e ∈ ev, Voteless e) : Paired (h ++ ev) where
  same := by
    have marks : ev.filterMap announced = [] :=
      List.filterMap_eq_nil_iff.mpr fun e mem => (voteless e mem).1
    have votes : ev.filterMap votePushed = [] :=
      List.filterMap_eq_nil_iff.mpr fun e mem => (voteless e mem).2
    rw [List.filterMap_append, List.filterMap_append, marks, votes, paired.same]
  adjacent := paired.adjacent.append voteless

theorem Paired.passive (paired : Paired h) (passive : ∀ e ∈ ev, Passive e) : Paired (h ++ ev) :=
  paired.append fun e mem => voteless_of_passive (passive e mem)

theorem Adjacent.announce (adjacent : Adjacent h) (account : Address) (params : Params) :
    Adjacent (h ++ [.mark (.submits account params)]) :=
  eachAfter_snoc_iff.mpr ⟨adjacent, by simp [votePushed, pushOf]⟩

theorem Paired.push (paired : Paired h) (side : Side) (message : MpoolPushMessage)
    (reply : Reply) :
    Paired (h ++ [.mark (.submits message.sender message.params)] ++
      [.exchange (.rpc side (.mpoolPushMessage message)) reply]) where
  same := by
    simp only [List.filterMap_append, List.append_assoc, paired.same]
    rfl
  adjacent := by
    refine eachAfter_snoc_iff.mpr ⟨paired.adjacent.announce _ _, fun account params pushed => ?_⟩
    cases pushed
    exact ⟨h, rfl⟩

theorem Pending.adjacent {x : Halt (Call Side) Error Stop} (pending : Pending x h) :
    Adjacent h := by
  obtain ⟨side, message, earlier, -, paired, rfl⟩ := pending
  exact paired.adjacent.announce _ _

theorem mark_mem_of_pushed {side : Side} {message : MpoolPushMessage} {reply : Reply}
    (adjacent : Adjacent h)
    (mem : .exchange (.rpc side (.mpoolPushMessage message)) reply ∈ h) :
    .mark (.submits message.sender message.params) ∈ h := by
  obtain ⟨before, after, rfl⟩ := List.append_of_mem mem
  obtain ⟨earlier, rfl⟩ := adjacent before _ after rfl message.sender message.params rfl
  simp

/-- What holds of the announcements holds of the messages, at the time of the announcement. -/
theorem Submissions.pushed {P : Trace Side → Address → ChainEpoch → Prop}
    (all : Submissions P h) (adjacent : Adjacent h) :
    EachAfter (fun before e => ∀ account params, votePushed e = some (account, params) →
      ∃ earlier epoch, before = earlier ++ [.mark (.submits account params)] ∧
        checkpointEpoch params = some epoch ∧ P earlier account epoch) h := by
  intro before e after split account params pushed
  obtain ⟨earlier, rfl⟩ := adjacent before e after split account params pushed
  obtain ⟨epoch, isEpoch, holds⟩ := all earlier (.mark (.submits account params)) (e :: after)
    (by simpa using split) account params rfl
  exact ⟨earlier, epoch, rfl, isEpoch, holds⟩

end Paired

/-! ## Runs -/

section Runs

variable {σ : Type} {s : Scheme σ} {ext : Ext} {d : Direction} {child : Subnet} {h : Trace Side}
  {due : Due σ} {account : Address}

theorem wp_trySubmit_paired (pushes : Pushes Passive account due.epoch (s.submit due account))
    (paired : Paired h) :
    (trySubmit s due account).wp (fun _ => Paired) (fun x h => Paired h ∨ Pending x h) h := by
  have returned : ∀ h ok, Paired h → Paired (h ++ [.mark (.submitted account due.epoch ok)]) :=
    fun h ok paired => paired.passive (by simpa using passive_submitted account due.epoch ok)
  refine wp_trySubmit ?_
  obtain ⟨β, build, ext, side, message, shape, builds, sender⟩ := pushes
  rw [shape]
  refine Program.wp_bind (builds.wp (fun b ev _ passive => ?_) fun x ev passive => ?_)
  · have built := paired.passive passive
    have pushed := built.push side (message b)
    rw [sender b] at pushed
    refine Program.wp_bind (Program.wp_tell ?_)
    refine Program.wp_bind (Program.wp_bind (wp_request ?_ ?_ ?_))
    · exact .inr ⟨side, message b, _, rfl, built, by rw [sender b]⟩
    · exact fun e reply _ => returned _ false (pushed reply)
    · intro reply cid _
      have rest : (cidTryFrom ext cid >>= stateWaitMsg side).Emits Voteless :=
        Program.upholds_bind emits_cidTryFrom fun _ _ => emits_request fun _ => ⟨rfl, rfl⟩
      refine rest.wp (fun _ ev _ voteless => ?_) fun x ev voteless => ?_
      · exact Program.wp_pure (returned _ true ((pushed reply).append voteless))
      · have kept := (pushed reply).append voteless
        cases x with
        | fail e => exact returned _ false kept
        | _ => exact .inl kept
  · have kept := paired.passive passive
    cases x with
    | fail e => exact returned _ false kept
    | _ => exact .inl kept

theorem rounds_paired (informed : s.Informed ext d child.id) (accounts : List Address)
    (period : ChainEpoch) :
    Rounds s accounts period Paired (fun _ _ => Paired) (fun _ _ _ => Paired)
      (fun x h => Paired h ∨ Pending x h) where
  observe h paired := by
    refine (informed.observe period).wp (fun found ev _ passive => ?_)
      fun _ ev passive => .inl (paired.passive passive)
    cases found with
    | none => exact paired.passive passive
    | some f => exact (paired.passive passive).passive (by simpa using passive_due _ _)
  skip _ _ _ _ := id
  submit found account _ _ _ := wp_trySubmit_paired (informed.submit found.1 account)
  catchUp found account _ h paired := by
    refine (informed.catchUp period found.1.seen).wp (fun late ev _ passive => ?_)
      fun _ ev passive => .inl (paired.passive passive)
    cases late with
    | none => exact paired.passive passive
    | some late =>
      exact wp_trySubmit_paired (informed.submit late account)
        ((paired.passive passive).passive (by simpa using passive_due _ _))
  voted _ _ _ _ := id
  done _ _ := id
  wait h paired := passive_waitOrExit.wp (fun _ ev _ passive => paired.passive passive)
    fun _ ev passive => .inl (paired.passive passive)
  retry _ _ _ h paired := passive_waitOrExit.wp (fun _ ev _ passive => paired.passive passive)
    fun _ ev passive => .inl (paired.passive passive)
  spinVote _ _ _ _ := .inl

theorem paired_nil : Paired [] := ⟨rfl, eachAfter_nil⟩

theorem paired_manage (informed : s.Informed ext d child.id) (accounts : List Address)
    (as : List Reply) :
    Paired ((manage s accounts).run as).trace ∨
      ∃ x, ((manage s accounts).run as).outcome = .halt x ∧
        Pending x ((manage s accounts).run as).trace := by
  have run := wp_manage (h := []) (informed.readPeriod.wp
    (fun _ ev _ passive => paired_nil.passive passive)
    fun _ ev passive => .inl (paired_nil.passive passive))
    (rounds_paired informed accounts) (fun _ => .inl) as
  unfold Program.Meets at run
  cases out : ((manage s accounts).run as).outcome with
  | ret a => simp_all
  | halt x => simp_all

/-- The announcement of a message is in the same iteration. -/
theorem adjacent_of_mem_iterations (informed : s.Informed ext d child.id) {accounts : List Address}
    {as : List Reply} {it : Trace Side} (mem : it ∈ iterations s accounts as) : Adjacent it := by
  obtain ⟨period, as', -, rfl⟩ := of_mem_iterations mem
  refine Program.wp_trace (h := []) (Program.wp_mono
    ((rounds_paired informed accounts period).iteration paired_nil)
    (fun _ _ next => next.2.adjacent) fun x h stopped => ?_) as'
  exact stopped.elim Paired.adjacent Pending.adjacent

theorem pushed_of_mem_iterations (informed : s.Informed ext d child.id) {as : List Reply}
    {it : Trace Side} (mem : it ∈ iterations s child.accounts as) :
    ∃ period, (∃ e ∈ (s.readPeriod.run as).trace, d.periodRead child.id e = some period) ∧
      EachAfter (fun before e => ∀ account params, votePushed e = some (account, params) →
        ∃ earlier epoch, before = earlier ++ [.mark (.submits account params)] ∧
          checkpointEpoch params = some epoch ∧
          Justified ext d child period earlier account epoch) it := by
  obtain ⟨period, read, all⟩ := justified_of_mem_iterations informed as mem
  exact ⟨period, read, Submissions.pushed all (adjacent_of_mem_iterations informed mem)⟩

end Runs

/-! ## Both managers -/

/-- In every run of a manager the announcements and the messages are the same, one after the
other, up to a last message that there is no reply to yet. -/
theorem votes_pushed (ext : Ext) (t : Task) (as : List Reply) :
    Paired ((t.program ext).run as).trace ∨ ∃ x, ((t.program ext).run as).outcome = .halt x ∧
      Pending x ((t.program ext).run as).trace := by
  obtain ⟨direction, child, parent⟩ := t
  cases direction with
  | bottomUp => exact paired_manage (informed_bottomUp ext child parent.id) child.accounts as
  | topDown => exact paired_manage (informed_topDown ext child parent.id) child.accounts as

/-- What is said of all announcements of a run is said of all its messages. -/
theorem announced_of_pushed (ext : Ext) (t : Task) (as : List Reply) {side : Side}
    {message : MpoolPushMessage} {reply : Reply}
    (mem : .exchange (.rpc side (.mpoolPushMessage message)) reply ∈
      ((t.program ext).run as).trace) :
    .mark (.submits message.sender message.params) ∈ ((t.program ext).run as).trace := by
  rcases votes_pushed ext t as with paired | ⟨x, -, pending⟩
  · exact mark_mem_of_pushed paired.adjacent mem
  · exact mark_mem_of_pushed pending.adjacent mem

/-- Every message that a manager pushes is justified by what it has read in the same iteration. -/
theorem pushes_justified (ext : Ext) (t : Task) (as : List Reply) :
    ∀ it ∈ t.iterations ext as, ∃ period,
      EachAfter (fun before e => ∀ account params, votePushed e = some (account, params) →
        ∃ earlier epoch, before = earlier ++ [.mark (.submits account params)] ∧
          checkpointEpoch params = some epoch ∧
          Justified ext t.direction t.child period earlier account epoch) it := by
  intro it mem
  obtain ⟨direction, child, parent⟩ := t
  cases direction with
  | bottomUp =>
    obtain ⟨period, -, pushed⟩ :=
      pushed_of_mem_iterations (informed_bottomUp ext child parent.id) mem
    exact ⟨period, pushed⟩
  | topDown =>
    obtain ⟨period, -, pushed⟩ :=
      pushed_of_mem_iterations (informed_topDown ext child parent.id) mem
    exact ⟨period, pushed⟩

end IpcAgent.Manager
