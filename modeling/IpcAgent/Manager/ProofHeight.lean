import IpcAgent.Manager.BottomUpAgreement
import IpcAgent.Manager.Votes

/-!
# The proof of a bottom-up checkpoint

A bottom-up checkpoint carries the child's head of its iteration, also when it is submitted from
the catch-up loop, which reads the head anew but only to see how far the child is. If the child
reaches a further due epoch while a submission is committed, the checkpoint for that epoch carries
a head from before it.
-/

namespace IpcAgent.Manager
open Library Lotus

/-! ## Heights -/

/-- The checkpoint carries a tipset of the child that is not below its epoch. `heights` has the
tipsets of the child by the CID of their first block. -/
def Covers (heights : Cid → Option ChainEpoch) (cp : BottomUpCheckpoint) : Prop :=
  ∃ c n, cp.data.proof = c.bytes ∧ heights c = some n ∧ cp.data.epoch ≤ n

/-- Every submission so far was of such a checkpoint. -/
def AllCover (heights : Cid → Option ChainEpoch) (h : Trace Side) : Prop :=
  EachAfter (fun _ e => ∀ account params, e = .mark (.submits account params) →
    ∃ cp, params = .bottomUp cp ∧ Covers heights cp) h

def childHead : Event (Call Side) Reply Mark → Option ChainHeadResponse
  | .exchange (.rpc .child .chainHead) (.tipSet r) => some r
  | _ => none

/-- The heads that are read of the child are among its tipsets. -/
def Known (ext : Ext) (heights : Cid → Option ChainEpoch) (e : Event (Call Side) Reply Mark) :
    Prop :=
  ∀ r ∈ childHead e, IsEpoch r.height → ∀ c ∈ tipSetOf ext r, heights c = some r.height.toInt64

instance (ext : Ext) (heights : Cid → Option ChainEpoch) (e : Event (Call Side) Reply Mark) :
    Decidable (Known ext heights e) := inferInstanceAs (Decidable (∀ r ∈ _, _ → ∀ c ∈ _, _))

/-- Whether an iteration begins, or has made a submission. -/
def phase : Event (Call Side) Reply Mark → Option Bool
  | .exchange (.rpc .child (.ipcReadGatewayState _)) _ => some false
  | .mark (.submitted _ _ _) => some true
  | _ => none

/-- What is found due after a submission is not beyond the head of the iteration. -/
def Within (heights : Cid → Option ChainEpoch) (before : Trace Side) :
    Event (Call Side) Reply Mark → Prop
  | .mark (.due l p) => latest phase before = some true →
    ((latest examined before).bind heights).all (l + p ≤ ·)
  | _ => True

instance (heights : Cid → Option ChainEpoch) (before : Trace Side) :
    DecidablePred (Within heights before)
  | .mark (.due _ _) => inferInstanceAs (Decidable (_ → _))
  | .mark (.submits _ _) | .mark (.submitted _ _ _) | .exchange _ _ => isTrue trivial

/-- The head of the iteration is not below the epoch. -/
def HeadCovers (heights : Cid → Option ChainEpoch) (h : Trace Side) (epoch : ChainEpoch) : Prop :=
  ∃ head n, latest examined h = some head ∧ heights head = some n ∧ epoch ≤ n

/-! ## The run of the manager -/

section Loops

variable {ext : Ext} {heights : Cid → Option ChainEpoch} {child : Subnet} {due late : Due Cid}
  {account : Address} {h ev : Trace Side}

/-- Neither a submission nor a change of phase. -/
def Steady (e : Event (Call Side) Reply Mark) : Prop :=
  Passive e ∧ examined e = none ∧ phase e = none

/-- The child is as expected up to here. -/
abbrev Settled (ext : Ext) (heights : Cid → Option ChainEpoch) : Trace Side → Prop :=
  EachAfter fun before e => Known ext heights e ∧ Within heights before e

/-- Every submission had the head of its iteration at its epoch or above, if the child is as
expected up to here. -/
def CoveredOf (ext : Ext) (heights : Cid → Option ChainEpoch) (h : Trace Side) : Prop :=
  Settled ext heights h → Submissions (fun before _ epoch => HeadCovers heights before epoch) h

/-- An iteration that has found something due, which its head covers. -/
structure Working (ext : Ext) (heights : Cid → Option ChainEpoch) (due : Due Cid)
    (h : Trace Side) : Prop where
  all : CoveredOf ext heights h
  head : latest examined h = some due.seen
  covers : Settled ext heights h → ∃ n, heights due.seen = some n ∧ due.epoch ≤ n

theorem CoveredOf.append (all : CoveredOf ext heights h) (passive : ∀ e ∈ ev, Passive e) :
    CoveredOf ext heights (h ++ ev) :=
  fun settled => (all settled.of_append).passive passive

theorem Working.append (working : Working ext heights due h) (steady : ∀ e ∈ ev, Steady e) :
    Working ext heights due (h ++ ev) where
  all := working.all.append fun e he => (steady e he).1
  head := by rw [latest_append fun e he => (steady e he).2.1, working.head]
  covers settled := working.covers settled.of_append

theorem examined_of_commits {e : Event (Call Side) Reply Mark} (he : commits e) :
    examined e = none := by
  cases e with
  | mark m => rfl
  | exchange call reply =>
    cases call with
    | wait => rfl
    | rpc client rpc => cases client <;> cases rpc <;> first | rfl | cases he

theorem steady_exchange {client : Side} {rpc : Rpc} {reply : Reply}
    (read : commits (.exchange (.rpc client rpc) reply) = false)
    (notGateway : ∀ tipSet, rpc ≠ .ipcReadGatewayState tipSet) :
    Steady (.exchange (.rpc client rpc) reply) := by
  refine ⟨passive_exchange read, (plain_exchange notGateway).1, ?_⟩
  cases client <;> cases rpc <;> first | rfl | exact absurd rfl (notGateway _)

theorem Working.trySubmit (parentId : SubnetID) (working : Working ext heights due h)
    (covers : Settled ext heights h → ∃ n, heights due.seen = some n ∧ late.epoch ≤ n) :
    (trySubmit (bottomUp ext child parentId) late account).wp
      (fun _ h => Working ext heights due h ∧ latest phase h = some true)
      (fun _ => CoveredOf ext heights) h := by
  refine wp_trySubmit_of_pushes (K := Working ext heights due)
    (pushes_submitCheckpoint ext child late.seen late.epoch account
      (fun _ => steady_exchange rfl (by simp)) fun _ => steady_exchange rfl (by simp))
    (fun ev => working.append) (fun ev params sent steady epoch sends => ?_)
    (fun h ok working => ?_) fun _ working => working.all
  · have built := working.append steady
    have head : latest examined (h ++ ev ++ [.mark (.submits account params)] ++ sent) =
        some due.seen := by
      rw [latest_append fun e he => examined_of_commits (sends e he), latest_snoc]
      exact built.head
    refine ⟨fun settled => ?_, head, fun settled => ?_⟩
    · have earlier : Settled ext heights (h ++ ev) := settled.of_append.of_append
      obtain ⟨n, height, le⟩ := covers earlier.of_append
      exact Submissions.append ((built.all earlier).submits epoch
        ⟨due.seen, n, built.head, height, le⟩) fun e he => ne_submits_of_commits (sends e he)
    · exact built.covers settled.of_append.of_append
  · refine ⟨⟨?_, ?_, ?_⟩, ?_⟩
    · exact working.all.append (by simpa using passive_submitted account late.epoch ok)
    · rw [latest_snoc]
      exact working.head
    · exact fun settled => working.covers settled.of_append
    · rw [latest_snoc]
      rfl

theorem steady_waitOrExit : waitOrExit.Emits Steady :=
  emits_waitOrExit fun _ => ⟨⟨rfl, by simp⟩, rfl, rfl⟩

/-- The iteration has read the head it works with. -/
theorem working_observe (parentId : SubnetID) (period : ChainEpoch)
    (all : CoveredOf ext heights h) :
    ((bottomUp ext child parentId).observe period).wp
      (fun found h => found.elim (CoveredOf ext heights h)
        fun f => Working ext heights f.1 (h ++ [.mark (.due f.1.lastExec f.1.period)]))
      (fun _ => CoveredOf ext heights) h := by
  refine (shows_observe_bottomUp ext child parentId period).wp
    (fun found ev shown passive => ?_) fun _ ev => all.append
  cases found with
  | none => exact all.append passive
  | some f =>
    obtain ⟨head, gateway, parentHead, parentTipSet, state, rfl, -, -, first, small, le, -, -⟩ :=
      shown f rfl
    refine ⟨(all.append passive).append (by simpa using passive_due _ _), ?_, fun settled => ?_⟩
    · simp [latest, examined]
    · have read := settled h (.exchange (.rpc .child .chainHead) (.tipSet head)) _
        (List.append_assoc _ _ _)
      exact ⟨_, read.1 head rfl small f.1.seen first, le⟩

theorem loops_covered (parentId : SubnetID) (accounts : List Address) :
    Loops (bottomUp ext child parentId) accounts (CoveredOf ext heights)
      (fun due _ => Working ext heights due)
      (fun due _ _ h => Working ext heights due h ∧ latest phase h = some true)
      (fun _ => CoveredOf ext heights) where
  readPeriod h all := (informed_bottomUp ext child parentId).readPeriod.wp
    (fun _ ev _ => all.append) fun _ ev => all.append
  observe period h := working_observe parentId period
  skip _ _ _ _ := id
  submit due account left h working := working.trySubmit parentId working.covers
  catchUp period due account left h := by
    rintro ⟨working, submitted⟩
    refine (shows_catchUp_bottomUp ext child parentId period due.seen
      (fun _ _ => steady_exchange rfl (by simp)) fun _ _ => steady_exchange rfl (by simp)).wp
      (fun found ev shown steady => ?_)
      fun _ ev steady => working.all.append fun e he => (steady e he).1
    have working := working.append steady
    have submitted : latest phase (h ++ ev) = some true := by
      rw [latest_append fun e he => (steady e he).2.2, submitted]
    cases found with
    | none => exact ⟨working, submitted⟩
    | some late =>
      have marked : Working ext heights due
          (h ++ ev ++ [.mark (.due late.lastExec late.period)]) :=
        working.append (by simp [Steady, passive_due, examined, phase])
      refine marked.trySubmit parentId fun settled => ?_
      obtain ⟨earlier, -, within⟩ := eachAfter_snoc_iff.mp settled
      obtain ⟨n, height, -⟩ := working.covers earlier
      refine ⟨n, height, ?_⟩
      simpa [working.head, height, Due.epoch] using within submitted
  voted _ _ _ _ hV := hV.1
  done _ _ working := working.all
  wait h all := passive_waitOrExit.wp (fun _ ev _ => all.append) fun _ ev => all.append
  retry due account left h := by
    rintro ⟨working, submitted⟩
    refine steady_waitOrExit.wp (fun _ ev _ steady => ⟨working.append steady, ?_⟩)
      fun _ ev steady => working.all.append fun e he => (steady e he).1
    rw [latest_append fun e he => (steady e he).2.2, submitted]
  spin _ := id
  spinVote _ _ _ _ hV := hV.1.all

end Loops

/-! ## Coverage -/

/-- If no epoch beyond the head of an iteration falls due while the iteration submits, every
checkpoint carries a head that is not below its epoch. -/
theorem allCover_of_within (ext : Ext) (heights : Cid → Option ChainEpoch) (child : Subnet)
    (parentId : SubnetID) (as : List Reply)
    (known : ∀ e ∈ ((manageBottomupCheckpoints ext child parentId).run as).trace,
      Known ext heights e)
    (within : EachAfter (Within heights)
      ((manageBottomupCheckpoints ext child parentId).run as).trace) :
    AllCover heights ((manageBottomupCheckpoints ext child parentId).run as).trace := by
  have settled : Settled ext heights
      ((manageBottomupCheckpoints ext child parentId).run as).trace :=
    fun before e after split => ⟨known e (by simp [split]), within before e after split⟩
  have start : CoveredOf ext heights [] := fun _ => eachAfter_nil
  have covered := Program.wp_trace (h := [])
    ((loops_covered parentId child.accounts).manage start) as settled
  intro before e after split account params submits
  subst submits
  obtain ⟨cp, rfl, head, _, _, _, looked, -, -, -, data⟩ :=
    allAssembled_manage parentId as _ _ _ _ split
  obtain ⟨epoch, same, head', n, looked', height, le⟩ := covered before _ after split _ _ rfl
  obtain rfl := Option.some.inj (looked.symm.trans looked')
  obtain rfl : cp.data.epoch = epoch := Option.some.inj same
  exact ⟨cp, rfl, head, n, by rw [data], height, le⟩

/-- Tipsets with their heights. -/
def heightsOf (known : List (Cid × ChainEpoch)) (c : Cid) : Option ChainEpoch :=
  (known.find? (·.1 = c)).map Prod.snd

/-- The replies to an agent with one account up to its second vote, with the head of the child in
the iteration and in the catch-up loop. The period is 10, and the first vote makes the chain
execute epoch 10. -/
def untilCaughtUp (head later : ChainHeadResponse) : List Reply :=
  let actor (lastExec : ChainEpoch) : Reply := .subnetActorState ⟨10, some [⟨"a"⟩], ⟨lastExec⟩⟩
  let parent : Reply := .tipSet ⟨[⟨some "p"⟩], 5⟩
  [parent, actor 0, .tipSet head, .gatewayState ⟨10, 0, ⟨0⟩, true⟩, parent, actor 0] ++
    submission ++ [.tipSet later, parent, actor 10, .text "t", .cid none]

theorem allCover_of_within_same_head :
    AllCover (heightsOf [(⟨[99]⟩, 20)])
      ((manageBottomupCheckpoints .plain oneVoter.child ⟨"/root"⟩).run
        (untilCaughtUp ⟨[⟨some "c"⟩], 20⟩ ⟨[⟨some "c"⟩], 20⟩)).trace :=
  allCover_of_within .plain _ _ _ _ (by decide +kernel) (by decide +kernel)

/-- The child is at height 10 in the iteration and at height 20 in the catch-up loop. The
checkpoint for epoch 20 carries the head at height 10. -/
theorem proof_below_epoch :
    let heights := heightsOf [(⟨[99]⟩, 10), (⟨[100]⟩, 20)]
    let t := ((manageBottomupCheckpoints .plain oneVoter.child ⟨"/root"⟩).run
      (untilCaughtUp ⟨[⟨some "c"⟩], 10⟩ ⟨[⟨some "d"⟩], 20⟩)).trace
    (∀ e ∈ t, Known .plain heights e) ∧ ¬ AllCover heights t := by
  refine ⟨by decide +kernel, fun all => ?_⟩
  obtain ⟨_, same, ⟨c⟩, n, proof, height, le⟩ := all
    ((manageBottomupCheckpoints .plain oneVoter.child ⟨"/root"⟩).run
      (untilCaughtUp ⟨[⟨some "c"⟩], 10⟩ ⟨[⟨some "d"⟩], 20⟩)).trace.dropLast
    (.mark (.submits ⟨[97]⟩
      (.bottomUp ⟨⟨⟨"/root/t01"⟩, [99], 20, ⟨[]⟩, [], ⟨none, 0⟩⟩, []⟩))) []
    (by decide +kernel) _ _ rfl
  cases same
  obtain rfl : [99] = c := proof
  obtain rfl : 10 = n := Option.some.inj height
  exact absurd le (by decide)

end IpcAgent.Manager
