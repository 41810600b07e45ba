import IpcAgent.Manager.Reads

/-!
# What a vote rests on

A submission is made at one of two places in nested loops: for what the iteration has found due,
or for what a round of the catch-up loop has. Wherever it is made, all that speaks for it was
read in the same iteration.
-/

namespace IpcAgent.Manager
open Library Lotus

/-! ## Iterations -/

/-- The traces of the iterations a manager has begun. -/
def iterations {σ : Type} (s : Scheme σ) (accounts : List Address) (as : List Reply) :
    List (Trace Side) :=
  match (s.readPeriod.run as).outcome with
  | .ret period => (Program.rounds (iteration s accounts period) (s.readPeriod.run as).rest).map
      fun as => ((iteration s accounts period).run as).trace
  | .halt _ => []

theorem trace_manage {σ : Type} (s : Scheme σ) (accounts : List Address) (as : List Reply) :
    ((manage s accounts).run as).trace =
      (s.readPeriod.run as).trace ++ (iterations s accounts as).flatten := by
  change (Program.andThen (s.readPeriod.run as)
    fun period => (Program.loop (iteration s accounts period)).run).trace = _
  unfold Program.andThen iterations
  cases (s.readPeriod.run as).outcome with
  | ret period => simp [Run.after, Program.trace_loop, List.flatMap_def]
  | halt x => simp

theorem of_mem_iterations {σ : Type} {s : Scheme σ} {accounts : List Address} {as : List Reply}
    {it : Trace Side} (mem : it ∈ iterations s accounts as) :
    ∃ period as', (s.readPeriod.run as).outcome = .ret period ∧
      it = ((iteration s accounts period).run as').trace := by
  unfold iterations at mem
  cases out : (s.readPeriod.run as).outcome with
  | halt x => simp [out] at mem
  | ret period =>
    simp only [out, List.mem_map] at mem
    obtain ⟨as', -, rfl⟩ := mem
    exact ⟨period, as', rfl, rfl⟩

def Task.iterations (ext : Ext) (t : Task) : List Reply → List (Trace Side) :=
  match t.direction with
  | .bottomUp => Manager.iterations (bottomUp ext t.child t.parent.id) t.child.accounts
  | .topDown => Manager.iterations (topDown ext t.child t.parent.id) t.child.accounts

/-! ## What speaks for a submission -/

/-- A vote of `account` for `epoch` is in order by the reads in `before`. -/
structure Justified (ext : Ext) (d : Direction) (child : Subnet) (period : ChainEpoch)
    (before : Trace Side) (account : Address) (epoch : ChainEpoch) : Prop where
  lastExec : ∃ e ∈ before, ∃ last, d.lastExecRead child.id e = some last ∧ epoch = period + last
  height : ∃ e ∈ before, ∃ n, heightRead d.source e = some n ∧ epoch ≤ n
  configured : account ∈ child.accounts
  validator : ∃ e ∈ before, account ∈ validatorsRead ext child.id e
  initialized : ∃ e ∈ before, ∃ state, gatewayRead e = some state ∧ state.initialized = true

section Rounds

variable {σ : Type} {s : Scheme σ} {ext : Ext} {d : Direction} {child : Subnet}
  {period : ChainEpoch} {found : Due σ × List Address} {due : Due σ} {account : Address}
  {left : List Address} {h ev : Trace Side}

abbrev AllJustified (ext : Ext) (d : Direction) (child : Subnet) (period : ChainEpoch) :
    Trace Side → Prop := Submissions (Justified ext d child period)

/-- While it is the turn of the accounts in `left`. -/
structure Voting (ext : Ext) (d : Direction) (child : Subnet) (period : ChainEpoch)
    (found : Due σ × List Address) (left : List Address) (h : Trace Side) : Prop where
  all : AllJustified ext d child period h
  configured : left ⊆ child.accounts
  due : Found d child.id period found.1 h
  opened : Opened ext child.id found.2 h

theorem Voting.append (voting : Voting ext d child period found left h)
    (none : ∀ e ∈ ev, ∀ account params, e ≠ .mark (.submits account params)) :
    Voting ext d child period found left (h ++ ev) where
  all := voting.all.append none
  configured := voting.configured
  due := voting.due.mono (List.subset_append_left h ev)
  opened := voting.opened.mono (List.subset_append_left h ev)

theorem Voting.passive (voting : Voting ext d child period found left h)
    (passive : ∀ e ∈ ev, Passive e) : Voting ext d child period found left (h ++ ev) :=
  voting.append fun e he => (passive e he).2

theorem Voting.skip (voting : Voting ext d child period found (account :: left) h) :
    Voting ext d child period found left h :=
  { voting with configured := fun _ ha => voting.configured (List.mem_cons_of_mem _ ha) }

theorem Found.justified (found : Found d child.id period due h)
    {validators : List Address} (opened : Opened ext child.id validators h)
    (configured : account ∈ child.accounts) (validator : account ∈ validators) :
    Justified ext d child period h account due.epoch where
  lastExec := by
    obtain ⟨e, mem, read⟩ := found.lastExec
    exact ⟨e, mem, due.lastExec, read, by rw [Due.epoch, found.period, Int64.add_comm]⟩
  height := found.height
  configured := configured
  validator := opened.validators account validator
  initialized := opened.initialized

/-- A submission for something that was found due in this iteration. -/
theorem Voting.trySubmit (informed : s.Informed ext d child.id)
    (voting : Voting ext d child period found left h) (late : Found d child.id period due h)
    (configured : account ∈ child.accounts) (validator : account ∈ found.2) :
    (trySubmit s due account).wp (fun _ => Voting ext d child period found left)
      (fun _ => AllJustified ext d child period) h := by
  refine wp_trySubmit_of_pushes (informed.submit due account)
    (fun ev => voting.passive)
    (fun ev params sent passive epoch sends => ?_)
    (fun h ok voting => voting.append (by simp)) fun _ voting => voting.all
  have built := voting.passive passive
  have sub : h ⊆ h ++ ev := List.subset_append_left h ev
  have pushed : Voting ext d child period found left
      (h ++ ev ++ [.mark (.submits account params)]) :=
    { all := built.all.submits epoch ((late.mono sub).justified built.opened configured validator)
      configured := voting.configured
      due := built.due.mono (List.subset_append_left _ _)
      opened := built.opened.mono (List.subset_append_left _ _) }
  exact pushed.append fun e he => ne_submits_of_commits (sends e he)

theorem rounds_justified (informed : s.Informed ext d child.id) (period : ChainEpoch) :
    Rounds s child.accounts period (AllJustified ext d child period)
      (Voting ext d child period)
      (fun found account left h => Voting ext d child period found left h ∧
        account ∈ child.accounts ∧ account ∈ found.2)
      (fun _ => AllJustified ext d child period) where
  observe h all := by
    refine (informed.observe period).wp (fun found ev shown passive => ?_)
      fun _ ev passive => all.passive passive
    cases found with
    | none => exact all.passive passive
    | some f =>
      obtain ⟨found, opened⟩ := shown f rfl
      have voting : Voting ext d child period f child.accounts (h ++ ev) :=
        { all := all.passive passive
          configured := List.Subset.refl _
          due := found.mono (List.subset_append_right h ev)
          opened := opened.mono (List.subset_append_right h ev) }
      exact voting.append (by simp)
  skip _ _ _ _ voting := voting.skip
  submit found account left h validator voting := by
    have configured := voting.configured List.mem_cons_self
    exact Program.wp_mono (voting.skip.trySubmit informed voting.due configured validator)
      (fun _ _ voting => ⟨voting, configured, validator⟩) fun _ _ => id
  catchUp found account left h := by
    rintro ⟨voting, configured, validator⟩
    refine (informed.catchUp period found.1.seen).wp (fun late ev shown passive => ?_)
      fun _ ev passive => voting.all.passive passive
    have voting := voting.passive passive
    cases late with
    | none => exact ⟨voting, configured, validator⟩
    | some late =>
      have due : Found d child.id period late
          (h ++ ev ++ [.mark (.due late.lastExec late.period)]) :=
        (shown late rfl).mono
          (List.Subset.trans (List.subset_append_right h ev) (List.subset_append_left _ _))
      exact Program.wp_mono ((voting.append (by simp)).trySubmit informed due configured validator)
        (fun _ _ voting => ⟨voting, configured, validator⟩) fun _ _ => id
  voted _ _ _ _ hV := hV.1
  done _ _ voting := voting.all
  wait h all := passive_waitOrExit.wp (fun _ ev _ passive => all.passive passive)
    fun _ ev passive => all.passive passive
  retry found account left h := by
    rintro ⟨voting, member⟩
    exact passive_waitOrExit.wp
      (fun _ ev _ passive => ⟨voting.passive passive, member⟩)
      fun _ ev passive => voting.all.passive passive
  spinVote _ _ _ _ hV := hV.1.all

/-- The period comes from the start, everything else from the iteration. -/
theorem justified_of_mem_iterations (informed : s.Informed ext d child.id) (as : List Reply)
    {it : Trace Side} (mem : it ∈ iterations s child.accounts as) :
    ∃ period, (∃ e ∈ (s.readPeriod.run as).trace, d.periodRead child.id e = some period) ∧
      AllJustified ext d child period it := by
  obtain ⟨period, as', out, rfl⟩ := of_mem_iterations mem
  refine ⟨period, (informed.readPeriod as).2 period out, ?_⟩
  exact Program.wp_trace (h := []) (Program.wp_mono
    ((rounds_justified informed period).iteration eachAfter_nil) (fun _ _ next => next.2)
    fun _ _ => id) as'

end Rounds

/-! ## Both managers -/

/-- The run of a manager is a start, in which the period is read and nothing is submitted, and
iterations, in each of which every submission is justified by what was read before it in the same
iteration. -/
theorem submissions_justified (ext : Ext) (t : Task) (as : List Reply) :
    ∃ start, ((t.program ext).run as).trace = start ++ (t.iterations ext as).flatten ∧
      (∀ e ∈ start, Passive e) ∧ ∀ it ∈ t.iterations ext as, ∃ period,
        (∃ e ∈ start, t.direction.periodRead t.child.id e = some period) ∧
        Submissions (Justified ext t.direction t.child period) it := by
  obtain ⟨direction, child, parent⟩ := t
  cases direction with
  | bottomUp =>
    have informed := informed_bottomUp ext child parent.id
    exact ⟨_, trace_manage _ _ as, (informed.readPeriod as).1,
      fun it => justified_of_mem_iterations informed as⟩
  | topDown =>
    have informed := informed_topDown ext child parent.id
    exact ⟨_, trace_manage _ _ as, (informed.readPeriod as).1,
      fun it => justified_of_mem_iterations informed as⟩

end IpcAgent.Manager
