import IpcAgent.Manager.Subsystem

/-!
# The stop signal

A manager that is told to stop does. But the signal reaches only those managers that are
waiting when it is fired: one that is in the middle of a request does not notice, sleeps
through its next wait and starts another iteration.
-/

namespace IpcAgent.Manager
open Library Lotus

/-! ## A manager that is told to stop -/

/-- Anything but being told to stop. -/
def Unstopped (e : Event (Call Side) Reply Mark) : Prop := e ≠ .exchange .wait (.woken false)

theorem allowsRequests_unstopped : AllowsRequests Unstopped :=
  ⟨fun _ _ _ => by simp [Unstopped], fun _ _ => by simp [Unstopped]⟩

theorem unstopped_append {h ev : Trace Side} (old : ∀ e ∈ h, Unstopped e)
    (new : ∀ e ∈ ev, Unstopped e) : ∀ e ∈ h ++ ev, Unstopped e := fun e he =>
  (List.mem_append.mp he).elim (old e) (new e)

theorem unstopped_due {l p : ChainEpoch} : Unstopped (.mark (.due l p)) := by simp [Unstopped]

/-- What holds when a manager is left: it was told to stop, or never so far. -/
def StoppedOrNot (x : Halt (Call Side) Error Stop) (h : Trace Side) : Prop :=
  x = .stop .exit ∨ ∀ e ∈ h, Unstopped e

theorem wp_unstopped {α : Type} {p : Prog Side α} (emits : p.Emits Unstopped) {h : Trace Side}
    (old : ∀ e ∈ h, Unstopped e) : p.wp (fun _ h => ∀ e ∈ h, Unstopped e) StoppedOrNot h :=
  emits.wp (fun _ _ _ new => unstopped_append old new) fun _ _ new =>
    .inr (unstopped_append old new)

theorem wp_waitOrExit_unstopped {h : Trace Side} (old : ∀ e ∈ h, Unstopped e) :
    waitOrExit.wp (fun _ h => ∀ e ∈ h, Unstopped e) StoppedOrNot h := by
  have next : ∀ r, r ≠ .woken false → ∀ e ∈ h ++ [.exchange .wait r], Unstopped e := fun r hr =>
    unstopped_append old (by simpa [Unstopped] using hr)
  refine Program.wp_bind (Program.wp_bind (Program.wp_ask (.inr old) fun r => ?_))
  cases r with
  | woken again =>
    refine Program.wp_pure ?_
    cases again with
    | true => exact Program.wp_pure (next _ (by simp))
    | false => exact Program.wp_stop (.inl rfl)
  | _ => exact Program.wp_fail (.inr (next _ (by simp)))

theorem wp_trySubmit_unstopped {σ : Type} {s : Scheme σ} (parts : s.Emits Unstopped)
    (due : Due σ) (account : Address) {h : Trace Side} (old : ∀ e ∈ h, Unstopped e) :
    (trySubmit s due account).wp (fun _ h => ∀ e ∈ h, Unstopped e) StoppedOrNot h := by
  have submitted : ∀ ok ev, (∀ e ∈ ev, Unstopped e) →
      ∀ e ∈ h ++ ev ++ [.mark (.submitted account due.epoch ok)], Unstopped e := fun ok ev new =>
    unstopped_append (unstopped_append old new) (by simp [Unstopped])
  refine wp_trySubmit ((parts.submit due account).wp (fun _ ev _ new => submitted true ev new)
    fun x ev new => ?_)
  cases x with
  | fail e => exact submitted false ev new
  | _ => exact .inr (unstopped_append old new)

/-- A manager goes on for as long as it is not told to stop. -/
theorem loops_unstopped {σ : Type} {s : Scheme σ} (parts : s.Emits Unstopped)
    (accounts : List Address) :
    Loops s accounts (fun h => ∀ e ∈ h, Unstopped e) (fun _ _ h => ∀ e ∈ h, Unstopped e)
      (fun _ _ _ h => ∀ e ∈ h, Unstopped e) StoppedOrNot where
  readPeriod h hI := wp_unstopped parts.readPeriod hI
  observe period h hI := by
    refine Program.wp_mono (wp_unstopped (parts.observe period) hI) (fun found h hI => ?_)
      fun _ _ => id
    cases found with
    | none => exact hI
    | some found => exact unstopped_append hI (by simp [unstopped_due])
  skip _ _ _ _ := id
  submit due account _ h hW := wp_trySubmit_unstopped parts due account hW
  catchUp period due account _ h hV := by
    refine Program.wp_mono (wp_unstopped (parts.catchUp period due.seen) hV)
      (fun found h hI => ?_) fun _ _ => id
    cases found with
    | none => exact hI
    | some late =>
      exact wp_trySubmit_unstopped parts late account
        (unstopped_append hI (by simp [unstopped_due]))
  voted _ _ _ _ := id
  done _ _ := id
  wait _ := wp_waitOrExit_unstopped
  retry _ _ _ _ := wp_waitOrExit_unstopped
  spin _ := .inr
  spinVote _ _ _ _ := .inr

theorem manage_stops {σ : Type} {s : Scheme σ} (parts : s.Emits Unstopped)
    {accounts : List Address} {as : List Reply}
    (waiting : ((manage s accounts).run as).outcome = .halt (.await .wait)) :
    ((manage s accounts).run (as ++ [.woken false])).outcome = .halt (.stop .exit) := by
  have told : .exchange .wait (.woken false) ∈
      ((manage s accounts).run (as ++ [.woken false])).trace :=
    ((manage s accounts).natural.awaiting as .wait (.woken false) [] waiting).subset (by simp)
  have run := (loops_unstopped parts accounts).manage (h := []) (by simp) (as ++ [.woken false])
  unfold Program.Meets StoppedOrNot at run
  cases out : ((manage s accounts).run (as ++ [.woken false])).outcome with
  | ret a =>
    simp only [out] at run
    exact absurd rfl (run _ told)
  | halt x =>
    simp only [out] at run
    obtain rfl | unstopped := run
    · rfl
    · exact absurd rfl (unstopped _ told)

namespace Worker

variable {ext : Ext} {w : Worker}

theorem outcome_answer_false (waiting : w.waiting ext) :
    (w.answer (.woken false)).outcome ext = .halt (.stop .exit) := by
  obtain ⟨⟨direction, child, parent⟩, answers, notified, elapsed⟩ := w
  have waits := beq_iff_eq.mp waiting
  cases direction with
  | bottomUp => exact manage_stops (emits_bottomUp _ _ _ allowsRequests_unstopped) waits
  | topDown => exact manage_stops (emits_topDown _ _ _ allowsRequests_unstopped) waits

theorem ended_answer_false (waiting : w.waiting ext) : (w.answer (.woken false)).ended ext := by
  simp [ended, result, outcome_answer_false waiting]

theorem not_requesting_of_waiting (waiting : w.waiting ext) : ¬ w.requesting ext := by
  have waits := beq_iff_eq.mp waiting
  simp [requesting, waits]

/-- A task that is over waits for nothing. -/
theorem outcome_ne_await_of_ended (ended : w.ended ext) (c : Call Side) :
    w.outcome ext ≠ .halt (.await c) := by
  intro waits
  simp [Worker.ended, result, waits] at ended

theorem not_requesting_of_ended (ended : w.ended ext) : ¬ w.requesting ext := by
  unfold requesting
  split
  · exact absurd ‹_› (outcome_ne_await_of_ended ended _)
  · simp

theorem not_waiting_of_ended (ended : w.ended ext) : ¬ w.waiting ext := fun waiting =>
  outcome_ne_await_of_ended ended _ (beq_iff_eq.mp waiting)

end Worker

/-! ## The signal -/

namespace Subsystem

variable {ext : Ext} {s s' : Subsystem}

/-- Once the signal has been fired, no wait ends with another iteration. -/
def Obeyed (s : Subsystem) : Step → Prop
  | .wake _ true => s.phase = .watching
  | _ => True

instance (s : Subsystem) : DecidablePred s.Obeyed
  | .wake _ true => inferInstanceAs (Decidable (_ = _))
  | .wake _ false | .reply _ _ | .elapse _ | .fire _ | .reload _ _ | .finish | .fail =>
    inferInstanceAs (Decidable True)

/-- When the signal is fired, every manager that has not ended is asleep in its wait, and
none of them wakes up before it has seen the signal. -/
def Orderly (ext : Ext) (s : Subsystem) : Step → Prop
  | .fire _ => ∀ w ∈ s.workers, w.ended ext ∨ w.waiting ext ∧ w.elapsed = false
  | .elapse _ => s.phase = .watching
  | _ => True

instance (s : Subsystem) : DecidablePred (s.Orderly ext)
  | .fire _ => inferInstanceAs (Decidable (∀ w ∈ s.workers, _))
  | .elapse _ => inferInstanceAs (Decidable (_ = _))
  | .reply _ _ | .wake _ _ | .reload _ _ | .finish | .fail => inferInstanceAs (Decidable True)

/-- After the signal, a manager has ended or is about to. -/
def Stopping (ext : Ext) (s : Subsystem) : Prop :=
  s.phase ≠ .watching → ∀ w ∈ s.workers, w.ended ext ∨ w.waiting ext ∧ w.elapsed = false

/-- A change of one manager after the signal. -/
theorem Stopping.update {i : Nat} {p : Worker → Bool} {f : Worker → Worker}
    (stopping : s.Stopping ext) (updated : s.update i p f = some s')
    (kept : ∀ w, p w → w.ended ext ∨ w.waiting ext ∧ w.elapsed = false → (f w).ended ext) :
    s'.Stopping ext := by
  obtain ⟨w, found, hp, rfl⟩ := update_eq_some updated
  intro fired v hv
  rcases List.mem_or_eq_of_mem_set hv with old | rfl
  · exact stopping fired v old
  · exact .inl (kept w hp (stopping fired w (List.mem_of_getElem? found)))

theorem stopping_step {a : Step} (stopping : s.Stopping ext) (orderly : s.Orderly ext a)
    (taken : s.step ext a = some s') : s.Obeyed a ∧ s'.Stopping ext := by
  cases a with
  | reply i r =>
    refine ⟨trivial, stopping.update taken fun w requesting state => ?_⟩
    exact (state.elim Worker.not_requesting_of_ended
      (fun asleep => Worker.not_requesting_of_waiting asleep.1) requesting).elim
  | elapse i =>
    obtain ⟨w, _, _, rfl⟩ := update_eq_some taken
    exact ⟨trivial, fun fired => absurd orderly fired⟩
  | wake i again =>
    cases again with
    | true =>
      -- A manager whose sleep is over was not stopped.
      have late : ∀ w : Worker, w.ready ext true →
          ¬ (w.ended ext ∨ w.waiting ext ∧ w.elapsed = false) := by
        intro w ready state
        obtain ⟨waiting, elapsed⟩ : w.waiting ext ∧ w.elapsed := by simpa [Worker.ready] using ready
        exact state.elim (fun ended => Worker.not_waiting_of_ended ended waiting)
          (fun asleep => by simp [elapsed] at asleep)
      obtain ⟨w, found, ready, _⟩ := update_eq_some taken
      refine ⟨?_, stopping.update taken fun w ready state => (late w ready state).elim⟩
      by_contra fired
      exact late w ready (stopping fired w (List.mem_of_getElem? found))
    | false =>
      refine ⟨trivial, stopping.update taken fun w ready _ => ?_⟩
      obtain ⟨waiting, _⟩ : w.waiting ext ∧ w.notified := by simpa [Worker.ready] using ready
      exact Worker.ended_answer_false waiting
  | fire isShutdown =>
    simp only [step, Option.ite_none_right_eq_some, Option.some.injEq] at taken
    obtain ⟨_, rfl⟩ := taken
    refine ⟨trivial, fun _ v hv => ?_⟩
    obtain ⟨w, hw, rfl⟩ := List.mem_map.mp hv
    exact orderly w hw
  | reload order subnets =>
    simp only [step, Option.ite_none_right_eq_some, Option.some.injEq] at taken
    obtain ⟨_, rfl⟩ := taken
    exact ⟨trivial, fun fired => absurd rfl fired⟩
  | finish =>
    simp only [step, Option.ite_none_right_eq_some, Option.some.injEq] at taken
    obtain ⟨⟨phase, _⟩, rfl⟩ := taken
    exact ⟨trivial, fun _ => stopping (by simp [phase])⟩
  | fail =>
    simp only [step] at taken
    split at taken
    · rename_i phase
      simp only [Option.ite_none_right_eq_some, Option.some.injEq] at taken
      obtain ⟨_, rfl⟩ := taken
      exact ⟨trivial, fun _ => stopping (by simp [phase])⟩
    · cases taken

/-- In a run in which the signal is always fired while all managers are asleep, it is
obeyed. -/
theorem obeyed_of_orderly (ext : Ext) (order : HashOrder SubnetID)
    (subnets : HashMap SubnetID Subnet) (steps : List Step)
    (orderly : Along ext (Orderly ext) (start ext order subnets) steps) :
    Along ext Obeyed (start ext order subnets) steps :=
  orderly.of_invariant (I := Stopping ext) (fun _ _ _ => stopping_step)
    (fun watching => absurd rfl watching)

/-- A subnet with one account, and its parent. -/
def onePair : HashMap SubnetID Subnet :=
  (AList.singleton ⟨"/root"⟩ ⟨⟨"/root"⟩, []⟩).insert ⟨"/root/t01"⟩ ⟨⟨"/root/t01"⟩, [⟨[97]⟩]⟩

/-- Two managers that have nothing to vote for and are waiting for their next iteration. -/
def untilWaiting : List Step :=
  let head : Reply := .tipSet ⟨[⟨some "c"⟩], 0⟩
  let gateway : Reply := .gatewayState ⟨10, 0, ⟨0⟩, false⟩
  let actor : Reply := .subnetActorState ⟨10, none, ⟨0⟩⟩
  [head, actor, head, gateway, head, actor].map (.reply 0) ++
    [head, gateway, head, head, gateway].map (.reply 1)

theorem obeyed_when_asleep :
    Along .plain Obeyed (start .plain (.plain _) onePair)
      (untilWaiting ++ [.fire true, .wake 1 false, .wake 0 false, .finish]) :=
  obeyed_of_orderly .plain (.plain _) onePair _ (by decide +kernel)

/-- The signal is fired while the bottom-up manager is in its first request. The manager
finishes its iteration, sleeps and starts the next one. -/
theorem signal_missed_during_request :
    ¬ Along .plain Obeyed (start .plain (.plain _) onePair)
      (.fire true :: untilWaiting ++ [.elapse 0, .wake 0 true]) := by
  decide +kernel

end Subsystem

end IpcAgent.Manager
