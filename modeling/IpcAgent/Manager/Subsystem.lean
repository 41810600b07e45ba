import IpcAgent.Library.HashMap
import IpcAgent.Library.Run
import IpcAgent.Manager.BottomUp
import IpcAgent.Manager.TopDown

/-!
# The checkpoint subsystem

`manager/checkpoint.rs`. The subsystem runs two managers for each subnet it looks after, until
the agent shuts down or its configuration changes. It then fires the stop signal and waits
for all of them before it ends or starts over.

The signal is tokio's `Notify::notify_waiters`, which wakes the `Notified` futures that exist
at that moment and stores nothing for later ones; a manager has such a future just while it
is in `wait_next_iteration`.
-/

namespace IpcAgent.Manager
open Library Lotus

inductive Direction
  | bottomUp
  | topDown
deriving DecidableEq

/-- A spawned manager: which one, and for which pair of subnets. -/
structure Task where
  direction : Direction
  child : Subnet
  parent : Subnet

namespace Task

variable (ext : Ext) (t : Task)

def program : Prog Side Unit :=
  match t.direction with
  | .bottomUp => manageBottomupCheckpoints ext t.child t.parent.id
  | .topDown => manageTopdownCheckpoints ext t.child t.parent.id

/-- The result of the task, if it has ended. -/
def result : Outcome (Call Side) Error Stop Unit → Option TaskResult :=
  match t.direction with
  | .bottomUp => taskResult (bottomUp ext t.child t.parent.id)
  | .topDown => taskResult (topDown ext t.child t.parent.id)

@[simp] theorem result_await (c : Call Side) : t.result ext (.halt (.await c)) = none := by
  obtain ⟨direction, child, parent⟩ := t
  cases direction <;> rfl

@[simp] theorem result_exit : t.result ext (.halt (.stop .exit)) = some .ok := by
  obtain ⟨direction, child, parent⟩ := t
  cases direction <;> rfl

end Task

/-- The pairs of a subnet with accounts and its parent, if that is configured as well. -/
def subnetsToManage (ext : Ext) (order : HashOrder SubnetID) (subnets : HashMap SubnetID Subnet) :
    List (Subnet × Subnet) :=
  ((subnets.iter order).map Prod.snd).filterMap (fun s =>
    if s.accounts.isEmpty then none
    else ((ext.parent s.id).bind subnets.lookup).map (fun parent => (s, parent)))

def tasks (pairs : List (Subnet × Subnet)) : List Task :=
  pairs.flatMap (fun pair => [⟨.bottomUp, pair.1, pair.2⟩, ⟨.topDown, pair.1, pair.2⟩])

/-! ## Running managers -/

/-- A manager that was spawned, with the answers it has been given so far. -/
structure Worker where
  task : Task
  answers : List Reply
  /-- The signal was fired during the current wait. -/
  notified : Bool
  /-- The sleep of the current wait is over. -/
  elapsed : Bool

namespace Worker

variable (ext : Ext) (w : Worker)

def spawn (t : Task) : Worker := ⟨t, [], false, false⟩

def outcome : Outcome (Call Side) Error Stop Unit := ((w.task.program ext).run w.answers).outcome

def result : Option TaskResult := w.task.result ext (w.outcome ext)

/-- The task is over. -/
def ended : Bool := (w.result ext).isSome

def panicked : Bool :=
  match w.result ext with
  | some (.panicked _) => true
  | _ => false

/-- The manager is in `wait_next_iteration`. -/
def waiting : Bool := w.outcome ext == .halt (.await .wait)

/-- The manager waits for the reply to a request. -/
def requesting : Bool :=
  match w.outcome ext with
  | .halt (.await (.rpc _ _)) => true
  | _ => false

/-- The branch of the `select!` that returns `again` is ready. -/
def ready (again : Bool) : Bool := w.waiting ext && if again then w.elapsed else w.notified

def answer (r : Reply) : Worker := ⟨w.task, w.answers ++ [r], false, false⟩

/-- A `Notified` future that exists is woken. -/
def notify : Worker := { w with notified := w.notified || w.waiting ext }

end Worker

/-! ## The subsystem -/

/-- Where `run` is: in its `select!`, waiting for the managers after it has fired the signal,
or past its end. -/
inductive Phase
  | watching
  | stopping (isShutdown : Bool)
  | finished (success : Bool)
deriving DecidableEq

structure Subsystem where
  phase : Phase
  workers : List Worker

/-- What can happen next. -/
inductive Step
  /-- A node replies to the manager at an index. -/
  | reply (i : Nat) (r : Reply)
  /-- The sleep of a manager ends. -/
  | elapse (i : Nat)
  /-- The `select!` of `wait_next_iteration` takes one of its branches that are ready. -/
  | wake (i : Nat) (again : Bool)
  /-- A shutdown was requested, or the configuration has changed: the signal is fired. -/
  | fire (isShutdown : Bool)
  /-- All managers are done, and new ones are spawned for the latest configuration. -/
  | reload (order : HashOrder SubnetID) (subnets : HashMap SubnetID Subnet)
  /-- All managers are done, and `run` returns. -/
  | finish
  /-- One of the managers has panicked, and with it the task that drives them. -/
  | fail

namespace Subsystem

variable (ext : Ext)

/-- The start of an iteration of `run`. -/
def start (order : HashOrder SubnetID) (subnets : HashMap SubnetID Subnet) : Subsystem where
  phase := .watching
  workers := (tasks (subnetsToManage ext order subnets)).map Worker.spawn

variable (s : Subsystem)

/-- Change the manager at an index, if it is in the right state. -/
def update (i : Nat) (p : Worker → Bool) (f : Worker → Worker) : Option Subsystem :=
  match s.workers[i]? with
  | some w => if p w then some { s with workers := s.workers.set i (f w) } else none
  | none => none

/-- Every manager has ended, none with a panic. -/
def done : Bool := s.workers.all (fun w => w.ended ext && !w.panicked ext)

/-- One step, unless it is not possible. -/
def step : Step → Option Subsystem
  | .reply i r => s.update i (·.requesting ext) (·.answer r)
  | .elapse i => s.update i (·.waiting ext) (fun w => { w with elapsed := true })
  | .wake i again => s.update i (·.ready ext again) (·.answer (.woken again))
  | .fire isShutdown =>
    if s.phase = .watching then
      some ⟨.stopping isShutdown, s.workers.map (·.notify ext)⟩
    else none
  | .reload order subnets =>
    if s.phase = .stopping false ∧ s.done ext then some (start ext order subnets) else none
  | .finish =>
    if s.phase = .stopping true ∧ s.done ext then some { s with phase := .finished true }
    else none
  | .fail =>
    -- The managers that are left go on, with nobody to look after them.
    match s.phase with
    | .stopping _ =>
      if s.workers.any (·.panicked ext) then some { s with phase := .finished false } else none
    | _ => none

/-- `P` holds of every step of a run, at the state in which it is taken. -/
def Along (P : Subsystem → Step → Prop) : Subsystem → List Step → Prop
  | _, [] => True
  | s, a :: rest => ∀ s', s.step ext a = some s' → P s a ∧ Along P s' rest

theorem along_iff_throughout {P : Subsystem → Step → Prop} {s : Subsystem} {steps : List Step} :
    Along ext P s steps ↔ Throughout (step ext) P s steps := by
  induction steps generalizing s with
  | nil => exact Iff.rfl
  | cons a steps ih => simp only [Along, Throughout, ih, Option.mem_def]

instance Along.decidable {P : Subsystem → Step → Prop} [∀ s, DecidablePred (P s)] (s : Subsystem)
    (steps : List Step) : Decidable (Along ext P s steps) :=
  decidable_of_iff _ (along_iff_throughout ext).symm

/-- An invariant is all that is needed to get from a condition on the steps of a run to a
property of them. -/
theorem Along.of_invariant {ext : Ext} {P Q : Subsystem → Step → Prop} {I : Subsystem → Prop}
    (step : ∀ s a s', I s → P s a → s.step ext a = some s' → Q s a ∧ I s')
    {s : Subsystem} (start : I s) {steps : List Step} (along : Along ext P s steps) :
    Along ext Q s steps := by
  rw [along_iff_throughout] at along ⊢
  exact along.of_invariant (fun s a s' here inv taken => step s a s' inv here taken) start

theorem update_eq_some {s s' : Subsystem} {i : Nat} {p : Worker → Bool} {f : Worker → Worker}
    (h : s.update i p f = some s') : ∃ w, s.workers[i]? = some w ∧ p w ∧
      s' = { s with workers := s.workers.set i (f w) } := by
  unfold update at h
  split at h
  · rename_i w found
    split at h
    · exact ⟨w, found, ‹_›, (Option.some.inj h).symm⟩
    · cases h
  · cases h

end Subsystem

end IpcAgent.Manager
