import IpcAgent.Config.Reload
import IpcAgent.Manager.StopSignal

/-!
# The checkpoint subsystem and its configuration

`CheckpointSubsystem::run` next to any number of requests that reload the configuration. The
subsystem subscribes, and then again and again reads the configuration, spawns the managers
and waits for a shutdown or for a notification.
-/

namespace IpcAgent.Manager
open Library Lotus Reload

/-- A step of the managers, or of the task that drives them. -/
def Step.ofManagers : Step → Bool
  | .fire _ | .reload _ _ => false
  | _ => true

/-- Where `run` is. -/
inductive Position
  | created
  | subscribed (next : Nat)
  /-- The configuration is read; the managers of the iteration before have ended. -/
  | loaded (next : Nat) (config : Loaded) (previous : Option Subsystem)
  /-- The managers for a configuration were spawned. -/
  | spawned (next : Nat) (config : Loaded) (managers : Subsystem)

structure CheckpointSubsystem where
  config : Reloads
  shutdownRequested : Bool
  position : Position

/-- What can happen next. -/
inductive SubsystemEvent
  | config (a : Action)
  | requestShutdown
  | subscribe
  | getConfig
  | spawn (order : HashOrder SubnetID)
  /-- The `select!` sees the request to shut down. -/
  | onShutdownRequested
  /-- The `select!` sees a notification. -/
  | recv
  | managers (a : Step)

namespace CheckpointSubsystem

def new (files : String → Option String) (path : String) (config : Config) :
    CheckpointSubsystem := ⟨.new files path config, false, .created⟩

/-- One step, unless it is not possible. -/
def step (ext : Ext) (toml : String → Option Config) (s : CheckpointSubsystem) :
    SubsystemEvent → Option CheckpointSubsystem
  | .config a => (s.config.step toml a).map fun config => { s with config := config }
  | .requestShutdown => some { s with shutdownRequested := true }
  | .subscribe =>
    match s.position with
    | .created => some { s with position := .subscribed s.config.store.newSubscriber }
    | _ => none
  | .getConfig =>
    s.config.store.getConfig.bind fun config =>
      match s.position with
      | .subscribed next => some { s with position := .loaded next config none }
      | .spawned next _ managers =>
        if managers.phase = .stopping false ∧ managers.done ext then
          some { s with position := .loaded next config (some managers) }
        else none
      | _ => none
  | .spawn order =>
    match s.position with
    | .loaded next config none =>
      some { s with position := .spawned next config (.start ext order config.config.subnets) }
    | .loaded next config (some managers) =>
      (managers.step ext (.reload order config.config.subnets)).map fun managers =>
        { s with position := .spawned next config managers }
    | _ => none
  | .onShutdownRequested =>
    match s.position with
    | .spawned next config managers =>
      if s.shutdownRequested then
        (managers.step ext (.fire true)).map fun managers =>
          { s with position := .spawned next config managers }
      else none
    | _ => none
  | .recv =>
    match s.position with
    | .spawned next config managers =>
      (Reload.recv s.config.store.sent next).bind fun (received, next) =>
        -- any error is taken for a closed channel
        (managers.step ext (.fire (received != .ok))).map fun managers =>
          { s with position := .spawned next config managers }
    | _ => none
  | .managers a =>
    match s.position with
    | .spawned next config managers =>
      if a.ofManagers then
        (managers.step ext a).map fun managers =>
          { s with position := .spawned next config managers }
      else none
    | _ => none

end CheckpointSubsystem

/-! ## The managers of an iteration -/

namespace Subsystem

variable {ext : Ext} {s s' : Subsystem} {a : Step}

theorem tasks_update {i : Nat} {p : Worker → Bool} {f : Worker → Worker}
    (updated : s.update i p f = some s') (task : ∀ w, (f w).task = w.task) :
    s'.workers.map (·.task) = s.workers.map (·.task) ∧ s'.phase = s.phase := by
  obtain ⟨w, found, _, rfl⟩ := update_eq_some updated
  refine ⟨?_, rfl⟩
  rw [List.map_set, task]
  apply List.ext_getElem?
  intro j
  grind

/-- Managers change neither what they were spawned for nor where `run` is, but for the end
of `run`. -/
theorem step_ofManagers (inner : a.ofManagers) (taken : s.step ext a = some s') :
    s'.workers.map (·.task) = s.workers.map (·.task) ∧
      (s'.phase = s.phase ∨ s.phase = .stopping true ∧ s'.phase = .finished true ∨
        (∃ w ∈ s.workers, w.panicked ext) ∧ s'.phase = .finished false) := by
  cases a with
  | reply i r => exact (tasks_update taken fun _ => rfl).imp_right .inl
  | elapse i => exact (tasks_update taken fun _ => rfl).imp_right .inl
  | wake i again => exact (tasks_update taken fun _ => rfl).imp_right .inl
  | fire isShutdown => simp [Step.ofManagers] at inner
  | reload order subnets => simp [Step.ofManagers] at inner
  | finish =>
    simp only [step, Option.ite_none_right_eq_some, Option.some.injEq] at taken
    obtain ⟨⟨phase, _⟩, rfl⟩ := taken
    exact ⟨rfl, .inr (.inl ⟨phase, rfl⟩)⟩
  | fail =>
    simp only [step] at taken
    split at taken
    · simp only [Option.ite_none_right_eq_some, Option.some.injEq] at taken
      obtain ⟨panicked, rfl⟩ := taken
      exact ⟨rfl, .inr (.inr ⟨by simpa using panicked, rfl⟩)⟩
    · cases taken

theorem phase_fire {isShutdown : Bool} (taken : s.step ext (.fire isShutdown) = some s') :
    s'.phase = .stopping isShutdown := by
  simp only [step, Option.ite_none_right_eq_some, Option.some.injEq] at taken
  obtain ⟨_, rfl⟩ := taken
  rfl

theorem step_reload {order : HashOrder SubnetID} {subnets : HashMap SubnetID Subnet}
    (taken : s.step ext (.reload order subnets) = some s') : s' = start ext order subnets := by
  simp only [step, Option.ite_none_right_eq_some, Option.some.injEq] at taken
  exact taken.2.symm

theorem tasks_start (order : HashOrder SubnetID) (subnets : HashMap SubnetID Subnet) :
    (start ext order subnets).workers.map (·.task) =
      tasks (subnetsToManage ext order subnets) := by
  simp [start, Worker.spawn, Function.comp_def]

end Subsystem

/-! ## What a step does -/

namespace CheckpointSubsystem

variable {ext : Ext} {toml : String → Option Config} {s s' : CheckpointSubsystem}
  {e : SubsystemEvent}

/-- The steps one by one, each with what makes it possible. -/
inductive Stepped (ext : Ext) (toml : String → Option Config) (s : CheckpointSubsystem) :
    SubsystemEvent → CheckpointSubsystem → Prop
  | config {a : Action} {config : Reloads} (reloaded : s.config.step toml a = some config) :
    Stepped ext toml s (.config a) { s with config := config }
  | requestShutdown : Stepped ext toml s .requestShutdown { s with shutdownRequested := true }
  | subscribe (before : s.position = .created) :
    Stepped ext toml s .subscribe { s with position := .subscribed s.config.store.newSubscriber }
  | getConfig {next : Nat} {config : Loaded} (before : s.position = .subscribed next)
    (get : s.config.store.getConfig = some config) :
    Stepped ext toml s .getConfig { s with position := .loaded next config none }
  | getConfigAgain {next : Nat} {old config : Loaded} {managers : Subsystem}
    (before : s.position = .spawned next old managers)
    (get : s.config.store.getConfig = some config) :
    Stepped ext toml s .getConfig { s with position := .loaded next config (some managers) }
  | spawn {next : Nat} {config : Loaded} {previous : Option Subsystem}
    {order : HashOrder SubnetID} (before : s.position = .loaded next config previous) :
    Stepped ext toml s (.spawn order)
      { s with position := .spawned next config (.start ext order config.config.subnets) }
  | onShutdownRequested {next : Nat} {config : Loaded} {managers managers' : Subsystem}
    (before : s.position = .spawned next config managers) (requested : s.shutdownRequested)
    (fired : managers.step ext (.fire true) = some managers') :
    Stepped ext toml s .onShutdownRequested { s with position := .spawned next config managers' }
  | recv {next next' : Nat} {config : Loaded} {managers managers' : Subsystem}
    {received : Received} (before : s.position = .spawned next config managers)
    (got : Reload.recv s.config.store.sent next = some (received, next'))
    (fired : managers.step ext (.fire (received != .ok)) = some managers') :
    Stepped ext toml s .recv { s with position := .spawned next' config managers' }
  | managers {next : Nat} {config : Loaded} {managers managers' : Subsystem} {a : Step}
    (before : s.position = .spawned next config managers) (inner : a.ofManagers)
    (moved : managers.step ext a = some managers') :
    Stepped ext toml s (.managers a) { s with position := .spawned next config managers' }

theorem stepped_of_step (taken : s.step ext toml e = some s') : Stepped ext toml s e s' := by
  cases e with
  | config a =>
    obtain ⟨config, reloaded, rfl⟩ := Option.map_eq_some_iff.mp taken
    exact .config reloaded
  | requestShutdown =>
    obtain rfl := Option.some.inj taken
    exact .requestShutdown
  | subscribe =>
    simp only [step] at taken
    split at taken <;> [skip; contradiction]
    obtain rfl := Option.some.inj taken
    exact .subscribe ‹_›
  | getConfig =>
    obtain ⟨config, get, read⟩ := Option.bind_eq_some_iff.mp taken
    split at read
    · obtain rfl := Option.some.inj read
      exact .getConfig ‹_› get
    · simp only [Option.ite_none_right_eq_some, Option.some.injEq] at read
      obtain ⟨_, rfl⟩ := read
      exact .getConfigAgain ‹_› get
    · contradiction
  | spawn order =>
    simp only [step] at taken
    split at taken
    · obtain rfl := Option.some.inj taken
      exact .spawn ‹_›
    · obtain ⟨managers, reloaded, rfl⟩ := Option.map_eq_some_iff.mp taken
      obtain rfl := Subsystem.step_reload reloaded
      exact .spawn ‹_›
    · contradiction
  | onShutdownRequested =>
    simp only [step] at taken
    split at taken <;> [skip; contradiction]
    split at taken <;> [skip; contradiction]
    obtain ⟨managers, fired, rfl⟩ := Option.map_eq_some_iff.mp taken
    exact .onShutdownRequested ‹_› ‹_› fired
  | recv =>
    simp only [step] at taken
    split at taken <;> [skip; contradiction]
    obtain ⟨⟨received, next⟩, got, taken⟩ := Option.bind_eq_some_iff.mp taken
    obtain ⟨managers, fired, rfl⟩ := Option.map_eq_some_iff.mp taken
    exact .recv ‹_› got fired
  | managers a =>
    simp only [step] at taken
    split at taken <;> [skip; contradiction]
    split at taken <;> [skip; contradiction]
    obtain ⟨managers, moved, rfl⟩ := Option.map_eq_some_iff.mp taken
    exact .managers ‹_› ‹_› moved

/-! ## Runs -/

/-- A file that holds the address, with the same subnets each time. -/
def onePairAt (address : String) : Option Config := some ⟨address, Subsystem.onePair⟩

def initial : CheckpointSubsystem :=
  new (fun _ => some "addr new") "a.toml" ⟨"addr old", Subsystem.onePair⟩

/-- A request from its receipt to its end, if `i` were received before. -/
def request (i : Nat) : List SubsystemEvent :=
  [.receive none, .setPath i, .readPath i, .readFile i, .install i, .notify i].map .config

/-- An iteration up to the point where both managers are waiting for their next one. -/
def iteration : List SubsystemEvent :=
  [.getConfig, .spawn (.plain _)] ++ Subsystem.untilWaiting.map .managers

/-- Both managers see the signal. -/
def stopped : List SubsystemEvent := [.managers (.wake 0 false), .managers (.wake 1 false)]

end CheckpointSubsystem

/-! ## No reload is lost -/

/-- A configuration that was read while the receiver was where it is, or with a notification
still to come. -/
def InStep (store : ReloadableConfig) (next : Nat) (config : Loaded) : Prop :=
  next ≤ store.sent ∧ (store.writing = false → next = store.sent → config = store.config)

namespace InStep

variable {store : ReloadableConfig} {next : Nat} {config : Loaded}

theorem setPath (inStep : InStep store next config) (path : String) :
    InStep (store.setPath path) next config := inStep

/-- While the lock is held there is a notification to come. -/
theorem install (inStep : InStep store next config) (new : Loaded) :
    InStep (store.install new) next config := ⟨inStep.1, fun free => nomatch free⟩

theorem notify (le : next ≤ store.sent) : InStep store.notify next config := by
  refine ⟨Nat.le_succ_of_le le, fun _ caughtUp => ?_⟩
  simp only [ReloadableConfig.notify] at caughtUp
  omega

theorem getConfig (le : next ≤ store.sent) (get : store.getConfig = some config) :
    InStep store next config := by
  obtain ⟨_, rfl⟩ := ReloadableConfig.getConfig_eq_some.mp get
  exact ⟨le, fun _ _ => rfl⟩

theorem step {toml : String → Option Config} {s s' : Reloads} {a : Action}
    (inStep : InStep s.store next config) (taken : s.step toml a = some s') :
    InStep s'.store next config := by
  rcases Reloads.store_step taken with ⟨path, store⟩ | ⟨new, store⟩ | store
  · rw [store]
    exact inStep.setPath path
  · rw [store]
    exact inStep.install new
  · rw [store]
    exact notify inStep.1

end InStep

namespace CheckpointSubsystem

variable {ext : Ext} {toml : String → Option Config} {s s' : CheckpointSubsystem}
  {e : SubsystemEvent}

/-- The managers were spawned for a configuration. -/
def SpawnedFor (ext : Ext) (config : Loaded) (managers : Subsystem) : Prop :=
  ∃ order, managers.workers.map (·.task) =
    tasks (subnetsToManage ext order config.config.subnets)

/-- What `run` works with is in step with its receiver until it sees a notification. -/
def Current (ext : Ext) (s : CheckpointSubsystem) : Prop :=
  match s.position with
  | .created => True
  | .subscribed next => next ≤ s.config.store.sent
  | .loaded next config _ => InStep s.config.store next config
  | .spawned next config managers => next ≤ s.config.store.sent ∧
    (managers.phase = .watching → InStep s.config.store next config ∧
      SpawnedFor ext config managers)

theorem Current.config (current : s.Current ext) {config : Reloads} {a : Action}
    (taken : s.config.step toml a = some config) :
    Current ext { s with config := config } := by
  obtain ⟨reloads, shutdownRequested, position⟩ := s
  have sent := Reloads.sent_le_step taken
  cases position with
  | created => trivial
  | subscribed next => exact Nat.le_trans current sent
  | loaded next config previous => exact InStep.step current taken
  | spawned next config managers =>
    exact ⟨current.1.trans sent, fun watching => (current.2 watching).imp_left (·.step taken)⟩

theorem current_step (current : s.Current ext) (taken : s.step ext toml e = some s') :
    s'.Current ext := by
  cases stepped_of_step taken with
  | config reloaded => exact current.config reloaded
  | requestShutdown => exact current
  | subscribe before => exact Nat.le_refl _
  | getConfig before get =>
    simp only [Current, before] at current
    exact InStep.getConfig current get
  | getConfigAgain before get =>
    simp only [Current, before] at current
    exact InStep.getConfig current.1 get
  | spawn before =>
    simp only [Current, before] at current
    exact ⟨current.1, fun _ => ⟨current, _, Subsystem.tasks_start _ _⟩⟩
  | onShutdownRequested before requested fired =>
    simp only [Current, before] at current
    exact ⟨current.1, fun watching => by simp [Subsystem.phase_fire fired] at watching⟩
  | recv before got fired =>
    exact ⟨recv_le got, fun watching => by simp [Subsystem.phase_fire fired] at watching⟩
  | managers before inner moved =>
    obtain ⟨tasks, phase⟩ := Subsystem.step_ofManagers inner moved
    simp only [Current, before] at current
    refine ⟨current.1, fun watching => ?_⟩
    obtain phase | ⟨_, phase⟩ | ⟨_, phase⟩ := phase
    · obtain ⟨inStep, order, spawned⟩ := current.2 (phase.symm.trans watching)
      exact ⟨inStep, order, tasks.trans spawned⟩
    · simp [phase] at watching
    · simp [phase] at watching

/-- When `run` waits and its receiver has nothing for it, its managers are those of the latest
configuration. -/
theorem managers_of_latest_config (ext : Ext) (toml : String → Option Config)
    (files : String → Option String) (path : String) (config : Config)
    (events : List SubsystemEvent) (s : CheckpointSubsystem)
    (run : events.foldlM (step ext toml) (new files path config) = some s)
    (next : Nat) (loaded : Loaded) (managers : Subsystem)
    (position : s.position = .spawned next loaded managers) (watching : managers.phase = .watching)
    (undelivered : recv s.config.store.sent next = none) (latest : Loaded)
    (get : s.config.store.getConfig = some latest) :
    loaded = latest ∧ SpawnedFor ext latest managers := by
  have current : s.Current ext :=
    foldlM_invariant (fun _ _ _ => current_step)
      (show Current ext (new files path config) from trivial) run
  simp only [Current, position] at current
  obtain ⟨⟨le, inStep⟩, spawned⟩ := current.2 watching
  obtain ⟨free, rfl⟩ := ReloadableConfig.getConfig_eq_some.mp get
  have caughtUp : next = s.config.store.sent := by
    have := recv_eq_none.mp undelivered
    omega
  obtain rfl := inStep free caughtUp
  exact ⟨rfl, spawned⟩

/-- `run` waits, has nothing to receive, and would read a configuration with `address`. -/
def waitsAt (address : String) (s : CheckpointSubsystem) : Bool :=
  match s.position with
  | .spawned next _ managers =>
    managers.phase = .watching && (recv s.config.store.sent next).isNone &&
      s.config.store.getConfig.any (·.config.jsonRpcAddress = address)
  | _ => false

/-- A reload, up to the wait that follows it. -/
def reloadOnce : List SubsystemEvent :=
  .subscribe :: iteration ++ request 0 ++ [.recv] ++ stopped ++ [.getConfig, .spawn (.plain _)]

theorem managers_of_latest_config_reloaded :
    ∃ s next loaded managers, reloadOnce.foldlM (step .plain onePairAt) initial = some s ∧
      s.position = .spawned next loaded managers ∧ loaded.config.jsonRpcAddress = "addr new" ∧
      SpawnedFor .plain loaded managers := by
  have ends : (reloadOnce.foldlM (step .plain onePairAt) initial).any (waitsAt "addr new") := by
    decide +kernel
  obtain ⟨s, run, waits⟩ := (Option.any_eq_true _ _).mp ends
  unfold waitsAt at waits
  split at waits <;> [skip; contradiction]
  rename_i next loaded managers position
  simp only [Bool.and_eq_true, decide_eq_true_eq, Option.isNone_iff_eq_none] at waits
  obtain ⟨⟨watching, undelivered⟩, address⟩ := waits
  obtain ⟨latest, get, address⟩ := (Option.any_eq_true _ _).mp address
  have current := managers_of_latest_config .plain onePairAt (fun _ => some "addr new") "a.toml"
    ⟨"addr old", Subsystem.onePair⟩ reloadOnce s run next loaded managers position watching
    undelivered latest get
  obtain ⟨rfl, spawned⟩ := current
  exact ⟨s, next, loaded, managers, run, position, of_decide_eq_true address, spawned⟩

/-! ## When `run` returns -/

/-- `run` is past its end. -/
def returned (s : CheckpointSubsystem) : Bool :=
  match s.position with
  | .spawned _ _ ⟨.finished _, _⟩ => true
  | _ => false

/-- No manager has panicked. -/
def NoPanic (ext : Ext) (s : CheckpointSubsystem) : Prop :=
  match s.position with
  | .spawned _ _ managers => ∀ w ∈ managers.workers, ¬ w.panicked ext
  | _ => True

/-- When `run` sees a notification, the channel still has all that came after it. -/
def KeepsUp (s : CheckpointSubsystem) : SubsystemEvent → Prop
  | .recv =>
    match s.position with
    | .spawned next _ _ => s.config.store.sent ≤ next + capacity
    | _ => True
  | _ => True

instance : Decidable (s.NoPanic ext) := by unfold NoPanic; split <;> infer_instance

instance : Decidable (s.KeepsUp e) := by unfold KeepsUp; split <;> [split; skip] <;> infer_instance

/-- `run` has been told to shut down if it is about to return or has returned. -/
def Asked (s : CheckpointSubsystem) : Prop :=
  match s.position with
  | .spawned _ _ managers =>
    managers.phase = .watching ∨ managers.phase = .stopping false ∨ s.shutdownRequested
  | _ => True

theorem asked_step (asked : s.Asked) (noPanic : s.NoPanic ext) (keepsUp : s.KeepsUp e)
    (taken : s.step ext toml e = some s') : s'.Asked := by
  cases stepped_of_step taken with
  | config reloaded => exact asked
  | requestShutdown =>
    unfold Asked
    split
    · exact .inr (.inr rfl)
    · trivial
  | subscribe => trivial
  | getConfig => trivial
  | getConfigAgain => trivial
  | spawn => exact .inl rfl
  | onShutdownRequested before requested fired => exact .inr (.inr requested)
  | recv before got fired =>
    simp only [KeepsUp, before] at keepsUp
    obtain rfl := recv_ok keepsUp got
    exact .inr (.inl (Subsystem.phase_fire fired))
  | managers before inner moved =>
    simp only [Asked, NoPanic, before] at asked noPanic
    obtain phase | ⟨phase, _⟩ | ⟨⟨w, mem, panicked⟩, _⟩ := (Subsystem.step_ofManagers inner moved).2
    · simpa only [Asked, phase] using asked
    · simp only [phase, reduceCtorEq, Phase.stopping.injEq, false_or] at asked
      exact .inr (.inr asked)
    · exact absurd panicked (noPanic w mem)

/-- If no manager panics and no notification is dropped, `run` returns only after a shutdown was
requested. -/
theorem shutdownRequested_of_returned (ext : Ext) (toml : String → Option Config)
    (files : String → Option String) (path : String) (config : Config)
    (events : List SubsystemEvent)
    (noPanic : Throughout (step ext toml) (fun s _ => s.NoPanic ext) (new files path config) events)
    (keepsUp : Throughout (step ext toml) KeepsUp (new files path config) events)
    (s : CheckpointSubsystem)
    (run : events.foldlM (step ext toml) (new files path config) = some s)
    (returned : s.returned) : s.shutdownRequested := by
  have asked : s.Asked :=
    (throughout_and.mpr ⟨noPanic, keepsUp⟩).foldlM
      (fun _ _ _ here asked => asked_step asked here.1 here.2)
      (show Asked (new files path config) from trivial) run
  unfold CheckpointSubsystem.returned at returned
  split at returned <;> [skip; contradiction]
  rename_i position
  simpa [Asked, position] using asked

/-- A reload, and then a shutdown. -/
def reloadAndShutdown : List SubsystemEvent :=
  .subscribe :: iteration ++ request 0 ++ [.recv] ++ stopped ++ iteration ++
    [.requestShutdown, .onShutdownRequested] ++ stopped ++ [.managers .finish]

theorem shutdownRequested_of_returned_reloaded :
    ∃ s, reloadAndShutdown.foldlM (step .plain onePairAt) initial = some s ∧ s.returned ∧
      s.shutdownRequested := by
  have ends : (reloadAndShutdown.foldlM (step .plain onePairAt) initial).any
      CheckpointSubsystem.returned := by decide +kernel
  obtain ⟨s, run, returned⟩ := (Option.any_eq_true _ _).mp ends
  have asked := shutdownRequested_of_returned .plain onePairAt (fun _ => some "addr new") "a.toml"
    ⟨"addr old", Subsystem.onePair⟩ reloadAndShutdown (by decide +kernel) (by decide +kernel) s run
    returned
  exact ⟨s, run, returned, asked⟩

/-- Nine reloads while the managers of the iteration before are about to stop. -/
def reloadBurst : List SubsystemEvent :=
  .subscribe :: iteration ++ request 0 ++ [.recv] ++
    (List.range 9).flatMap (fun i => request (i + 1)) ++ stopped ++ iteration ++ [.recv] ++
    stopped ++ [.managers .finish]

/-- The receiver lags behind, which is taken for the end of the channel: `run` returns though
nobody has asked it to. -/
theorem returned_after_reloadBurst :
    Throughout (step .plain onePairAt) (fun s _ => s.NoPanic .plain) initial reloadBurst ∧
      (reloadBurst.foldlM (step .plain onePairAt) initial).any
        (fun s => s.returned && !s.shutdownRequested) := by
  decide +kernel

end CheckpointSubsystem

end IpcAgent.Manager
