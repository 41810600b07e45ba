import IpcAgent.Manager.CheckpointSubsystem

/-!
# One manager for each task

Each time the configuration has changed, `CheckpointSubsystem::run` spawns its managers anew.
The managers for the old configuration stop in their own time, and until then would submit
beside the new ones. They are waited for, so among all the managers that were ever spawned no
two are at work in the same direction for the same child.
-/

namespace IpcAgent.Reload
open Library

/-- `parse` is what the TOML library finds in the text: the address of the server, and the
subnets as they are listed. -/
abbrev Parse := String → Option (String × List Manager.Subnet)

/-- A subnet that is listed again replaces the one before. -/
def deserializeSubnetsFromVec (subnets : List Manager.Subnet) : HashMap SubnetID Manager.Subnet :=
  subnets.foldl (fun byId s => byId.insert s.id s) ∅

def Config.fromTomlStr (parse : Parse) (s : String) : Option Config :=
  (parse s).map fun found => ⟨found.1, deserializeSubnetsFromVec found.2⟩

/-- Every subnet is found under its own id. -/
def Config.Keyed (c : Config) : Prop := ∀ id s, c.subnets.lookup id = some s → s.id = id

theorem lookup_foldl_insert {subnets : List Manager.Subnet} {byId : HashMap SubnetID Manager.Subnet}
    (keyed : ∀ id s, byId.lookup id = some s → s.id = id) :
    ∀ id s, (subnets.foldl (fun byId s => byId.insert s.id s) byId).lookup id = some s →
      s.id = id := by
  induction subnets generalizing byId with
  | nil => exact keyed
  | cons first subnets ih =>
    refine ih fun id s found => ?_
    by_cases own : id = first.id
    · subst own
      rw [AList.lookup_insert] at found
      rw [Option.some.inj found]
    · rw [AList.lookup_insert_ne own] at found
      exact keyed id s found

theorem Config.keyed_of_fromTomlStr {parse : Parse} {text : String} {config : Config}
    (read : fromTomlStr parse text = some config) : config.Keyed := by
  obtain ⟨found, -, rfl⟩ := Option.map_eq_some_iff.mp read
  exact lookup_foldl_insert fun id s found => by simp at found

/-! ## What is installed -/

namespace Reloads

variable {P : Config → Prop} {toml : String → Option Config} {s s' : Reloads} {a : Action}

/-- `P` holds of the configuration in place, and of those that wait to be installed. -/
structure All (P : Config → Prop) (s : Reloads) : Prop where
  inPlace : P s.store.config.config
  waiting : ∀ r ∈ s.requests, ∀ new ∈ r.progress.pending, P new.config

theorem all_new {config : Config} (holds : P config) (files : String → Option String)
    (path : String) : (new files path config).All P :=
  ⟨holds, fun r mem => by simp [new] at mem⟩

theorem All.moved (all : s.All P) (i : Nat) {r : Request}
    (holds : ∀ new ∈ r.progress.pending, P new.config) : (s.moved i r).All P := by
  refine ⟨all.inPlace, fun r' mem => ?_⟩
  rcases List.mem_or_eq_of_mem_set mem with old | rfl
  · exact all.waiting r' old
  · exact holds

theorem All.readFile (all : s.All P) (made : ∀ text config, toml text = some config → P config)
    {i : Nat} (taken : s.step toml (.readFile i) = some s') : s'.All P := by
  simp only [Reloads.step] at taken
  split at taken <;> [skip; contradiction]
  split at taken
  · rename_i config read
    obtain rfl := Option.some.inj taken
    obtain ⟨text, -, found⟩ := Option.bind_eq_some_iff.mp read
    refine all.moved i fun new mem => ?_
    obtain rfl := Option.some.inj mem
    exact made text config found
  · obtain rfl := Option.some.inj taken
    exact all.moved i fun new mem => by simp [Progress.pending] at mem

/-- What is read was made by `toml`, and nothing else is ever installed. -/
theorem All.step (all : s.All P) (made : ∀ text config, toml text = some config → P config)
    (taken : s.step toml a = some s') : s'.All P := by
  have nothing : ∀ new ∈ (none : Option Loaded), P new.config := fun _ mem => by simp at mem
  cases stepped_of_step taken with
  | receive =>
    refine ⟨all.inPlace, fun r mem => ?_⟩
    rcases List.mem_append.mp mem with old | new
    · exact all.waiting r old
    · rw [List.mem_singleton.mp new]
      exact nothing
  | @setPath i path =>
    refine ⟨?_, (all.moved i (r := ⟨path, .ready⟩) nothing).waiting⟩
    cases path <;> exact all.inPlace
  | @readPath i => exact all.moved i nothing
  | readFile | failed => exact all.readFile made taken
  | @install i path new found =>
    refine ⟨?_, (all.moved i (r := ⟨path, .installed new⟩) nothing).waiting⟩
    exact all.waiting _ (List.mem_of_getElem? found) new rfl
  | @notify i path new =>
    exact ⟨all.inPlace, (all.moved i (r := ⟨path, .done new⟩) nothing).waiting⟩
  | edit => exact ⟨all.inPlace, all.waiting⟩

end Reloads

end IpcAgent.Reload

namespace IpcAgent.Manager
open Library Lotus Reload

/-! ## The tasks of a configuration -/

/-- What no two managers may work on at once. -/
def Task.post (t : Task) : Direction × SubnetID := (t.direction, t.child.id)

/-- The configuration asks for the manager: the child has accounts, and its parent is
configured. -/
def Wanted (ext : Ext) (config : Config) (t : Task) : Prop :=
  config.subnets.lookup t.child.id = some t.child ∧ t.child.accounts ≠ [] ∧
    ∃ id, ext.parent t.child.id = some id ∧ config.subnets.lookup id = some t.parent

section Tasks

variable {ext : Ext} {config : Config} {order : HashOrder SubnetID}

theorem mem_tasks {pairs : List (Subnet × Subnet)} {t : Task} :
    t ∈ tasks pairs ↔ (t.child, t.parent) ∈ pairs := by
  obtain ⟨direction, child, parent⟩ := t
  cases direction <;> simp [tasks]

theorem mem_subnetsToManage {subnets : HashMap SubnetID Subnet} {child parent : Subnet} :
    (child, parent) ∈ subnetsToManage ext order subnets ↔
      (∃ id, subnets.lookup id = some child) ∧ child.accounts ≠ [] ∧
        ∃ id, ext.parent child.id = some id ∧ subnets.lookup id = some parent := by
  simp only [subnetsToManage, List.mem_filterMap, List.mem_map, Prod.exists, AList.mem_iter]
  constructor
  · rintro ⟨_, ⟨id, _, found, rfl⟩, made⟩
    split_ifs at made with empty
    obtain ⟨_, parent, pair⟩ := Option.map_eq_some_iff.mp made
    obtain ⟨rfl, rfl⟩ := Prod.mk.inj pair
    exact ⟨⟨id, found⟩, by simpa using empty, Option.bind_eq_some_iff.mp parent⟩
  · rintro ⟨⟨id, found⟩, accounts, parent⟩
    refine ⟨child, ⟨id, child, found, rfl⟩, ?_⟩
    rw [if_neg (by simpa using accounts), Option.bind_eq_some_iff.mpr parent, Option.map_some]

theorem mem_tasks_iff_wanted (keyed : config.Keyed) {t : Task} :
    t ∈ tasks (subnetsToManage ext order config.subnets) ↔ Wanted ext config t := by
  rw [mem_tasks, mem_subnetsToManage, Wanted]
  refine and_congr_left fun _ => ⟨?_, fun found => ⟨_, found⟩⟩
  rintro ⟨id, found⟩
  rwa [keyed id _ found]

theorem nodup_children (keyed : config.Keyed) :
    ((subnetsToManage ext order config.subnets).map (fun pair => pair.1.id)).Nodup := by
  have distinct := AList.nodup_map_fst_iter config.subnets order
  rw [List.Nodup, List.pairwise_map, subnetsToManage, List.pairwise_filterMap, List.pairwise_map]
  rw [List.Nodup, List.pairwise_map] at distinct
  refine distinct.imp_of_mem fun {a b} memA memB ne pair hpair pair' hpair' => ?_
  have child : ∀ e ∈ config.subnets.iter order, ∀ pair : Subnet × Subnet,
      (if e.2.accounts.isEmpty then none
        else ((ext.parent e.2.id).bind config.subnets.lookup).map fun parent => (e.2, parent)) =
        some pair → pair.1.id = e.1 := by
    intro e mem pair made
    split_ifs at made
    obtain ⟨_, -, rfl⟩ := Option.map_eq_some_iff.mp made
    exact keyed e.1 e.2 ((AList.mem_iter ..).mp mem)
  rw [child a memA pair hpair, child b memB pair' hpair']
  exact ne

variable (ext order) in
theorem nodup_posts (keyed : config.Keyed) :
    ((tasks (subnetsToManage ext order config.subnets)).map Task.post).Nodup := by
  have posts : ∀ pairs : List (Subnet × Subnet), (tasks pairs).map Task.post =
      (pairs.map (fun pair => pair.1.id)).flatMap
        (fun id => [(Direction.bottomUp, id), (.topDown, id)]) := by
    intro pairs
    simp [tasks, List.map_flatMap, List.flatMap_map, Task.post]
  rw [posts, List.nodup_flatMap]
  refine ⟨fun id _ => by simp, (nodup_children keyed).imp fun ne => ?_⟩
  simp [Function.onFun, ne.symm]

theorem nodup_posts_of_spawned (keyed : config.Keyed) {managers : Subsystem}
    (spawned : managers.workers.map (·.task) = tasks (subnetsToManage ext order config.subnets)) :
    (managers.workers.map (·.task.post)).Nodup := by
  have distinct := nodup_posts ext order keyed
  rwa [← spawned, List.map_map] at distinct

end Tasks

/-! ## Iterations -/

theorem Subsystem.tasks_fire {ext : Ext} {s s' : Subsystem} {isShutdown : Bool}
    (taken : s.step ext (.fire isShutdown) = some s') :
    s'.workers.map (·.task) = s.workers.map (·.task) := by
  simp only [step, Option.ite_none_right_eq_some, Option.some.injEq] at taken
  obtain ⟨_, rfl⟩ := taken
  simp [Worker.notify, Function.comp_def]

namespace CheckpointSubsystem

variable {ext : Ext} {toml : String → Option Config} {s s' : CheckpointSubsystem}

/-- The managers of the current iteration, or of the last one if the next is about to start. -/
def workers (s : CheckpointSubsystem) : List Worker :=
  match s.position with
  | .spawned _ _ managers | .loaded _ _ (some managers) => managers.workers
  | _ => []

/-- The configuration is not read again before the managers have ended. -/
theorem done_of_getConfig {next : Nat} {config : Loaded} {managers : Subsystem}
    (before : s.position = .spawned next config managers)
    (taken : s.step ext toml .getConfig = some s') : managers.done ext := by
  simp only [step, before] at taken
  obtain ⟨_, -, read⟩ := Option.bind_eq_some_iff.mp taken
  simp only [Option.ite_none_right_eq_some] at read
  exact read.1.2

/-- The configuration `run` works with keeps every subnet under its id, its managers are those
for it, and the ones before have ended. -/
def Settled (ext : Ext) (s : CheckpointSubsystem) : Prop :=
  match s.position with
  | .loaded _ config previous =>
    config.config.Keyed ∧ ∀ managers ∈ previous, ∀ w ∈ managers.workers, w.ended ext
  | .spawned _ config managers => config.config.Keyed ∧ SpawnedFor ext config managers
  | _ => True

theorem settled_step {e : SubsystemEvent} (keyed : s.config.All Config.Keyed)
    (settled : s.Settled ext) (taken : s.step ext toml e = some s') : s'.Settled ext := by
  have read : ∀ {config}, s.config.store.getConfig = some config → config.config.Keyed := by
    intro config get
    obtain ⟨-, rfl⟩ := ReloadableConfig.getConfig_eq_some.mp get
    exact keyed.inPlace
  cases stepped_of_step taken with
  | config | requestShutdown => exact settled
  | subscribe => trivial
  | getConfig before get => exact ⟨read get, by simp⟩
  | getConfigAgain before get =>
    refine ⟨read get, fun managers mem w member => ?_⟩
    obtain rfl := Option.some.inj mem
    have done := List.all_eq_true.mp (done_of_getConfig before taken) w member
    rw [Bool.and_eq_true] at done
    exact done.1
  | spawn before =>
    simp only [Settled, before] at settled
    exact ⟨settled.1, _, Subsystem.tasks_start _ _⟩
  | onShutdownRequested before _ fired =>
    simp only [Settled, before] at settled
    obtain ⟨keyed, order, spawned⟩ := settled
    exact ⟨keyed, order, (Subsystem.tasks_fire fired).trans spawned⟩
  | recv before _ fired =>
    simp only [Settled, before] at settled
    obtain ⟨keyed, order, spawned⟩ := settled
    exact ⟨keyed, order, (Subsystem.tasks_fire fired).trans spawned⟩
  | managers before inner moved =>
    simp only [Settled, before] at settled
    obtain ⟨keyed, order, spawned⟩ := settled
    exact ⟨keyed, order, (Subsystem.step_ofManagers inner moved).1.trans spawned⟩

end CheckpointSubsystem

/-- The subsystem, and the managers of the iterations that are over. -/
structure Chronicle where
  subsystem : CheckpointSubsystem
  former : List Worker

namespace Chronicle

def new (files : String → Option String) (path : String) (config : Config) : Chronicle :=
  ⟨.new files path config, []⟩

/-- Spawning starts an iteration, and puts the managers of the one before with the former ones,
whatever they are doing. -/
def step (ext : Ext) (toml : String → Option Config) (c : Chronicle) (e : SubsystemEvent) :
    Option Chronicle :=
  (c.subsystem.step ext toml e).map fun s =>
    match e with
    | .spawn _ => ⟨s, c.former ++ c.subsystem.workers⟩
    | _ => ⟨s, c.former⟩

/-- All the managers that were ever spawned and are still at work. -/
def atWork (ext : Ext) (c : Chronicle) : List Worker :=
  (c.former ++ c.subsystem.workers).filter (fun w => !w.ended ext)

/-- The former managers have ended. -/
structure Orderly (ext : Ext) (c : Chronicle) : Prop where
  keyed : c.subsystem.config.All Config.Keyed
  settled : c.subsystem.Settled ext
  ended : ∀ w ∈ c.former, w.ended ext

variable {ext : Ext} {toml : String → Option Config} {c c' : Chronicle}

theorem config_step {s s' : CheckpointSubsystem} {e : SubsystemEvent}
    (made : ∀ text config, toml text = some config → config.Keyed)
    (keyed : s.config.All Config.Keyed) (taken : s.step ext toml e = some s') :
    s'.config.All Config.Keyed := by
  cases CheckpointSubsystem.stepped_of_step taken with
  | config reloaded => exact keyed.step made reloaded
  | _ => exact keyed

theorem Orderly.step {e : SubsystemEvent} (orderly : c.Orderly ext)
    (made : ∀ text config, toml text = some config → config.Keyed)
    (taken : c.step ext toml e = some c') : c'.Orderly ext := by
  obtain ⟨s, moved, rfl⟩ := Option.map_eq_some_iff.mp taken
  have keyed := config_step made orderly.keyed moved
  have settled := CheckpointSubsystem.settled_step orderly.keyed orderly.settled moved
  cases e with
  | spawn hashes =>
    refine ⟨keyed, settled, fun w mem => ?_⟩
    rcases List.mem_append.mp mem with old | new
    · exact orderly.ended w old
    · cases CheckpointSubsystem.stepped_of_step moved with
      | @spawn _ _ previous _ before =>
        have settled := orderly.settled
        simp only [CheckpointSubsystem.workers, CheckpointSubsystem.Settled, before] at new settled
        cases previous with
        | none => simp at new
        | some managers => exact settled.2 managers rfl w new
  | _ => exact ⟨keyed, settled, orderly.ended⟩

theorem Orderly.atWork_eq (orderly : c.Orderly ext) :
    c.atWork ext = c.subsystem.workers.filter (fun w => !w.ended ext) := by
  have none : c.former.filter (fun w => !w.ended ext) = [] := by
    rw [List.filter_eq_nil_iff]
    intro w mem
    simp [orderly.ended w mem]
  rw [atWork, List.filter_append, none, List.nil_append]

theorem Orderly.nodup_atWork (orderly : c.Orderly ext) :
    ((c.atWork ext).map (·.task.post)).Nodup := by
  rw [orderly.atWork_eq]
  have settled := orderly.settled
  unfold CheckpointSubsystem.workers
  unfold CheckpointSubsystem.Settled at settled
  split
  · rename_i next config managers position
    simp only [position] at settled
    obtain ⟨keyed, order, spawned⟩ := settled
    exact (nodup_posts_of_spawned keyed spawned).sublist (List.filter_sublist.map _)
  · rename_i next config managers position
    simp only [position] at settled
    -- The next iteration has not started, and everybody has left.
    rw [List.filter_eq_nil_iff.mpr fun w mem => by simp [settled.2 managers rfl w mem]]
    exact List.nodup_nil
  · exact List.nodup_nil

/-- Of all the managers that were ever spawned, over any number of reloads, no two are at work
in the same direction for the same child; and the managers of the current iteration are exactly
those that its configuration asks for. -/
theorem managers_exclusive (ext : Ext) (parse : Parse) (files : String → Option String)
    (path text : String) (config : Config) (read : Config.fromTomlStr parse text = some config)
    (events : List SubsystemEvent) (c : Chronicle)
    (run : events.foldlM (step ext (Config.fromTomlStr parse)) (new files path config) = some c) :
    ((c.atWork ext).map (·.task.post)).Nodup ∧
      ∀ next loaded managers, c.subsystem.position = .spawned next loaded managers →
        (managers.workers.map (·.task.post)).Nodup ∧
          ∀ t, t ∈ managers.workers.map (·.task) ↔ Wanted ext loaded.config t := by
  have made : ∀ text config, Config.fromTomlStr parse text = some config → config.Keyed :=
    fun text config read => Config.keyed_of_fromTomlStr read
  have start : (new files path config).Orderly ext :=
    ⟨Reloads.all_new (made text config read) files path, trivial, by simp [new]⟩
  have orderly : c.Orderly ext :=
    foldlM_invariant (fun _ _ _ orderly taken => orderly.step made taken) start run
  refine ⟨orderly.nodup_atWork, fun next loaded managers position => ?_⟩
  have settled := orderly.settled
  simp only [CheckpointSubsystem.Settled, position] at settled
  obtain ⟨keyed, order, spawned⟩ := settled
  refine ⟨nodup_posts_of_spawned keyed spawned, fun t => ?_⟩
  rw [spawned]
  exact mem_tasks_iff_wanted keyed

/-- A subnet with an account that is listed twice, and its parent. -/
def parsePair : Parse := fun text =>
  some (text, [⟨⟨"/root"⟩, []⟩, ⟨⟨"/root/t01"⟩, []⟩, ⟨⟨"/root/t01"⟩, [⟨[97]⟩]⟩])

/-- After a reload there are two former managers and two at work. -/
theorem managers_exclusive_reloaded :
    ∃ c : Chronicle, c.former.length = 2 ∧ (c.atWork .plain).length = 2 ∧
      ((c.atWork .plain).map (·.task.post)).Nodup := by
  have ends : (CheckpointSubsystem.reloadOnce.foldlM (step .plain (Config.fromTomlStr parsePair))
      (new (fun _ => some "addr new") "a.toml"
        ⟨"addr old", deserializeSubnetsFromVec ((parsePair "addr old").elim [] Prod.snd)⟩)).any
      (fun c => c.former.length = 2 ∧ (c.atWork .plain).length = 2) := by
    decide +kernel
  obtain ⟨c, run, former⟩ := (Option.any_eq_true _ _).mp ends
  obtain ⟨former, working⟩ := of_decide_eq_true former
  exact ⟨c, former, working, (managers_exclusive .plain parsePair (fun _ => some "addr new")
    "a.toml" "addr old" _ rfl CheckpointSubsystem.reloadOnce c run).1⟩

end Chronicle

end IpcAgent.Manager
