import IpcAgent.Library.Run
import IpcAgent.Manager.Checkpoint
import IpcAgent.Library.HashMap

/-!
# The reloadable configuration

`config/reload.rs`, and `server/handlers/config.rs` for the requests that reload it. A reload
takes the path, then reads the file, then installs what it has read and notifies the
subscribers; only the last two are done under one lock. Other reloads and edits of the files
may come between any two of these steps.
-/

namespace IpcAgent.Reload
open Library

structure Config where
  jsonRpcAddress : String
  subnets : HashMap SubnetID Manager.Subnet

/-- A configuration, and which file it was read from and when. -/
structure Loaded where
  config : Config
  path : String
  readAt : Nat

structure ReloadableConfig where
  path : String
  config : Loaded
  /-- A reload holds the lock of `config`. -/
  writing : Bool
  /-- The number of notifications sent. -/
  sent : Nat

namespace ReloadableConfig

variable (s : ReloadableConfig)

/-- Waits for the lock, so there is no answer while a reload holds it. -/
def getConfig : Option Loaded := if s.writing then none else some s.config

variable {s} in
theorem getConfig_eq_some {config : Loaded} :
    s.getConfig = some config ↔ s.writing = false ∧ s.config = config := by
  simp [getConfig]

def setPath (path : String) : ReloadableConfig := { s with path := path }

/-- The end of a reload, up to the notification. -/
def install (new : Loaded) : ReloadableConfig := { s with config := new, writing := true }

/-- Notify the subscribers, and give the lock back. -/
def notify : ReloadableConfig := { s with writing := false, sent := s.sent + 1 }

/-- A receiver, as the number of the next notification it gets. -/
def newSubscriber : Nat := s.sent

end ReloadableConfig

/-- The capacity of the channel of notifications. -/
def capacity : Nat := 8

inductive Received
  | ok
  /-- Notifications were dropped; the receiver goes on with the oldest that is left. -/
  | lagged
deriving DecidableEq

/-- What a receiver gets when `sent` notifications were sent, unless it has to wait. The sender
is never dropped, so that the channel stays open. -/
def recv (sent next : Nat) : Option (Received × Nat) :=
  if sent ≤ next then none
  else if next + capacity < sent then some (.lagged, sent - capacity)
  else some (.ok, next + 1)

theorem recv_eq_none {sent next : Nat} : recv sent next = none ↔ sent ≤ next := by
  unfold recv
  grind

theorem recv_le {sent next next' : Nat} {received : Received}
    (got : recv sent next = some (received, next')) : next' ≤ sent := by
  unfold recv at got
  grind

/-- A receiver that is not too far behind misses nothing. -/
theorem recv_ok {sent next next' : Nat} {received : Received} (keepsUp : sent ≤ next + capacity)
    (got : recv sent next = some (received, next')) : received = .ok := by
  unfold recv at got
  grind

/-! ## Requests -/

/-- How far a request has come. -/
inductive Progress
  | received
  /-- The path is set, if the request names one. -/
  | ready
  | pathRead (path : String)
  | fileRead (new : Loaded)
  | installed (new : Loaded)
  | done (new : Loaded)
  | failed

/-- A `ReloadConfig` request. -/
structure Request where
  path : Option String
  progress : Progress

structure Reloads where
  store : ReloadableConfig
  files : String → Option String
  /-- The number of steps so far. -/
  clock : Nat
  requests : List Request

/-- What can happen next. -/
inductive Action
  | receive (path : Option String)
  | setPath (i : Nat)
  | readPath (i : Nat)
  | readFile (i : Nat)
  | install (i : Nat)
  | notify (i : Nat)
  | edit (path : String) (contents : Option String)

namespace Reloads

/-- `ReloadableConfig::new`. -/
def new (files : String → Option String) (path : String) (config : Config) : Reloads :=
  ⟨⟨path, ⟨config, path, 0⟩, false, 0⟩, files, 1, []⟩

def moved (s : Reloads) (i : Nat) (r : Request) : Reloads :=
  { s with requests := s.requests.set i r, clock := s.clock + 1 }

/-- One step of a request, unless it is not the next one; `toml` is
`Config::from_toml_str`. -/
def step (toml : String → Option Config) (s : Reloads) : Action → Option Reloads
  | .receive path =>
    some { s with requests := s.requests ++ [⟨path, .received⟩], clock := s.clock + 1 }
  | .setPath i =>
    match s.requests[i]? with
    | some ⟨path, .received⟩ =>
      some { s.moved i ⟨path, .ready⟩ with store := path.elim s.store s.store.setPath }
    | _ => none
  | .readPath i =>
    match s.requests[i]? with
    | some ⟨path, .ready⟩ => some (s.moved i ⟨path, .pathRead s.store.path⟩)
    | _ => none
  | .readFile i =>
    match s.requests[i]? with
    | some ⟨path, .pathRead found⟩ =>
      match (s.files found).bind toml with
      | some config => some (s.moved i ⟨path, .fileRead ⟨config, found, s.clock⟩⟩)
      | none => some (s.moved i ⟨path, .failed⟩)
    | _ => none
  | .install i =>
    match s.requests[i]? with
    | some ⟨path, .fileRead new⟩ =>
      if s.store.writing then none
      else some { s.moved i ⟨path, .installed new⟩ with store := s.store.install new }
    | _ => none
  | .notify i =>
    match s.requests[i]? with
    | some ⟨path, .installed new⟩ =>
      some { s.moved i ⟨path, .done new⟩ with store := s.store.notify }
    | _ => none
  | .edit path contents =>
    some { s with
      files := fun p => if p = path then contents else s.files p
      clock := s.clock + 1 }

/-- The steps one by one, each with what makes it possible. -/
inductive Stepped (toml : String → Option Config) (s : Reloads) : Action → Reloads → Prop
  | receive {path : Option String} : Stepped toml s (.receive path)
    { s with requests := s.requests ++ [⟨path, .received⟩], clock := s.clock + 1 }
  | setPath {i : Nat} {path : Option String} (found : s.requests[i]? = some ⟨path, .received⟩) :
    Stepped toml s (.setPath i)
      { s.moved i ⟨path, .ready⟩ with store := path.elim s.store s.store.setPath }
  | readPath {i : Nat} {path : Option String} (found : s.requests[i]? = some ⟨path, .ready⟩) :
    Stepped toml s (.readPath i) (s.moved i ⟨path, .pathRead s.store.path⟩)
  | readFile {i : Nat} {path : Option String} {file : String} {config : Config}
    (found : s.requests[i]? = some ⟨path, .pathRead file⟩) :
    Stepped toml s (.readFile i) (s.moved i ⟨path, .fileRead ⟨config, file, s.clock⟩⟩)
  | failed {i : Nat} {path : Option String} {file : String}
    (found : s.requests[i]? = some ⟨path, .pathRead file⟩) :
    Stepped toml s (.readFile i) (s.moved i ⟨path, .failed⟩)
  | install {i : Nat} {path : Option String} {new : Loaded}
    (found : s.requests[i]? = some ⟨path, .fileRead new⟩) :
    Stepped toml s (.install i)
      { s.moved i ⟨path, .installed new⟩ with store := s.store.install new }
  | notify {i : Nat} {path : Option String} {new : Loaded}
    (found : s.requests[i]? = some ⟨path, .installed new⟩) :
    Stepped toml s (.notify i) { s.moved i ⟨path, .done new⟩ with store := s.store.notify }
  | edit {path : String} {contents : Option String} : Stepped toml s (.edit path contents)
    { s with files := fun p => if p = path then contents else s.files p, clock := s.clock + 1 }

section Stepped

variable {toml : String → Option Config} {s s' : Reloads} {a : Action}

theorem stepped_of_step (taken : s.step toml a = some s') : Stepped toml s a s' := by
  cases a with
  | receive path =>
    obtain rfl := Option.some.inj taken
    exact .receive
  | setPath i =>
    simp only [step] at taken
    split at taken <;> [skip; contradiction]
    obtain rfl := Option.some.inj taken
    exact .setPath ‹_›
  | readPath i =>
    simp only [step] at taken
    split at taken <;> [skip; contradiction]
    obtain rfl := Option.some.inj taken
    exact .readPath ‹_›
  | readFile i =>
    simp only [step] at taken
    split at taken <;> [skip; contradiction]
    split at taken
    · obtain rfl := Option.some.inj taken
      exact .readFile ‹_›
    · obtain rfl := Option.some.inj taken
      exact .failed ‹_›
  | install i =>
    simp only [step] at taken
    split at taken <;> [skip; contradiction]
    split at taken <;> [contradiction; skip]
    obtain rfl := Option.some.inj taken
    exact .install ‹_›
  | notify i =>
    simp only [step] at taken
    split at taken <;> [skip; contradiction]
    obtain rfl := Option.some.inj taken
    exact .notify ‹_›
  | edit path contents =>
    obtain rfl := Option.some.inj taken
    exact .edit

/-- What a step does to the configuration and its subscribers. -/
theorem store_step (taken : s.step toml a = some s') :
    (∃ path, s'.store = s.store.setPath path) ∨ (∃ new, s'.store = s.store.install new) ∨
      s'.store = s.store.notify := by
  have same : ∃ path, s.store = s.store.setPath path := ⟨s.store.path, rfl⟩
  cases stepped_of_step taken with
  | @setPath _ path _ =>
    cases path with
    | none => exact .inl same
    | some path => exact .inl ⟨path, rfl⟩
  | install => exact .inr (.inl ⟨_, rfl⟩)
  | notify => exact .inr (.inr rfl)
  | _ => exact .inl same

theorem sent_le_step (taken : s.step toml a = some s') : s.store.sent ≤ s'.store.sent := by
  rcases store_step taken with ⟨path, store⟩ | ⟨new, store⟩ | store
  · exact store ▸ Nat.le_refl _
  · exact store ▸ Nat.le_refl _
  · exact store ▸ Nat.le_succ _

end Stepped

end Reloads

/-! ## Overlapping requests -/

namespace Progress

def isReady : Progress → Bool
  | .ready => true
  | _ => false

/-- What is read and not yet installed. -/
def pending : Progress → Option Loaded
  | .fileRead new => some new
  | _ => none

end Progress

namespace Reloads

variable {toml : String → Option Config} {s s' : Reloads} {a : Action}

/-- An installation puts in place what was read from the path the request names, and nothing
older than what it replaces. -/
def Faithful (s : Reloads) : Action → Prop
  | .install i => ∀ r ∈ s.requests[i]?, ∀ new ∈ r.progress.pending,
    (∀ p ∈ r.path, new.path = p) ∧ s.store.config.readAt ≤ new.readAt
  | _ => True

/-- No path is set under a request that has set another and not yet read it, and no file is read
while something read earlier waits to be installed. -/
def Serialized (s : Reloads) : Action → Prop
  | .setPath i => ∀ r ∈ s.requests[i]?, ∀ p ∈ r.path,
    ∀ other ∈ s.requests, other.progress.isReady → ∀ q ∈ other.path, q = p
  | .readFile _ => ∀ other ∈ s.requests, other.progress.pending = none
  | _ => True

instance : Decidable (Faithful s a) := by unfold Faithful; split <;> infer_instance

instance : Decidable (Serialized s a) := by unfold Serialized; split <;> infer_instance

/-- What a request has found belongs to the path it names, and is not older than what is in
place. -/
def OnTrack (s : Reloads) (r : Request) : Prop :=
  match r.progress with
  | .ready => ∀ p ∈ r.path, s.store.path = p
  | .pathRead found => ∀ p ∈ r.path, found = p
  | .fileRead new =>
    (∀ p ∈ r.path, new.path = p) ∧ s.store.config.readAt ≤ new.readAt ∧ new.readAt ≤ s.clock
  | _ => True

/-- Every request is on track, and only one waits to install. -/
structure Ordered (s : Reloads) : Prop where
  onTrack : ∀ i : Nat, ∀ r ∈ s.requests[i]?, s.OnTrack r
  single : ∀ i j : Nat, ∀ r ∈ s.requests[i]?, ∀ r' ∈ s.requests[j]?,
    r.progress.pending.isSome → r'.progress.pending.isSome → i = j
  past : s.store.config.readAt ≤ s.clock

theorem ordered_new (files : String → Option String) (path : String) (config : Config) :
    Ordered (new files path config) where
  onTrack i r mem := by simp [new] at mem
  single i j r mem := by simp [new] at mem
  past := Nat.zero_le 1

/-- A request stays on track while the path it relies on and the configuration in place stay. -/
theorem OnTrack.mono {r : Request} (onTrack : s.OnTrack r)
    (path : r.progress.isReady → ∀ p ∈ r.path, s.store.path = p → s'.store.path = p)
    (config : r.progress.pending.isSome → s'.store.config = s.store.config)
    (clock : s.clock ≤ s'.clock) : s'.OnTrack r := by
  obtain ⟨named, progress⟩ := r
  cases progress with
  | ready => exact fun p mem => path rfl p mem (onTrack p mem)
  | fileRead new =>
    obtain ⟨fromPath, newer, past⟩ := onTrack
    refine ⟨fromPath, ?_, past.trans clock⟩
    rwa [config rfl]
  | _ => exact onTrack

/-- One request moves: it is on track afterwards, and the others can rely on what they did. -/
theorem Ordered.moved (ordered : Ordered s) {i : Nat} {r : Request}
    (requests : s'.requests = s.requests.set i r) (clock : s'.clock = s.clock + 1)
    (onTrack : s'.OnTrack r)
    (path : ∀ other ∈ s.requests, other.progress.isReady →
      ∀ p ∈ other.path, s.store.path = p → s'.store.path = p)
    (config : ∀ j ≠ i, ∀ other ∈ s.requests[j]?, other.progress.pending.isSome →
      r.progress.pending = none ∧ s'.store.config = s.store.config)
    (past : s'.store.config.readAt ≤ s.clock) : Ordered s' where
  onTrack j other mem := by
    rw [requests, List.getElem?_set] at mem
    by_cases same : i = j
    · rw [if_pos same] at mem
      split at mem
      · obtain rfl := Option.some.inj mem
        exact onTrack
      · simp at mem
    · rw [if_neg same] at mem
      have relies := path other (List.mem_of_getElem? mem)
      refine (ordered.onTrack j other mem).mono relies ?_ (by omega)
      intro pending
      exact (config j (Ne.symm same) other mem pending).2
  single j k first inFirst second inSecond := by
    rw [requests, List.getElem?_set] at inFirst inSecond
    grind [ordered.single]
  past := by omega

/-- A request that moves on without touching the path and the configuration. -/
theorem Ordered.moved_alone (ordered : Ordered s) {i : Nat} {r : Request}
    (requests : s'.requests = s.requests.set i r) (clock : s'.clock = s.clock + 1)
    (path : s'.store.path = s.store.path) (config : s'.store.config = s.store.config)
    (onTrack : s'.OnTrack r) (idle : r.progress.pending = none) : Ordered s' := by
  refine ordered.moved requests clock onTrack ?_ (fun _ _ _ _ _ => ⟨idle, config⟩) ?_
  · intro other mem ready p named relied
    rw [path, relied]
  · rw [config]
    exact ordered.past

/-- What waits to be installed is on track, so its installation is faithful. -/
theorem Ordered.faithful (ordered : Ordered s) (a : Action) : Faithful s a := by
  cases a with
  | install i =>
    intro r mem new pending
    have onTrack := ordered.onTrack i r mem
    obtain ⟨path, progress⟩ := r
    cases progress with
    | fileRead new' =>
      obtain rfl := Option.some.inj pending
      exact ⟨onTrack.1, onTrack.2.1⟩
    | _ => exact absurd pending (by simp [Progress.pending])
  | _ => trivial

theorem Ordered.received (ordered : Ordered s) (path : Option String) :
    Ordered { s with requests := s.requests ++ [⟨path, .received⟩], clock := s.clock + 1 } where
  onTrack j r mem := by
    rcases List.mem_append.mp (List.mem_of_getElem? mem) with old | new
    · obtain ⟨k, found⟩ := List.mem_iff_getElem?.mp old
      exact (ordered.onTrack k r found).mono (fun _ _ _ => id) (fun _ => rfl) (Nat.le_succ _)
    · obtain rfl := List.mem_singleton.mp new
      trivial
  single j k r inFirst r' inSecond := by
    intro first second
    have old : ∀ (i : Nat) (r : Request), (s.requests ++ [⟨path, .received⟩])[i]? = some r →
        r.progress.pending.isSome → s.requests[i]? = some r := by
      intro i r mem pending
      grind [Progress.pending]
    exact ordered.single j k r (old j r inFirst first) r' (old k r' inSecond second) first second
  past := Nat.le_succ_of_le ordered.past

theorem Ordered.step (ordered : Ordered s) (serialized : Serialized s a)
    (taken : s.step toml a = some s') : Ordered s' := by
  cases stepped_of_step taken with
  | @receive path => exact ordered.received path
  | @setPath i path found =>
    cases path with
    | none =>
      exact ordered.moved_alone rfl rfl rfl rfl (fun p mem => nomatch mem) rfl
    | some path =>
      refine ordered.moved rfl rfl (fun p mem => Option.some.inj mem) ?_
        (fun _ _ _ _ _ => ⟨rfl, rfl⟩) ordered.past
      -- the others that rely on the path named the same one
      intro other mem ready q named _
      exact (serialized _ found path rfl other mem ready q named).symm
  | @readPath i path found =>
    exact ordered.moved_alone rfl rfl rfl rfl (ordered.onTrack i _ found) rfl
  | @readFile i path file config found =>
    refine ordered.moved rfl rfl ?_ (fun _ _ _ _ _ => id) ?_ ordered.past
    · exact ⟨ordered.onTrack i _ found, ordered.past, Nat.le_succ _⟩
    · -- nothing else waits to be installed
      intro j _ other mem pending
      simp [serialized other (List.mem_of_getElem? mem)] at pending
  | @failed i path file found =>
    exact ordered.moved_alone rfl rfl rfl rfl trivial rfl
  | @install i path new found =>
    refine ordered.moved rfl rfl trivial (fun _ _ _ _ _ => id) ?_ (ordered.onTrack i _ found).2.2
    intro j other r mem pending
    exact absurd (ordered.single j i r mem _ found pending rfl) other
  | @notify i path new found =>
    exact ordered.moved_alone rfl rfl rfl rfl trivial rfl
  | edit =>
    refine ⟨fun i r mem => ?_, ordered.single, Nat.le_succ_of_le ordered.past⟩
    exact (ordered.onTrack i r mem).mono (fun _ _ _ => id) (fun _ => rfl) (Nat.le_succ _)

/-- Requests that keep out of each other's way never roll the configuration back. -/
theorem faithful_of_serialized (toml : String → Option Config) (files : String → Option String)
    (path : String) (config : Config) (actions : List Action)
    (serialized : Throughout (Reloads.step toml) Serialized (new files path config) actions) :
    Throughout (Reloads.step toml) Faithful (new files path config) actions :=
  serialized.of_invariant
    (fun _ a _ here ordered taken => ⟨ordered.faithful a, ordered.step here taken⟩)
    (ordered_new files path config)

/-- A file that holds the address alone. -/
def addressOnly (text : String) : Option Config := some ⟨text, ∅⟩

def twoFiles (path : String) : Option String :=
  if path = "a.toml" then some "addr a" else if path = "b.toml" then some "addr b" else none

def atFileA : Reloads := new twoFiles "a.toml" ⟨"addr a", ∅⟩

/-- The address in place after `actions`, if they are possible. -/
def addressAfter (actions : List Action) : Option String :=
  (actions.foldlM (Reloads.step addressOnly) atFileA).map (·.store.config.config.jsonRpcAddress)

/-- One after the other: a request that names a path, an edit of that file, and one that names
none. -/
def oneByOne : List Action :=
  [.receive (some "b.toml"), .receive none, .setPath 0, .readPath 0, .readFile 0, .install 0,
    .notify 0, .edit "b.toml" (some "addr c"), .setPath 1, .readPath 1, .readFile 1, .install 1,
    .notify 1]

theorem faithful_of_serialized_oneByOne :
    addressAfter oneByOne = some "addr c" ∧
      Throughout (Reloads.step addressOnly) Faithful atFileA oneByOne :=
  ⟨by decide +kernel,
    faithful_of_serialized addressOnly twoFiles "a.toml" ⟨"addr a", ∅⟩ oneByOne
      (by decide +kernel)⟩

/-- The second request sets its path before the first has read its own. -/
def crossed : List Action :=
  [.receive (some "a.toml"), .receive (some "b.toml"), .setPath 0, .setPath 1, .readPath 0,
    .readFile 0, .install 0, .notify 0]

/-- The second request reads the edited file and installs it while the first still holds what it
read before the edit. -/
def overtaken : List Action :=
  [.receive none, .receive none, .setPath 0, .readPath 0, .readFile 0,
    .edit "a.toml" (some "addr new"), .setPath 1, .readPath 1, .readFile 1, .install 1, .notify 1,
    .install 0, .notify 0]

/-- The request for one path installs the other client's, and the contents from before an edit
replace those from after it. -/
theorem overlapping_reloads_unfaithful :
    (addressAfter crossed = some "addr b" ∧
      ¬ Throughout (Reloads.step addressOnly) Faithful atFileA crossed) ∧
    addressAfter overtaken = some "addr a" ∧
      ¬ Throughout (Reloads.step addressOnly) Faithful atFileA overtaken := by
  decide +kernel

/-! ## Failed requests -/

/-- A new request that is handled without interruption, up to the point where it can fail. -/
def handle (toml : String → Option Config) (s : Reloads) (path : Option String) :
    Option Reloads :=
  [.receive path, .setPath s.requests.length, .readPath s.requests.length,
    .readFile s.requests.length].foldlM (step toml) s

/-- Handling the request gives an error and leaves the state `s'`. -/
def Fails (toml : String → Option Config) (s : Reloads) (path : Option String) (s' : Reloads) :
    Prop :=
  s.handle toml path = some s' ∧ s'.requests[s.requests.length]? = some ⟨path, .failed⟩

/-- The path that a request without one reads. -/
def pathRead (toml : String → Option Config) (s : Reloads) : Option String := do
  let s' ← [.receive none, .setPath s.requests.length,
    .readPath s.requests.length].foldlM (step toml) s
  match ← s'.requests[s.requests.length]? with
  | ⟨_, .pathRead found⟩ => return found
  | _ => none

section Failed

/-- Handling begins the same way, whether it fails or not. -/
theorem foldlM_readPath (toml : String → Option Config) (s : Reloads) (path : Option String)
    (actions : List Action) :
    (.receive path :: .setPath s.requests.length :: .readPath s.requests.length ::
        actions).foldlM (step toml) s =
      actions.foldlM (step toml)
        { store := path.elim s.store s.store.setPath
          files := s.files
          clock := s.clock + 3
          requests := s.requests ++ [⟨path, .pathRead (path.getD s.store.path)⟩] } := by
  cases path <;> simp [step, moved, ReloadableConfig.setPath]

theorem pathRead_eq (toml : String → Option Config) (s : Reloads) :
    s.pathRead toml = some s.store.path := by
  rw [pathRead, foldlM_readPath]
  simp

variable {toml : String → Option Config} {s s' : Reloads} {path : Option String}

/-- What a failed request leaves behind. -/
theorem Fails.store_eq (fails : Fails toml s path s') :
    s'.store = path.elim s.store s.store.setPath := by
  obtain ⟨handled, -⟩ := fails
  rw [handle, foldlM_readPath, List.foldlM_cons, Option.bind_eq_bind, Option.bind_eq_some_iff]
    at handled
  obtain ⟨last, taken, ended⟩ := handled
  cases ended
  cases stepped_of_step taken <;> rfl

end Failed

/-- A failed request changes neither the configuration nor the number of notifications. Later
requests without a path read the same one as before just if the failed one named no other. -/
theorem failed_reload_keeps_config (toml : String → Option Config) (s s' : Reloads)
    (path : Option String) (fails : Fails toml s path s') :
    s'.store.getConfig = s.store.getConfig ∧ s'.store.sent = s.store.sent ∧
      (s'.pathRead toml = s.pathRead toml ↔ ∀ p ∈ path, p = s.store.path) := by
  rw [pathRead_eq, pathRead_eq, fails.store_eq]
  cases path with
  | none => exact ⟨rfl, rfl, by simp⟩
  | some p => exact ⟨rfl, rfl, by simp [ReloadableConfig.setPath]⟩

/-- The file in use is gone; the request fails, and the next one looks for it again. -/
theorem failed_reload_of_missing_file :
    ∃ s', Fails addressOnly (new (fun _ => none) "a.toml" ⟨"addr a", ∅⟩) none s' ∧
      s'.store.getConfig = (new (fun _ => none) "a.toml" ⟨"addr a", ∅⟩).store.getConfig ∧
      s'.store.sent = 0 ∧ s'.pathRead addressOnly = some "a.toml" := by
  refine ⟨_, ⟨rfl, rfl⟩, ?_⟩
  obtain ⟨config, sent, path⟩ := failed_reload_keeps_config addressOnly
    (new (fun _ => none) "a.toml" ⟨"addr a", ∅⟩) _ none ⟨rfl, rfl⟩
  exact ⟨config, sent, (path.mpr nofun).trans rfl⟩

/-- A request for a file that is not there fails, and the next one without a path looks for this
file and not for the one in use. -/
theorem failed_reload_moves_path :
    ∃ s', Fails addressOnly atFileA (some "c.toml") s' ∧
      atFileA.pathRead addressOnly = some "a.toml" ∧ s'.pathRead addressOnly = some "c.toml" :=
  ⟨_, ⟨rfl, rfl⟩, rfl, rfl⟩

end Reloads

end IpcAgent.Reload
