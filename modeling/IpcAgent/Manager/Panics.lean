import IpcAgent.Manager.CheckpointSubsystem

/-!
# Replies that make a manager panic

A manager that gets an error or a reply it cannot decode returns an error, and its peers go on.
But three checks on a reply panic: that a CID can be parsed, that a tipset is not empty, and,
in the bottom-up manager, that a tipset has a single block. The panic of one manager takes down
the task that drives all of them.
-/

namespace IpcAgent.Manager
open Library Lotus

/-! ## Sound replies -/

/-- A CID that is absent, or can be parsed. -/
def Parses (ext : Ext) (m : CIDMap) : Prop := ∀ s ∈ m.cid, (ext.cidFromStr s).isSome

/-- A tipset that passes the checks of a manager. -/
def SoundTipSet (ext : Ext) (d : Direction) (r : ChainHeadResponse) : Prop :=
  match r.cids with
  | [] => False
  | m :: rest => Parses ext m ∧ (d = .bottomUp → rest = [])

/-- A reply that passes the checks of a manager. -/
def SoundReply (ext : Ext) (d : Direction) : Reply → Prop
  | .tipSet r => SoundTipSet ext d r
  | .pushed m => Parses ext m
  | .cid found => ∀ m ∈ found, Parses ext m
  | _ => True

def SoundEvent (ext : Ext) (d : Direction) : Event (Call Side) Reply Mark → Prop
  | .exchange _ reply => SoundReply ext d reply
  | .mark _ => True

def IsPanic : Stop → Prop
  | .panic _ => True
  | .exit => False

section Decidable

variable {ext : Ext} {d : Direction}

instance {m : CIDMap} : Decidable (Parses ext m) := by unfold Parses; infer_instance

instance {r : ChainHeadResponse} : Decidable (SoundTipSet ext d r) := by
  unfold SoundTipSet
  split <;> infer_instance

instance {reply : Reply} : Decidable (SoundReply ext d reply) := by
  unfold SoundReply
  split <;> infer_instance

instance : DecidablePred (SoundEvent ext d)
  | .exchange _ reply => inferInstanceAs (Decidable (SoundReply ext d reply))
  | .mark _ => inferInstanceAs (Decidable True)

end Decidable

/-! ## The managers do not panic -/

/-- No panic, as long as the replies are sound. -/
abbrev Calm {α : Type} (ext : Ext) (d : Direction) (Q : α → Prop) (p : Prog Side α) : Prop :=
  p.Avoids (SoundEvent ext d) IsPanic Q

section Calm

variable {α : Type} {ext : Ext} {d : Direction} {client : Side}

theorem calm_request {rpc : Rpc} {decode : Reply → Option α} {Q : α → Prop}
    (answered : ∀ reply, SoundReply ext d reply → ∀ a, decode reply = some a → Q a) :
    Calm ext d Q (request client rpc decode) := by
  refine Program.avoids_bind (Program.avoids_ask answered) fun reply hQ => ?_
  cases hd : decode reply with
  | none => cases reply <;> simp only [hd] <;> exact Program.avoids_fail _
  | some a => cases reply <;> simp only [hd] <;>
      first | exact Program.avoids_pure (hQ a hd) | exact Program.avoids_fail _

/-- A request whose reply is not checked. -/
theorem calm_read {rpc : Rpc} {decode : Reply → Option α} :
    Calm ext d (fun _ => True) (request client rpc decode) := calm_request fun _ _ _ _ => trivial

theorem calm_tipSet {rpc : Rpc} : Calm ext d (SoundTipSet ext d)
    (request client rpc (fun | .tipSet r => some r | _ => none)) := by
  refine calm_request fun reply sound r decoded => ?_
  cases reply with
  | tipSet r' =>
    obtain rfl := Option.some.inj decoded
    exact sound
  | _ => cases decoded

theorem calm_ofExcept {x : Except String α} : Calm ext d (fun _ => True) (ofExcept x) := by
  cases x with
  | ok a => exact Program.avoids_pure trivial
  | error e => exact Program.avoids_fail _

theorem calm_cidTryFrom {m : CIDMap} (parses : Parses ext m) :
    Calm ext d (fun _ => True) (cidTryFrom ext m) := by
  unfold cidTryFrom
  cases hm : m.cid with
  | none => exact Program.avoids_fail _
  | some s =>
    obtain ⟨cid, parsed⟩ := Option.isSome_iff_exists.mp (parses s hm)
    simpa [parsed] using Program.avoids_pure trivial

theorem calm_tipSetCid {r : ChainHeadResponse} (sound : SoundTipSet ext d r) :
    Calm ext d (fun _ => True) (tipSetCid ext r) := by
  obtain ⟨cids, height⟩ := r
  cases cids with
  | nil => exact sound.elim
  | cons m rest =>
    exact Program.avoids_bind (Program.avoids_pure (Q := (· = m)) rfl) fun m' same =>
      calm_cidTryFrom (same ▸ sound.1)

theorem calm_assertOneCid {r : ChainHeadResponse} (sound : SoundTipSet ext .bottomUp r) :
    Calm ext .bottomUp (fun _ => True) (assertOneCid r) := by
  obtain ⟨cids, height⟩ := r
  cases cids with
  | nil => exact sound.elim
  | cons m rest =>
    obtain rfl := sound.2 rfl
    exact Program.avoids_pure trivial

theorem calm_epochTryFrom {height : UInt64} : Calm ext d (fun _ => True) (epochTryFrom height) := by
  unfold epochTryFrom
  split
  · exact Program.avoids_pure trivial
  · exact Program.avoids_fail _

theorem calm_serialize {params : Params} {description : String} :
    Calm ext d (fun _ => True) (serialize ext params description) := by
  unfold serialize
  split
  · exact Program.avoids_pure trivial
  · exact Program.avoids_fail _

theorem calm_validatorSet {validators : Option (List Validator)} :
    Calm ext d (fun _ => True) (validatorSet ext validators) := by
  cases validators with
  | none => exact Program.avoids_pure trivial
  | some l => exact Program.avoids_mapM l fun _ _ => calm_ofExcept

theorem calm_ipcGetCheckpointTemplate {epoch : ChainEpoch} :
    Calm ext d (fun _ => True) (ipcGetCheckpointTemplate ext client epoch) := by
  refine Program.avoids_bind calm_read fun r _ => ?_
  split
  · exact Program.avoids_fail _
  · split
    · exact Program.avoids_pure trivial
    · exact Program.avoids_fail _

theorem calm_ipcGetPrevCheckpointForChild {child : SubnetID} :
    Calm ext d (fun found => ∀ m ∈ found, Parses ext m)
      (ipcGetPrevCheckpointForChild ext client child) := by
  unfold ipcGetPrevCheckpointForChild
  split
  · exact Program.avoids_fail _
  · refine calm_request fun reply sound found decoded => ?_
    cases reply with
    | cid found' =>
      obtain rfl := Option.some.inj decoded
      exact sound
    | _ => cases decoded

theorem calm_ipcGetTopdownMsgs {subnet : SubnetID} {gateway : Address} {tipSet : Cid}
    {nonce : UInt64} :
    Calm ext d (fun _ => True) (ipcGetTopdownMsgs ext client subnet gateway tipSet nonce) :=
  Program.avoids_bind calm_read fun _ _ => calm_ofExcept

theorem calm_mpoolPushAndWait {message : MpoolPushMessage} :
    Calm ext d (fun _ => True) (mpoolPushAndWait ext client message) := by
  refine Program.avoids_bind (Q := Parses ext) (calm_request fun reply sound m decoded => ?_)
    fun m parses => Program.avoids_bind (calm_cidTryFrom parses) fun _ _ => calm_read
  cases reply with
  | pushed m' =>
    obtain rfl := Option.some.inj decoded
    exact sound
  | _ => cases decoded

/-- None of the parts of a scheme panics. -/
structure Scheme.Calm {σ : Type} (ext : Ext) (d : Direction) (s : Scheme σ) : Prop where
  readPeriod : Manager.Calm ext d (fun _ => True) s.readPeriod
  observe : ∀ period, Manager.Calm ext d (fun _ => True) (s.observe period)
  catchUp : ∀ period outer, Manager.Calm ext d (fun _ => True) (s.catchUp period outer)
  submit : ∀ due account, Manager.Calm ext d (fun _ => True) (s.submit due account)

variable (child : Subnet)

theorem calm_buildCheckpoint (childTipSet : Cid) (epoch : ChainEpoch) :
    Calm ext d (fun _ => True) (buildCheckpoint ext child childTipSet epoch) := by
  refine Program.avoids_bind calm_ipcGetCheckpointTemplate fun template _ => ?_
  refine Program.avoids_bind calm_ipcGetPrevCheckpointForChild fun prev parses => ?_
  cases prev with
  | none => exact Program.avoids_pure trivial
  | some response =>
    exact Program.avoids_bind (calm_cidTryFrom (parses response rfl))
      fun _ _ => Program.avoids_pure trivial

theorem calm_bottomUp (parentId : SubnetID) :
    (bottomUp ext child parentId).Calm ext .bottomUp where
  readPeriod := by
    refine Program.avoids_bind calm_tipSet fun head sound => ?_
    refine Program.avoids_bind (calm_tipSetCid sound) fun _ _ => ?_
    exact Program.avoids_bind calm_read fun _ _ => Program.avoids_pure trivial
  observe period := by
    refine Program.avoids_bind calm_tipSet fun childHead childSound => ?_
    refine Program.avoids_bind calm_epochTryFrom fun currEpoch _ => ?_
    refine Program.avoids_bind (calm_tipSetCid childSound) fun childTipSet _ => ?_
    refine Program.avoids_bind calm_read fun gateway _ => ?_
    refine Program.avoids_bind calm_tipSet fun parentHead parentSound => ?_
    refine Program.avoids_bind (calm_assertOneCid parentSound) fun _ _ => ?_
    refine Program.avoids_bind (calm_tipSetCid parentSound) fun parentTipSet _ => ?_
    refine Program.avoids_bind calm_read fun state _ => ?_
    dsimp only
    split
    · refine Program.avoids_bind calm_validatorSet fun _ _ => ?_
      refine Program.avoids_bind (calm_assertOneCid childSound) fun _ _ => ?_
      exact Program.avoids_bind (calm_tipSetCid childSound) fun _ _ => Program.avoids_pure trivial
    · exact Program.avoids_pure trivial
  catchUp period outer := by
    refine Program.avoids_bind calm_tipSet fun childHead _ => ?_
    refine Program.avoids_bind calm_epochTryFrom fun currEpoch _ => ?_
    refine Program.avoids_bind calm_tipSet fun parentHead parentSound => ?_
    refine Program.avoids_bind (calm_tipSetCid parentSound) fun parentTipSet _ => ?_
    refine Program.avoids_bind calm_read fun state _ => ?_
    dsimp only
    split <;> exact Program.avoids_pure trivial
  submit due account := by
    refine Program.avoids_bind (calm_buildCheckpoint child _ _) fun _ _ => ?_
    refine Program.avoids_bind calm_serialize fun _ _ => ?_
    refine Program.avoids_bind Program.avoids_tell fun _ _ => ?_
    exact Program.avoids_bind calm_mpoolPushAndWait fun _ _ => Program.avoids_pure trivial

theorem calm_readHeads : Calm ext d (fun _ => True) (readHeads ext) := by
  refine Program.avoids_bind calm_tipSet fun parentHead parentSound => ?_
  refine Program.avoids_bind calm_epochTryFrom fun _ _ => ?_
  refine Program.avoids_bind (calm_tipSetCid parentSound) fun _ _ => ?_
  refine Program.avoids_bind calm_tipSet fun childHead childSound => ?_
  refine Program.avoids_bind (calm_tipSetCid childSound) fun _ _ => ?_
  exact Program.avoids_bind calm_read fun _ _ => Program.avoids_pure trivial

theorem calm_topDown (parentId : SubnetID) : (topDown ext child parentId).Calm ext .topDown where
  readPeriod := by
    refine Program.avoids_bind calm_tipSet fun head sound => ?_
    refine Program.avoids_bind (calm_tipSetCid sound) fun _ _ => ?_
    exact Program.avoids_bind calm_read fun _ _ => Program.avoids_pure trivial
  observe period := by
    refine Program.avoids_bind calm_readHeads fun heads _ => ?_
    dsimp only
    split
    · refine Program.avoids_bind calm_read fun _ _ => ?_
      exact Program.avoids_bind calm_validatorSet fun _ _ => Program.avoids_pure trivial
    · exact Program.avoids_pure trivial
  catchUp period outer := by
    refine Program.avoids_bind calm_readHeads fun heads _ => ?_
    dsimp only
    split <;> exact Program.avoids_pure trivial
  submit due account := by
    refine Program.avoids_bind calm_read fun _ _ => ?_
    refine Program.avoids_bind calm_ofExcept fun _ _ => ?_
    refine Program.avoids_bind calm_tipSet fun submission sound => ?_
    refine Program.avoids_bind (calm_tipSetCid sound) fun _ _ => ?_
    refine Program.avoids_bind calm_ipcGetTopdownMsgs fun _ _ => ?_
    refine Program.avoids_bind calm_serialize fun _ _ => ?_
    refine Program.avoids_bind Program.avoids_tell fun _ _ => ?_
    exact Program.avoids_bind calm_mpoolPushAndWait fun _ _ => Program.avoids_pure trivial

theorem calm_waitOrExit : Calm ext d (fun _ => True) waitOrExit := by
  refine Program.avoids_bind (Q := fun _ => True) ?_ fun again _ => ?_
  · refine Program.avoids_bind (Q := fun _ => True) (Program.avoids_ask fun _ _ => trivial)
      fun r _ => ?_
    split
    · exact Program.avoids_pure trivial
    · exact Program.avoids_fail _
  · split
    · exact Program.avoids_pure trivial
    · exact fun _ => Program.wp_stop fun _ => id

/-- What is known wherever a manager may be. -/
def CalmHalt (ext : Ext) (d : Direction) (x : Halt (Call Side) Error Stop) (h : Trace Side) :
    Prop := (∀ e ∈ h, SoundEvent ext d e) → x.Avoids IsPanic

variable {σ : Type} {s : Scheme σ}

theorem wp_trySubmit_calm (calm : s.Calm ext d) (due : Due σ) (account : Address)
    (h : Trace Side) :
    (trySubmit s due account).wp (fun _ _ => True) (CalmHalt ext d) h := by
  refine wp_trySubmit (Program.wp_mono (calm.submit due account).wp (fun _ _ => id)
    fun x h safe => ?_)
  cases x with
  | fail e => trivial
  | _ => exact safe

/-- The loops need no invariant of their own. -/
theorem loops_calm (calm : s.Calm ext d) (accounts : List Address) :
    Loops s accounts (fun _ => True) (fun _ _ _ => True) (fun _ _ _ _ => True)
      (CalmHalt ext d) where
  readPeriod h _ := calm.readPeriod.wp
  observe period h _ := by
    refine Program.wp_mono (calm.observe period).wp (fun found h _ => ?_) fun _ _ => id
    cases found <;> trivial
  skip _ _ _ _ := id
  submit due account _ h _ := wp_trySubmit_calm calm due account h
  catchUp period due account _ h _ := by
    refine Program.wp_mono (calm.catchUp period due.seen).wp (fun found h _ => ?_) fun _ _ => id
    cases found with
    | none => trivial
    | some late => exact wp_trySubmit_calm calm late account _
  voted _ _ _ _ := id
  done _ _ := id
  wait h _ := calm_waitOrExit.wp
  retry _ _ _ h _ := calm_waitOrExit.wp
  spin _ _ _ := trivial
  spinVote _ _ _ _ _ _ := trivial

theorem manage_not_panic (calm : s.Calm ext d) {accounts : List Address} {as : List Reply}
    (sound : ∀ e ∈ ((manage s accounts).run as).trace, SoundEvent ext d e) (message : String) :
    ((manage s accounts).run as).outcome ≠ .halt (.stop (.panic message)) := by
  intro panics
  have run := (loops_calm calm accounts).manage (h := []) trivial as
  simp only [Program.Meets, panics] at run
  exact run sound trivial

end Calm

/-! ## The subsystem survives -/

namespace Worker

variable {ext : Ext} {w : Worker}

/-- The replies the manager has got so far are sound. -/
def Sound (ext : Ext) (w : Worker) : Prop :=
  ∀ e ∈ ((w.task.program ext).run w.answers).trace, SoundEvent ext w.task.direction e

instance : Decidable (w.Sound ext) := by unfold Sound; infer_instance

/-- A task panics only where its program does. -/
theorem exists_panic_of_panicked (panicked : w.panicked ext) :
    ∃ message, w.outcome ext = .halt (.stop (.panic message)) := by
  unfold Worker.panicked at panicked
  split at panicked <;> [skip; contradiction]
  rename_i message result
  refine ⟨message, ?_⟩
  obtain ⟨⟨direction, child, parent⟩, answers, notified, elapsed⟩ := w
  cases direction <;>
  · simp only [Worker.result, Task.result] at result
    unfold taskResult at result
    split at result <;> simp_all

theorem not_panicked_of_sound (sound : w.Sound ext) : ¬ w.panicked ext := by
  intro panicked
  obtain ⟨message, panics⟩ := exists_panic_of_panicked panicked
  obtain ⟨⟨direction, child, parent⟩, answers, notified, elapsed⟩ := w
  cases direction with
  | bottomUp => exact manage_not_panic (calm_bottomUp child parent.id) sound message panics
  | topDown => exact manage_not_panic (calm_topDown child parent.id) sound message panics

end Worker

namespace CheckpointSubsystem

open Reload

variable {ext : Ext} {toml : String → Option Config} {s s' : CheckpointSubsystem}
  {e : SubsystemEvent}

/-- All replies the managers have got so far are sound. -/
def Sound (ext : Ext) (s : CheckpointSubsystem) : Prop :=
  match s.position with
  | .spawned _ _ managers => ∀ w ∈ managers.workers, w.Sound ext
  | _ => True

instance : DecidablePred (Sound ext)
  | ⟨_, _, .spawned _ _ managers⟩ =>
    inferInstanceAs (Decidable (∀ w ∈ managers.workers, w.Sound ext))
  | ⟨_, _, .created⟩ | ⟨_, _, .subscribed _⟩ | ⟨_, _, .loaded _ _ _⟩ =>
    inferInstanceAs (Decidable True)

theorem Sound.noPanic (sound : s.Sound ext) : s.NoPanic ext := by
  obtain ⟨config, shutdownRequested, position⟩ := s
  cases position with
  | spawned next config managers => exact fun w mem => Worker.not_panicked_of_sound (sound w mem)
  | _ => trivial

/-- `run` has not failed. -/
def Alive (s : CheckpointSubsystem) : Prop :=
  match s.position with
  | .spawned _ _ managers => managers.phase ≠ .finished false
  | _ => True

theorem alive_step (noPanic : s.NoPanic ext) (alive : s.Alive)
    (taken : s.step ext toml e = some s') : s'.Alive := by
  cases stepped_of_step taken with
  | config reloaded => exact alive
  | requestShutdown => exact alive
  | subscribe => trivial
  | getConfig => trivial
  | getConfigAgain => trivial
  | spawn => exact Phase.noConfusion
  | onShutdownRequested before requested fired => simp [Alive, Subsystem.phase_fire fired]
  | recv before got fired => simp [Alive, Subsystem.phase_fire fired]
  | managers before inner moved =>
    simp only [Alive, NoPanic, before] at alive noPanic
    obtain phase | ⟨_, phase⟩ | ⟨⟨w, mem, panicked⟩, _⟩ := (Subsystem.step_ofManagers inner moved).2
    · simpa only [Alive, phase] using alive
    · simp [Alive, phase]
    · exact absurd panicked (noPanic w mem)

/-- Managers that have all ended are followed by those for the latest configuration. -/
theorem restarts {next : Nat} {loaded latest : Loaded} {managers : Subsystem}
    (position : s.position = .spawned next loaded managers)
    (stopping : managers.phase = .stopping false) (done : managers.done ext)
    (get : s.config.store.getConfig = some latest) (order : HashOrder SubnetID) :
    [.getConfig, .spawn order].foldlM (step ext toml) s = some { s with
      position := .spawned next latest (.start ext order latest.config.subnets) } := by
  simp [List.foldlM, step, get, position, stopping, done, Subsystem.step]

/-- As long as the replies are sound no manager panics, and the next reload is followed by the
managers of every pair. -/
theorem restarts_of_sound (ext : Ext) (toml : String → Option Config)
    (files : String → Option String) (path : String) (config : Config)
    (events : List SubsystemEvent)
    (sound : Throughout (step ext toml) (fun s _ => s.Sound ext) (new files path config) events)
    (s : CheckpointSubsystem)
    (run : events.foldlM (step ext toml) (new files path config) = some s) (last : s.Sound ext)
    (next : Nat) (loaded : Loaded) (managers : Subsystem)
    (position : s.position = .spawned next loaded managers) :
    (∀ w ∈ managers.workers, ¬ w.panicked ext) ∧ managers.phase ≠ .finished false ∧
      (managers.phase = .stopping false → (∀ w ∈ managers.workers, w.ended ext) →
        ∀ latest ∈ s.config.store.getConfig, ∀ order,
          [.getConfig, .spawn order].foldlM (step ext toml) s = some { s with
            position := .spawned next latest (.start ext order latest.config.subnets) }) := by
  have alive : s.Alive :=
    sound.foldlM (fun _ _ _ here alive => alive_step (Sound.noPanic here) alive)
      (show Alive (new files path config) from trivial) run
  have noPanic := last.noPanic
  simp only [Alive, NoPanic, position] at alive noPanic
  refine ⟨noPanic, alive, fun stopping ended latest get order => ?_⟩
  refine restarts position stopping ?_ get order
  rw [Subsystem.done, List.all_eq_true]
  intro w mem
  simp [ended w mem, noPanic w mem]

/-- The managers have ended after a reload, and the configuration can be read. -/
def drained (ext : Ext) (s : CheckpointSubsystem) : Bool :=
  match s.position with
  | .spawned _ _ managers =>
    managers.phase = .stopping false && managers.workers.all (·.ended ext) &&
      s.config.store.getConfig.isSome
  | _ => false

def reloadAndStop : List SubsystemEvent :=
  .subscribe :: iteration ++ request 0 ++ [.recv] ++ stopped

theorem restarts_of_sound_reloaded :
    ∃ s s' next latest, reloadAndStop.foldlM (step .plain onePairAt) initial = some s ∧
      [.getConfig, .spawn (.plain _)].foldlM (step .plain onePairAt) s = some s' ∧
      s'.position = .spawned next latest (.start .plain (.plain _) latest.config.subnets) := by
  have ends : (reloadAndStop.foldlM (step .plain onePairAt) initial).any
      (fun s => s.drained .plain && decide (s.Sound .plain)) := by decide +kernel
  obtain ⟨s, run, drained⟩ := (Option.any_eq_true _ _).mp ends
  obtain ⟨drained, sound⟩ := Bool.and_eq_true_iff.mp drained
  unfold CheckpointSubsystem.drained at drained
  split at drained <;> [skip; contradiction]
  rename_i next loaded managers position
  simp only [Bool.and_eq_true, decide_eq_true_eq, List.all_eq_true] at drained
  obtain ⟨⟨stopping, ended⟩, get⟩ := drained
  obtain ⟨latest, get⟩ := Option.isSome_iff_exists.mp get
  have survives := restarts_of_sound .plain onePairAt (fun _ => some "addr new") "a.toml"
    ⟨"addr old", Subsystem.onePair⟩ reloadAndStop (by decide +kernel) s run
    (of_decide_eq_true sound) next loaded managers position
  exact ⟨s, _, next, latest, run, survives.2.2 stopping ended latest get (.plain _), rfl⟩

/-- `run` has failed because of a panic, and nobody has asked it to end. -/
def failed (ext : Ext) (s : CheckpointSubsystem) : Bool :=
  match s.position with
  | .spawned _ _ ⟨.finished false, workers⟩ =>
    workers.any (·.panicked ext) && !s.shutdownRequested
  | _ => false

/-- A reload while one of the managers is asleep, after `replies` to the other. -/
def reloadAfter (replies : List Step) (asleep : Nat) : List SubsystemEvent :=
  [.subscribe, .getConfig, .spawn (.plain _)] ++ replies.map .managers ++ request 0 ++
    [.recv, .managers (.wake asleep false), .managers .fail]

/-- The parent's head has two blocks. -/
def twoBlocks : List Step :=
  let head : Reply := .tipSet ⟨[⟨some "c"⟩], 0⟩
  [head, .subnetActorState ⟨10, none, ⟨0⟩⟩, head, .gatewayState ⟨10, 0, ⟨0⟩, false⟩,
    .tipSet ⟨[⟨some "c"⟩, ⟨some "d"⟩], 0⟩].map (.reply 0) ++
    Subsystem.untilWaiting.drop 6

/-- The child's head has none. -/
def noBlock : List Step := Subsystem.untilWaiting.take 6 ++ [.reply 1 (.tipSet ⟨[], 0⟩)]

/-- A parser of CIDs that knows a single one. -/
def oneCid : Ext := { Ext.plain with cidFromStr s := if s = "c" then some ⟨[99]⟩ else none }

/-- The child's head has a block with a malformed CID. -/
def malformedCid : List Step :=
  Subsystem.untilWaiting.take 6 ++ [.reply 1 (.tipSet ⟨[⟨some "malformed"⟩], 0⟩)]

/-- One such reply, and the next reload ends the subsystem instead of restarting the managers. -/
theorem failed_after_bad_reply :
    ((reloadAfter twoBlocks 1).foldlM (step .plain onePairAt) initial).any (·.failed .plain) ∧
      ((reloadAfter noBlock 0).foldlM (step .plain onePairAt) initial).any (·.failed .plain) ∧
      ((reloadAfter malformedCid 0).foldlM (step oneCid onePairAt) initial).any
        (·.failed oneCid) := by
  decide +kernel

end CheckpointSubsystem

end IpcAgent.Manager
