import IpcAgent.Library.GcraTicks
import IpcAgent.Resolver.Limiter

/-!
# How much is let through

The checks of `content.rs` and `limiter.rs` as they run: times are in whole nanoseconds, the
time that a byte takes to drain is rounded down to them, and the limiter forgets an address one
period after the first use of it, however full its bucket is by then. Blocks are served before
they are charged for, so the limit says nothing of the bytes that are served. It does bound
what the limiter itself lets through: the identifiers of the requests that it passes on, and
the reports that it finds room for.
-/

namespace IpcAgent.Resolver.Admission
open Library Content

/-! ## The limiter -/

/-- The two readings of the clock in a call: by `add`, and then by the cache. -/
structure Reading where
  asked : Nat
  looked : Nat
deriving DecidableEq

structure RateLimiter (κ : Type) where
  cache : TimeCache κ (GcraState Nat) Nat

namespace RateLimiter

variable {κ : Type} [DecidableEq κ]

def new (ttl : Nat) : RateLimiter κ := ⟨.new ttl⟩

/-- Try to add a certain amount of resources consumed to a key. -/
def add (r : RateLimiter κ) (limit : TickLimit) (key : κ) (cost : Nat) (now : Reading) :
    RateLimiter κ × Bool :=
  let added := r.cache.update now.looked key ⟨none⟩ (·.checkAndModifyTicks limit now.asked cost)
  (⟨added.1⟩, added.2)

theorem cache_add {r : RateLimiter κ} {limit : TickLimit} {key : κ} {cost : Nat} {now : Reading} :
    (r.add limit key cost now).1.cache = (r.cache.update now.looked key ⟨none⟩
      fun s => s.checkAndModifyTicks limit now.asked cost).1 := rfl

/-- The answers to a sequence of calls, each with its key, its cost and its time. -/
def answers (r : RateLimiter κ) (limit : TickLimit) : List (κ × Nat × Nat) → List Bool
  | [] => []
  | c :: calls =>
    (r.add limit c.1 c.2.1 ⟨c.2.2, c.2.2⟩).2 ::
      answers (r.add limit c.1 c.2.1 ⟨c.2.2, c.2.2⟩).1 limit calls

end RateLimiter

/-! ### The limiter without ticks

Where a byte drains in a whole number of nanoseconds, the limiter is that of `Limiter.lean`, at
times that happen to be whole. -/

section Mirrors

variable {κ : Type} [DecidableEq κ] {r : RateLimiter κ} {q : Limiter.RateLimiter κ}

def castEntry (e : Expiring (GcraState Nat) Nat) : Expiring (GcraState ℚ) ℚ :=
  ⟨e.element.cast, e.expires⟩

structure Mirrors (r : RateLimiter κ) (q : Limiter.RateLimiter κ) : Prop where
  ttl : q.cache.ttl = r.cache.ttl
  entries : ∀ key, q.cache.map.lookup key = (r.cache.map.lookup key).map castEntry

theorem Mirrors.get_eq (mirrors : Mirrors r q) (now : Nat) (key : κ) :
    q.cache.get now key = (r.cache.get now key).map castEntry := by
  rw [TimeCache.get_eq, TimeCache.get_eq, mirrors.entries, Option.filter_map]
  congr 2
  funext e
  simp [castEntry]

theorem Mirrors.opened_eq (mirrors : Mirrors r q) (now : Nat) (key : κ) :
    (q.cache.get now key).getD ⟨⟨none⟩, now + q.cache.ttl⟩ =
      castEntry ((r.cache.get now key).getD ⟨⟨none⟩, now + r.cache.ttl⟩) := by
  rw [mirrors.get_eq, mirrors.ttl]
  cases r.cache.get now key with
  | none => simp [castEntry, GcraState.cast]
  | some e => rfl

theorem Mirrors.add (mirrors : Mirrors r q) {limit : TickLimit} (pos : limit.Positive)
    (whole : limit.resourceLimit ∣ limit.period) (key : κ) (cost now : Nat) :
    (q.addAt (limit.cast pos) key cost now).2 = (r.add limit key cost ⟨now, now⟩).2 ∧
      Mirrors (r.add limit key cost ⟨now, now⟩).1 (q.addAt (limit.cast pos) key cost now).1 := by
  have opened := mirrors.opened_eq now key
  set e := (r.cache.get now key).getD ⟨⟨none⟩, now + r.cache.ttl⟩ with isOpened
  have checked : (castEntry e).element.checkAndModifyAt (limit.cast pos) now cost =
      ((e.element.checkAndModifyTicks limit now cost).1.cast,
        (e.element.checkAndModifyTicks limit now cost).2) :=
    e.element.checkAndModifyAt_cast pos whole now cost
  have cache : (q.addAt (limit.cast pos) key cost now).1.cache = (q.cache.update (now : ℚ) key
      ⟨none⟩ fun s => s.checkAndModifyAt (limit.cast pos) now cost).1 := rfl
  refine ⟨?_, mirrors.ttl, fun key' => ?_⟩
  · have answer : (q.addAt (limit.cast pos) key cost now).2 =
        (((q.cache.get now key).getD ⟨⟨none⟩, now + q.cache.ttl⟩).element.checkAndModifyAt
          (limit.cast pos) now cost).2 := rfl
    rw [answer, opened, checked]
    rfl
  · rw [cache, RateLimiter.cache_add]
    by_cases same : key' = key
    · subst same
      rw [TimeCache.lookup_update_self, TimeCache.lookup_update_self, opened, checked, ← isOpened]
      rfl
    · rw [TimeCache.lookup_update_of_ne same, TimeCache.lookup_update_of_ne same]
      exact mirrors.get_eq now key'

theorem answers_eq {limit : TickLimit} (pos : limit.Positive)
    (whole : limit.resourceLimit ∣ limit.period) (ttl : Nat) (calls : List (κ × Nat × Nat)) :
    (Limiter.RateLimiter.new ttl).answers (limit.cast pos)
        (calls.map fun c => ⟨c.1, c.2.1, c.2.2⟩) =
      (RateLimiter.new ttl).answers limit calls := by
  have start : Mirrors (RateLimiter.new ttl : RateLimiter κ) (.new ttl) := ⟨rfl, fun _ => rfl⟩
  generalize RateLimiter.new ttl = r at start ⊢
  generalize Limiter.RateLimiter.new (ttl : ℚ) = q at start ⊢
  induction calls generalizing r q with
  | nil => rfl
  | cons c calls ih =>
    obtain ⟨same, next⟩ := start.add pos whole c.1 c.2.1 c.2.2
    exact congrArg₂ List.cons same (ih _ _ next)

end Mirrors

/-! ## The behaviour -/

structure Config where
  rateLimitBytes : Nat
  rateLimitPeriod : Nat

/-- A limit of 0 bytes, or over a period of 0, is no limit. -/
def rateLimitOf (bytes period : Nat) : Option TickLimit :=
  if bytes = 0 ∨ period = 0 then none else some ⟨bytes, period⟩

structure Behaviour where
  peerAddresses : HashMap PeerId Multiaddr
  rateLimiter : RateLimiter Multiaddr
  rateLimitPeriod : Nat
  rateLimit : Option TickLimit

namespace Behaviour

def new (config : Config) : Behaviour where
  peerAddresses := ∅
  rateLimiter := .new config.rateLimitPeriod
  rateLimitPeriod := config.rateLimitPeriod
  rateLimit := rateLimitOf config.rateLimitBytes config.rateLimitPeriod

/-- What both checks do. -/
def charge (now : Reading) (b : Behaviour) (peer : PeerId) (bytes : Nat) : Behaviour × Bool :=
  match b.rateLimit with
  | none => (b, true)
  | some limit =>
    match b.peerAddresses.lookup peer with
    | none => (b, true)
    | some addr =>
      let added := b.rateLimiter.add limit addr (toU32 bytes) now
      ({ b with rateLimiter := added.1 }, added.2)

def checkRateLimit (now : Reading) (b : Behaviour) (peer : PeerId) (cid : Cid) :
    Behaviour × Bool :=
  b.charge now peer cid.bytes.length

def rateLimitUsed (now : Reading) (b : Behaviour) (peer : PeerId) (bytes : Nat) : Behaviour :=
  (b.charge now peer bytes).1

def updateRateLimit (b : Behaviour) (bytes : Nat) : Behaviour :=
  { b with rateLimit := rateLimitOf bytes b.rateLimitPeriod }

def onSwarmEvent (b : Behaviour) (e : FromSwarm) : Behaviour :=
  { b with peerAddresses := e.addresses b.peerAddresses }

end Behaviour

/-- What the behaviour is told. The reports are any: they come from the tasks of the service. -/
inductive Input
  | swarm (e : FromSwarm)
  | request (peer : PeerId) (cid : Cid)
  | used (peer : PeerId) (bytes : Nat)
  | updateRateLimit (bytes : Nat)
deriving DecidableEq

namespace Behaviour

def step (b : Behaviour) : Reading × Input → Behaviour
  | (_, .swarm e) => b.onSwarmEvent e
  | (now, .request peer cid) => (b.checkRateLimit now peer cid).1
  | (now, .used peer bytes) => b.rateLimitUsed now peer bytes
  | (_, .updateRateLimit bytes) => b.updateRateLimit bytes

def run (b : Behaviour) (inputs : List (Reading × Input)) : Behaviour := inputs.foldl step b

end Behaviour

/-- What an input is to be charged, and who: a request for its identifier, a report for the size
of the block. -/
def Input.charging : Input → Option (PeerId × Nat)
  | .request peer cid => some (peer, cid.bytes.length)
  | .used peer bytes => some (peer, bytes)
  | .swarm _ | .updateRateLimit _ => none

namespace Behaviour

/-- The bytes that an input gets past the limit of an address. -/
def admitted (addr : Multiaddr) (b : Behaviour) (i : Reading × Input) : Nat :=
  match i.2.charging with
  | some (peer, bytes) =>
    if b.peerAddresses.lookup peer = some addr ∧ (b.charge i.1 peer bytes).2 = true
    then toU32 bytes else 0
  | none => 0

def admittedIn (addr : Multiaddr) (b : Behaviour) : List (Reading × Input) → Nat
  | [] => 0
  | i :: inputs => b.admitted addr i + (b.step i).admittedIn addr inputs

end Behaviour

/-! ## What is left of a bucket

A bucket is drained as time goes by, and replaced by an empty one when its entry has expired.
So two things bound what a key can still use up to a time: how far ahead the bucket is filled,
and how many entries the key can still be given. -/

section

variable (limit : TickLimit) (ttl stop : Nat)

/-- The time up to which a bucket is filled, a period ahead at most. A key without an entry can
use nothing before it is given one, as if its bucket were full. -/
def level (entry : Option (Expiring (GcraState Nat) Nat)) (t : Nat) : Nat :=
  match entry with
  | none => t + limit.period
  | some e => min (e.element.emptyAt t) (t + limit.period)

/-- The entries that can be made from `start` on, one after the other. -/
def freshEntries (start : Nat) : Nat := if start ≤ stop then (stop - start) / ttl + 1 else 0

/-- How many entries a key can still be given at `t`. -/
def entriesLeft (entry : Option (Expiring (GcraState Nat) Nat)) (t : Nat) : Nat :=
  freshEntries ttl stop ((entry.map (·.expires)).getD t)

variable {limit ttl stop}

theorem freshEntries_anti {start start' : Nat} (le : start ≤ start') :
    freshEntries ttl stop start' ≤ freshEntries ttl stop start := by
  unfold freshEntries
  split
  · rw [if_pos (by omega)]
    exact Nat.succ_le_succ (Nat.div_le_div_right (by omega))
  · exact Nat.zero_le _

theorem freshEntries_renewed (pos : 0 < ttl) {start : Nat} (le : start ≤ stop) :
    freshEntries ttl stop (start + ttl) + 1 ≤ freshEntries ttl stop start := by
  unfold freshEntries
  rw [if_pos le]
  split
  · rename_i within
    have : stop - start = stop - (start + ttl) + ttl := by omega
    rw [this, Nat.add_div_right _ pos]
  · exact Nat.succ_le_succ (Nat.zero_le _)

variable {entry : Option (Expiring (GcraState Nat) Nat)} {t t' : Nat}

theorem level_le : level limit entry t ≤ t + limit.period := by
  cases entry with
  | none => exact le_rfl
  | some e => exact min_le_right _ _

theorem le_level : t ≤ level limit entry t := by
  cases entry with
  | none => exact Nat.le_add_right _ _
  | some e => exact le_min (e.element.le_emptyAt t) (Nat.le_add_right _ _)

theorem level_mono (le : t ≤ t') : level limit entry t ≤ level limit entry t' := by
  cases entry with
  | none => exact Nat.add_le_add_right le _
  | some e => exact min_le_min (e.element.emptyAt_mono le) (Nat.add_le_add_right le _)

/-- What the check does to a bucket, by what it lets through. -/
theorem level_checkAndModifyTicks (limit : TickLimit) (e : Expiring (GcraState Nat) Nat)
    (cost : Nat) {asked looked : Nat} (later : asked ≤ looked) :
    let checked := e.element.checkAndModifyTicks limit asked cost
    limit.incrementInterval (if checked.2 = true then cost else 0) + level limit (some e) asked ≤
      level limit (some { e with element := checked.1 }) looked := by
  intro checked
  refine le_trans ?_ (level_mono later)
  cases passed : checked.2 with
  | true =>
    obtain ⟨room, empty⟩ := GcraState.checkAndModifyTicks_of_admitted passed
    have filled : checked.1.emptyAt asked =
        e.element.emptyAt asked + limit.incrementInterval cost := empty
    simp only [level, if_true, filled]
    omega
  | false =>
    have same : checked.1 = e.element := GcraState.checkAndModifyTicks_of_refused passed
    simp [same, TickLimit.incrementInterval]

end

namespace RateLimiter

variable {κ : Type} [DecidableEq κ] {r : RateLimiter κ} {limit : TickLimit} {key key' : κ}
  {cost t t' stop : Nat} {now : Reading}

/-- While time goes by, the bucket is not filled less and no entry is won. -/
theorem level_get_le (r : RateLimiter κ) (limit : TickLimit) (key : κ) (stop : Nat)
    (le : t ≤ t') :
    level limit (r.cache.get t key) t ≤ level limit (r.cache.get t' key) t' ∧
      entriesLeft r.cache.ttl stop (r.cache.get t' key) t' ≤
        entriesLeft r.cache.ttl stop (r.cache.get t key) t := by
  rw [← TimeCache.get_get le]
  cases found : r.cache.get t key with
  | none => exact ⟨level_mono le, freshEntries_anti le⟩
  | some e =>
    by_cases alive : t' < e.expires
    · rw [Option.filter_some_pos (by simpa using alive)]
      exact ⟨level_mono le, le_rfl⟩
    · rw [Option.filter_some_neg (by simpa using alive)]
      exact ⟨level_le.trans (Nat.add_le_add_right le _), freshEntries_anti (not_lt.mp alive)⟩

theorem entriesLeft_get_le (r : RateLimiter κ) (ttl stop : Nat) (key : κ) (t : Nat) :
    entriesLeft ttl stop (r.cache.get t key) t ≤ freshEntries ttl stop t := by
  cases found : r.cache.get t key with
  | none => exact le_rfl
  | some e => exact freshEntries_anti (TimeCache.lt_expires_of_get found).le

theorem get_add_of_ne (ne : key' ≠ key) :
    (r.add limit key cost now).1.cache.get now.looked key' = r.cache.get now.looked key' := by
  rw [cache_add, TimeCache.get_update_of_ne ne le_rfl]

/-- The entry that a call uses. -/
def opened (r : RateLimiter κ) (key : κ) (looked : Nat) : Expiring (GcraState Nat) Nat :=
  (r.cache.get looked key).getD ⟨⟨none⟩, looked + r.cache.ttl⟩

theorem lt_expires_opened (key : κ) (pos : 0 < r.cache.ttl) (looked : Nat) :
    looked < (r.opened key looked).expires := by
  unfold opened
  cases found : r.cache.get looked key with
  | none => exact Nat.lt_add_of_pos_right pos
  | some e => exact TimeCache.lt_expires_of_get found

theorem get_add_self (pos : 0 < r.cache.ttl) :
    (r.add limit key cost now).1.cache.get now.looked key = some { r.opened key now.looked with
      element :=
        ((r.opened key now.looked).element.checkAndModifyTicks limit now.asked cost).1 } := by
  rw [cache_add, TimeCache.get_update_self (lt_expires_opened key pos now.looked)]
  rfl

/-- An entry that is new has an empty bucket, and is one of those that were left. -/
theorem level_add_opened_le (limit : TickLimit) (key : κ) (pos : 0 < r.cache.ttl)
    {asked looked : Nat} (since : t ≤ asked) (later : asked ≤ looked) (early : looked ≤ stop) :
    level limit (r.cache.get t key) t +
        entriesLeft r.cache.ttl stop (some (r.opened key looked)) looked * limit.period ≤
      level limit (some (r.opened key looked)) asked +
        entriesLeft r.cache.ttl stop (r.cache.get t key) t * limit.period := by
  have alive : (r.cache.get t key).filter (fun e => decide (looked < e.expires)) =
      r.cache.get looked key := TimeCache.get_get (since.trans later)
  unfold opened
  cases found : r.cache.get looked key with
  | some e =>
    rw [found, Option.filter_eq_some_iff] at alive
    rw [alive.1]
    exact Nat.add_le_add_right (level_mono since) _
  | none =>
    have before : level limit (r.cache.get t key) t ≤ asked + limit.period :=
      level_le.trans (Nat.add_le_add_right since _)
    have filled : asked ≤ level limit (some ⟨⟨none⟩, looked + r.cache.ttl⟩) asked := le_level
    have renewed : entriesLeft r.cache.ttl stop (some ⟨⟨none⟩, looked + r.cache.ttl⟩) looked + 1 ≤
        entriesLeft r.cache.ttl stop (r.cache.get t key) t := by
      have won := (r.level_get_le limit key stop (since.trans later)).2
      rw [found] at won
      exact (freshEntries_renewed pos early).trans won
    have paid := Nat.mul_le_mul_right limit.period renewed
    rw [Nat.add_mul, Nat.one_mul] at paid
    simp only [Option.getD_none]
    omega

/-- A call of the key itself. What it lets through is paid for by the bucket, and the bucket of a
new entry by one of the entries that were left. -/
theorem incrementInterval_add_level_le (limit : TickLimit) (key : κ) (cost : Nat)
    (pos : 0 < r.cache.ttl) (since : t ≤ now.asked)
    (later : now.asked ≤ now.looked) (early : now.looked ≤ stop) :
    limit.incrementInterval (if (r.add limit key cost now).2 = true then cost else 0) +
        level limit (r.cache.get t key) t +
        entriesLeft r.cache.ttl stop ((r.add limit key cost now).1.cache.get now.looked key)
          now.looked * limit.period ≤
      level limit ((r.add limit key cost now).1.cache.get now.looked key) now.looked +
        entriesLeft r.cache.ttl stop (r.cache.get t key) t * limit.period := by
  have opening := level_add_opened_le limit key pos since later early
  have checked := level_checkAndModifyTicks limit (r.opened key now.looked) cost later
  have answer : (r.add limit key cost now).2 =
      ((r.opened key now.looked).element.checkAndModifyTicks limit now.asked cost).2 := rfl
  rw [get_add_self pos, answer]
  simp only [entriesLeft, Option.map_some, Option.getD_some] at opening ⊢
  dsimp only at checked
  omega

end RateLimiter

/-! ## Runs -/

namespace Behaviour

variable {b : Behaviour} {limit : TickLimit} {i : Reading × Input} {addr : Multiaddr}
  {t stop : Nat}

theorem charge_of_known {peer : PeerId} {known : Multiaddr} (limited : b.rateLimit = some limit)
    (found : b.peerAddresses.lookup peer = some known) (now : Reading) (bytes : Nat) :
    b.charge now peer bytes =
      ({ b with rateLimiter := (b.rateLimiter.add limit known (toU32 bytes) now).1 },
        (b.rateLimiter.add limit known (toU32 bytes) now).2) := by
  simp only [charge, limited, found]

/-- A check leaves everything but the limiter. -/
theorem charge_frame (now : Reading) (b : Behaviour) (peer : PeerId) (bytes : Nat) :
    ∃ limiter, (b.charge now peer bytes).1 = { b with rateLimiter := limiter } ∧
      limiter.cache.ttl = b.rateLimiter.cache.ttl := by
  unfold charge
  split
  · exact ⟨b.rateLimiter, rfl, rfl⟩
  · split
    · exact ⟨b.rateLimiter, rfl, rfl⟩
    · exact ⟨_, rfl, rfl⟩

/-- The limit in force is over the configured period, which is also how long an entry lives. -/
structure Periodic (period : Nat) (b : Behaviour) : Prop where
  configured : b.rateLimitPeriod = period
  lives : b.rateLimiter.cache.ttl = period
  current : ∀ limit, b.rateLimit = some limit → limit.period = period ∧ 0 < period

theorem eq_of_rateLimitOf {bytes period : Nat} (limited : rateLimitOf bytes period = some limit) :
    limit.period = period ∧ 0 < period := by
  unfold rateLimitOf at limited
  split at limited
  · cases limited
  · cases limited
    exact ⟨rfl, by omega⟩

theorem periodic_new (config : Config) : (new config).Periodic config.rateLimitPeriod :=
  ⟨rfl, rfl, fun _ => eq_of_rateLimitOf⟩

theorem Periodic.charge {period : Nat} (periodic : b.Periodic period) (now : Reading)
    (peer : PeerId) (bytes : Nat) : (b.charge now peer bytes).1.Periodic period := by
  obtain ⟨limiter, frame, ttl⟩ := charge_frame now b peer bytes
  rw [frame]
  exact ⟨periodic.configured, ttl.trans periodic.lives, periodic.current⟩

theorem Periodic.step {period : Nat} (periodic : b.Periodic period) (i : Reading × Input) :
    (b.step i).Periodic period := by
  obtain ⟨now, i⟩ := i
  cases i with
  | swarm e => exact ⟨periodic.configured, periodic.lives, periodic.current⟩
  | request peer cid => exact periodic.charge now peer _
  | used peer bytes => exact periodic.charge now peer bytes
  | updateRateLimit bytes =>
    refine ⟨periodic.configured, periodic.lives, ?_⟩
    intro limit limited
    exact periodic.configured ▸ eq_of_rateLimitOf limited

theorem Periodic.run {period : Nat} (periodic : b.Periodic period)
    (inputs : List (Reading × Input)) : (b.run inputs).Periodic period := by
  induction inputs generalizing b with
  | nil => exact periodic
  | cons i inputs ih => exact ih (periodic.step i)

theorem step_of_charging {peer : PeerId} {bytes : Nat}
    (charging : i.2.charging = some (peer, bytes)) : b.step i = (b.charge i.1 peer bytes).1 := by
  obtain ⟨now, i⟩ := i
  cases i with
  | request p cid =>
    cases charging
    rfl
  | used p n =>
    cases charging
    rfl
  | swarm e => cases charging
  | updateRateLimit n => cases charging

theorem rateLimiter_step_of_not_charging (none : i.2.charging = none) :
    (b.step i).rateLimiter = b.rateLimiter := by
  obtain ⟨now, i⟩ := i
  cases i with
  | swarm e => rfl
  | updateRateLimit n => rfl
  | request p cid => cases none
  | used p n => cases none

/-- What an input does to an address: nothing, or it is charged to it. -/
theorem admitted_cases (limited : b.rateLimit = some limit) (addr : Multiaddr)
    (i : Reading × Input) :
    (b.admitted addr i = 0 ∧ (b.step i).rateLimiter.cache.get i.1.looked addr =
        b.rateLimiter.cache.get i.1.looked addr) ∨
      ∃ cost, (b.step i).rateLimiter = (b.rateLimiter.add limit addr cost i.1).1 ∧
        b.admitted addr i =
          if (b.rateLimiter.add limit addr cost i.1).2 = true then cost else 0 := by
  unfold admitted
  cases charging : i.2.charging with
  | none => exact .inl ⟨rfl, by rw [rateLimiter_step_of_not_charging charging]⟩
  | some charged =>
    obtain ⟨peer, bytes⟩ := charged
    rw [step_of_charging charging]
    cases found : b.peerAddresses.lookup peer with
    | none => exact .inl ⟨by simp [found], by simp [charge, limited, found]⟩
    | some known =>
      rw [charge_of_known limited found]
      by_cases own : known = addr
      · subst own
        exact .inr ⟨toU32 bytes, rfl, by simp [found, charge_of_known limited found]⟩
      · exact .inl ⟨by simp [found, own], RateLimiter.get_add_of_ne (Ne.symm own)⟩

/-- One input, for the address: what gets past the limit is paid for. -/
theorem admitted_add_level_le {period : Nat} (periodic : b.Periodic period)
    (limited : b.rateLimit = some limit) (addr : Multiaddr) (since : t ≤ i.1.asked)
    (later : i.1.asked ≤ i.1.looked) (early : i.1.looked ≤ stop) :
    limit.incrementInterval (b.admitted addr i) +
        level limit (b.rateLimiter.cache.get t addr) t +
        entriesLeft period stop ((b.step i).rateLimiter.cache.get i.1.looked addr)
          i.1.looked * period ≤
      level limit ((b.step i).rateLimiter.cache.get i.1.looked addr) i.1.looked +
        entriesLeft period stop (b.rateLimiter.cache.get t addr) t * period := by
  obtain ⟨same, pos⟩ := periodic.current limit limited
  have lives := periodic.lives
  rcases admitted_cases limited addr i with ⟨nothing, unchanged⟩ | ⟨cost, used, charged⟩
  · obtain ⟨filled, left⟩ := b.rateLimiter.level_get_le limit addr stop (since.trans later)
    rw [lives] at left
    have paid := Nat.mul_le_mul_right period left
    rw [nothing, unchanged]
    simp only [TickLimit.incrementInterval, Nat.mul_zero]
    omega
  · have paid := RateLimiter.incrementInterval_add_level_le limit addr cost (lives ▸ pos)
      since later early
    rwa [lives, same, ← used, ← charged] at paid

/-- The clock does not go back, from `t` to `stop`. -/
def InOrder (stop : Nat) : Nat → List (Reading × Input) → Prop
  | t, [] => t ≤ stop
  | t, i :: inputs =>
    t ≤ i.1.asked ∧ i.1.asked ≤ i.1.looked ∧ InOrder stop i.1.looked inputs

theorem InOrder.le {inputs : List (Reading × Input)} (ordered : InOrder stop t inputs) :
    t ≤ stop := by
  induction inputs generalizing t with
  | nil => exact ordered
  | cons i inputs ih => exact (ordered.1.trans ordered.2.1).trans (ih ordered.2.2)

theorem rateLimit_step (fixed : ∀ bytes, i.2 ≠ .updateRateLimit bytes) :
    (b.step i).rateLimit = b.rateLimit := by
  have charge : ∀ (peer : PeerId) (bytes : Nat),
      (b.charge i.1 peer bytes).1.rateLimit = b.rateLimit := by
    intro peer bytes
    obtain ⟨limiter, frame, -⟩ := charge_frame i.1 b peer bytes
    rw [frame]
  obtain ⟨now, i⟩ := i
  cases i with
  | swarm e => rfl
  | request peer cid => exact charge peer _
  | used peer bytes => exact charge peer bytes
  | updateRateLimit bytes => exact absurd rfl (fixed bytes)

theorem admittedIn_add_level_le {period : Nat} (periodic : b.Periodic period)
    (limited : b.rateLimit = some limit) (addr : Multiaddr) (inputs : List (Reading × Input))
    (ordered : InOrder stop t inputs)
    (fixed : ∀ i ∈ inputs, ∀ bytes, i.2 ≠ .updateRateLimit bytes) :
    limit.incrementInterval (b.admittedIn addr inputs) +
        level limit (b.rateLimiter.cache.get t addr) t ≤
      stop + period + entriesLeft period stop (b.rateLimiter.cache.get t addr) t * period := by
  obtain ⟨same, -⟩ := periodic.current limit limited
  induction inputs generalizing b t with
  | nil =>
    have full : level limit (b.rateLimiter.cache.get t addr) t ≤ t + limit.period := level_le
    have : t ≤ stop := ordered
    simp only [admittedIn, TickLimit.incrementInterval, Nat.mul_zero]
    omega
  | cons i inputs ih =>
    obtain ⟨since, later, ordered⟩ := ordered
    have first := admitted_add_level_le periodic limited addr since later ordered.le
    have rest := ih (periodic.step i)
      ((rateLimit_step (fixed i List.mem_cons_self)).trans limited) ordered
      fun j mem => fixed j (List.mem_cons_of_mem i mem)
    rw [admittedIn, limit.incrementInterval_add]
    omega

/-- In any stretch of time `t` the peers of one address get no more past the limit than takes
this time and two periods to drain, and one period more for each that has gone by: a bucket to
be drained, and one for each entry that is made. The requests may come from any number of peers
and connections, as many at once as they like, and anything may have happened before. -/
theorem admittedIn_le (config : Config) (addr : Multiaddr) (before inputs : List (Reading × Input))
    (t₀ t : Nat) (ordered : InOrder (t₀ + t) t₀ inputs)
    (fixed : ∀ i ∈ inputs, ∀ bytes, i.2 ≠ .updateRateLimit bytes) (limit : TickLimit)
    (limited : ((new config).run before).rateLimit = some limit) :
    limit.emissionInterval * ((new config).run before).admittedIn addr inputs ≤
      t + (t / limit.period + 2) * limit.period := by
  set b := (new config).run before
  have periodic : b.Periodic config.rateLimitPeriod := (periodic_new config).run before
  obtain ⟨same, pos⟩ := periodic.current limit limited
  have bound := admittedIn_add_level_le periodic limited addr inputs ordered fixed
  rw [← same] at bound
  have filled : t₀ ≤ level limit (b.rateLimiter.cache.get t₀ addr) t₀ := le_level
  have left : entriesLeft limit.period (t₀ + t) (b.rateLimiter.cache.get t₀ addr) t₀ ≤
      t / limit.period + 1 := by
    have fresh := b.rateLimiter.entriesLeft_get_le limit.period (t₀ + t) addr t₀
    rwa [freshEntries, if_pos (Nat.le_add_right _ _), Nat.add_sub_cancel_left] at fresh
  have paid := Nat.mul_le_mul_right limit.period left
  unfold TickLimit.incrementInterval at bound
  have : (t / limit.period + 2) * limit.period =
      (t / limit.period + 1) * limit.period + limit.period := by ring
  omega

/-- Under a limit of 10 bytes for 10 nanoseconds, 20 get past it at 9 and 10, when the entry that
was made at 0 is replaced. -/
theorem admittedIn_le_renewed :
    let ask (t n : Nat) : Reading × Input := (⟨t, t⟩, .used ⟨[1]⟩ n)
    let before := [(⟨0, 0⟩, .swarm (.connectionEstablished ⟨[1]⟩ (.dialer [.ip4 7]) 0)), ask 0 1]
    let b := (new ⟨10, 10⟩).run before
    b.admittedIn [.ip4 7] [ask 9 10, ask 10 10] = 20 ∧
      (⟨10, 10⟩ : TickLimit).emissionInterval * b.admittedIn [.ip4 7] [ask 9 10, ask 10 10] ≤
        1 + (1 / 10 + 2) * 10 := by
  intro ask before b
  refine ⟨by decide +kernel, ?_⟩
  exact admittedIn_le ⟨10, 10⟩ [.ip4 7] before [ask 9 10, ask 10 10] 9 1
    (by simp [InOrder, ask]) (by simp [ask]) ⟨10, 10⟩ (by decide +kernel)

end Behaviour

end IpcAgent.Resolver.Admission
