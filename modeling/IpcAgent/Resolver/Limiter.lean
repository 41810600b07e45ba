import IpcAgent.Library.Run
import IpcAgent.Library.TimeCache
import IpcAgent.Resolver.Content

/-!
# Forgetting idle keys

`ipld/resolver/src/limiter.rs` with the cache it is built on, next to a limiter that keeps the
bucket of every key for ever. An entry is dropped some time after it was inserted, not after
it was last used, so its bucket need not be empty by then.
-/

namespace IpcAgent.Resolver.Limiter
open Library

structure RateLimiter (κ : Type) where
  cache : TimeCache κ (GcraState ℚ) ℚ

structure Call (κ : Type) where
  key : κ
  cost : Nat
  time : ℚ

section

variable {κ : Type} [DecidableEq κ] (limit : RateLimit ℚ)

namespace RateLimiter

def new (ttl : ℚ) : RateLimiter κ := ⟨.new ttl⟩

/-- `add_at`, with the clock of the cache showing the time of the call. -/
def addAt (r : RateLimiter κ) (key : κ) (cost : Nat) (now : ℚ) : RateLimiter κ × Bool :=
  let added := r.cache.update now key ⟨none⟩ (·.checkAndModifyAt limit now cost)
  (⟨added.1⟩, added.2)

/-- The answers to a sequence of calls. -/
def answers (r : RateLimiter κ) : List (Call κ) → List Bool
  | [] => []
  | c :: calls =>
    (r.addAt limit c.key c.cost c.time).2 ::
      answers (r.addAt limit c.key c.cost c.time).1 calls

end RateLimiter

/-- The answers of a limiter that forgets nothing. -/
def keptAnswers (r : Resolver.RateLimiter κ) : List (Call κ) → List Bool
  | [] => []
  | c :: calls =>
    (r.addAt limit c.key c.cost c.time).2 ::
      keptAnswers (r.addAt limit c.key c.cost c.time).1 calls

/-- Both limiters, given the same calls. -/
structure Both (κ : Type) where
  forgetful : RateLimiter κ
  kept : Resolver.RateLimiter κ

namespace Both

variable (s : Both κ) (c : Call κ)

def step : Both κ :=
  ⟨(s.forgetful.addAt limit c.key c.cost c.time).1, (s.kept.addAt limit c.key c.cost c.time).1⟩

/-- A key that is not in the cache has an empty bucket. -/
def OnlyEmptyForgotten : Prop :=
  (s.forgetful.cache.get c.time c.key).isNone → (s.kept.bucket c.key).emptyAt c.time = c.time

instance : Decidable (s.OnlyEmptyForgotten c) := inferInstanceAs (Decidable (_ → _))

/-- From `t` on, the buckets in the cache are as good as those that were kept. -/
def AgreeFrom (t : ℚ) : Prop :=
  ∀ key e, s.forgetful.cache.map.lookup key = some e → e.element.AgreeFrom t (s.kept.bucket key)

end Both

variable {limit} {s : Both κ} {c : Call κ} {t : ℚ}

/-- The bucket a call works on is as good as the one that was kept. -/
theorem Both.AgreeFrom.entry (agree : s.AgreeFrom t) (later : t ≤ c.time)
    (empty : s.OnlyEmptyForgotten c) (expires : ℚ) :
    ((s.forgetful.cache.get c.time c.key).getD ⟨⟨none⟩, expires⟩).element.AgreeFrom c.time
      (s.kept.bucket c.key) := by
  cases found : s.forgetful.cache.get c.time c.key with
  | none => exact GcraState.agreeFrom_unused (empty (by rw [found]; rfl))
  | some e => exact (agree c.key e (TimeCache.lookup_of_get found)).mono later

theorem Both.AgreeFrom.answer (agree : s.AgreeFrom t) (later : t ≤ c.time)
    (empty : s.OnlyEmptyForgotten c) :
    (s.forgetful.addAt limit c.key c.cost c.time).2 =
      (s.kept.addAt limit c.key c.cost c.time).2 :=
  ((agree.entry later empty _).checkAndModifyAt le_rfl).1

theorem cache_step : (s.step limit c).forgetful.cache = (s.forgetful.cache.update c.time c.key
    ⟨none⟩ (·.checkAndModifyAt limit c.time c.cost)).1 := rfl

theorem Both.AgreeFrom.step (agree : s.AgreeFrom t) (later : t ≤ c.time)
    (empty : s.OnlyEmptyForgotten c) : (s.step limit c).AgreeFrom c.time := by
  intro key e found
  rw [cache_step] at found
  by_cases same : key = c.key
  · subst same
    rw [TimeCache.lookup_update_self] at found
    obtain rfl := Option.some.inj found
    have kept : (s.step limit c).kept.bucket c.key = _ :=
      Resolver.RateLimiter.bucket_addAt_self ..
    rw [kept]
    exact ((agree.entry later empty _).checkAndModifyAt le_rfl).2
  · rw [TimeCache.lookup_update_of_ne same] at found
    have kept : (s.step limit c).kept.bucket key = s.kept.bucket key :=
      Resolver.RateLimiter.bucket_addAt_of_ne _ _ same _ _
    rw [kept]
    exact (agree key e (TimeCache.lookup_of_get found)).mono later

/-- From limiters that agree, the answers to later calls are the same. -/
theorem Both.AgreeFrom.answers (agree : s.AgreeFrom t) {calls : List (Call κ)}
    (later : ∀ c ∈ calls, t ≤ c.time) (ordered : calls.Pairwise (·.time ≤ ·.time))
    (empty : Along (Both.step limit) Both.OnlyEmptyForgotten s calls) :
    s.forgetful.answers limit calls = keptAnswers limit s.kept calls := by
  induction calls generalizing s t with
  | nil => rfl
  | cons c calls ih =>
    obtain ⟨first, rest⟩ := List.forall_mem_cons.mp later
    obtain ⟨after, ordered⟩ := List.pairwise_cons.mp ordered
    exact congrArg₂ List.cons (agree.answer first empty.1)
      (ih (agree.step first empty.1) after ordered empty.2)

end

/-- Forgetting keys goes unnoticed as long as a key that is not in the cache has an empty bucket
whenever it is used. -/
theorem same_answers_of_only_empty_forgotten {κ : Type} [DecidableEq κ] (limit : RateLimit ℚ)
    (ttl : ℚ) (calls : List (Call κ)) (ordered : calls.Pairwise (·.time ≤ ·.time))
    (empty : Along (Both.step limit) Both.OnlyEmptyForgotten ⟨.new ttl, ⟨∅⟩⟩ calls) :
    (RateLimiter.new ttl).answers limit calls = keptAnswers limit ⟨∅⟩ calls := by
  cases calls with
  | nil => rfl
  | cons c calls =>
    have unused : Both.AgreeFrom ⟨.new ttl, ⟨(∅ : HashMap κ (GcraState ℚ))⟩⟩ c.time :=
      fun key e found => by cases found
    refine unused.answers ?_ ordered empty
    exact List.forall_mem_cons.mpr ⟨le_rfl, (List.pairwise_cons.mp ordered).1⟩

/-- A key is used twice in a period and then again when its first entry is gone. -/
theorem same_answers_after_idle_period :
    let limit : RateLimit ℚ := ⟨10, 10, by decide, by decide⟩
    let calls : List (Call Nat) := [⟨0, 4, 0⟩, ⟨0, 8, 1⟩, ⟨0, 5, 20⟩]
    (RateLimiter.new 10).answers limit calls = [true, false, true] ∧
      (RateLimiter.new 10).answers limit calls = keptAnswers limit ⟨∅⟩ calls := by
  intro limit calls
  exact ⟨by decide +kernel, same_answers_of_only_empty_forgotten limit 10 calls
    (by decide +kernel) (by decide +kernel)⟩

/-- 10 bytes per 10 seconds, with entries that live as long. A key that was first used at time
0 uses its whole allowance at time 9, and once more at time 10, when its entry is dropped. -/
theorem burst_admitted_after_expiry :
    let limit : RateLimit ℚ := ⟨10, 10, by decide, by decide⟩
    let calls : List (Call Nat) := [⟨0, 1, 0⟩, ⟨0, 9, 9⟩, ⟨0, 10, 10⟩]
    calls.Pairwise (·.time ≤ ·.time) ∧
      (RateLimiter.new 10).answers limit calls = [true, true, true] ∧
      keptAnswers limit ⟨∅⟩ calls = [true, true, false] := by
  intro limit calls
  exact ⟨by decide +kernel, by decide +kernel, by decide +kernel⟩

end IpcAgent.Resolver.Limiter
