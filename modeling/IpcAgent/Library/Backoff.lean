import Mathlib.Algebra.Order.Group.Nat

/-!
# Backing off

A timer that waits twice as long after each tick, up to a cap. A late tick counts from the time
at which it is noticed, so a window of time has no more ticks than the waits between them fit
into it, whenever the timer was started and however late its ticks are noticed.
-/

namespace IpcAgent.Library

/-- A timer, as the time it waits between ticks and the time of the next one. -/
structure Backoff where
  period : Nat
  deadline : Nat

/-- The timer after a tick that is noticed `now`. -/
def Backoff.tick (cap : Nat) (b : Backoff) (now : Nat) : Backoff :=
  let period := min (b.period * 2) cap
  ⟨period, now + period⟩

/-- The shortest time from one tick to the `n`-th after it. -/
def waited (cap : Nat) : Nat → Nat
  | 0 => 0
  | n + 1 => waited cap n + min (2 ^ (n + 1)) cap

/-- Once the cap is reached it is waited for in full each time. -/
theorem waited_add_le {cap m : Nat} (reached : cap ≤ 2 ^ (m + 1)) (n : Nat) :
    waited cap m + cap * n ≤ waited cap (m + n) := by
  induction n with
  | zero => exact Nat.le_refl _
  | succ n ih =>
    have full : min (2 ^ (m + n + 1)) cap = cap := by
      refine Nat.min_eq_right (reached.trans (Nat.pow_le_pow_right (by decide) ?_))
      omega
    rw [← Nat.add_assoc, waited, full, Nat.mul_succ]
    omega

/-- What is known of the timer when it has ticked `n` times since `start`. -/
structure Window (cap start n now : Nat) (b : Backoff) : Prop where
  period : min (2 ^ n) cap ≤ b.period
  deadline : 0 < n → start + waited cap n ≤ b.deadline
  elapsed : start + waited cap (n - 1) ≤ now

variable {cap start n now now' : Nat} {b : Backoff}

theorem window_start (pos : 0 < b.period) : Window cap start 0 start b where
  period := by
    rw [Nat.pow_zero]
    exact (Nat.min_le_left 1 cap).trans pos
  deadline none := absurd none (Nat.lt_irrefl 0)
  elapsed := Nat.le_refl start

theorem Window.wait (w : Window cap start n now b) (later : now ≤ now') :
    Window cap start n now' b :=
  ⟨w.period, w.deadline, w.elapsed.trans later⟩

theorem Window.tick (w : Window cap start n now b) (later : now ≤ now')
    (due : b.deadline ≤ now') : Window cap start (n + 1) now' (b.tick cap now') := by
  have doubled : min (2 ^ (n + 1)) cap ≤ min (b.period * 2) cap := by
    have period := w.period
    rw [Nat.pow_succ]
    omega
  have passed : start + waited cap n ≤ now' := by
    rcases Nat.eq_zero_or_pos n with rfl | pos
    · exact w.elapsed.trans later
    · exact (w.deadline pos).trans due
  refine ⟨doubled, fun _ => ?_, passed⟩
  change start + (waited cap n + min (2 ^ (n + 1)) cap) ≤ now' + min (b.period * 2) cap
  omega

end IpcAgent.Library
