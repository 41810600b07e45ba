import IpcAgent.Library.Gcra
import Mathlib.Data.Nat.Cast.Field

/-!
# Rate limiting in whole ticks

The generic cell rate algorithm on a clock that counts ticks. The time that a unit takes to
drain is rounded down to whole ticks, so a limit of more units than the period has ticks is none.
-/

namespace IpcAgent.Library

structure TickLimit where
  resourceLimit : Nat
  period : Nat
deriving DecidableEq

namespace TickLimit

/-- The ticks that one unit takes to drain. -/
def emissionInterval (limit : TickLimit) : Nat := limit.period / limit.resourceLimit

def incrementInterval (limit : TickLimit) (cost : Nat) : Nat := limit.emissionInterval * cost

theorem incrementInterval_add (limit : TickLimit) (a b : Nat) :
    limit.incrementInterval (a + b) = limit.incrementInterval a + limit.incrementInterval b :=
  Nat.mul_add _ _ _

/-- There is a limit at all. -/
structure Positive (limit : TickLimit) : Prop where
  resourceLimit : 0 < limit.resourceLimit
  period : 0 < limit.period

section Cast

variable {α : Type} [Field α] [LinearOrder α] [IsStrictOrderedRing α]

def cast (limit : TickLimit) (pos : limit.Positive) : RateLimit α :=
  ⟨limit.resourceLimit, limit.period, Nat.cast_pos.mpr pos.resourceLimit,
    Nat.cast_pos.mpr pos.period⟩

theorem incrementInterval_cast {limit : TickLimit} (pos : limit.Positive)
    (whole : limit.resourceLimit ∣ limit.period) (cost : Nat) :
    (limit.cast pos : RateLimit α).incrementInterval cost =
      (limit.incrementInterval cost : Nat) := by
  have nonzero : (limit.resourceLimit : α) ≠ 0 := Nat.cast_ne_zero.mpr pos.resourceLimit.ne'
  rw [incrementInterval, emissionInterval, Nat.cast_mul, Nat.cast_div whole nonzero]
  simp only [RateLimit.incrementInterval, cast]
  ring

end Cast

end TickLimit

namespace GcraState

def checkAndModifyTicks (s : GcraState Nat) (limit : TickLimit) (arrivedAt cost : Nat) :
    GcraState Nat × Bool :=
  let increment := limit.incrementInterval cost
  -- Such a cost is never let through.
  if limit.period < increment then (s, false)
  else
    match s.tat with
    | none => (⟨some (arrivedAt + increment)⟩, true)
    | some tat =>
      if tat < arrivedAt then (⟨some (arrivedAt + increment)⟩, true)
      else if tat + increment ≤ arrivedAt + limit.period then (⟨some (tat + increment)⟩, true)
      else (s, false)

variable {s : GcraState Nat} {limit : TickLimit} {arrivedAt cost : Nat}

/-- The cases come to the same thing as in `checkAndModifyAt`. -/
theorem checkAndModifyTicks_eq : s.checkAndModifyTicks limit arrivedAt cost =
    if s.emptyAt arrivedAt + limit.incrementInterval cost ≤ arrivedAt + limit.period then
      (⟨some (s.emptyAt arrivedAt + limit.incrementInterval cost)⟩, true)
    else (s, false) := by
  unfold checkAndModifyTicks emptyAt
  cases s.tat with
  | none => grind
  | some tat => grind

theorem checkAndModifyTicks_of_admitted
    (admitted : (s.checkAndModifyTicks limit arrivedAt cost).2 = true) :
    s.emptyAt arrivedAt + limit.incrementInterval cost ≤ arrivedAt + limit.period ∧
      (s.checkAndModifyTicks limit arrivedAt cost).1.emptyAt arrivedAt =
        s.emptyAt arrivedAt + limit.incrementInterval cost := by
  rw [checkAndModifyTicks_eq] at admitted ⊢
  split at admitted
  · rename_i room
    refine ⟨room, ?_⟩
    rw [if_pos room]
    exact max_eq_left ((s.le_emptyAt arrivedAt).trans (Nat.le_add_right _ _))
  · cases admitted

theorem checkAndModifyTicks_of_refused
    (refused : (s.checkAndModifyTicks limit arrivedAt cost).2 = false) :
    (s.checkAndModifyTicks limit arrivedAt cost).1 = s := by
  rw [checkAndModifyTicks_eq] at refused ⊢
  split at refused
  · cases refused
  · rename_i full
    rw [if_neg full]

/-! ## The same without ticks -/

section Cast

variable {α : Type} [Field α] [LinearOrder α] [IsStrictOrderedRing α]

/-- The state as one of a clock without ticks. -/
def cast (s : GcraState Nat) : GcraState α := ⟨s.tat.map Nat.cast⟩

theorem emptyAt_cast (s : GcraState Nat) (t : Nat) :
    (s.cast : GcraState α).emptyAt t = (s.emptyAt t : Nat) := by
  obtain ⟨tat⟩ := s
  cases tat with
  | none => rfl
  | some tat => exact (Nat.cast_max tat t).symm

/-- If a unit drains in a whole number of ticks, nothing is lost by counting them. -/
theorem checkAndModifyAt_cast (s : GcraState Nat) {limit : TickLimit} (pos : limit.Positive)
    (whole : limit.resourceLimit ∣ limit.period) (arrivedAt cost : Nat) :
    (s.cast : GcraState α).checkAndModifyAt (limit.cast pos) arrivedAt cost =
      ((s.checkAndModifyTicks limit arrivedAt cost).1.cast,
        (s.checkAndModifyTicks limit arrivedAt cost).2) := by
  have increment : (limit.cast pos : RateLimit α).incrementInterval cost =
      (limit.incrementInterval cost : Nat) := TickLimit.incrementInterval_cast pos whole cost
  have room : (s.emptyAt arrivedAt : α) + (limit.incrementInterval cost : Nat) ≤
      arrivedAt + limit.period ↔
        s.emptyAt arrivedAt + limit.incrementInterval cost ≤ arrivedAt + limit.period := by
    exact_mod_cast Iff.rfl
  rw [checkAndModifyTicks_eq, checkAndModifyAt, emptyAt_cast, increment]
  simp only [TickLimit.cast, room]
  split
  · simp [cast]
  · rfl

end Cast

end GcraState

end IpcAgent.Library
