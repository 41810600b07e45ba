import Mathlib.Algebra.Order.Field.Basic
import Mathlib.Tactic.FieldSimp
import Mathlib.Tactic.Linarith
import Mathlib.Tactic.Ring

/-!
# Rate limiting by theoretical arrival times

The generic cell rate algorithm. A limit lets `resourceLimit` units through in each period.
The state is the theoretical arrival time: when the bucket would be empty again. A cost
moves it on by the time the cost takes to drain, and is refused, without any change, if that
would take it more than a period past the present.
-/

namespace IpcAgent.Library

variable {α : Type} [Field α] [LinearOrder α] [IsStrictOrderedRing α]

structure RateLimit (α : Type) [Field α] [LinearOrder α] where
  resourceLimit : α
  period : α
  resourceLimit_pos : 0 < resourceLimit
  period_pos : 0 < period
deriving DecidableEq

namespace RateLimit

/-- The time a cost takes to drain. -/
def incrementInterval (limit : RateLimit α) (cost : α) : α :=
  cost * limit.period / limit.resourceLimit

omit [IsStrictOrderedRing α] in
theorem incrementInterval_add (limit : RateLimit α) (a b : α) :
    limit.incrementInterval (a + b) = limit.incrementInterval a + limit.incrementInterval b := by
  unfold incrementInterval
  ring

theorem incrementInterval_nonneg (limit : RateLimit α) {cost : α} (nonneg : 0 ≤ cost) :
    0 ≤ limit.incrementInterval cost := by
  have := limit.resourceLimit_pos
  have := limit.period_pos
  unfold incrementInterval
  positivity

/-- What drains in `t` after a full bucket. -/
theorem le_of_incrementInterval_le (limit : RateLimit α) {cost t : α}
    (drained : limit.incrementInterval cost ≤ t + limit.period) :
    cost ≤ limit.resourceLimit + limit.resourceLimit * t / limit.period := by
  have rpos := limit.resourceLimit_pos
  have ppos := limit.period_pos
  unfold incrementInterval at drained
  rw [div_le_iff₀ rpos] at drained
  have : limit.resourceLimit + limit.resourceLimit * t / limit.period =
      (t + limit.period) * limit.resourceLimit / limit.period := by
    field_simp
    ring
  rw [this, le_div_iff₀ ppos]
  exact drained

end RateLimit

/-- The theoretical arrival time, unless nothing was ever let through. -/
structure GcraState (α : Type) where
  tat : Option α

namespace GcraState

/-- When the bucket is empty, but not before `t`. -/
def emptyAt (s : GcraState α) (t : α) : α :=
  match s.tat with
  | none => t
  | some tat => max tat t

def checkAndModifyAt (s : GcraState α) (limit : RateLimit α) (arrivedAt cost : α) :
    GcraState α × Bool :=
  let tat := s.emptyAt arrivedAt + limit.incrementInterval cost
  if tat ≤ arrivedAt + limit.period then (⟨some tat⟩, true) else (s, false)

variable {s : GcraState α} {limit : RateLimit α} {arrivedAt cost t : α}

omit [Field α] [IsStrictOrderedRing α] in
theorem le_emptyAt (s : GcraState α) (t : α) : t ≤ s.emptyAt t := by
  unfold emptyAt
  split
  · exact le_rfl
  · exact le_max_right _ _

omit [Field α] [IsStrictOrderedRing α] in
theorem emptyAt_mono (s : GcraState α) {t t' : α} (le : t ≤ t') : s.emptyAt t ≤ s.emptyAt t' := by
  unfold emptyAt
  split
  · exact le
  · exact max_le_max_left _ le

omit [IsStrictOrderedRing α] in
theorem checkAndModifyAt_of_admitted
    (admitted : (s.checkAndModifyAt limit arrivedAt cost).2 = true) :
    s.emptyAt arrivedAt + limit.incrementInterval cost ≤ arrivedAt + limit.period ∧
      (s.checkAndModifyAt limit arrivedAt cost).1 =
        ⟨some (s.emptyAt arrivedAt + limit.incrementInterval cost)⟩ := by
  unfold checkAndModifyAt at admitted ⊢
  dsimp only at admitted ⊢
  split at admitted
  · rename_i room
    exact ⟨room, by rw [if_pos room]⟩
  · cases admitted

omit [IsStrictOrderedRing α] in
theorem checkAndModifyAt_of_refused
    (refused : (s.checkAndModifyAt limit arrivedAt cost).2 = false) :
    (s.checkAndModifyAt limit arrivedAt cost).1 = s := by
  unfold checkAndModifyAt at refused ⊢
  dsimp only at refused ⊢
  split at refused
  · cases refused
  · rename_i full
    rw [if_neg full]

/-- What is let through puts off the time the bucket is empty. -/
theorem emptyAt_add_le (admitted : (s.checkAndModifyAt limit arrivedAt cost).2 = true)
    (le : t ≤ arrivedAt) : s.emptyAt t + limit.incrementInterval cost ≤
      (s.checkAndModifyAt limit arrivedAt cost).1.emptyAt t := by
  rw [(checkAndModifyAt_of_admitted admitted).2]
  exact (add_le_add_left (s.emptyAt_mono le) _).trans (le_max_left _ _)

/-- No request lets the bucket be empty earlier. -/
theorem emptyAt_le_checkAndModifyAt (le : t ≤ arrivedAt) (nonneg : 0 ≤ cost) :
    s.emptyAt t ≤ (s.checkAndModifyAt limit arrivedAt cost).1.emptyAt t := by
  cases admitted : (s.checkAndModifyAt limit arrivedAt cost).2 with
  | false => rw [checkAndModifyAt_of_refused admitted]
  | true =>
    have := limit.incrementInterval_nonneg nonneg
    exact (le_add_of_nonneg_right this).trans (emptyAt_add_le admitted le)

/-- The bucket never holds more than drains in a period. -/
theorem emptyAt_checkAndModifyAt_le (le : arrivedAt ≤ t)
    (bound : s.emptyAt t ≤ t + limit.period) :
    (s.checkAndModifyAt limit arrivedAt cost).1.emptyAt t ≤ t + limit.period := by
  cases admitted : (s.checkAndModifyAt limit arrivedAt cost).2 with
  | false => rwa [checkAndModifyAt_of_refused admitted]
  | true =>
    obtain ⟨room, done⟩ := checkAndModifyAt_of_admitted admitted
    rw [done]
    refine max_le (room.trans ?_) (le_add_of_nonneg_right limit.period_pos.le)
    gcongr

/-! ## States that cannot be told apart -/

/-- From `t` on the bucket is empty at the same times. -/
def AgreeFrom (t : α) (s s' : GcraState α) : Prop := ∀ u, t ≤ u → s.emptyAt u = s'.emptyAt u

variable {s' : GcraState α}

omit [Field α] [IsStrictOrderedRing α] in
theorem AgreeFrom.mono (agree : AgreeFrom t s s') {t' : α} (le : t ≤ t') : AgreeFrom t' s s' :=
  fun u later => agree u (le.trans later)

omit [Field α] [IsStrictOrderedRing α] in
/-- A bucket that is empty is as good as an unused one. -/
theorem agreeFrom_unused (empty : s.emptyAt t = t) : AgreeFrom t ⟨none⟩ s := by
  intro u later
  unfold emptyAt at empty ⊢
  cases tat : s.tat with
  | none => rfl
  | some tat' =>
    simp only [tat] at empty ⊢
    exact (max_eq_right ((max_eq_right_iff.mp empty).trans later)).symm

omit [IsStrictOrderedRing α] in
theorem AgreeFrom.checkAndModifyAt (agree : AgreeFrom t s s') (le : t ≤ arrivedAt) :
    (s.checkAndModifyAt limit arrivedAt cost).2 = (s'.checkAndModifyAt limit arrivedAt cost).2 ∧
      AgreeFrom arrivedAt (s.checkAndModifyAt limit arrivedAt cost).1
        (s'.checkAndModifyAt limit arrivedAt cost).1 := by
  unfold GcraState.checkAndModifyAt
  rw [agree arrivedAt le]
  dsimp only
  split
  · exact ⟨rfl, fun _ _ => rfl⟩
  · exact ⟨rfl, agree.mono le⟩

end GcraState

end IpcAgent.Library
