import Mathlib.Data.List.Induction
import Mathlib.Order.BoundedOrder.Basic
import Mathlib.Order.MinMax

/-!
# The first newest element of a list

Elements carry a stamp from a linear order with a least value. `newest` is the greatest
stamp in the list, and `firstNewest` the first element that carries it, where an element
stamped with the least value never counts. Both grow with the list: appending an element
replaces the first newest one exactly when its stamp is strictly greater.
-/

namespace IpcAgent.Library

variable {α τ : Type} [LinearOrder τ] [OrderBot τ] (stamp : α → τ)

def newest (l : List α) : τ := l.foldl (fun t a => max t (stamp a)) ⊥

def firstNewest (l : List α) : Option α :=
  l.find? (fun a => ⊥ < stamp a ∧ stamp a = newest stamp l)

@[simp] theorem newest_nil : newest stamp [] = ⊥ := rfl

@[simp] theorem newest_append_singleton (l : List α) (a : α) :
    newest stamp (l ++ [a]) = max (newest stamp l) (stamp a) := by
  simp [newest]

theorem stamp_le_newest {l : List α} {a : α} (h : a ∈ l) : stamp a ≤ newest stamp l := by
  induction l using List.reverseRecOn with
  | nil => simp at h
  | append_singleton l b ih =>
    rw [newest_append_singleton]
    rcases List.mem_append.mp h with h | h
    · exact (ih h).trans (le_max_left _ _)
    · rw [List.mem_singleton.mp h]
      exact le_max_right _ _

theorem exists_stamp_eq_newest {l : List α} (h : ⊥ < newest stamp l) :
    ∃ a ∈ l, stamp a = newest stamp l := by
  induction l using List.reverseRecOn with
  | nil => simp at h
  | append_singleton l b ih =>
    rw [newest_append_singleton] at h ⊢
    rcases le_total (newest stamp l) (stamp b) with hb | hb
    · exact ⟨b, by simp, (max_eq_right hb).symm⟩
    · rw [max_eq_left hb] at h ⊢
      obtain ⟨a, ha, eq⟩ := ih h
      exact ⟨a, by simp [ha], eq⟩

@[simp] theorem firstNewest_nil : firstNewest stamp [] = none := rfl

theorem firstNewest_append_singleton (l : List α) (a : α) :
    firstNewest stamp (l ++ [a]) =
      if newest stamp l < stamp a then some a else firstNewest stamp l := by
  unfold firstNewest
  rw [newest_append_singleton, List.find?_append]
  split_ifs with h
  · -- No earlier element carries the new maximum.
    have old : l.find? (fun b => ⊥ < stamp b ∧ stamp b = max (newest stamp l) (stamp a)) =
        none := by
      rw [List.find?_eq_none]
      intro b hb
      have le := stamp_le_newest stamp hb
      simp only [max_eq_right h.le, decide_eq_true_eq, not_and]
      intro _ eq
      exact absurd (le.trans_lt h) (by simp [eq])
    rw [old]
    simp [max_eq_right h.le, bot_le.trans_lt h]
  · rw [max_eq_left (not_lt.mp h)]
    by_cases last : ⊥ < stamp a ∧ stamp a = newest stamp l
    · -- The old maximum is not the least value, so an earlier element carries it.
      obtain ⟨b, hb, eq⟩ := exists_stamp_eq_newest stamp (last.2 ▸ last.1)
      have found : (l.find? (fun c => ⊥ < stamp c ∧ stamp c = newest stamp l)).isSome := by
        rw [List.find?_isSome]
        exact ⟨b, hb, by simpa [eq] using last.2 ▸ last.1⟩
      obtain ⟨c, hc⟩ := Option.isSome_iff_exists.mp found
      rw [hc, Option.some_or]
    · simp [last]

end IpcAgent.Library
