import Mathlib.Data.List.Induction
import Mathlib.Tactic.Common

/-!
# Histories

A history is the list of what has happened so far, the latest last, so it grows at its end.
`EachAfter P` is the form of a statement about all of a history: each entry is in order after
the entries before it.
-/

namespace IpcAgent.Library

variable {α : Type} {P P' : List α → α → Prop} {h more l₁ l₂ : List α} {x y : α}

/-- Where an entry stands in a history that has grown by one. -/
theorem snoc_eq_append_cons (split : h ++ [x] = l₁ ++ y :: l₂) :
    (x = y ∧ h = l₁) ∨ ∃ l, l₂ = l ++ [x] ∧ h = l₁ ++ y :: l := by
  rcases List.eq_nil_or_concat l₂ with rfl | ⟨l, z, rfl⟩
  · obtain ⟨same, last⟩ := List.append_inj' split rfl
    exact .inl ⟨by simpa using last, same⟩
  · simp only [List.concat_eq_append, ← List.cons_append, ← List.append_assoc] at split
    obtain ⟨same, last⟩ := List.append_inj' split rfl
    obtain rfl : x = z := by simpa using last
    exact .inr ⟨l, List.concat_eq_append, same⟩

/-- `P before e` holds of every entry `e` and the entries `before` it. -/
def EachAfter (P : List α → α → Prop) (h : List α) : Prop :=
  ∀ before e after, h = before ++ e :: after → P before e

theorem eachAfter_nil : EachAfter P [] := fun before e after split => by simp at split

theorem eachAfter_snoc_iff : EachAfter P (h ++ [x]) ↔ EachAfter P h ∧ P h x := by
  constructor
  · intro each
    refine ⟨fun before e after split => ?_, each h x [] rfl⟩
    exact each before e (after ++ [x]) (by simp [split])
  · rintro ⟨each, last⟩ before e after split
    obtain ⟨rfl, rfl⟩ | ⟨l, -, same⟩ := snoc_eq_append_cons split
    · exact last
    · exact each before e l same

theorem EachAfter.of_append (each : EachAfter P (h ++ more)) : EachAfter P h :=
  fun before e after split => each before e (after ++ more) (by simp [split])

theorem EachAfter.append (each : EachAfter P h)
    (new : ∀ before e after, more = before ++ e :: after → P (h ++ before) e) :
    EachAfter P (h ++ more) := by
  induction more using List.reverseRecOn with
  | nil => simpa using each
  | append_singleton more x ih =>
    rw [← List.append_assoc]
    refine eachAfter_snoc_iff.mpr ⟨ih fun before e after split => ?_, new more x [] rfl⟩
    exact new before e (after ++ [x]) (by simp [split])

/-- Entries that are in order after any history. -/
theorem EachAfter.append_of_forall (each : EachAfter P h) (new : ∀ e ∈ more, ∀ before, P before e) :
    EachAfter P (h ++ more) :=
  each.append fun _ e _ split => new e (by simp [split]) _

/-- Goes through a history with the entries before it at hand. -/
def checkFrom (P : List α → α → Prop) [∀ before e, Decidable (P before e)] (before : List α) :
    List α → Bool
  | [] => true
  | e :: h => decide (P before e) && checkFrom P (before ++ [e]) h

theorem checkFrom_iff [∀ before e, Decidable (P before e)] (start : List α) :
    checkFrom P start h = true ↔
      ∀ before e after, h = before ++ e :: after → P (start ++ before) e := by
  induction h generalizing start with
  | nil => simp [checkFrom]
  | cons x h ih =>
    simp only [checkFrom, Bool.and_eq_true, decide_eq_true_eq, ih]
    constructor
    · rintro ⟨first, rest⟩ before e after split
      cases before with
      | nil =>
        obtain ⟨rfl, -⟩ := List.cons.inj split
        simpa using first
      | cons y before =>
        obtain ⟨rfl, later⟩ := List.cons.inj split
        simpa using rest before e after later
    · intro each
      refine ⟨by simpa using each [] x h rfl, fun before e after split => ?_⟩
      simpa using each (x :: before) e after (by simp [split])

instance [∀ before e, Decidable (P before e)] : Decidable (EachAfter P h) :=
  decidable_of_iff (checkFrom P [] h = true) (checkFrom_iff [])

end IpcAgent.Library
