import Mathlib.Tactic.Tauto

/-!
# Conditions along a run

A run folds the inputs into the state. `Along` asks something of each input together with
the state it meets, which is how the conditions of a run are stated that depend on more than
its inputs.
-/

namespace IpcAgent.Library

variable {σ ι : Type} {step : σ → ι → σ} {C C' : σ → ι → Prop} {Inv : σ → Prop} {s : σ}
  {i : ι} {inputs : List ι}

/-- `C` holds of every input of the run from `s` and the state it meets. -/
def Along (step : σ → ι → σ) (C : σ → ι → Prop) (s : σ) : List ι → Prop
  | [] => True
  | i :: inputs => C s i ∧ Along step C (step s i) inputs

instance decidableAlong [∀ s i, Decidable (C s i)] (s : σ) :
    (inputs : List ι) → Decidable (Along step C s inputs)
  | [] => .isTrue trivial
  | i :: inputs =>
    have := decidableAlong (step s i) inputs
    inferInstanceAs (Decidable (_ ∧ _))

@[simp] theorem along_nil : Along step C s [] := trivial

@[simp] theorem along_cons :
    Along step C s (i :: inputs) ↔ C s i ∧ Along step C (step s i) inputs := .rfl

theorem along_append {inputs' : List ι} : Along step C s (inputs ++ inputs') ↔
    Along step C s inputs ∧ Along step C (inputs.foldl step s) inputs' := by
  induction inputs generalizing s with
  | nil => simp
  | cons i inputs ih =>
    rw [List.cons_append, along_cons, along_cons, ih, and_assoc, List.foldl_cons]

theorem along_and : Along step (fun s i => C s i ∧ C' s i) s inputs ↔
    Along step C s inputs ∧ Along step C' s inputs := by
  induction inputs generalizing s with
  | nil => simp
  | cons i inputs ih =>
    rw [along_cons, along_cons, along_cons, ih]
    tauto

/-- What the inputs of such a run keep holds at its end. -/
theorem Along.foldl (along : Along step C s inputs)
    (keep : ∀ s i, C s i → Inv s → Inv (step s i)) (start : Inv s) :
    Inv (inputs.foldl step s) := by
  induction inputs generalizing s with
  | nil => exact start
  | cons i inputs ih => exact ih along.2 (keep s i along.1 start)

/-- Conditions that agree as long as an invariant holds agree along a run that keeps it. -/
theorem along_congr (start : Inv s) (keep : ∀ s, ∀ i ∈ inputs, Inv s → Inv (step s i))
    (same : ∀ s, ∀ i ∈ inputs, Inv s → (C s i ↔ C' s i)) :
    Along step C s inputs ↔ Along step C' s inputs := by
  induction inputs generalizing s with
  | nil => exact .rfl
  | cons i inputs ih =>
    have rest := ih (keep s i List.mem_cons_self start)
      (fun s j mem => keep s j (List.mem_cons_of_mem i mem))
      (fun s j mem => same s j (List.mem_cons_of_mem i mem))
    exact and_congr (same s i List.mem_cons_self start) rest

/-! ## Steps that are not always possible -/

section Partial

variable {step : σ → ι → Option σ} {s' : σ}

/-- `C` holds of every step of the run from `s` and the state it is taken in, up to the first
step that is not possible. -/
def Throughout (step : σ → ι → Option σ) (C : σ → ι → Prop) (s : σ) : List ι → Prop
  | [] => True
  | i :: inputs => ∀ s' ∈ step s i, C s i ∧ Throughout step C s' inputs

instance decidableThroughout [∀ s i, Decidable (C s i)] (s : σ) :
    (inputs : List ι) → Decidable (Throughout step C s inputs)
  | [] => .isTrue trivial
  | i :: inputs =>
    match taken : step s i with
    | none => .isTrue fun s' mem => by simp [taken] at mem
    | some s' =>
      have := decidableThroughout s' inputs
      decidable_of_iff (C s i ∧ Throughout step C s' inputs)
        ⟨fun next t mem => by obtain rfl := Option.some.inj (taken.symm.trans mem); exact next,
          fun along => along s' taken⟩

theorem throughout_and : Throughout step (fun s i => C s i ∧ C' s i) s inputs ↔
    Throughout step C s inputs ∧ Throughout step C' s inputs := by
  induction inputs generalizing s with
  | nil => exact (and_self_iff).symm
  | cons i inputs ih =>
    simp only [Throughout, ih]
    grind

/-- From a condition on the steps of a run to a property of them, by an invariant. -/
theorem Throughout.of_invariant (along : Throughout step C s inputs)
    (keep : ∀ s i s', C s i → Inv s → step s i = some s' → C' s i ∧ Inv s') (start : Inv s) :
    Throughout step C' s inputs := by
  induction inputs generalizing s with
  | nil => trivial
  | cons i inputs ih =>
    intro s' taken
    obtain ⟨here, rest⟩ := along s' taken
    obtain ⟨there, next⟩ := keep s i s' here start taken
    exact ⟨there, ih rest next⟩

/-- What the steps of a run keep holds at its end. -/
theorem Throughout.foldlM (along : Throughout step C s inputs)
    (keep : ∀ s i s', C s i → Inv s → step s i = some s' → Inv s') (start : Inv s)
    (run : inputs.foldlM step s = some s') : Inv s' := by
  induction inputs generalizing s with
  | nil =>
    obtain rfl := Option.some.inj run
    exact start
  | cons i inputs ih =>
    obtain ⟨next, taken, run⟩ := Option.bind_eq_some_iff.mp run
    obtain ⟨here, rest⟩ := along next taken
    exact ih rest (keep s i next here start taken) run

/-- The same for what every step keeps. -/
theorem foldlM_invariant (keep : ∀ s i s', Inv s → step s i = some s' → Inv s') (start : Inv s)
    (run : inputs.foldlM step s = some s') : Inv s' := by
  refine Throughout.foldlM (C := fun _ _ => True) ?_ (fun s i s' _ => keep s i s') start run
  clear run
  induction inputs generalizing s with
  | nil => trivial
  | cons i inputs ih => exact fun next taken => ⟨trivial, ih (keep s i next start taken)⟩

end Partial

end IpcAgent.Library
