import Mathlib.Order.Defs.Unbundled

/-!
# Stateful code that may stop early

Code with a state that may stop with an error, keeping what it did to the state until then.
`Within R` says that wherever such code stops, it has moved the state along `R`; for a
preorder this follows from the parts of the code. `Runs` is about code that does not stop
early: what it returns, and the state it leaves; `Stops` is about code that does.
-/

namespace IpcAgent.Library

variable {ε σ α β : Type} {R : σ → σ → Prop}

/-- The rest only runs if the first part has not stopped. -/
theorem run_run_bind (code : ExceptT ε (StateM σ) α) (rest : α → ExceptT ε (StateM σ) β) (s : σ) :
    (code >>= rest).run.run s =
      match code.run.run s with
      | (.ok a, s') => (rest a).run.run s'
      | (.error e, s') => (.error e, s') := by
  rw [ExceptT.run_bind, StateT.run_bind]
  change StateT.run (match (code.run.run s).1 with
    | .ok a => (rest a).run
    | .error e => pure (.error e)) (code.run.run s).2 = _
  rcases code.run.run s with ⟨e | a, s'⟩ <;> rfl

/-- From every state the code ends, with or without an error, in a related one. -/
def Within (R : σ → σ → Prop) (code : ExceptT ε (StateM σ) α) : Prop :=
  ∀ s, R s (code.run.run s).2

theorem within_modify {f : σ → σ} (moves : ∀ s, R s (f s)) :
    Within R (modify f : ExceptT ε (StateM σ) PUnit) := moves

theorem within_ite {c : Prop} [Decidable c] {code code' : ExceptT ε (StateM σ) α}
    (yes : Within R code) (no : Within R code') : Within R (if c then code else code') := by
  split
  · exact yes
  · exact no

section Preorder

variable [Std.Refl R]

theorem within_pure (a : α) : Within R (pure a : ExceptT ε (StateM σ) α) :=
  fun s => refl_of R s

theorem within_throw (e : ε) : Within R (throw e : ExceptT ε (StateM σ) α) :=
  fun s => refl_of R s

theorem within_get : Within R (get : ExceptT ε (StateM σ) σ) :=
  fun s => refl_of R s

variable [IsTrans σ R]

omit [Std.Refl R] in
theorem within_bind {code : ExceptT ε (StateM σ) α} {rest : α → ExceptT ε (StateM σ) β}
    (first : Within R code) (next : ∀ a, Within R (rest a)) : Within R (code >>= rest) := by
  intro s
  have moved := first s
  rw [run_run_bind]
  rcases ended : code.run.run s with ⟨e | a, s'⟩
  · rwa [ended] at moved
  · rw [ended] at moved
    exact trans_of R moved (next a s')

theorem within_forM {γ : Type} {body : γ → ExceptT ε (StateM σ) PUnit}
    (each : ∀ c, Within R (body c)) (l : List γ) : Within R (l.forM body) := by
  induction l with
  | nil => exact within_pure _
  | cons c l ih => exact within_bind (each c) (fun _ => ih)

end Preorder

/-! ## Code that returns -/

/-- From `s` the code returns `a` in the state `s'`. -/
def Runs (code : ExceptT ε (StateM σ) α) (s : σ) (a : α) (s' : σ) : Prop :=
  code.run.run s = (.ok a, s')

variable {code : ExceptT ε (StateM σ) α} {rest : α → ExceptT ε (StateM σ) β} {s s' s'' : σ}
  {a : α} {b : β}

theorem runs_pure (s : σ) (a : α) : Runs (pure a : ExceptT ε (StateM σ) α) s a s := rfl

theorem runs_get (s : σ) : Runs (get : ExceptT ε (StateM σ) σ) s s s := rfl

theorem runs_modify (f : σ → σ) (s : σ) :
    Runs (modify f : ExceptT ε (StateM σ) PUnit) s ⟨⟩ (f s) := rfl

/-- What follows starts where the first part has ended. -/
theorem Runs.run_bind (first : Runs code s a s') :
    (code >>= rest).run.run s = (rest a).run.run s' := by
  rw [run_run_bind, first]

theorem Runs.bind (first : Runs code s a s') (next : Runs (rest a) s' b s'') :
    Runs (code >>= rest) s b s'' :=
  first.run_bind.trans next

theorem runs_ite {c : Prop} [Decidable c] {code' : ExceptT ε (StateM σ) α}
    {t : σ} (yes : c → Runs code s a s') (no : ¬ c → Runs code' s a t) :
    Runs (if c then code else code') s a (if c then s' else t) := by
  split
  · exact yes ‹c›
  · exact no ‹¬ c›

theorem runs_forM {γ : Type} {body : γ → ExceptT ε (StateM σ) PUnit} {f : σ → γ → σ}
    (each : ∀ s c, Runs (body c) s ⟨⟩ (f s c)) (l : List γ) (s : σ) :
    Runs (l.forM body) s ⟨⟩ (l.foldl f s) := by
  induction l generalizing s with
  | nil => exact runs_pure s _
  | cons c l ih => exact (each s c).bind (ih (f s c))

/-- Code that has returned has run through its parts. -/
theorem Runs.of_bind (runs : Runs (code >>= rest) s b s'') :
    ∃ a s', Runs code s a s' ∧ Runs (rest a) s' b s'' := by
  unfold Runs at runs
  rw [run_run_bind] at runs
  rcases first : code.run.run s with ⟨e | a, s'⟩
  · rw [first] at runs
    cases runs
  · rw [first] at runs
    exact ⟨a, s', first, runs⟩

theorem Runs.of_forM {γ : Type} {body : γ → ExceptT ε (StateM σ) PUnit} {f : σ → γ → σ}
    (each : ∀ s c s', Runs (body c) s ⟨⟩ s' → s' = f s c) {l : List γ}
    (runs : Runs (l.forM body) s ⟨⟩ s') : s' = l.foldl f s := by
  induction l generalizing s with
  | nil => exact (congrArg Prod.snd runs).symm
  | cons c l ih =>
    obtain ⟨⟨⟩, t, first, next⟩ := Runs.of_bind runs
    rw [List.foldl_cons, ← each s c t first]
    exact ih next

/-! ## Code that stops -/

/-- From `s` the code stops with `e` in the state `s'`. -/
def Stops (code : ExceptT ε (StateM σ) α) (s : σ) (e : ε) (s' : σ) : Prop :=
  code.run.run s = (.error e, s')

variable {e : ε}

theorem stops_of_fst (stopped : (code.run.run s).1 = .error e) :
    Stops code s e (code.run.run s).2 :=
  Prod.ext stopped rfl

/-- Code stops in its first part, or in the rest after the first part has returned. -/
theorem Stops.of_bind (stops : Stops (code >>= rest) s e s'') :
    Stops code s e s'' ∨ ∃ a s', Runs code s a s' ∧ Stops (rest a) s' e s'' := by
  unfold Stops at stops
  rw [run_run_bind] at stops
  rcases first : code.run.run s with ⟨e' | a, s'⟩
  · rw [first] at stops
    cases stops
    exact .inl first
  · rw [first] at stops
    exact .inr ⟨a, s', first, stops⟩

/-- What cannot stop leaves it to the rest. -/
theorem Stops.of_runs_bind (first : Runs code s a s') (stops : Stops (code >>= rest) s e s'') :
    Stops (rest a) s' e s'' :=
  first.run_bind.symm.trans stops

theorem Stops.of_bind_modify {f : σ → σ} (stops : Stops (code >>= fun _ => modify f) s e s') :
    Stops code s e s' := by
  rcases Stops.of_bind stops with first | ⟨a, t, -, later⟩
  · exact first
  · cases later

/-- A loop that stops has done a part of its rounds. -/
theorem Stops.of_forM {γ : Type} {body : γ → ExceptT ε (StateM σ) PUnit} {f : σ → γ → σ}
    (each : ∀ s c s', Runs (body c) s ⟨⟩ s' → s' = f s c) {l : List γ}
    (stops : Stops (l.forM body) s e s') :
    ∃ first c rest, l = first ++ c :: rest ∧ Stops (body c) (first.foldl f s) e s' := by
  induction l generalizing s with
  | nil => cases stops
  | cons c l ih =>
    rcases Stops.of_bind stops with here | ⟨⟨⟩, t, returned, later⟩
    · exact ⟨[], c, l, rfl, here⟩
    · obtain ⟨first, d, rest, rfl, stopped⟩ := ih later
      refine ⟨c :: first, d, rest, rfl, ?_⟩
      rwa [List.foldl_cons, ← each s c t returned]

end IpcAgent.Library
