import IpcAgent.Library.Dialogue

/-!
# Programs and their partners

Here the surroundings of a program have a state. A partner says what may be answered to a call
in a given state, and what state this leads to; of all it may do, it chooses at will. A program
that `Will` end does so after finitely many calls, whatever the partner chooses. One that never
ends may still come to a pause again and again.
-/

namespace IpcAgent.Library

variable {C A M E X W α β γ : Type}

/-- The answers that may be given to a call, with the state after each. -/
abbrev Partner (C A W : Type) := W → C → A → W → Prop

namespace Program

/-- With the answers `as` behind it and the partner in state `w`, the program makes calls only
where `ok` allows them, and ends with a result in `Q`. -/
inductive Will (e : Partner C A W) (ok : C → W → Prop) (p : Program C A M E X α)
    (Q : α → W → Prop) : List A → W → Prop
  | done {as : List A} {w : W} {a : α} (out : (p.run as).outcome = .ret a)
    (rest : (p.run as).rest = []) (post : Q a w) : Will e ok p Q as w
  | next {as : List A} {w : W} {c : C} (out : (p.run as).outcome = .halt (.await c))
    (rest : (p.run as).rest = []) (allowed : ok c w)
    (answered : ∀ a w', e w c a w' → Will e ok p Q (as ++ [a]) w') : Will e ok p Q as w

/-- With the answers `as` behind it, the program comes to a pause `n` times, and each time the
state is in `P`. Apart from the pauses it goes on for only finitely many calls. -/
inductive Recurs (e : Partner C A W) (pause : C → Prop) (P : W → Prop)
    (p : Program C A M E X α) : Nat → List A → W → Prop
  | enough {as : List A} {w : W} : Recurs e pause P p 0 as w
  | pause {n : Nat} {as : List A} {w : W} {c : C} (out : (p.run as).outcome = .halt (.await c))
    (rest : (p.run as).rest = []) (pauses : pause c) (here : P w)
    (answered : ∀ a w', e w c a w' → Recurs e pause P p n (as ++ [a]) w') :
    Recurs e pause P p (n + 1) as w
  | next {n : Nat} {as : List A} {w : W} {c : C} (out : (p.run as).outcome = .halt (.await c))
    (rest : (p.run as).rest = []) (works : ¬ pause c)
    (answered : ∀ a w', e w c a w' → Recurs e pause P p n (as ++ [a]) w') :
    Recurs e pause P p n as w

section Rules

variable {e : Partner C A W} {ok : C → W → Prop} {Q : α → W → Prop} {w : W}

/-! ## Programs that end -/

theorem Will.mono {p : Program C A M E X α} {as : List A} {Q' : α → W → Prop}
    (will : p.Will e ok Q as w) (post : ∀ a w, Q a w → Q' a w) : p.Will e ok Q' as w := by
  induction will with
  | done out rest holds => exact .done out rest (post _ _ holds)
  | next out rest allowed _ ih => exact .next out rest allowed ih

theorem will_pure {a : α} (post : Q a w) :
    (pure a : Program C A M E X α).Will e ok Q [] w := .done rfl rfl post

theorem will_tell {m : M} {Q : Unit → W → Prop} (post : Q () w) :
    (tell m : Program C A M E X Unit).Will e ok Q [] w := .done rfl rfl post

theorem will_ask {c : C} {Q : A → W → Prop} (allowed : ok c w)
    (answered : ∀ a w', e w c a w' → Q a w') :
    (ask c : Program C A M E X A).Will e ok Q [] w :=
  .next rfl rfl allowed fun a w' may => .done rfl rfl (answered a w' may)

/-- Once the first program has ended, the second one has the answers to itself. -/
theorem run_bind_of_ret {p : Program C A M E X α} {f : α → Program C A M E X β} {as : List A}
    {a : α} (out : (p.run as).outcome = .ret a) (rest : (p.run as).rest = []) (bs : List A) :
    (p >>= f).run (as ++ bs) = ((f a).run bs).after (p.run as).trace := by
  have settled : (p.run as).Settled := by simp [Run.Settled, out]
  change andThen (p.run (as ++ bs)) _ = _
  rw [p.natural.settled as bs settled]
  simp [andThen, Run.supply, out, rest]

/-- A result of both programs is one of the second, after one of the first. -/
theorem run_bind_ret {p : Program C A M E X α} {f : α → Program C A M E X β} {as : List A} {b : β}
    (out : ((p >>= f).run as).outcome = .ret b) :
    ∃ a, (p.run as).outcome = .ret a ∧ ((f a).run (p.run as).rest).outcome = .ret b ∧
      (p >>= f).run as = ((f a).run (p.run as).rest).after (p.run as).trace := by
  have run : (p >>= f).run as = andThen (p.run as) fun a => (f a).run := rfl
  cases first : (p.run as).outcome with
  | halt x => simp [run, andThen, first] at out
  | ret a => exact ⟨a, rfl, by simpa [run, andThen, first, Run.after] using out,
      by simp [run, andThen, first]⟩

theorem run_bind_of_await {p : Program C A M E X α} {f : α → Program C A M E X β} {as : List A}
    {c : C} (out : (p.run as).outcome = .halt (.await c)) :
    (p >>= f).run as = ⟨.halt (.await c), (p.run as).rest, (p.run as).trace⟩ := by
  change andThen (p.run as) _ = _
  simp [andThen, out]

/-- A program that, once it has the answers `as`, goes on like `p`. -/
theorem Will.of_run {p q : Program C A M E X α} {as bs : List A} {t : List (Event C A M)}
    (run : ∀ bs, q.run (as ++ bs) = (p.run bs).after t) (will : p.Will e ok Q bs w) :
    q.Will e ok Q (as ++ bs) w := by
  induction will with
  | @done bs w b out rest post =>
    refine .done (a := b) ?_ ?_ post
    · simpa [run, Run.after] using out
    · simpa [run, Run.after] using rest
  | @next bs w c out rest allowed _ ih =>
    refine .next (c := c) ?_ ?_ allowed fun a w' may => ?_
    · simpa [run, Run.after] using out
    · simpa [run, Run.after] using rest
    · rw [List.append_assoc]
      exact ih a w' may

theorem Will.bind {p : Program C A M E X α} {f : α → Program C A M E X β} {as : List A}
    {R : β → W → Prop} (will : p.Will e ok Q as w)
    (follows : ∀ a w, Q a w → (f a).Will e ok R [] w) : (p >>= f).Will e ok R as w := by
  induction will with
  | @done as w a out rest post =>
    simpa using (follows a w post).of_run (run_bind_of_ret out rest)
  | next out rest allowed _ ih =>
    refine .next ?_ ?_ allowed ih
    · rw [run_bind_of_await out]
    · rw [run_bind_of_await out]
      exact rest

theorem Will.attempt {p : Program C A M E X α} {as : List A} {R : Except E α → W → Prop}
    (will : p.Will e ok Q as w) (post : ∀ a w, Q a w → R (.ok a) w) :
    p.attempt.Will e ok R as w := by
  induction will with
  | @done as w a out rest holds =>
    refine .done (a := .ok a) ?_ ?_ (post a w holds)
    · simp [Program.attempt, out]
    · simpa [Program.attempt, out] using rest
  | @next as w c out rest allowed _ ih =>
    refine .next (c := c) ?_ ?_ allowed ih
    · simp [Program.attempt, out]
    · simpa [Program.attempt, out] using rest

theorem run_attempt_bind_of_ret {p : Program C A M E X α} {f : α → Program C A M E X β}
    {as : List A} {a : α} (out : (p.run as).outcome = .ret a) (rest : (p.run as).rest = [])
    (bs : List A) :
    (p >>= f).attempt.run (as ++ bs) = ((f a).attempt.run bs).after (p.run as).trace := by
  have run := run_bind_of_ret (f := f) out rest bs
  simp only [Program.attempt, run, Run.after]
  cases ((f a).run bs).outcome with
  | ret b => rfl
  | halt x => cases x <;> rfl

/-- An error is one of the second program. -/
theorem Will.attempt_bind {p : Program C A M E X α} {f : α → Program C A M E X β} {as : List A}
    {R : Except E β → W → Prop} (will : p.Will e ok Q as w)
    (follows : ∀ a w, Q a w → (f a).attempt.Will e ok R [] w) :
    (p >>= f).attempt.Will e ok R as w := by
  induction will with
  | @done as w a out rest post =>
    simpa using (follows a w post).of_run (run_attempt_bind_of_ret out rest)
  | @next as w c out rest allowed _ ih =>
    have run := run_bind_of_await (f := f) out
    refine .next (c := c) ?_ ?_ allowed ih
    · simp [Program.attempt, run]
    · simpa [Program.attempt, run] using rest

theorem will_forM {body : γ → Program C A M E X PUnit} (I : List γ → W → Prop) (l : List γ)
    (start : I l w)
    (round : ∀ c l w, I (c :: l) w → (body c).Will e ok (fun _ => I l) [] w) :
    (l.forM body).Will e ok (fun _ => I []) [] w := by
  induction l generalizing w with
  | nil => exact will_pure start
  | cons c l ih => exact Will.bind (round c l w start) fun _ _ held => ih held

/-! ## Loops -/

/-- There is no result before a call has been answered. -/
def Asks (p : Program C A M E X α) : Prop :=
  ∀ as a, (p.run as).outcome = .ret a → (p.run as).rest.length < as.length

theorem asks_ask (c : C) : (ask c : Program C A M E X A).Asks := by
  intro as a out
  cases as with
  | nil => cases out
  | cons b as => exact Nat.lt_succ_self _

theorem Asks.bind {p : Program C A M E X α} (asks : p.Asks) (f : α → Program C A M E X β) :
    (p >>= f).Asks := by
  intro as b out
  obtain ⟨a, first, -, run⟩ := run_bind_ret out
  rw [run]
  exact Nat.lt_of_le_of_lt ((f a).natural.suffix _).length_le (asks as a first)

theorem loopN_eq {body : Program C A M E X Bool} (asks : body.Asks) {n m : Nat} {as : List A}
    (hn : as.length < n) (hm : as.length < m) : loopN body n as = loopN body m as := by
  induction n generalizing m as with
  | zero => omega
  | succ n ih =>
    obtain ⟨m, rfl⟩ : ∃ k, m = k + 1 := ⟨m - 1, by omega⟩
    unfold loopN andThen
    cases out : (body.run as).outcome with
    | halt x => rfl
    | ret again =>
      cases again with
      | false => rfl
      | true =>
        have fewer := asks as true out
        simp only [if_true]
        rw [ih (m := m) (by omega) (by omega)]

/-- The first round, and then the others. -/
theorem loop_eq {body : Program C A M E X Bool} (asks : body.Asks) :
    loop body = body >>= fun again => if again then loop body else pure () := by
  refine run_ext fun as => ?_
  change loopN body (as.length + 1) as =
    andThen (body.run as) fun again => (if again then loop body else pure ()).run
  unfold loopN andThen
  cases out : (body.run as).outcome with
  | halt x => rfl
  | ret again =>
    cases again with
    | false => rfl
    | true =>
      have fewer := asks as true out
      have same := loopN_eq asks fewer (Nat.lt_succ_self (body.run as).rest.length)
      simp only [if_true]
      rw [same]
      rfl

/-- A loop each of whose rounds brings the measure down. -/
theorem will_loop {body : Program C A M E X Bool} {Q : Unit → W → Prop} (asks : body.Asks)
    (I : W → Prop) (measure : W → Nat) (start : I w)
    (round : ∀ w, I w → body.Will e ok
      (fun again w' => if again then I w' ∧ measure w' < measure w else Q () w') [] w) :
    (loop body).Will e ok Q [] w := by
  induction hm : measure w using Nat.strongRecOn generalizing w with
  | ind m ih =>
    rw [loop_eq asks]
    refine Will.bind (round w start) fun again w' next => ?_
    cases again with
    | true => exact ih _ (by rw [← hm]; exact next.2) next.1 rfl
    | false => exact will_pure (by simpa using next)

/-! ## Programs that go on -/

variable {pause : C → Prop} {P : W → Prop} {n : Nat}

theorem Recurs.bind_ret {p : Program C A M E X α} {f : α → Program C A M E X β}
    {as bs : List A} {a : α} (out : (p.run as).outcome = .ret a)
    (rest : (p.run as).rest = []) (recurs : (f a).Recurs e pause P n bs w) :
    (p >>= f).Recurs e pause P n (as ++ bs) w := by
  induction recurs with
  | enough => exact .enough
  | @pause n bs w c out' rest' pauses here _ ih =>
    have run := run_bind_of_ret (f := f) out rest bs
    refine .pause (c := c) ?_ ?_ pauses here fun a w' may => ?_
    · simpa [run, Run.after] using out'
    · simpa [run, Run.after] using rest'
    · rw [List.append_assoc]
      exact ih a w' may
  | @next n bs w c out' rest' works _ ih =>
    have run := run_bind_of_ret (f := f) out rest bs
    refine .next (c := c) ?_ ?_ works fun a w' may => ?_
    · simpa [run, Run.after] using out'
    · simpa [run, Run.after] using rest'
    · rw [List.append_assoc]
      exact ih a w' may

theorem Recurs.pred {p : Program C A M E X α} {as : List A}
    (recurs : p.Recurs e pause P (n + 1) as w) : p.Recurs e pause P n as w := by
  generalize more : n + 1 = m at recurs
  induction recurs generalizing n with
  | enough => cases more
  | @pause m as w c out rest pauses here answered ih =>
    obtain rfl := Nat.succ.inj more
    cases n with
    | zero => exact .enough
    | succ n => exact .pause out rest pauses here fun a w' may => ih a w' may rfl
  | next out rest works _ ih => exact .next out rest works fun a w' may => ih a w' may more

/-- First something that ends, and pauses only in `P`. -/
theorem Will.recurs {p : Program C A M E X α} {f : α → Program C A M E X β} {as : List A}
    (will : p.Will e (fun c w => pause c → P w) Q as w)
    (follows : ∀ a w, Q a w → (f a).Recurs e pause P n [] w) :
    (p >>= f).Recurs e pause P n as w := by
  induction will generalizing n with
  | @done as w a out rest post =>
    simpa using Recurs.bind_ret out rest (follows a w post)
  | @next as w c out rest allowed _ ih =>
    have run := run_bind_of_await (f := f) out
    have left : ((p >>= f).run as).rest = [] := by rw [run]; exact rest
    by_cases pauses : pause c
    · cases n with
      | zero => exact .enough
      | succ n =>
        refine .pause (by rw [run]) left pauses (allowed pauses) fun a w' may => ?_
        exact ih a w' may fun a w post => (follows a w post).pred
    · exact .next (by rw [run]) left pauses fun a w' may => ih a w' may follows

theorem recurs_ask {c : C} {f : A → Program C A M E X β} (pauses : pause c) (here : P w)
    (answered : ∀ a w', e w c a w' → (f a).Recurs e pause P n [] w') :
    (ask c >>= f).Recurs e pause P (n + 1) [] w := by
  refine .pause (c := c) rfl rfl pauses here fun a w' may => ?_
  change (ask c >>= f).Recurs e pause P n ([a] ++ []) w'
  exact Recurs.bind_ret rfl rfl (answered a w' may)

end Rules

end Program

end IpcAgent.Library
