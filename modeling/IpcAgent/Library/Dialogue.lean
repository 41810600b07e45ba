import IpcAgent.Library.History

/-!
# Programs in dialogue with their surroundings

A program makes calls and goes on with the answers. It is run on the answers given so far,
and either ends or is left waiting for the answer to its next call; what it has done is its
trace, the calls answered so far and the marks set between them. A program that has ended is
not changed by further answers, and one that waits takes up exactly the next one: every
program carries the proof of this, so a list of answers is as good as a point of its run.

The second half has rules for what holds wherever a program may be.
-/

namespace IpcAgent.Library

/-- One entry of a trace. -/
inductive Event (C A M : Type)
  | exchange (call : C) (answer : A)
  | mark (m : M)
deriving DecidableEq

/-- How a program is left without a result: with an error that the code around it may handle,
with one that it may not, waiting for an answer, or in a loop that makes no calls. -/
inductive Halt (C E X : Type)
  | fail (e : E)
  | stop (x : X)
  | await (call : C)
  | spin
deriving DecidableEq

/-- No further answer makes a difference. -/
def Halt.Settled {C E X : Type} : Halt C E X → Prop
  | fail _ | stop _ => True
  | await _ | spin => False

/-- Anything but a stop in `B`. -/
def Halt.Avoids {C E X : Type} (B : X → Prop) : Halt C E X → Prop
  | stop x => ¬ B x
  | _ => True

inductive Outcome (C E X α : Type)
  | ret (a : α)
  | halt (x : Halt C E X)
deriving DecidableEq

/-- A program that has been given some answers. -/
structure Run (C A M E X α : Type) where
  outcome : Outcome C E X α
  /-- The answers it has not used. -/
  rest : List A
  trace : List (Event C A M)

variable {C A M E X α β : Type}

namespace Run

def Settled (r : Run C A M E X α) : Prop :=
  match r.outcome with
  | .ret _ => True
  | .halt x => x.Settled

/-- The run with something done before. -/
def after (r : Run C A M E X α) (trace : List (Event C A M)) : Run C A M E X α :=
  { r with trace := trace ++ r.trace }

/-- The run with further answers at its disposal. -/
def supply (r : Run C A M E X α) (more : List A) : Run C A M E X α :=
  { r with rest := r.rest ++ more }

end Run

/-- Answers are used from the front, and no later than they are needed. -/
structure Natural (f : List A → Run C A M E X α) : Prop where
  suffix : ∀ as, (f as).rest <:+ as
  settled : ∀ as more, (f as).Settled → f (as ++ more) = (f as).supply more
  awaiting : ∀ as c a more, (f as).outcome = .halt (.await c) →
    (f as).trace ++ [.exchange c a] <+: (f (as ++ a :: more)).trace

structure Program (C A M E X α : Type) where
  run : List A → Run C A M E X α
  natural : Natural run

namespace Program

/-! ## Basic programs -/

def ret (a : α) : Program C A M E X α where
  run as := ⟨.ret a, as, []⟩
  natural := ⟨fun _ => List.suffix_rfl, fun _ _ _ => rfl, fun _ _ _ _ h => by cases h⟩

/-- Make a call. -/
def ask (c : C) : Program C A M E X A where
  run
    | [] => ⟨.halt (.await c), [], []⟩
    | a :: as => ⟨.ret a, as, [.exchange c a]⟩
  natural := by
    refine ⟨fun as => ?_, fun as more h => ?_, fun as c' a more h => ?_⟩
    · cases as with
      | nil => exact List.suffix_rfl
      | cons a as => exact List.suffix_cons a as
    · cases as with
      | nil => exact h.elim
      | cons a as => rfl
    · cases as with
      | nil =>
        cases h
        exact List.prefix_rfl
      | cons a as => cases h

/-- Set a mark. -/
def tell (m : M) : Program C A M E X Unit where
  run as := ⟨.ret (), as, [.mark m]⟩
  natural := ⟨fun _ => List.suffix_rfl, fun _ _ _ => rfl, fun _ _ _ _ h => by cases h⟩

def fail (e : E) : Program C A M E X α where
  run as := ⟨.halt (.fail e), as, []⟩
  natural := ⟨fun _ => List.suffix_rfl, fun _ _ _ => rfl, fun _ _ _ _ h => by cases h⟩

def stop (x : X) : Program C A M E X α where
  run as := ⟨.halt (.stop x), as, []⟩
  natural := ⟨fun _ => List.suffix_rfl, fun _ _ _ => rfl, fun _ _ _ _ h => by cases h⟩

/-! ## Sequences -/

/-- Go on with the result of a run, if it has one. -/
def andThen (r : Run C A M E X α) (f : α → List A → Run C A M E X β) : Run C A M E X β :=
  match r.outcome with
  | .ret a => (f a r.rest).after r.trace
  | .halt x => ⟨.halt x, r.rest, r.trace⟩

def bind (p : Program C A M E X α) (f : α → Program C A M E X β) : Program C A M E X β where
  run as := andThen (p.run as) (fun a => (f a).run)
  natural := by
    refine ⟨fun as => ?_, fun as more h => ?_, fun as c a more h => ?_⟩
    · unfold andThen
      have used := p.natural.suffix as
      cases out : (p.run as).outcome with
      | ret a => exact ((f a).natural.suffix _).trans used
      | halt x => exact used
    · cases out : (p.run as).outcome with
      | ret a =>
        have settled : (p.run as).Settled := by simp [Run.Settled, out]
        have next : ((f a).run (p.run as).rest).Settled := by
          simpa [andThen, out, Run.Settled, Run.after] using h
        rw [p.natural.settled as more settled]
        simp [andThen, out, Run.supply, (f a).natural.settled _ more next, Run.after]
      | halt x =>
        have settled : (p.run as).Settled := by
          simpa [andThen, out, Run.Settled] using h
        rw [p.natural.settled as more settled]
        simp [andThen, out, Run.supply]
    · cases out : (p.run as).outcome with
      | ret b =>
        have settled : (p.run as).Settled := by simp [Run.Settled, out]
        have next : ((f b).run (p.run as).rest).outcome = .halt (.await c) := by
          simpa [andThen, out, Run.after] using h
        rw [p.natural.settled as (a :: more) settled]
        simpa [andThen, out, Run.supply, Run.after] using
          (f b).natural.awaiting _ c a more next
      | halt x =>
        obtain rfl : x = .await c := by simpa [andThen, out] using h
        have grows := p.natural.awaiting as c a more out
        have kept : (p.run (as ++ a :: more)).trace <+:
            (andThen (p.run (as ++ a :: more)) (fun a => (f a).run)).trace := by
          unfold andThen
          cases (p.run (as ++ a :: more)).outcome with
          | ret b => exact List.prefix_append _ _
          | halt x => exact List.prefix_rfl
        refine List.IsPrefix.trans ?_ kept
        simpa [andThen, out] using grows

instance : Monad (Program C A M E X) where
  pure := ret
  bind := bind

theorem run_ext {p q : Program C A M E X α} (h : ∀ as, p.run as = q.run as) : p = q := by
  obtain ⟨f, hf⟩ := p
  obtain ⟨g, hg⟩ := q
  obtain rfl : f = g := funext h
  rfl

instance : LawfulMonad (Program C A M E X) := by
  refine LawfulMonad.mk' _ (fun p => run_ext fun as => ?_) (fun a f => rfl)
    (fun p f g => run_ext fun as => ?_)
  · change andThen (p.run as) (fun a rest => ⟨.ret a, rest, []⟩) = p.run as
    cases r : p.run as with
    | mk outcome rest trace => cases outcome <;> simp [andThen, Run.after]
  · change andThen (andThen (p.run as) (fun a => (f a).run)) (fun b => (g b).run) =
      andThen (p.run as) (fun a as => andThen ((f a).run as) (fun b => (g b).run))
    cases out : (p.run as).outcome with
    | halt x => simp [andThen, out]
    | ret a =>
      cases next : ((f a).run (p.run as).rest).outcome <;>
        simp [andThen, out, next, Run.after]

/-- Run a program and hand on its error as a value. -/
def attempt (p : Program C A M E X α) : Program C A M E X (Except E α) where
  run as :=
    let r := p.run as
    match r.outcome with
    | .ret a => ⟨.ret (.ok a), r.rest, r.trace⟩
    | .halt (.fail e) => ⟨.ret (.error e), r.rest, r.trace⟩
    | .halt x => ⟨.halt x, r.rest, r.trace⟩
  natural := by
    refine ⟨fun as => ?_, fun as more h => ?_, fun as c a more h => ?_⟩
    · have used := p.natural.suffix as
      simp only
      split <;> exact used
    · have settled : (p.run as).Settled := by
        cases out : (p.run as).outcome with
        | ret a => simp [Run.Settled, out]
        | halt x => cases x <;> simp_all [Run.Settled, Halt.Settled]
      rw [p.natural.settled as more settled]
      cases out : (p.run as).outcome with
      | ret a => simp [Run.supply, out]
      | halt x => cases x <;> simp [Run.supply, out]
    · have waiting : (p.run as).outcome = .halt (.await c) := by
        cases out : (p.run as).outcome with
        | ret b => simp [out] at h
        | halt x => cases x <;> simp_all
      have grows := p.natural.awaiting as c a more waiting
      have kept : ∀ r : Run C A M E X α, (match r.outcome with
          | .ret a => (⟨.ret (.ok a), r.rest, r.trace⟩ : Run C A M E X (Except E α))
          | .halt (.fail e) => ⟨.ret (.error e), r.rest, r.trace⟩
          | .halt x => ⟨.halt x, r.rest, r.trace⟩).trace = r.trace := by
        intro r
        split <;> rfl
      simp only [kept]
      exact grows

/-! ## Loops -/

/-- Repeat the body while it returns true, at most `n` times. -/
def loopN (body : Program C A M E X Bool) : Nat → List A → Run C A M E X Unit
  | 0, as => ⟨.halt .spin, as, []⟩
  | n + 1, as => andThen (body.run as) (fun again rest =>
      if again then loopN body n rest else ⟨.ret (), rest, []⟩)

theorem loopN_suffix (body : Program C A M E X Bool) (n : Nat) (as : List A) :
    (loopN body n as).rest <:+ as := by
  induction n generalizing as with
  | zero => exact List.suffix_rfl
  | succ n ih =>
    have used := body.natural.suffix as
    unfold loopN andThen
    cases (body.run as).outcome with
    | ret again =>
      cases again with
      | true => exact (ih _).trans used
      | false => exact used
    | halt x => exact used

/-- A body that has used no answer and wants to go on will do so for ever. -/
theorem loopN_spin {body : Program C A M E X Bool} {as : List A}
    (again : (body.run as).outcome = .ret true) (idle : (body.run as).rest = as) (n : Nat) :
    (loopN body n as).outcome = .halt .spin := by
  induction n with
  | zero => rfl
  | succ n ih => simp [loopN, andThen, again, idle, Run.after, ih]

theorem loopN_idle_or_lt (body : Program C A M E X Bool) (as : List A) :
    (body.run as).rest = as ∨ (body.run as).rest.length < as.length := by
  rcases Nat.lt_or_eq_of_le (body.natural.suffix as).length_le with lt | eq
  · exact .inr lt
  · exact .inl ((body.natural.suffix as).eq_of_length eq)

theorem loopN_settled (body : Program C A M E X Bool) (n m : Nat) (as more : List A)
    (hn : as.length < n) (hm : (as ++ more).length < m) (h : (loopN body n as).Settled) :
    loopN body m (as ++ more) = (loopN body n as).supply more := by
  induction n generalizing m as with
  | zero => omega
  | succ n ih =>
    obtain ⟨m, rfl⟩ : ∃ k, m = k + 1 := ⟨m - 1, by omega⟩
    cases out : (body.run as).outcome with
    | halt x =>
      have settled : (body.run as).Settled := by
        simpa [loopN, andThen, out, Run.Settled] using h
      simp [loopN, andThen, body.natural.settled as more settled, Run.supply, out]
    | ret again =>
      have settled : (body.run as).Settled := by simp [Run.Settled, out]
      cases again with
      | false => simp [loopN, andThen, body.natural.settled as more settled, Run.supply, out,
          Run.after]
      | true =>
        rcases loopN_idle_or_lt body as with idle | shorter
        · -- An idle body never settles.
          have spins := loopN_spin out idle (n + 1)
          simp [Run.Settled, spins, Halt.Settled] at h
        · have rest : (loopN body n (body.run as).rest).Settled := by
            simpa [loopN, andThen, out, Run.after, Run.Settled] using h
          have next := ih m (body.run as).rest (by omega)
            (by simp only [List.length_append] at hm ⊢; omega) rest
          simp only [loopN, andThen, body.natural.settled as more settled, out, Run.supply,
            if_true, Run.after]
          simp [next, Run.supply]

theorem loopN_awaiting (body : Program C A M E X Bool) (n m : Nat) (as : List A) (c : C) (a : A)
    (more : List A) (hn : as.length < n) (hm : (as ++ a :: more).length < m)
    (h : (loopN body n as).outcome = .halt (.await c)) :
    (loopN body n as).trace ++ [.exchange c a] <+: (loopN body m (as ++ a :: more)).trace := by
  induction n generalizing m as with
  | zero => omega
  | succ n ih =>
    obtain ⟨m, rfl⟩ : ∃ k, m = k + 1 := ⟨m - 1, by omega⟩
    cases out : (body.run as).outcome with
    | halt x =>
      obtain rfl : x = .await c := by simpa [loopN, andThen, out] using h
      have grows := body.natural.awaiting as c a more out
      have kept : (body.run (as ++ a :: more)).trace <+:
          (loopN body (m + 1) (as ++ a :: more)).trace := by
        unfold loopN andThen
        cases (body.run (as ++ a :: more)).outcome with
        | ret b => exact List.prefix_append _ _
        | halt x => exact List.prefix_rfl
      refine List.IsPrefix.trans ?_ kept
      simpa [loopN, andThen, out] using grows
    | ret again =>
      have settled : (body.run as).Settled := by simp [Run.Settled, out]
      cases again with
      | false => simp [loopN, andThen, out, Run.after] at h
      | true =>
        rcases loopN_idle_or_lt body as with idle | shorter
        · have spins := loopN_spin out idle (n + 1)
          rw [spins] at h
          cases h
        · have rest : (loopN body n (body.run as).rest).outcome = .halt (.await c) := by
            simpa [loopN, andThen, out, Run.after] using h
          have next := ih m (body.run as).rest (by omega)
            (by simp only [List.length_append] at hm ⊢; omega) rest
          simp only [loopN, andThen, body.natural.settled as (a :: more) settled, out,
            Run.supply, if_true, Run.after, List.append_assoc]
          exact (List.prefix_append_right_inj _).mpr next

/-- Repeat the body while it returns true. As long as every round makes a call, there is an
answer to spare for each of them. -/
def loop (body : Program C A M E X Bool) : Program C A M E X Unit where
  run as := loopN body (as.length + 1) as
  natural := by
    refine ⟨fun as => loopN_suffix body _ as, fun as more h => ?_, fun as c a more h => ?_⟩
    · exact loopN_settled body _ _ as more (by omega) (by omega) h
    · exact loopN_awaiting body _ _ as c a more (by omega) (by omega) h

/-- The answers that are left before each round. -/
def roundsN (body : Program C A M E X Bool) : Nat → List A → List (List A)
  | 0, _ => []
  | n + 1, as => as :: match (body.run as).outcome with
    | .ret true => roundsN body n (body.run as).rest
    | _ => []

/-- The rounds of a loop, each given by the answers it starts with. -/
def rounds (body : Program C A M E X Bool) (as : List A) : List (List A) :=
  roundsN body (as.length + 1) as

/-- The trace of a loop is made of those of its rounds. -/
theorem trace_loop (body : Program C A M E X Bool) (as : List A) :
    ((loop body).run as).trace = (rounds body as).flatMap fun as => (body.run as).trace := by
  change (loopN body (as.length + 1) as).trace = (roundsN body (as.length + 1) as).flatMap _
  generalize as.length + 1 = n
  induction n generalizing as with
  | zero => rfl
  | succ n ih =>
    unfold loopN roundsN andThen
    cases out : (body.run as).outcome with
    | halt x => simp
    | ret again =>
      cases again with
      | true => simp [Run.after, ih]
      | false => simp [Run.after]

/-! ## What holds wherever a program may be -/

variable {Q : α → List (Event C A M) → Prop} {S : Halt C E X → List (Event C A M) → Prop}
  {h : List (Event C A M)}

/-- Started after the history `h`, a run makes `Q` true if it has a result, and `S` if it is
left without one. -/
def Meets (r : Run C A M E X α) (Q : α → List (Event C A M) → Prop)
    (S : Halt C E X → List (Event C A M) → Prop) (h : List (Event C A M)) : Prop :=
  match r.outcome with
  | .ret a => Q a (h ++ r.trace)
  | .halt x => S x (h ++ r.trace)

/-- Every run of the program does so, whatever the answers. -/
def wp (p : Program C A M E X α) (Q : α → List (Event C A M) → Prop)
    (S : Halt C E X → List (Event C A M) → Prop) (h : List (Event C A M)) : Prop :=
  ∀ as, Meets (p.run as) Q S h

theorem meets_andThen {r : Run C A M E X α} {f : α → List A → Run C A M E X β}
    {Q : β → List (Event C A M) → Prop}
    (hr : Meets r (fun a h => Meets (f a r.rest) Q S h) S h) : Meets (andThen r f) Q S h := by
  unfold Meets andThen at *
  cases out : r.outcome with
  | ret a => simpa [out, Run.after] using hr
  | halt x => simpa [out] using hr

theorem Meets.mono {r : Run C A M E X α} {Q' : α → List (Event C A M) → Prop}
    {S' : Halt C E X → List (Event C A M) → Prop} (hr : Meets r Q S h)
    (hQ : ∀ a h, Q a h → Q' a h) (hS : ∀ x h, S x h → S' x h) : Meets r Q' S' h := by
  unfold Meets at *
  cases out : r.outcome with
  | ret a =>
    rw [out] at hr
    exact hQ a _ hr
  | halt x =>
    rw [out] at hr
    exact hS x _ hr

theorem wp_mono {p : Program C A M E X α} {Q' : α → List (Event C A M) → Prop}
    {S' : Halt C E X → List (Event C A M) → Prop} (hp : p.wp Q S h)
    (hQ : ∀ a h, Q a h → Q' a h) (hS : ∀ x h, S x h → S' x h) : p.wp Q' S' h :=
  fun as => (hp as).mono hQ hS

theorem wp_pure {a : α} (ha : Q a h) : (pure a : Program C A M E X α).wp Q S h := by
  intro as
  simpa [Meets, pure, ret] using ha

theorem wp_fail {e : E} (he : S (.fail e) h) : (fail e : Program C A M E X α).wp Q S h := by
  intro as
  simpa [Meets, fail] using he

theorem wp_stop {x : X} (hx : S (.stop x) h) : (stop x : Program C A M E X α).wp Q S h := by
  intro as
  simpa [Meets, stop] using hx

theorem wp_tell {m : M} {Q : Unit → List (Event C A M) → Prop} (hm : Q () (h ++ [.mark m])) :
    (tell m : Program C A M E X Unit).wp Q S h := fun _ => hm

theorem wp_ask {c : C} {Q : A → List (Event C A M) → Prop} (waiting : S (.await c) h)
    (answered : ∀ a, Q a (h ++ [.exchange c a])) :
    (ask c : Program C A M E X A).wp Q S h := by
  intro as
  cases as with
  | nil => simpa [Meets, ask] using waiting
  | cons a as => exact answered a

theorem wp_bind {p : Program C A M E X α} {f : α → Program C A M E X β}
    {Q : β → List (Event C A M) → Prop} (hp : p.wp (fun a => (f a).wp Q S) S h) :
    (p >>= f).wp Q S h :=
  fun as => meets_andThen ((hp as).mono (fun _ _ hf => hf _) (fun _ _ => id))

theorem wp_attempt {p : Program C A M E X α} {Q : Except E α → List (Event C A M) → Prop}
    (hp : p.wp (fun a => Q (.ok a)) (fun
      | .fail e => Q (.error e)
      | x => S x) h) : (attempt p).wp Q S h := by
  intro as
  have at_as := hp as
  unfold Meets at at_as ⊢
  cases out : (p.run as).outcome with
  | ret a => simpa [attempt, out] using at_as
  | halt x => cases x <;> simpa [attempt, out] using at_as

/-- What holds however a program is left holds of its trace. -/
theorem wp_trace {p : Program C A M E X α} {I : List (Event C A M) → Prop}
    (hp : p.wp (fun _ => I) (fun _ => I) h) (as : List A) : I (h ++ (p.run as).trace) := by
  have at_as := hp as
  unfold Meets at at_as
  cases out : (p.run as).outcome <;> simpa [out] using at_as

/-- The invariant of a loop holds before each round. -/
theorem wp_loop {body : Program C A M E X Bool} {Q : Unit → List (Event C A M) → Prop}
    (I : List (Event C A M) → Prop) (start : I h) (spin : ∀ h, I h → S .spin h)
    (round : ∀ h, I h → body.wp (fun again h => if again then I h else Q () h) S h) :
    (loop body).wp Q S h := by
  intro as
  change Meets (loopN body (as.length + 1) as) Q S h
  generalize as.length + 1 = n
  induction n generalizing h as with
  | zero => simpa [Meets, loopN] using spin h start
  | succ n ih =>
    refine meets_andThen ((round h start as).mono (fun again h next => ?_) (fun _ _ => id))
    cases again with
    | true => exact ih next _
    | false => simpa [Meets] using next

/-- The invariant of a loop over a list speaks of what is left of the list. -/
theorem wp_forM {γ : Type} {body : γ → Program C A M E X PUnit}
    {Q : PUnit → List (Event C A M) → Prop} (I : List γ → List (Event C A M) → Prop)
    (l : List γ) (start : I l h) (done : ∀ h, I [] h → Q ⟨⟩ h)
    (round : ∀ c l h, I (c :: l) h → (body c).wp (fun _ => I l) S h) :
    (l.forM body).wp Q S h := by
  induction l generalizing h with
  | nil => exact wp_pure (done h start)
  | cons c l ih => exact wp_bind (wp_mono (round c l h start) (fun _ h hI => ih hI) (fun _ _ => id))

/-! ## Relying on the answers

Here the surroundings are trusted to keep to `R` in all they answer, and the program does
nothing outside `G` in return. Unlike above, there is no history. -/

section Upholds

variable {R G : Event C A M → Prop} {Q : α → Prop}

def Upholds (R G : Event C A M → Prop) (Q : α → Prop) (p : Program C A M E X α) : Prop :=
  ∀ as, (∀ e ∈ (p.run as).trace, R e) →
    (∀ e ∈ (p.run as).trace, G e) ∧ ∀ a, (p.run as).outcome = .ret a → Q a

/-- Whatever the answers are, all the program does is in `G`. -/
abbrev Emits (G : Event C A M → Prop) (p : Program C A M E X α) : Prop :=
  Upholds (fun _ => True) G (fun _ => True) p

theorem upholds_pure {a : α} (ha : Q a) : Upholds R G Q (pure a : Program C A M E X α) := by
  refine fun as _ => ⟨fun _ he => absurd he List.not_mem_nil, fun b hb => ?_⟩
  cases hb
  exact ha

theorem upholds_fail (e : E) : Upholds R G Q (fail e : Program C A M E X α) :=
  fun _ _ => ⟨fun _ he => absurd he List.not_mem_nil, fun _ h => by cases h⟩

theorem upholds_stop (x : X) : Upholds R G Q (stop x : Program C A M E X α) :=
  fun _ _ => ⟨fun _ he => absurd he List.not_mem_nil, fun _ h => by cases h⟩

theorem upholds_tell {Q : Unit → Prop} {m : M} (hm : G (.mark m)) (hQ : Q ()) :
    Upholds R G Q (tell m : Program C A M E X Unit) := by
  refine fun as _ => ⟨fun e he => ?_, fun _ _ => hQ⟩
  rw [List.mem_singleton.mp he]
  exact hm

theorem emits_tell {m : M} (hm : G (.mark m)) : Emits G (tell m : Program C A M E X Unit) :=
  upholds_tell hm trivial

theorem upholds_ask {Q : A → Prop} {c : C}
    (answered : ∀ a, R (.exchange c a) → G (.exchange c a) ∧ Q a) :
    Upholds R G Q (ask c : Program C A M E X A) := by
  intro as hR
  cases as with
  | nil => exact ⟨fun _ he => absurd he List.not_mem_nil, fun _ h => by cases h⟩
  | cons a as =>
    obtain ⟨hG, hQ⟩ := answered a (hR _ (List.mem_singleton.mpr rfl))
    refine ⟨fun e he => ?_, fun b hb => ?_⟩
    · rw [List.mem_singleton.mp he]
      exact hG
    · cases hb
      exact hQ

theorem upholds_andThen {Q' : β → Prop} {r : Run C A M E X α}
    {f : α → List A → Run C A M E X β} (hR : ∀ e ∈ (andThen r f).trace, R e)
    (hr : (∀ e ∈ r.trace, R e) → (∀ e ∈ r.trace, G e) ∧ ∀ a, r.outcome = .ret a → Q a)
    (hf : ∀ a, Q a → (∀ e ∈ (f a r.rest).trace, R e) →
      (∀ e ∈ (f a r.rest).trace, G e) ∧ ∀ b, (f a r.rest).outcome = .ret b → Q' b) :
    (∀ e ∈ (andThen r f).trace, G e) ∧ ∀ b, (andThen r f).outcome = .ret b → Q' b := by
  unfold andThen at hR ⊢
  cases out : r.outcome with
  | halt x =>
    simp only [out] at hR
    exact ⟨(hr hR).1, fun _ h => by cases h⟩
  | ret a =>
    simp only [out, Run.after, List.mem_append] at hR ⊢
    obtain ⟨first, ha⟩ := hr fun e he => hR e (.inl he)
    obtain ⟨next, hb⟩ := hf a (ha a out) fun e he => hR e (.inr he)
    exact ⟨fun e he => he.elim (first e) (next e), hb⟩

theorem upholds_bind {Q' : β → Prop} {p : Program C A M E X α}
    {f : α → Program C A M E X β} (hp : Upholds R G Q p)
    (hf : ∀ a, Q a → Upholds R G Q' (f a)) : Upholds R G Q' (p >>= f) :=
  fun as hR => upholds_andThen hR (hp as) (fun a ha => hf a ha _)

theorem upholds_attempt {Q : Except E α → Prop} {p : Program C A M E X α}
    (hp : Upholds R G (fun a => Q (.ok a)) p) (error : ∀ e, Q (.error e)) :
    Upholds R G Q (attempt p) := by
  intro as hR
  have at_as := hp as
  cases out : (p.run as).outcome with
  | ret a => simp_all [attempt]
  | halt x => cases x <;> simp_all [attempt]

theorem upholds_loop {body : Program C A M E X Bool} (hb : Upholds R G (fun _ => True) body) :
    Upholds R G (fun _ => True) (loop body) := by
  intro as
  simp only [loop]
  generalize as.length + 1 = n
  induction n generalizing as with
  | zero => exact fun _ => ⟨fun _ he => absurd he List.not_mem_nil, fun _ _ => trivial⟩
  | succ n ih =>
    refine fun hR => upholds_andThen hR (hb as) fun again _ => ?_
    cases again with
    | true => exact ih _
    | false => exact fun _ => ⟨fun _ he => absurd he List.not_mem_nil, fun _ _ => trivial⟩

theorem upholds_forM {γ : Type} {body : γ → Program C A M E X PUnit} (l : List γ)
    (hb : ∀ c ∈ l, Upholds R G (fun _ => True) (body c)) :
    Upholds R G (fun _ => True) (l.forM body) := by
  induction l with
  | nil => exact upholds_pure trivial
  | cons c l ih =>
    exact upholds_bind (hb c List.mem_cons_self)
      fun _ _ => ih fun d hd => hb d (List.mem_cons_of_mem c hd)

theorem Upholds.mono {R' G' : Event C A M → Prop} {Q' : α → Prop} {p : Program C A M E X α}
    (hp : Upholds R G Q p) (hR : ∀ e, R' e → R e) (hG : ∀ e, G e → G' e)
    (hQ : ∀ a, Q a → Q' a) : Upholds R' G' Q' p := by
  intro as hR'
  obtain ⟨done, result⟩ := hp as fun e he => hR e (hR' e he)
  exact ⟨fun e he => hG e (done e he), fun a ha => hQ a (result a ha)⟩

theorem upholds_mapM_mem {γ : Type} {f : γ → Program C A M E X α} {Q : γ → α → Prop} (l : List γ)
    (hf : ∀ c ∈ l, Upholds R G (Q c) (f c)) :
    Upholds R G (fun as => ∀ a ∈ as, ∃ c ∈ l, Q c a) (l.mapM f) := by
  induction l with
  | nil => exact upholds_pure (by simp)
  | cons c l ih =>
    rw [List.mapM_cons]
    refine upholds_bind (hf c List.mem_cons_self) fun a first => ?_
    refine upholds_bind (ih fun d hd => hf d (List.mem_cons_of_mem c hd)) fun as others => ?_
    refine upholds_pure fun b mem => ?_
    rcases List.mem_cons.mp mem with rfl | mem
    · exact ⟨c, List.mem_cons_self, first⟩
    · obtain ⟨d, hd, from_d⟩ := others b mem
      exact ⟨d, List.mem_cons_of_mem c hd, from_d⟩

theorem upholds_mapM {γ : Type} {f : γ → Program C A M E X α} (l : List γ)
    (hf : ∀ c ∈ l, Upholds R G (fun _ => True) (f c)) :
    Upholds R G (fun _ => True) (l.mapM f) :=
  (upholds_mapM_mem l hf).mono (fun _ => id) (fun _ => id) fun _ _ => trivial

/-- A part of a program of which only that much is known. -/
theorem Upholds.wp {Q' : α → List (Event C A M) → Prop} {p : Program C A M E X α}
    (hp : Upholds (fun _ => True) G Q p)
    (returned : ∀ a ev, Q a → (∀ e ∈ ev, G e) → Q' a (h ++ ev))
    (halted : ∀ x ev, (∀ e ∈ ev, G e) → S x (h ++ ev)) : p.wp Q' S h := by
  intro as
  obtain ⟨done, result⟩ := hp as fun _ _ => trivial
  unfold Meets
  cases out : (p.run as).outcome with
  | ret a => exact returned a _ (result a out) done
  | halt x => exact halted x _ done

/-- A part that neither makes calls nor sets marks. -/
theorem Upholds.wp_of_silent {Q' : α → List (Event C A M) → Prop} {p : Program C A M E X α}
    (hp : Upholds (fun _ => True) (fun _ => False) Q p) (returned : ∀ a, Q a → Q' a h)
    (halted : ∀ x, S x h) : p.wp Q' S h := by
  refine hp.wp (fun a ev hQ none => ?_) fun x ev none => ?_
  all_goals
    obtain rfl := List.eq_nil_iff_forall_not_mem.mpr none
    rw [List.append_nil]
  · exact returned a hQ
  · exact halted x

end Upholds

/-! ## What a program finds out

A result and the trace of the run that has led to it. Only the program's own trace is in view,
so this can be used after any history. -/

section Shows

variable {G : Event C A M → Prop} {Q : α → List (Event C A M) → Prop} {p : Program C A M E X α}

/-- All the program does is in `G`, and what it has done is as `Q` says of its result. -/
def Shows (G : Event C A M → Prop) (Q : α → List (Event C A M) → Prop)
    (p : Program C A M E X α) : Prop :=
  ∀ as, (∀ e ∈ (p.run as).trace, G e) ∧
    ∀ a, (p.run as).outcome = .ret a → Q a (p.run as).trace

theorem shows_pure {a : α} (ha : Q a []) : Shows G Q (pure a : Program C A M E X α) := by
  refine fun as => ⟨fun _ he => absurd he List.not_mem_nil, fun b hb => ?_⟩
  cases hb
  exact ha

theorem shows_fail (e : E) : Shows G Q (fail e : Program C A M E X α) :=
  fun _ => ⟨fun _ he => absurd he List.not_mem_nil, fun _ h => by cases h⟩

theorem shows_ask {c : C} (answered : ∀ a, G (.exchange c a)) :
    Shows G (fun a ev => ev = [.exchange c a]) (ask c : Program C A M E X A) := by
  intro as
  cases as with
  | nil => exact ⟨fun _ he => absurd he List.not_mem_nil, fun _ h => by cases h⟩
  | cons a as =>
    refine ⟨fun e he => ?_, fun b hb => ?_⟩
    · rw [List.mem_singleton.mp he]
      exact answered a
    · cases hb
      rfl

theorem shows_bind {Q' : β → List (Event C A M) → Prop} {f : α → Program C A M E X β}
    (hp : Shows G Q p) (hf : ∀ a ev, Q a ev → Shows G (fun b ev' => Q' b (ev ++ ev')) (f a)) :
    Shows G Q' (p >>= f) := by
  intro as
  obtain ⟨first, result⟩ := hp as
  simp only [show (p >>= f).run as = andThen (p.run as) fun a => (f a).run from rfl, andThen]
  cases out : (p.run as).outcome with
  | halt x => exact ⟨first, fun _ h => by cases h⟩
  | ret a =>
    obtain ⟨next, result'⟩ := hf a _ (result a out) (p.run as).rest
    exact ⟨fun e he => (List.mem_append.mp he).elim (first e) (next e), result'⟩

theorem Shows.mono {Q' : α → List (Event C A M) → Prop} (hp : Shows G Q p)
    (hQ : ∀ a ev, Q a ev → Q' a ev) : Shows G Q' p :=
  fun as => ⟨(hp as).1, fun a out => hQ a _ ((hp as).2 a out)⟩

/-- A part that makes no calls, in the middle of a program. -/
theorem shows_bind_silent {Q : α → Prop} {Q' : β → List (Event C A M) → Prop}
    {f : α → Program C A M E X β} (hp : Upholds (fun _ => True) (fun _ => False) Q p)
    (hf : ∀ a, Q a → Shows G Q' (f a)) : Shows G Q' (p >>= f) := by
  have shows : Shows G (fun a ev => Q a ∧ ev = []) p := by
    intro as
    obtain ⟨none, result⟩ := hp as fun _ _ => trivial
    exact ⟨fun e he => (none e he).elim, fun a out =>
      ⟨result a out, List.eq_nil_iff_forall_not_mem.mpr none⟩⟩
  refine shows_bind shows ?_
  rintro a _ ⟨ha, rfl⟩
  exact hf a ha

theorem Shows.wp {Q' : α → List (Event C A M) → Prop} (hp : Shows G Q p)
    (returned : ∀ a ev, Q a ev → (∀ e ∈ ev, G e) → Q' a (h ++ ev))
    (halted : ∀ x ev, (∀ e ∈ ev, G e) → S x (h ++ ev)) : p.wp Q' S h := by
  intro as
  obtain ⟨done, result⟩ := hp as
  unfold Meets
  cases out : (p.run as).outcome with
  | ret a => exact returned a _ (result a out) done
  | halt x => exact halted x _ done

end Shows

/-! ## Stops that do not happen

The surroundings are trusted in the same way, and the program is never left with one of certain
stops in return. -/

section Avoids

variable {R : Event C A M → Prop} {B : X → Prop} {Q : α → Prop} {p : Program C A M E X α}

/-- As long as all answers are in `R`, a stop in `B` is avoided and a result is in `Q`. -/
def Avoids (R : Event C A M → Prop) (B : X → Prop) (Q : α → Prop)
    (p : Program C A M E X α) : Prop :=
  ∀ h, p.wp (fun a h => (∀ e ∈ h, R e) → Q a) (fun x h => (∀ e ∈ h, R e) → x.Avoids B) h

/-- Past an answer outside `R` nothing is promised. -/
theorem wp_of_broken (broken : ¬ ∀ e ∈ h, R e) :
    p.wp (fun a h => (∀ e ∈ h, R e) → Q a) (fun x h => (∀ e ∈ h, R e) → x.Avoids B) h := by
  intro as
  have still : ¬ ∀ e ∈ h ++ (p.run as).trace, R e := fun all =>
    broken fun e mem => all e (List.mem_append_left _ mem)
  unfold Meets
  split
  · exact fun all => absurd all still
  · exact fun all => absurd all still

theorem avoids_pure {a : α} (ha : Q a) : Avoids R B Q (pure a : Program C A M E X α) :=
  fun _ => wp_pure fun _ => ha

theorem avoids_fail (e : E) : Avoids R B Q (fail e : Program C A M E X α) :=
  fun _ => wp_fail fun _ => trivial

theorem avoids_tell {m : M} : Avoids R B (fun _ => True) (tell m : Program C A M E X Unit) :=
  fun _ => wp_tell fun _ => trivial

theorem avoids_ask {Q : A → Prop} {c : C} (answered : ∀ a, R (.exchange c a) → Q a) :
    Avoids R B Q (ask c : Program C A M E X A) := by
  intro h
  refine wp_ask (fun _ => trivial) fun a all => ?_
  exact answered a (all _ (List.mem_append_right _ (List.mem_singleton.mpr rfl)))

theorem avoids_bind {Q' : β → Prop} {f : α → Program C A M E X β} (hp : Avoids R B Q p)
    (hf : ∀ a, Q a → Avoids R B Q' (f a)) : Avoids R B Q' (p >>= f) := by
  intro h
  refine wp_bind (wp_mono (hp h) (fun a h hQ => ?_) fun _ _ => id)
  by_cases all : ∀ e ∈ h, R e
  · exact hf a (hQ all) h
  · exact wp_of_broken all

theorem avoids_mapM {γ : Type} {f : γ → Program C A M E X α} (l : List γ)
    (hf : ∀ c ∈ l, Avoids R B (fun _ => True) (f c)) :
    Avoids R B (fun _ => True) (l.mapM f) := by
  induction l with
  | nil => exact avoids_pure trivial
  | cons c l ih =>
    rw [List.mapM_cons]
    refine avoids_bind (hf c List.mem_cons_self) fun _ _ => ?_
    exact avoids_bind (ih fun d hd => hf d (List.mem_cons_of_mem c hd))
      fun _ _ => avoids_pure trivial

theorem Avoids.wp (hp : Avoids R B Q p) :
    p.wp (fun _ _ => True) (fun x h => (∀ e ∈ h, R e) → x.Avoids B) h :=
  wp_mono (hp h) (fun _ _ _ => trivial) fun _ _ => id

end Avoids

end Program

end IpcAgent.Library
