import Mathlib.Data.List.Induction
import Mathlib.Data.List.Nodup

/-!
# A gate

What is offered to a gate before its release is held back, but only so much of it, and only the
first element with each key. The release lets through what is held, and from then on everything
passes. A `Gate` is the history of the offers; what is held and what has passed are functions of
it, so an implementation is right if it keeps up with them.
-/

namespace IpcAgent.Library

variable {α κ : Type} [DecidableEq κ]

/-- The first elements with different keys, at most `n` of them. -/
def firsts (key : α → κ) (n : Nat) (l : List α) : List α :=
  (l.eraseDupsBy (fun a b => key b == key a)).take n

section Firsts

variable {key : α → κ} {n : Nat} {l : List α} {a : α}

theorem eraseDupsBy_loop_snoc (r : α → α → Bool) (l kept : List α) (a : α) :
    List.eraseDupsBy.loop r (l ++ [a]) kept =
      if (List.eraseDupsBy.loop r l kept).any (r a) then List.eraseDupsBy.loop r l kept
      else List.eraseDupsBy.loop r l kept ++ [a] := by
  induction l generalizing kept with
  | nil =>
    simp only [List.nil_append, List.eraseDupsBy.loop, List.any_reverse]
    cases kept.any (r a) <;> simp
  | cons b l ih =>
    simp only [List.cons_append, List.eraseDupsBy.loop]
    by_cases seen : kept.any (r b) = true
    · simpa only [seen] using ih kept
    · simpa only [seen] using ih (b :: kept)

@[simp] theorem firsts_nil : firsts key n [] = [] := by simp [firsts]

/-- What one more element adds. -/
theorem firsts_snoc : firsts key n (l ++ [a]) =
    if (firsts key n l).length < n ∧ (firsts key n l).any (fun b => key b == key a) = false then
      firsts key n l ++ [a]
    else firsts key n l := by
  unfold firsts List.eraseDupsBy
  rw [eraseDupsBy_loop_snoc]
  generalize List.eraseDupsBy.loop (fun a b => key b == key a) l [] = kept
  by_cases room : kept.length < n
  · rw [List.take_of_length_le (Nat.le_of_lt room)]
    by_cases seen : kept.any (fun b => key b == key a) = true
    · rw [if_pos seen, if_neg fun more => absurd more.2 (by simp [seen]),
        List.take_of_length_le (Nat.le_of_lt room)]
    · rw [if_neg seen, if_pos ⟨room, Bool.eq_false_iff.mpr seen⟩,
        List.take_of_length_le (by simp; omega)]
  · -- The list is cut before the new element.
    have full : ¬ (kept.take n).length < n := by simp [Nat.le_of_not_lt room]
    rw [if_neg (fun more : (kept.take n).length < n ∧ _ => full more.1)]
    split_ifs
    · rfl
    · exact List.take_append_of_le_length (Nat.le_of_not_lt room)

theorem length_firsts_le : (firsts key n l).length ≤ n := List.length_take_le n _

theorem nodup_firsts : ((firsts key n l).map key).Nodup := by
  induction l using List.reverseRecOn with
  | nil => simp
  | append_singleton l a ih =>
    rw [firsts_snoc]
    split_ifs with more
    · have new : key a ∉ (firsts key n l).map key := by simpa using more.2
      rw [List.map_append, List.nodup_append]
      grind
    · exact ih

theorem mem_of_mem_firsts {b : α} (mem : b ∈ firsts key n l) : b ∈ l := by
  induction l using List.reverseRecOn with
  | nil => simp at mem
  | append_singleton l a ih =>
    rw [firsts_snoc] at mem
    split_ifs at mem <;> grind

end Firsts

/-- What was offered before the release, and what since; `none` until it. -/
structure Gate (α : Type) where
  before : List α
  since : Option (List α)

namespace Gate

def closed : Gate α := ⟨[], none⟩

def offer (g : Gate α) (a : α) : Gate α :=
  match g.since with
  | none => { g with before := g.before ++ [a] }
  | some since => { g with since := some (since ++ [a]) }

def release (g : Gate α) : Gate α := { g with since := some (g.since.getD []) }

theorem foldl_offer_closed (before l : List α) :
    l.foldl offer ⟨before, none⟩ = ⟨before ++ l, none⟩ := by
  induction l generalizing before with
  | nil => simp
  | cons a l ih =>
    rw [List.foldl_cons, offer, ih]
    simp

theorem foldl_offer_released (before since l : List α) :
    l.foldl offer ⟨before, some since⟩ = ⟨before, some (since ++ l)⟩ := by
  induction l generalizing since with
  | nil => simp
  | cons a l ih =>
    rw [List.foldl_cons, offer, ih]
    simp

def releaseIf (g : Gate α) : Bool → Gate α
  | true => g.release
  | false => g

/-- A further release changes nothing. -/
theorem releaseIf_releaseIf (g : Gate α) (c c' : Bool) :
    (g.releaseIf c).releaseIf c' = g.releaseIf (c || c') := by
  cases c <;> cases c' <;> rfl

variable (key : α → κ) (n : Nat)

/-- What is held back, `none` after the release. -/
def held (g : Gate α) : Option (List α) :=
  match g.since with
  | none => some (firsts key n g.before)
  | some _ => none

/-- What has passed. -/
def passed (g : Gate α) : List α :=
  match g.since with
  | none => []
  | some since => firsts key n g.before ++ since

variable {key n} {g : Gate α} {a : α} {kept : List α}

theorem held_eq_some :
    g.held key n = some kept ↔ g.since = none ∧ firsts key n g.before = kept := by
  unfold held
  cases g.since <;> simp

theorem held_eq_none : g.held key n = none ↔ ∃ since, g.since = some since := by
  unfold held
  cases g.since <;> simp

theorem held_offer (closed : g.held key n = some kept) : (g.offer a).held key n =
    some (if kept.length < n ∧ kept.any (fun b => key b == key a) = false then kept ++ [a]
      else kept) := by
  obtain ⟨since, rfl⟩ := held_eq_some.mp closed
  simp only [held, offer, since]
  rw [firsts_snoc]

theorem passed_offer (closed : g.held key n = some kept) :
    (g.offer a).passed key n = g.passed key n := by
  obtain ⟨since, -⟩ := held_eq_some.mp closed
  simp [passed, offer, since]

theorem offer_of_released (released : g.held key n = none) :
    (g.offer a).held key n = none ∧ (g.offer a).passed key n = g.passed key n ++ [a] := by
  obtain ⟨since, released⟩ := held_eq_none.mp released
  simp [held, passed, offer, released]

theorem mem_before_of_held {b : α} (closed : g.held key n = some kept) (mem : b ∈ kept) :
    b ∈ g.before := by
  obtain ⟨-, rfl⟩ := held_eq_some.mp closed
  exact mem_of_mem_firsts mem

theorem mem_before_offer {b : α} (mem : b ∈ (g.offer a).before) : b ∈ g.before ∨ b = a := by
  unfold offer at mem
  split at mem
  · simpa using mem
  · exact .inl mem

@[simp] theorem held_release : g.release.held key n = none := rfl

theorem passed_release :
    g.release.passed key n = g.passed key n ++ (g.held key n).getD [] := by
  unfold passed held release
  cases g.since <;> simp

end Gate

end IpcAgent.Library
