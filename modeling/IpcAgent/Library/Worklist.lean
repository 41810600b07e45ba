import Mathlib.Data.List.Count
import Mathlib.Data.List.Nodup
import Mathlib.Data.List.Pairwise
import Mathlib.Logic.Relation
import Mathlib.Order.WellFounded

/-!
# Searches with a worklist

A search takes the first element off its list, visits it and puts what comes next before the
rest. It keeps no record of what it has seen: an element is visited once for each path that
leads to it. Where there are no infinite paths the search ends, and it visits exactly what
can be reached; it visits nothing twice if and only if nothing is shared.
-/

namespace IpcAgent.Library

variable {α : Type}

/-- Searching the worklist visits these elements, in this order. -/
inductive Visits (next : α → List α) : List α → List α → Prop
  | nil : Visits next [] []
  | cons {a : α} {rest visited : List α} (after : Visits next (next a ++ rest) visited) :
      Visits next (a :: rest) (a :: visited)

/-- There is a path from the first element to the second. -/
abbrev Reaches (next : α → List α) : α → α → Prop :=
  Relation.ReflTransGen (fun a b => b ∈ next a)

/-- Along every path, what comes next is smaller. -/
def Descends (next : α → List α) : Prop := WellFounded (fun b a => b ∈ next a)

/-- No element that can be reached from `a` comes next twice. -/
def Unshared (next : α → List α) (a : α) : Prop :=
  ∀ b, Reaches next a b → (next b).Nodup ∧
    ∀ c, Reaches next a c → c ≠ b → (next b).Disjoint (next c)

variable {next : α → List α} {a b : α} {list visited : List α}

/-! ## The search ends -/

theorem exists_visits_cons (acc : Acc (fun b a => b ∈ next a) a) {rest : List α}
    (others : ∃ visited, Visits next rest visited) :
    ∃ visited, Visits next (a :: rest) visited := by
  induction acc generalizing rest with
  | intro a _ ih =>
    -- What comes next can be put before the rest, one element after the other.
    have front : ∀ front : List α, (∀ b ∈ front, b ∈ next a) →
        ∃ visited, Visits next (front ++ rest) visited := by
      intro front sub
      induction front with
      | nil => exact others
      | cons b front ihf =>
        obtain ⟨here, sub⟩ := List.forall_mem_cons.mp sub
        exact ih b here (ihf sub)
    obtain ⟨visited, after⟩ := front (next a) fun _ mem => mem
    exact ⟨a :: visited, after.cons⟩

theorem Descends.exists_visits (wf : Descends next) (list : List α) :
    ∃ visited, Visits next list visited := by
  induction list with
  | nil => exact ⟨[], .nil⟩
  | cons a list ih => exact exists_visits_cons (wf.apply a) ih

/-! ## What is visited -/

theorem Visits.mem_iff (search : Visits next list visited) (b : α) :
    b ∈ visited ↔ ∃ a ∈ list, Reaches next a b := by
  induction search with
  | nil => simp
  | @cons a rest visited after ih =>
    rw [List.mem_cons, ih]
    constructor
    · rintro (rfl | ⟨c, mem, path⟩)
      · exact ⟨b, List.mem_cons_self, .refl⟩
      · rcases List.mem_append.mp mem with first | other
        · exact ⟨a, List.mem_cons_self, path.head first⟩
        · exact ⟨c, List.mem_cons_of_mem a other, path⟩
    · rintro ⟨c, mem, path⟩
      rcases List.mem_cons.mp mem with rfl | other
      · rcases path.cases_head with rfl | ⟨d, first, path⟩
        · exact .inl rfl
        · exact .inr ⟨d, List.mem_append_left _ first, path⟩
      · exact .inr ⟨c, List.mem_append_right _ other, path⟩

theorem Visits.mem_iff_reaches (search : Visits next [a] visited) (b : α) :
    b ∈ visited ↔ Reaches next a b := by
  simp [search.mem_iff]

/-- Every visit is one of the start or comes next after another visit. -/
theorem Visits.perm (search : Visits next list visited) :
    visited.Perm (list ++ visited.flatMap next) := by
  induction search with
  | nil => exact .refl _
  | @cons a rest visited after ih =>
    refine (ih.cons a).trans ?_
    rw [List.flatMap_cons, List.cons_append, ← List.append_assoc]
    exact ((List.perm_append_comm).append_right _).cons a

/-! ## What is visited twice -/

/-- No path leads back. -/
theorem Descends.not_mem_of_reaches (wf : Descends next) (path : Reaches next a b) :
    a ∉ next b := by
  intro back
  have cycle : Relation.TransGen (fun b a => b ∈ next a) a a :=
    Relation.TransGen.head' back (Relation.reflTransGen_swap.mp path)
  exact (wf.transGen.irrefl).irrefl a cycle

variable [DecidableEq α]

/-- What comes next after one element only is met as often as that element. -/
theorem count_flatMap_eq_count {l : List α}
    (once : ∀ c ∈ l, (next c).count b = if c = a then 1 else 0) :
    (l.flatMap next).count b = l.count a := by
  induction l with
  | nil => rfl
  | cons c l ih =>
    obtain ⟨here, rest⟩ := List.forall_mem_cons.mp once
    rw [List.flatMap_cons, List.count_append, here, ih rest, List.count_cons, Nat.add_comm]
    simp only [beq_iff_eq]

theorem Visits.count_eq (search : Visits next [a] visited) (b : α) :
    visited.count b = [a].count b + (visited.flatMap next).count b := by
  rw [search.perm.count_eq b, List.count_append]

/-- Each element that is reached is visited as often as the one before it on the path. -/
theorem Visits.count_le_one (wf : Descends next) (search : Visits next [a] visited)
    (unshared : Unshared next a) (path : Reaches next a b) : visited.count b ≤ 1 := by
  induction path with
  | refl =>
    have none : a ∉ visited.flatMap next := by
      intro mem
      obtain ⟨c, visit, back⟩ := List.mem_flatMap.mp mem
      exact wf.not_mem_of_reaches ((search.mem_iff_reaches c).mp visit) back
    rw [search.count_eq, List.count_eq_zero_of_not_mem none]
    simp
  | @tail b c path step ih =>
    have other : a ≠ c := by
      rintro rfl
      exact wf.not_mem_of_reaches path step
    have once : ∀ d ∈ visited, (next d).count c = if d = b then 1 else 0 := by
      intro d mem
      have reached := (search.mem_iff_reaches d).mp mem
      split
      · rename_i eq
        exact List.count_eq_one_of_mem (unshared d reached).1 (eq ▸ step)
      · rename_i ne
        exact List.count_eq_zero_of_not_mem fun mem => (unshared b path).2 d reached ne step mem
    rw [search.count_eq, count_flatMap_eq_count once, List.count_singleton', if_neg other,
      Nat.zero_add]
    exact ih

/-- Nothing is visited twice if and only if nothing is shared. -/
theorem Visits.nodup_iff (wf : Descends next) (search : Visits next [a] visited) :
    visited.Nodup ↔ Unshared next a := by
  constructor
  · intro nodup b path
    have after : (visited.flatMap next).Nodup :=
      (List.nodup_append.mp (search.perm.nodup_iff.mp nodup)).2.1
    obtain ⟨each, apart⟩ := List.nodup_flatMap.mp after
    have mem := (search.mem_iff_reaches b).mpr path
    have symm : Std.Symm (Function.onFun List.Disjoint next) :=
      ⟨fun _ _ apart _ left right => apart right left⟩
    refine ⟨each b mem, fun c path' ne => ?_⟩
    exact apart.forall mem ((search.mem_iff_reaches c).mpr path') ne.symm
  · intro unshared
    refine List.nodup_iff_count_le_one.mpr fun b => ?_
    by_cases mem : b ∈ visited
    · exact search.count_le_one wf unshared ((search.mem_iff_reaches b).mp mem)
    · rw [List.count_eq_zero_of_not_mem mem]
      exact Nat.zero_le 1

end IpcAgent.Library
