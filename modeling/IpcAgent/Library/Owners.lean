import Mathlib.Data.Finset.Card
import Mathlib.Data.List.Count

/-!
# Owners

Things that have owners come and go. An owner comes with the first of its things and goes with
the last, so whoever watches for these two keeps track of the owners.
-/

namespace IpcAgent.Library

variable {α κ : Type} [DecidableEq κ] {owner : α → κ} {l : List α} {a : α} {k : κ}

/-- How many of the things are owned by `k`. -/
def holdings (owner : α → κ) (l : List α) (k : κ) : Nat := l.countP (fun a => owner a = k)

def owners (owner : α → κ) (l : List α) : Finset κ := (l.map owner).toFinset

theorem mem_owners : k ∈ owners owner l ↔ 0 < holdings owner l k := by
  simp [owners, holdings, List.countP_pos_iff]

theorem mem_owners_of_mem (mem : a ∈ l) : owner a ∈ owners owner l := by
  rw [owners, List.mem_toFinset]
  exact List.mem_map_of_mem mem

theorem holdings_cons :
    holdings owner (a :: l) k = holdings owner l k + if owner a = k then 1 else 0 := by
  simp [holdings, List.countP_cons]

theorem holdings_erase [DecidableEq α] (owner : α → κ) (mem : a ∈ l) (k : κ) :
    holdings owner (l.erase a) k + (if owner a = k then 1 else 0) = holdings owner l k := by
  rw [← holdings_cons]
  exact (List.perm_cons_erase mem).symm.countP_eq _

/-! ## The first and the last -/

theorem owners_cons : owners owner (a :: l) = insert (owner a) (owners owner l) := by
  simp [owners]

theorem notMem_owners (none : holdings owner l k = 0) : k ∉ owners owner l := by
  rw [mem_owners]
  omega

theorem owners_cons_of_further (further : holdings owner l (owner a) ≠ 0) :
    owners owner (a :: l) = owners owner l := by
  rw [owners_cons, Finset.insert_eq_self, mem_owners]
  omega

variable [DecidableEq α]

theorem owners_erase_of_last (mem : a ∈ l) (last : holdings owner (l.erase a) (owner a) = 0) :
    owners owner (l.erase a) = (owners owner l).erase (owner a) := by
  ext k
  have count := holdings_erase owner mem k
  rw [Finset.mem_erase, mem_owners, mem_owners]
  grind

theorem owners_erase_of_remaining (mem : a ∈ l)
    (remaining : holdings owner (l.erase a) (owner a) ≠ 0) :
    owners owner (l.erase a) = owners owner l := by
  ext k
  have count := holdings_erase owner mem k
  rw [mem_owners, mem_owners]
  grind

/-- Nobody comes when something goes. -/
theorem owners_erase_subset : owners owner (l.erase a) ⊆ owners owner l := by
  intro k
  simp only [owners, List.mem_toFinset, List.mem_map]
  rintro ⟨b, mem, rfl⟩
  exact ⟨b, List.mem_of_mem_erase mem, rfl⟩

end IpcAgent.Library
