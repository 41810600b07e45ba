import Mathlib.Data.List.AList
import Mathlib.Data.List.Sort
import Mathlib.Data.Finset.Card

/-!
# Hash maps

A hash map is Mathlib's association list with distinct keys. What a program can see of a
table beyond its bindings is the order in which it is walked: that order is never part of
the map, it is a `HashOrder` which every walk receives as an argument, so a result proved
for all orders holds for every hasher and every history of the table.
-/

namespace IpcAgent.Library

/-- One way to walk through the keys of a table. -/
structure HashOrder (κ : Type) where
  arrange : List κ → List κ
  perm : ∀ keys, (arrange keys).Perm keys

/-- The walk that keeps the order of the underlying list. -/
def HashOrder.plain (κ : Type) : HashOrder κ := ⟨id, fun _ => .refl _⟩

/-- One way to list the elements of a set. -/
structure SetOrder (κ : Type) where
  arrange : Finset κ → List κ
  coe_arrange : ∀ s, (arrange s : Multiset κ) = s.val

/-- The listing by increasing keys. -/
def SetOrder.sortedBy {κ τ : Type} [LinearOrder τ] (key : κ → τ)
    (inj : Function.Injective key) : SetOrder κ where
  arrange s := Quot.liftOn s.val (List.insertionSort (fun a b => key a ≤ key b)) (by
    intro l l' perm
    have sorted : ∀ l : List κ, (l.insertionSort (fun a b => key a ≤ key b)).Pairwise
        (fun a b => key a ≤ key b) := fun l => by
      have : Std.Total (fun a b : κ => key a ≤ key b) := ⟨fun a b => le_total _ _⟩
      have : IsTrans κ (fun a b => key a ≤ key b) := ⟨fun a b c => le_trans⟩
      exact List.pairwise_insertionSort _ l
    refine List.Perm.eq_of_pairwise (fun a b _ _ h h' => inj (le_antisymm h h')) (sorted l)
      (sorted l') ?_
    exact (List.perm_insertionSort _ l).trans (perm.trans (List.perm_insertionSort _ l').symm))
  coe_arrange s := by
    obtain ⟨s, _⟩ := s
    induction s using Quot.inductionOn with
    | h l => exact Multiset.coe_eq_coe.mpr (List.perm_insertionSort _ l)

theorem SetOrder.mem_arrange {κ : Type} (o : SetOrder κ) (s : Finset κ) (a : κ) :
    a ∈ o.arrange s ↔ a ∈ s := by
  rw [← Multiset.mem_coe, o.coe_arrange]
  rfl

abbrev HashMap (κ ν : Type) := AList (fun _ : κ => ν)

end IpcAgent.Library

namespace AList
open IpcAgent.Library

variable {κ ν : Type}

/-- The number of bindings. -/
def len (m : AList (fun _ : κ => ν)) : Nat := m.keys.length

/-- Rewrite every value in place. -/
def mapVal (f : κ → ν → ν) (m : AList (fun _ : κ => ν)) : AList (fun _ : κ => ν) where
  entries := m.entries.map (fun e => ⟨e.1, f e.1 e.2⟩)
  nodupKeys := by
    simpa [List.NodupKeys, List.keys, Function.comp_def] using m.nodupKeys

@[simp] theorem keys_mapVal (f : κ → ν → ν) (m : AList (fun _ : κ => ν)) :
    (m.mapVal f).keys = m.keys := by
  simp [mapVal, keys, List.keys, Function.comp_def]

@[simp] theorem len_mapVal (f : κ → ν → ν) (m : AList (fun _ : κ => ν)) :
    (m.mapVal f).len = m.len := by
  simp [len]

variable [DecidableEq κ]

@[simp] theorem lookup_mapVal (f : κ → ν → ν) (m : AList (fun _ : κ => ν)) (k : κ) :
    (m.mapVal f).lookup k = (m.lookup k).map (f k) := by
  have key : ∀ l : List (Sigma (fun _ : κ => ν)),
      (l.map (fun e => (⟨e.1, f e.1 e.2⟩ : Sigma (fun _ : κ => ν)))).dlookup k =
        (l.dlookup k).map (f k) := by
    intro l
    induction l with
    | nil => rfl
    | cons e l ih =>
      obtain ⟨k', v⟩ := e
      by_cases h : k = k'
      · subst h
        simp [List.dlookup_cons_eq]
      · have skip : ∀ (w : ν) (l : List (Sigma (fun _ : κ => ν))),
            List.dlookup k (⟨k', w⟩ :: l) = l.dlookup k :=
          fun w l => List.dlookup_cons_ne l ⟨k', w⟩ h
        rw [List.map_cons, skip, skip, ih]
  exact key m.entries

theorem erase_of_lookup_none {m : AList (fun _ : κ => ν)} {k : κ} (h : m.lookup k = none) :
    m.erase k = m :=
  AList.ext (List.kerase_of_notMem_keys (lookup_eq_none.mp h))

theorem len_erase_of_mem {m : AList (fun _ : κ => ν)} {k : κ} (mem : k ∈ m) :
    (m.erase k).len + 1 = m.len := by
  unfold len
  rw [keys_erase]
  exact List.length_erase_add_one (mem_keys.mp mem)

theorem erase_of_notMem {m : AList (fun _ : κ => ν)} {k : κ} (free : k ∉ m) : m.erase k = m :=
  erase_of_lookup_none (lookup_eq_none.mpr free)

theorem len_insert (m : AList (fun _ : κ => ν)) (k : κ) (v : ν) :
    (m.insert k v).len = if k ∈ m then m.len else m.len + 1 := by
  have same : (m.insert k v).len = (m.erase k).len + 1 := by
    unfold len
    rw [keys_insert, keys_erase, List.length_cons]
  split
  · rw [same, len_erase_of_mem ‹_›]
  · rw [same, erase_of_notMem ‹_›]

/-- Keep the bindings whose value passes. -/
def retain (p : ν → Bool) (m : AList (fun _ : κ => ν)) : AList (fun _ : κ => ν) where
  entries := m.entries.filter (fun e => p e.2)
  nodupKeys := m.nodupKeys.sublist List.filter_sublist

theorem lookup_retain (p : ν → Bool) (m : AList (fun _ : κ => ν)) (k : κ) :
    (m.retain p).lookup k = (m.lookup k).filter p := by
  have bound : ∀ v, v ∈ (m.retain p).lookup k ↔ v ∈ (m.lookup k).filter p := by
    intro v
    rw [AList.mem_lookup_iff, Option.mem_filter_iff, AList.mem_lookup_iff]
    exact List.mem_filter
  exact Option.ext bound

/-- `entry(k).or_default()`: bind `k` to `d` unless it is bound already. -/
def orInsert (m : AList (fun _ : κ => ν)) (k : κ) (d : ν) : AList (fun _ : κ => ν) :=
  if k ∈ m then m else m.insert k d

theorem lookup_orInsert (m : AList (fun _ : κ => ν)) (k k' : κ) (d : ν) :
    (m.orInsert k d).lookup k' =
      if k' = k then some ((m.lookup k).getD d) else m.lookup k' := by
  unfold orInsert
  by_cases hk : k ∈ m
  · obtain ⟨v, hv⟩ := Option.isSome_iff_exists.mp (lookup_isSome.mpr hk)
    by_cases h : k' = k
    · subst h; simp [hk, hv]
    · simp [hk, h]
  · by_cases h : k' = k
    · subst h; simp [hk, lookup_eq_none.mpr hk]
    · simp [hk, h, lookup_insert_ne h]

theorem mem_orInsert (m : AList (fun _ : κ => ν)) (k : κ) (d : ν) : k ∈ m.orInsert k d := by
  unfold orInsert
  split
  · assumption
  · exact mem_insert _ |>.mpr (.inl rfl)

theorem len_orInsert (m : AList (fun _ : κ => ν)) (k : κ) (d : ν) :
    (m.orInsert k d).len = if k ∈ m then m.len else m.len + 1 := by
  unfold orInsert
  split
  · rfl
  · rw [len_insert, if_neg ‹_›]

/-- The bindings in the order `o` walks through them. -/
def iter (m : AList (fun _ : κ => ν)) (o : HashOrder κ) : List (κ × ν) :=
  (o.arrange m.keys).filterMap (fun k => (m.lookup k).map (fun v => (k, v)))

@[simp] theorem mem_iter (m : AList (fun _ : κ => ν)) (o : HashOrder κ) (k : κ) (v : ν) :
    (k, v) ∈ m.iter o ↔ m.lookup k = some v := by
  simp only [iter, List.mem_filterMap, (o.perm m.keys).mem_iff, Option.map_eq_some_iff,
    Prod.mk.injEq]
  constructor
  · rintro ⟨_, _, _, h, rfl, rfl⟩
    exact h
  · intro h
    exact ⟨k, lookup_isSome.mp (by simp [h]), v, h, rfl, rfl⟩

theorem map_fst_iter (m : AList (fun _ : κ => ν)) (o : HashOrder κ) :
    (m.iter o).map Prod.fst = o.arrange m.keys := by
  have bound : ∀ k ∈ o.arrange m.keys, ∃ v, m.lookup k = some v := by
    intro k hk
    exact Option.isSome_iff_exists.mp (lookup_isSome.mpr ((o.perm m.keys).mem_iff.mp hk))
  unfold iter
  generalize o.arrange m.keys = ks at bound
  induction ks with
  | nil => rfl
  | cons k ks ih =>
    obtain ⟨v, hv⟩ := bound k (by simp)
    simp only [List.filterMap_cons, hv, Option.map_some, List.map_cons]
    rw [ih (fun k' h => bound k' (by simp [h]))]

theorem nodup_map_fst_iter (m : AList (fun _ : κ => ν)) (o : HashOrder κ) :
    ((m.iter o).map Prod.fst).Nodup := by
  rw [map_fst_iter]
  exact (o.perm m.keys).nodup_iff.mpr m.nodupKeys

end AList
