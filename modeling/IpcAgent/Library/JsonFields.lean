import IpcAgent.Library.Json
import Mathlib.Data.List.Nodup

/-!
# Structures as JSON

Further decoders as `serde` derives them. A structure is an object with a member for each
field, in any order, or an array of the fields in the order of their declaration.
-/

namespace IpcAgent.Library.Json

/-! ## Values of fields -/

def asI64 : Json → Option Int64
  | num (.int n) =>
    if Int64.minValue.toInt ≤ n ∧ n ≤ Int64.maxValue.toInt then some (.ofInt n) else none
  | _ => none

/-- `Vec<T>`. -/
def asVec {α : Type} (decode : Json → Option α) : Json → Option (List α)
  | arr items => items.mapM decode
  | _ => none

def ofOption : Option String → Json
  | none => null
  | some s => str s

@[simp] theorem asU64_int (n : UInt64) : asU64 (int n.toNat) = some n := by
  have bounds : 0 ≤ (n.toNat : Int) ∧ (n.toNat : Int) < UInt64.size :=
    ⟨Int.natCast_nonneg _, Int.ofNat_lt.mpr n.toNat_lt⟩
  rw [int, asU64, if_pos bounds, Int.toNat_natCast, UInt64.ofNat_toNat]

@[simp] theorem asU8_int (n : UInt8) : asU8 (int n.toNat) = some n := by
  have bounds : 0 ≤ (n.toNat : Int) ∧ (n.toNat : Int) < UInt8.size :=
    ⟨Int.natCast_nonneg _, Int.ofNat_lt.mpr n.toNat_lt⟩
  rw [int, asU8, if_pos bounds, Int.toNat_natCast, UInt8.ofNat_toNat]

@[simp] theorem asI64_int (n : Int64) : asI64 (int n.toInt) = some n := by
  have bounds : Int64.minValue.toInt ≤ n.toInt ∧ n.toInt ≤ Int64.maxValue.toInt :=
    ⟨n.minValue_le_toInt, n.toInt_le⟩
  rw [int, asI64, if_pos bounds, Int64.ofInt_toInt]

@[simp] theorem asString_str (s : String) : asString (str s) = some s := rfl

@[simp] theorem asOption_ofOption (s : Option String) :
    asOption asString (some (ofOption s)) = some s := by
  cases s <;> rfl

theorem asVec_map {α : Type} {encode : α → Json} {decode : Json → Option α}
    (back : ∀ a, decode (encode a) = some a) (l : List α) :
    asVec decode (arr (l.map encode)) = some l := by
  induction l with
  | nil => rfl
  | cons a l ih =>
    have tail : (l.map encode).mapM decode = some l := ih
    simp [asVec, back, tail]

/-! ## The fields of a structure -/

/-- The member of a `Value`, where the last of several with one name is kept. -/
def member (name : String) (members : List (String × Json)) : Option Json :=
  ((members.filter (fun member => member.1 = name)).getLast?).map Prod.snd

/-- The fields of a structure: by name, with some left out, or all of them in order. -/
def fields (names : List String) : Json → Option (List (Option Json))
  | obj members => some (names.map (member · members))
  | arr items => if items.length = names.length then some (items.map some) else none
  | _ => none

theorem member_of_mem {members : List (String × Json)} {name : String} {value : Json}
    (nodup : (members.map Prod.fst).Nodup) (mem : (name, value) ∈ members) :
    member name members = some value := by
  have only : ∀ v, some v = member name members → v = value := by
    intro v isMember
    obtain ⟨last, isLast, rfl⟩ := Option.map_eq_some_iff.mp isMember.symm
    have filtered := List.mem_filter.mp (List.mem_of_getLast? isLast)
    have same : last.1 = name := of_decide_eq_true filtered.2
    have := List.inj_on_of_nodup_map nodup filtered.1 mem same
    rw [this]
  have given : members.filter (fun member => member.1 = name) ≠ [] :=
    List.ne_nil_of_mem (List.mem_filter.mpr ⟨mem, by simp⟩)
  cases isMember : member name members with
  | some v => rw [only v isMember.symm]
  | none => exact absurd (List.getLast?_eq_none_iff.mp (Option.map_eq_none_iff.mp isMember)) given

/-- Whatever the order in which the fields are written, they are read in the one asked for. -/
theorem fields_of_perm {written members : List (String × Json)}
    (nodup : (written.map Prod.fst).Nodup) (perm : members.Perm written) :
    fields (written.map Prod.fst) (obj members) = some (written.map fun field => some field.2) := by
  rw [fields, List.map_map, Option.some_inj, List.map_inj_left]
  intro field mem
  exact member_of_mem ((perm.map Prod.fst).nodup_iff.mpr nodup) (perm.mem_iff.mpr mem)

/-! ## Shallow values -/

/-- The value comes back as it was, and is not nested deeper than `n`. -/
def Fits (float : UInt64 → UInt64) (n : Nat) (value : Json) : Prop :=
  value.Kept float ∧ value.depth ≤ n

section Fits

variable {float : UInt64 → UInt64} {n : Nat}

@[simp] theorem fits_str (s : String) : (str s).Fits float n := ⟨trivial, Nat.zero_le _⟩

@[simp] theorem fits_int (i : Int) : (int i).Fits float n := ⟨trivial, Nat.zero_le _⟩

@[simp] theorem fits_ofOption (s : Option String) : (ofOption s).Fits float n := by
  cases s <;> exact ⟨trivial, Nat.zero_le _⟩

theorem fits_arr_map {α : Type} {encode : α → Json} (fits : ∀ a, (encode a).Fits float n)
    (l : List α) : (arr (l.map encode)).Fits float (n + 1) := by
  suffices KeptItems float (l.map encode) ∧ depthItems (l.map encode) ≤ n from
    ⟨this.1, Nat.succ_le_succ this.2⟩
  induction l with
  | nil => exact ⟨trivial, Nat.zero_le _⟩
  | cons a l ih => exact ⟨⟨(fits a).1, ih.1⟩, Nat.max_le.mpr ⟨(fits a).2, ih.2⟩⟩

end Fits

theorem keptMembers_iff {float : UInt64 → UInt64} {members : List (String × Json)} :
    KeptMembers float members ↔ ∀ member ∈ members, member.2.Kept float := by
  induction members with
  | nil => simp [KeptMembers]
  | cons member members ih => simp [KeptMembers, ih]

theorem depthMembers_le_iff {members : List (String × Json)} {n : Nat} :
    depthMembers members ≤ n ↔ ∀ member ∈ members, member.2.depth ≤ n := by
  induction members with
  | nil => simp [depthMembers]
  | cons member members ih => simp only [depthMembers, Nat.max_le, ih, List.forall_mem_cons]

end IpcAgent.Library.Json
