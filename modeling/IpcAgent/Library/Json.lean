import Mathlib.Init

/-!
# JSON values

Values as `serde_json` has them. The members of an object are listed in the order in which
they are written, with every occurrence of a name.

A decimal text gives back the float it was written for only if the reader takes the trouble,
so a value that is written and read again may have other floats; everything else comes back
as it was. A reader gives up on values that are nested too deeply.
-/

namespace IpcAgent.Library

/-- An integer, or a floating-point number by its bits. -/
inductive Number
  | int (n : Int)
  | float (bits : UInt64)
deriving DecidableEq

inductive Json
  | null
  | bool (b : Bool)
  | num (n : Number)
  | str (s : String)
  | arr (items : List Json)
  | obj (members : List (String × Json))

namespace Json

mutual

/-- How deep arrays and objects are nested. -/
def depth : Json → Nat
  | null | bool _ | num _ | str _ => 0
  | arr items => depthItems items + 1
  | obj members => depthMembers members + 1

def depthItems : List Json → Nat
  | [] => 0
  | item :: items => max (depth item) (depthItems items)

def depthMembers : List (String × Json) → Nat
  | [] => 0
  | (_, value) :: members => max (depth value) (depthMembers members)

end

end Json

/-! ## Values written and read again -/

section Reread

-- What is read where a float has been written.
variable (float : UInt64 → UInt64)

def Number.reread : Number → Number
  | .int n => .int n
  | .float bits => .float (float bits)

def Number.Kept : Number → Prop
  | .int _ => True
  | .float bits => float bits = bits

namespace Json

mutual

def reread : Json → Json
  | null => null
  | bool b => bool b
  | num n => num (n.reread float)
  | str s => str s
  | arr items => arr (rereadItems items)
  | obj members => obj (rereadMembers members)

def rereadItems : List Json → List Json
  | [] => []
  | item :: items => reread item :: rereadItems items

def rereadMembers : List (String × Json) → List (String × Json)
  | [] => []
  | (name, value) :: members => (name, reread value) :: rereadMembers members

end

mutual

/-- Every float in the value is read as it was written. -/
def Kept : Json → Prop
  | null | bool _ | str _ => True
  | num n => n.Kept float
  | arr items => KeptItems items
  | obj members => KeptMembers members

def KeptItems : List Json → Prop
  | [] => True
  | item :: items => Kept item ∧ KeptItems items

def KeptMembers : List (String × Json) → Prop
  | [] => True
  | (_, value) :: members => Kept value ∧ KeptMembers members

end

end Json

variable {float}

theorem Number.reread_of_kept {n : Number} (kept : n.Kept float) : n.reread float = n := by
  cases n with
  | int n => rfl
  | float bits => exact congrArg Number.float kept

theorem Number.kept_of_reread {n : Number} (same : n.reread float = n) : n.Kept float := by
  cases n with
  | int n => trivial
  | float bits => exact Number.float.inj same

namespace Json

theorem depthMembers_append (members members' : List (String × Json)) :
    depthMembers (members ++ members') = max (depthMembers members) (depthMembers members') := by
  induction members with
  | nil => simp [depthMembers]
  | cons member members ih => simp only [List.cons_append, depthMembers, ih, Nat.max_assoc]

theorem rereadMembers_append (members members' : List (String × Json)) :
    rereadMembers float (members ++ members') =
      rereadMembers float members ++ rereadMembers float members' := by
  induction members with
  | nil => rfl
  | cons member members ih => simp only [List.cons_append, rereadMembers, ih]

mutual

theorem reread_of_kept : ∀ value : Json, value.Kept float → value.reread float = value
  | null, _ | bool _, _ | str _, _ => rfl
  | num _, kept => congrArg num (Number.reread_of_kept kept)
  | arr items, kept => congrArg arr (rereadItems_of_kept items kept)
  | obj members, kept => congrArg obj (rereadMembers_of_kept members kept)

theorem rereadItems_of_kept :
    ∀ items : List Json, KeptItems float items → rereadItems float items = items
  | [], _ => rfl
  | item :: items, kept => by
    rw [rereadItems, reread_of_kept item kept.1, rereadItems_of_kept items kept.2]

theorem rereadMembers_of_kept : ∀ members : List (String × Json),
    KeptMembers float members → rereadMembers float members = members
  | [], _ => rfl
  | (name, value) :: members, kept => by
    rw [rereadMembers, reread_of_kept value kept.1, rereadMembers_of_kept members kept.2]

end

mutual

theorem kept_of_reread : ∀ value : Json, value.reread float = value → value.Kept float
  | null, _ | bool _, _ | str _, _ => trivial
  | num _, same => Number.kept_of_reread (num.inj same)
  | arr items, same => keptItems_of_reread items (arr.inj same)
  | obj members, same => keptMembers_of_reread members (obj.inj same)

theorem keptItems_of_reread :
    ∀ items : List Json, rereadItems float items = items → KeptItems float items
  | [], _ => trivial
  | item :: items, same =>
    have both := List.cons.inj same
    ⟨kept_of_reread item both.1, keptItems_of_reread items both.2⟩

theorem keptMembers_of_reread : ∀ members : List (String × Json),
    rereadMembers float members = members → KeptMembers float members
  | [], _ => trivial
  | (_, value) :: members, same =>
    have both := List.cons.inj same
    ⟨kept_of_reread value (Prod.mk.inj both.1).2, keptMembers_of_reread members both.2⟩

end

theorem kept_iff {value : Json} : value.Kept float ↔ value.reread float = value :=
  ⟨reread_of_kept value, kept_of_reread value⟩

/-- `serde_json::from_str` of the text written for a value. -/
def fromText (float : UInt64 → UInt64) (value : Json) : Option Json :=
  if value.depth < 128 then some (value.reread float) else none

/-- What is read of a value that is a member of a message. -/
def received (float : UInt64 → UInt64) (value : Json) : Option Json :=
  if value.depth < 127 then some (value.reread float) else none

theorem received_eq_some_iff {value : Json} :
    value.received float = some value ↔ value.Kept float ∧ value.depth < 127 := by
  rw [kept_iff, received]
  split <;> simp_all

/-- The other members of the message have no floats and less depth. -/
theorem fromText_obj (before : List (String × Json)) (name : String) (value : Json)
    (kept : KeptMembers float before) (shallow : depthMembers before ≤ value.depth) :
    (obj (before ++ [(name, value)])).fromText float =
      (value.received float).map fun value => obj (before ++ [(name, value)]) := by
  have deep : depthMembers (before ++ [(name, value)]) = value.depth := by
    rw [depthMembers_append, depthMembers, depthMembers]
    omega
  have reread : rereadMembers float (before ++ [(name, value)]) =
      before ++ [(name, value.reread float)] := by
    rw [rereadMembers_append, rereadMembers_of_kept before kept, rereadMembers, rereadMembers]
  rw [fromText, received, depth, deep, Json.reread, reread]
  simp only [Nat.succ_lt_succ_iff, show 128 = 127 + 1 from rfl]
  split <;> rfl

end Json

end Reread

namespace Json

def int (n : Int) : Json := .num (.int n)

@[simp] theorem int_inj {n m : Int} : int n = int m ↔ n = m := by
  simp [int]

/-! ## Decoders as `serde` derives them -/

def asString : Json → Option String
  | str s => some s
  | _ => none

def asU64 : Json → Option UInt64
  | num (.int n) => if 0 ≤ n ∧ n < UInt64.size then some (.ofNat n.toNat) else none
  | _ => none

def asU8 : Json → Option UInt8
  | num (.int n) => if 0 ≤ n ∧ n < UInt8.size then some (.ofNat n.toNat) else none
  | _ => none

/-- A field of type `Option<T>`, which may be left out or null. -/
def asOption {α : Type} (decode : Json → Option α) : Option Json → Option (Option α)
  | none | some null => some none
  | some value => (decode value).map some

@[simp] theorem asOption_none {α : Type} {decode : Json → Option α} :
    asOption decode none = some none := rfl

theorem asOption_of_ne_null {α : Type} {decode : Json → Option α} {value : Json}
    (ne : value ≠ null) : asOption decode (some value) = (decode value).map some := by
  cases value with
  | null => exact absurd rfl ne
  | _ => rfl

/-- The value of a field, if it is given; a field given twice is an error. -/
def field (name : String) (members : List (String × Json)) : Option (Option Json) :=
  match members.filter (fun member => member.1 = name) with
  | [] => some none
  | [member] => some (some member.2)
  | _ => none

/-- The value of a field that must be given. -/
def required (name : String) (members : List (String × Json)) : Option Json :=
  (field name members).join

end Json

end IpcAgent.Library
