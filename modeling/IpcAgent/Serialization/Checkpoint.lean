import IpcAgent.Library.Json
import IpcAgent.Lotus.Message
import Mathlib.Logic.Function.Basic

/-!
# Checkpoints in JSON

`serialization/checkpoint.rs`, the form in which bottom-up checkpoints are listed to clients.
A token amount is turned into a `u64` on the way, with 0 for the amounts that do not fit.
-/

namespace IpcAgent.Serialization
open Library Lotus

/-- The text and byte encodings of other crates. -/
structure Encodings where
  base64 : List UInt8 → String
  cid : Cid → String
  ipcAddress : IPCAddress → String
  /-- `Serialize for TokenAmount`. -/
  tokenAmount : TokenAmount → List UInt8
  base64_injective : Function.Injective base64
  cid_injective : Function.Injective cid
  ipcAddress_injective : Function.Injective ipcAddress

/-- `BigInt::to_u64`. -/
def toU64 (n : Int) : Option Nat := if 0 ≤ n ∧ n < UInt64.size then some n.toNat else none

section Serialize

variable (enc : Encodings)

def childToJson (child : ChildCheck) : Json :=
  .obj [("source", .str child.source.text),
    ("checks", .arr (child.checks.map (fun cid => .str (enc.cid cid))))]

def crossMsgToJson (c : CrossMsg) : Json :=
  .obj [("from", .str (enc.ipcAddress c.msg.sender)),
    ("to", .str (enc.ipcAddress c.msg.receiver)),
    ("method", .int c.msg.method.toNat),
    ("params", .str (enc.base64 c.msg.params)),
    ("value", .int ((toU64 c.msg.value).getD 0)),
    ("nonce", .int c.msg.nonce.toNat)]

def batchToJson (batch : BatchCrossMsgs) : Json :=
  .obj [("fee", .arr ((enc.tokenAmount batch.fee).map (fun byte => .int byte.toNat))),
    ("cross_msgs", .arr (match batch.crossMsgs with
      | some crossMsgs => crossMsgs.map (crossMsgToJson enc)
      | none => []))]

def checkDataToJson (data : CheckData) : Json :=
  .obj [("source", .str data.source.text),
    ("proof", .str (enc.base64 data.proof)),
    ("epoch", .int data.epoch.toInt),
    ("prev_check", .str (enc.cid data.prevCheck)),
    ("children", .arr (data.children.map (childToJson enc))),
    ("cross_msgs", batchToJson enc data.crossMsgs)]

def checkpointToJson (checkpoint : BottomUpCheckpoint) : Json :=
  .obj [("data", checkDataToJson enc checkpoint.data),
    ("sig", .str (enc.base64 checkpoint.sig))]

end Serialize

/-! ## What the JSON determines -/

/-- The cross-messages of a checkpoint. -/
def messages (checkpoint : BottomUpCheckpoint) : List StorableMsg :=
  (checkpoint.data.crossMsgs.crossMsgs.getD []).map CrossMsg.msg

/-- A message as far as the JSON shows it. -/
def shown (msg : StorableMsg) : StorableMsg := { msg with value := (toU64 msg.value).getD 0 }

/-- Every amount fits into a `u64`. -/
def ValuesFit (checkpoint : BottomUpCheckpoint) : Prop :=
  ∀ msg ∈ messages checkpoint, 0 ≤ msg.value ∧ msg.value < UInt64.size

instance (checkpoint : BottomUpCheckpoint) : Decidable (ValuesFit checkpoint) :=
  inferInstanceAs (Decidable (∀ msg ∈ messages checkpoint, _))

theorem shown_of_fits {msg : StorableMsg} (fits : 0 ≤ msg.value ∧ msg.value < UInt64.size) :
    shown msg = msg := by
  have value : ((toU64 msg.value).getD 0 : Int) = msg.value := by
    rw [toU64, if_pos fits, Option.getD_some]
    exact Int.toNat_of_nonneg fits.1
  rw [shown, value]

theorem map_shown_of_valuesFit {checkpoint : BottomUpCheckpoint} (fits : ValuesFit checkpoint) :
    (messages checkpoint).map shown = messages checkpoint :=
  (List.map_congr_left (fun msg mem => shown_of_fits (fits msg mem))).trans (List.map_id _)

section Injective

variable {enc : Encodings}

theorem SubnetID.text_injective : Function.Injective SubnetID.text :=
  fun ⟨_⟩ ⟨_⟩ same => congrArg SubnetID.mk same

theorem childToJson_injective : Function.Injective (childToJson enc) := by
  rintro ⟨⟨source⟩, checks⟩ ⟨⟨source'⟩, checks'⟩ same
  have text : Function.Injective (fun cid => Json.str (enc.cid cid)) :=
    fun _ _ h => enc.cid_injective (Json.str.inj h)
  simp only [childToJson, Json.obj.injEq, List.cons.injEq, Prod.mk.injEq, true_and, and_true,
    Json.str.injEq, Json.arr.injEq] at same
  obtain ⟨rfl, mapped⟩ := same
  rw [List.map_injective_iff.mpr text mapped]

theorem shown_eq_of_crossMsgToJson_eq {c c' : CrossMsg}
    (same : crossMsgToJson enc c = crossMsgToJson enc c') : shown c.msg = shown c'.msg := by
  simp only [crossMsgToJson, Json.obj.injEq, List.cons.injEq, Prod.mk.injEq, true_and, and_true,
    Json.str.injEq, Json.int_inj, Int.ofNat_inj] at same
  obtain ⟨sender, receiver, method, params, value, nonce⟩ := same
  rw [shown, shown, enc.ipcAddress_injective sender, enc.ipcAddress_injective receiver,
    UInt64.toNat_inj.mp method, enc.base64_injective params, value, UInt64.toNat_inj.mp nonce]

theorem map_eq_map_of_imp {α β γ : Type} {f : α → β} {g : α → γ}
    (imp : ∀ a b, f a = f b → g a = g b) {l l' : List α} (same : l.map f = l'.map f) :
    l.map g = l'.map g := by
  rw [← List.forall₂_eq_eq_eq, List.forall₂_map_left_iff, List.forall₂_map_right_iff] at same ⊢
  exact same.imp imp

theorem batchToJson_eq (batch : BatchCrossMsgs) : batchToJson enc batch =
    .obj [("fee", .arr ((enc.tokenAmount batch.fee).map (fun byte => .int byte.toNat))),
      ("cross_msgs", .arr ((batch.crossMsgs.getD []).map (crossMsgToJson enc)))] := by
  unfold batchToJson
  cases batch.crossMsgs <;> rfl

end Injective

/-! ## Amounts that look alike -/

/-- The amount can be told from every other by what is shown of it. -/
def Distinct (value : Int) : Prop := 1 ≤ value ∧ value < UInt64.size

instance (value : Int) : Decidable (Distinct value) :=
  inferInstanceAs (Decidable (_ ∧ _))

/-- Another amount that is shown as 0, in place of one that is. -/
def lookalike (value : Int) : Int :=
  if Distinct value then value else if value = 0 then UInt64.size else 0

theorem shown_lookalike (value : Int) :
    (toU64 (lookalike value)).getD 0 = (toU64 value).getD 0 := by
  unfold lookalike
  split
  · rfl
  · rename_i notDistinct
    have zero : (toU64 value).getD 0 = 0 := by
      rw [toU64]
      split
      · simp only [Distinct] at notDistinct
        simp only [Option.getD_some]
        omega
      · rfl
    rw [zero]
    split <;> decide

theorem lookalike_eq_self_iff (value : Int) :
    lookalike value = value ↔ Distinct value := by
  unfold lookalike
  split
  · exact iff_of_true rfl ‹_›
  · refine iff_of_false (fun same => ?_) ‹_›
    split at same
    · subst value
      exact absurd same (by decide)
    · exact absurd same.symm ‹_›

def disguisedMsg (c : CrossMsg) : CrossMsg :=
  { c with msg := { c.msg with value := lookalike c.msg.value } }

/-- The checkpoint with every amount replaced by one that is shown in the same way. -/
def disguised (checkpoint : BottomUpCheckpoint) : BottomUpCheckpoint :=
  { checkpoint with data := { checkpoint.data with
    crossMsgs := { checkpoint.data.crossMsgs with
      crossMsgs := checkpoint.data.crossMsgs.crossMsgs.map (List.map disguisedMsg) } } }

theorem checkpointToJson_disguised (enc : Encodings) (checkpoint : BottomUpCheckpoint) :
    checkpointToJson enc (disguised checkpoint) = checkpointToJson enc checkpoint := by
  have same (c : CrossMsg) : crossMsgToJson enc (disguisedMsg c) = crossMsgToJson enc c := by
    simp only [crossMsgToJson, disguisedMsg, shown_lookalike]
  have all : (crossMsgToJson enc ∘ disguisedMsg) = crossMsgToJson enc := funext same
  simp only [checkpointToJson, checkDataToJson, disguised, batchToJson]
  cases checkpoint.data.crossMsgs.crossMsgs with
  | none => rfl
  | some crossMsgs => simp only [Option.map_some, List.map_map, all]

theorem messages_disguised (checkpoint : BottomUpCheckpoint) :
    messages (disguised checkpoint) =
      (messages checkpoint).map (fun msg => { msg with value := lookalike msg.value }) := by
  rw [messages, messages, disguised]
  cases checkpoint.data.crossMsgs.crossMsgs with
  | none => rfl
  | some crossMsgs => simp only [Option.map_some, Option.getD_some, List.map_map]; rfl

/-- All that the JSON shows of two checkpoints is the same, apart from the messages. -/
def SameOutsideMessages (checkpoint checkpoint' : BottomUpCheckpoint) : Prop :=
  checkpoint.data.source = checkpoint'.data.source ∧
    checkpoint.data.proof = checkpoint'.data.proof ∧
    checkpoint.data.epoch = checkpoint'.data.epoch ∧
    checkpoint.data.prevCheck = checkpoint'.data.prevCheck ∧
    checkpoint.data.children = checkpoint'.data.children ∧
    checkpoint.sig = checkpoint'.sig

theorem same_of_checkpointToJson_eq {enc : Encodings}
    {checkpoint checkpoint' : BottomUpCheckpoint}
    (same : checkpointToJson enc checkpoint = checkpointToJson enc checkpoint') :
    SameOutsideMessages checkpoint checkpoint' ∧
      (messages checkpoint).map shown = (messages checkpoint').map shown := by
  simp only [checkpointToJson, checkDataToJson, batchToJson_eq, Json.obj.injEq, List.cons.injEq,
    Prod.mk.injEq, true_and, and_true, Json.str.injEq, Json.arr.injEq, Json.int_inj] at same
  obtain ⟨⟨source, proof, epoch, prevCheck, children, -, crossMsgs⟩, sig⟩ := same
  have msgs : (messages checkpoint).map shown = (messages checkpoint').map shown := by
    rw [messages, messages, List.map_map, List.map_map]
    exact map_eq_map_of_imp (fun _ _ => shown_eq_of_crossMsgToJson_eq) crossMsgs
  exact ⟨⟨SubnetID.text_injective source, enc.base64_injective proof, Int64.toInt_inj.mp epoch,
    enc.cid_injective prevCheck, List.map_injective_iff.mpr childToJson_injective children,
    enc.base64_injective sig⟩, msgs⟩

theorem fits_of_shown_eq {msg msg' : StorableMsg} (distinct : Distinct msg.value)
    (same : shown msg = shown msg') : 0 ≤ msg'.value ∧ msg'.value < UInt64.size := by
  have positive : (1 : Int) ≤ msg.value := distinct.1
  have fits : 0 ≤ msg.value ∧ msg.value < UInt64.size :=
    ⟨Int.le_trans (by decide) positive, distinct.2⟩
  rw [shown_of_fits fits] at same
  have value : msg.value = ((toU64 msg'.value).getD 0 : Int) := congrArg StorableMsg.value same
  by_contra large
  rw [toU64, if_neg large, Option.getD_none] at value
  rw [value] at positive
  exact absurd positive (by decide)

theorem messages_eq_of_distinct {checkpoint checkpoint' : BottomUpCheckpoint}
    (distinct : ∀ msg ∈ messages checkpoint, Distinct msg.value)
    (same : (messages checkpoint).map shown = (messages checkpoint').map shown) :
    messages checkpoint = messages checkpoint' := by
  have fits : ValuesFit checkpoint := fun msg mem =>
    fits_of_shown_eq (distinct msg mem) rfl
  have fits' : ValuesFit checkpoint' := by
    intro msg' mem'
    have mem : shown msg' ∈ (messages checkpoint).map shown := same ▸ List.mem_map_of_mem mem'
    obtain ⟨msg, mem, eq⟩ := List.mem_map.mp mem
    exact fits_of_shown_eq (distinct msg mem) eq
  rw [← map_shown_of_valuesFit fits, same, map_shown_of_valuesFit fits']

/-- The JSON of a checkpoint determines all but the amounts that do not fit into a `u64`. It
determines the checkpoint among all others just if no amount is shown as 0. -/
theorem checkpoint_determined_iff_values_distinct (enc : Encodings)
    (checkpoint : BottomUpCheckpoint) :
    (∀ checkpoint', checkpointToJson enc checkpoint = checkpointToJson enc checkpoint' →
      SameOutsideMessages checkpoint checkpoint' ∧
      (messages checkpoint).map shown = (messages checkpoint').map shown ∧
      (ValuesFit checkpoint → ValuesFit checkpoint' →
        messages checkpoint = messages checkpoint')) ∧
    ((∀ checkpoint', checkpointToJson enc checkpoint = checkpointToJson enc checkpoint' →
        SameOutsideMessages checkpoint checkpoint' ∧
        messages checkpoint = messages checkpoint') ↔
      ∀ msg ∈ messages checkpoint, 1 ≤ msg.value ∧ msg.value < UInt64.size) := by
  refine ⟨fun checkpoint' same => ?_, fun determined msg mem => ?_,
    fun distinct checkpoint' same => ?_⟩
  · obtain ⟨outside, msgs⟩ := same_of_checkpointToJson_eq same
    refine ⟨outside, msgs, fun fits fits' => ?_⟩
    rw [← map_shown_of_valuesFit fits, msgs, map_shown_of_valuesFit fits']
  · have same := (determined _ (checkpointToJson_disguised enc checkpoint).symm).2
    rw [messages_disguised] at same
    have kept := List.map_inj_left.mp ((List.map_id _).trans same) msg mem
    exact (lookalike_eq_self_iff msg.value).mp (congrArg StorableMsg.value kept).symm
  · obtain ⟨outside, msgs⟩ := same_of_checkpointToJson_eq same
    exact ⟨outside, messages_eq_of_distinct distinct msgs⟩

/-- A byte as the character of the same code. -/
def latin1 (byte : UInt8) : Char := Char.ofNat byte.toNat

theorem toNat_latin1 (byte : UInt8) : (latin1 byte).toNat = byte.toNat := by
  have all : ∀ n < 256, (Char.ofNat n).toNat = n := by decide +kernel
  exact all byte.toNat byte.toNat_lt

theorem latin1_injective : Function.Injective latin1 := by
  intro a b same
  rw [← UInt8.toNat_inj, ← toNat_latin1 a, same, toNat_latin1]

theorem latin1_ne (byte : UInt8) : latin1 byte ≠ 'Ā' := by
  intro same
  have code := toNat_latin1 byte
  rw [same] at code
  exact absurd byte.toNat_lt (Nat.not_lt.mpr (Nat.le_of_eq code))

/-- `Ā` marks the end of the bytes. -/
theorem map_latin1_append_inj {bytes bytes' : List UInt8} {rest rest' : List Char}
    (same : bytes.map latin1 ++ 'Ā' :: rest = bytes'.map latin1 ++ 'Ā' :: rest') :
    bytes = bytes' ∧ rest = rest' := by
  induction bytes generalizing bytes' with
  | nil =>
    cases bytes' with
    | nil => exact ⟨rfl, (List.cons.inj same).2⟩
    | cons byte' bytes' => exact absurd (List.cons.inj same).1.symm (latin1_ne byte')
  | cons byte bytes ih =>
    cases bytes' with
    | nil => exact absurd (List.cons.inj same).1 (latin1_ne byte)
    | cons byte' bytes' =>
      obtain ⟨first, others⟩ := List.cons.inj same
      obtain ⟨rfl, rfl⟩ := ih others
      exact ⟨congrArg (· :: bytes) (latin1_injective first), rfl⟩

theorem ofList_map_latin1_injective :
    Function.Injective (fun bytes : List UInt8 => String.ofList (bytes.map latin1)) :=
  fun _ _ same => List.map_injective_iff.mpr latin1_injective (String.ofList_injective same)

/-- Encodings that write out every byte; an address is followed by `Ā` and its subnet. -/
def plainEncodings : Encodings where
  base64 bytes := String.ofList (bytes.map latin1)
  cid cid := String.ofList (cid.bytes.map latin1)
  ipcAddress a := String.ofList (a.rawAddress.bytes.map latin1 ++ 'Ā' :: a.subnetId.text.toList)
  tokenAmount _ := []
  base64_injective := ofList_map_latin1_injective
  cid_injective := fun ⟨_⟩ ⟨_⟩ same => congrArg Cid.mk (ofList_map_latin1_injective same)
  ipcAddress_injective := by
    rintro ⟨⟨subnet⟩, ⟨bytes⟩⟩ ⟨⟨subnet'⟩, ⟨bytes'⟩⟩ same
    have ⟨bytesEq, textEq⟩ := map_latin1_append_inj (String.ofList_injective same)
    exact congrArg₂ IPCAddress.mk (congrArg SubnetID.mk (String.toList_injective textEq))
      (congrArg Address.mk bytesEq)

/-- A checkpoint with one message that carries `value`. -/
def checkpointPaying (value : TokenAmount) (wrapped : Bool) : BottomUpCheckpoint where
  data :=
    { source := ⟨"/root/t01001"⟩, proof := [], epoch := 10, prevCheck := ⟨[]⟩, children := []
      crossMsgs :=
        { fee := 0
          crossMsgs := some [⟨⟨⟨⟨"/root/t01001"⟩, ⟨[0, 100]⟩⟩, ⟨⟨"/root"⟩, ⟨[0, 101]⟩⟩, 0, [],
            value, 0⟩, wrapped⟩] } }
  sig := []

theorem largest_amount_determined :
    checkpointToJson plainEncodings (checkpointPaying (UInt64.size - 1) true) =
        checkpointToJson plainEncodings (checkpointPaying (UInt64.size - 1) false) ∧
      messages (checkpointPaying (UInt64.size - 1) true) =
        messages (checkpointPaying (UInt64.size - 1) false) :=
  have distinct : ∀ msg ∈ messages (checkpointPaying (UInt64.size - 1) true),
      1 ≤ msg.value ∧ msg.value < UInt64.size := by decide
  have determined := (checkpoint_determined_iff_values_distinct plainEncodings
    (checkpointPaying (UInt64.size - 1) true)).2.mpr distinct
  ⟨rfl, (determined (checkpointPaying (UInt64.size - 1) false) rfl).2⟩

/-- An amount of `2 ^ 64` atto, about 18.4 FIL, is shown as 0. -/
theorem large_amount_shown_as_zero :
    checkpointToJson plainEncodings (checkpointPaying UInt64.size false) =
        checkpointToJson plainEncodings (checkpointPaying 0 false) ∧
      messages (checkpointPaying UInt64.size false) ≠ messages (checkpointPaying 0 false) :=
  ⟨rfl, by decide⟩

end IpcAgent.Serialization
