import Mathlib.Data.Countable.Defs
import Mathlib.Data.Option.Basic
import Mathlib.Logic.Function.Basic

/-!
# Serialization and signatures

Formats that can be read back, and signatures that cannot be forged. A format may accept
bytes it never writes. A signature scheme is known by the ledger of the signatures made so
far: whatever was signed verifies, and what verifies was signed by the owner of the key,
though perhaps with another signature.
-/

namespace IpcAgent.Library

/-- A format for the values of a type. -/
structure Serialization (α : Type) where
  encode : α → List UInt8
  decode : List UInt8 → Option α
  decode_encode : ∀ a, decode (encode a) = some a

namespace Serialization

attribute [simp] decode_encode

variable {α β : Type}

theorem encode_injective (s : Serialization α) {a b : α} (eq : s.encode a = s.encode b) :
    a = b := by
  rw [← Option.some.injEq, ← s.decode_encode a, eq, s.decode_encode]

/-- Write the values of one type in the format of another. -/
def via (s : Serialization β) (toWire : α → β) (ofWire : β → Option α)
    (back : ∀ a, ofWire (toWire a) = some a) : Serialization α where
  encode a := s.encode (toWire a)
  decode bytes := (s.decode bytes).bind ofWire
  decode_encode a := by simp [back]

/-- Every countable type has a format: write the number of a value in unary. -/
theorem nonempty_of_countable [Countable α] : Nonempty (Serialization α) := by
  obtain ⟨number, injective⟩ := exists_injective_nat α
  exact ⟨fun a => List.replicate (number a) 0, fun bytes => number.partialInv bytes.length,
    fun a => by simp [Function.partialInv_left injective]⟩

end Serialization

/-- A key has signed a message. -/
structure Signed (K M S : Type) where
  key : K
  message : M
  signature : S
deriving DecidableEq

section Signatures

variable {K M S : Type}

/-- Which signatures verify, when those of the ledger have been made. -/
structure Verifies (ledger : List (Signed K M S)) (verify : K → M → S → Bool) : Prop where
  complete : ∀ x ∈ ledger, verify x.key x.message x.signature = true
  unforgeable : ∀ k m s, verify k m s = true → ∃ s', ⟨k, m, s'⟩ ∈ ledger

/-- The scheme in which nothing but the signatures made verifies. -/
theorem verifies_ledger [DecidableEq K] [DecidableEq M] [DecidableEq S]
    (ledger : List (Signed K M S)) :
    Verifies ledger (fun k m s => decide (⟨k, m, s⟩ ∈ ledger)) where
  complete _ made := decide_eq_true made
  unforgeable _ _ s made := ⟨s, of_decide_eq_true made⟩

end Signatures

end IpcAgent.Library
