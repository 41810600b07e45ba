import IpcAgent.Library.Json
import Mathlib.Tactic.SplitIfs

/-!
# JSON texts

The texts of the JSON grammar as trees that keep every choice of the writer: the blanks, the
escapes in strings and the spelling of numbers. A tree has the text that it stands for and
the value that this text denotes. Strings are those that denote Unicode text, so the halves
of a surrogate pair come together.
-/

namespace IpcAgent.Library.JsonText

inductive Blank
  | space
  | tab
  | lineFeed
  | carriageReturn

def Blank.char : Blank → Char
  | space => ' '
  | tab => '\t'
  | lineFeed => '\n'
  | carriageReturn => '\r'

/-! ## Strings -/

/-- A character that may stand for itself in a string. -/
def Unescaped (c : Char) : Prop := c ≠ '"' ∧ c ≠ '\\' ∧ 32 ≤ c.toNat

instance (c : Char) : Decidable (Unescaped c) := inferInstanceAs (Decidable (_ ∧ _))

/-- A text that can be written without escapes. -/
def PlainText (s : String) : Prop := ∀ c ∈ s.toList, Unescaped c

instance (s : String) : Decidable (PlainText s) := List.decidableBAll Unescaped s.toList

inductive Escape
  | quote
  | backslash
  | slash
  | backspace
  | formFeed
  | lineFeed
  | carriageReturn
  | tab

namespace Escape

def letter : Escape → Char
  | quote => '"'
  | backslash => '\\'
  | slash => '/'
  | backspace => 'b'
  | formFeed => 'f'
  | lineFeed => 'n'
  | carriageReturn => 'r'
  | tab => 't'

def char : Escape → Char
  | quote => '"'
  | backslash => '\\'
  | slash => '/'
  | backspace => '\x08'
  | formFeed => '\x0c'
  | lineFeed => '\n'
  | carriageReturn => '\r'
  | tab => '\t'

end Escape

structure HexDigit where
  value : Fin 16
  upper : Bool

def HexDigit.char (digit : HexDigit) : Char :=
  if digit.value.val < 10 then Char.ofNat ('0'.toNat + digit.value.val)
  else Char.ofNat ((if digit.upper then 'A' else 'a').toNat + (digit.value.val - 10))

/-- The four digits after `\u`. -/
structure CodeUnit where
  a : HexDigit
  b : HexDigit
  c : HexDigit
  d : HexDigit

namespace CodeUnit

def value (u : CodeUnit) : Nat :=
  ((u.a.value.val * 16 + u.b.value.val) * 16 + u.c.value.val) * 16 + u.d.value.val

def text (u : CodeUnit) : List Char := ['\\', 'u', u.a.char, u.b.char, u.c.char, u.d.char]

/-- A first half of a surrogate pair. -/
def High (u : CodeUnit) : Prop := 0xd800 ≤ u.value ∧ u.value < 0xdc00

/-- A second half of a surrogate pair. -/
def Low (u : CodeUnit) : Prop := 0xdc00 ≤ u.value ∧ u.value < 0xe000

end CodeUnit

/-- One character of a string. -/
inductive Piece
  | plain (c : Char) (unescaped : Unescaped c)
  | escape (e : Escape)
  | unicode (u : CodeUnit) (scalar : ¬ u.High ∧ ¬ u.Low)
  | pair (u v : CodeUnit) (high : u.High) (low : v.Low)

namespace Piece

def text : Piece → List Char
  | plain c _ => [c]
  | escape e => ['\\', e.letter]
  | unicode u _ => u.text
  | pair u v _ _ => u.text ++ v.text

def char : Piece → Char
  | plain c _ => c
  | escape e => e.char
  | unicode u _ => Char.ofNat u.value
  | pair u v _ _ => Char.ofNat (0x10000 + (u.value - 0xd800) * 0x400 + (v.value - 0xdc00))

def IsPlain : Piece → Prop
  | plain _ _ => True
  | _ => False

end Piece

abbrev StringText := List Piece

namespace StringText

/-- What stands between the quotes. -/
def body (s : StringText) : List Char := s.flatMap Piece.text

def text (s : StringText) : List Char := '"' :: s.body ++ ['"']

def value (s : StringText) : String := String.ofList (s.map Piece.char)

/-- No character is escaped. -/
def IsPlain (s : StringText) : Prop := ∀ piece ∈ s, piece.IsPlain

theorem body_of_isPlain {s : StringText} (plain : s.IsPlain) : s.body = s.map Piece.char := by
  induction s with
  | nil => rfl
  | cons piece s ih =>
    obtain ⟨first, rest⟩ := List.forall_mem_cons.mp plain
    cases piece with
    | plain c unescaped => exact congrArg (c :: ·) (ih rest)
    | _ => exact first.elim

theorem backslash_mem_body {s : StringText} (escaped : ¬ s.IsPlain) : '\\' ∈ s.body := by
  simp only [IsPlain, Classical.not_forall] at escaped
  obtain ⟨piece, mem, escaped⟩ := escaped
  refine List.mem_flatMap.mpr ⟨piece, mem, ?_⟩
  cases piece with
  | plain c unescaped => exact absurd trivial escaped
  | escape e => exact List.mem_cons_self
  | unicode u scalar => exact List.mem_cons_self
  | pair u v high low => exact List.mem_append_left _ List.mem_cons_self

end StringText

/-! ### Strings as `serde_json` writes them -/

namespace CodeUnit

/-- The code unit of a number below 256, in small letters. -/
def ofByte (n : Nat) : CodeUnit where
  a := ⟨0, false⟩
  b := ⟨0, false⟩
  c := ⟨Fin.ofNat 16 (n / 16), false⟩
  d := ⟨Fin.ofNat 16 n, false⟩

theorem value_ofByte {n : Nat} (lt : n < 256) : (ofByte n).value = n := by
  simp only [ofByte, value, Fin.ofNat]
  omega

theorem scalar_ofByte (n : Nat) : ¬ (ofByte n).High ∧ ¬ (ofByte n).Low := by
  simp only [High, Low, ofByte, value, Fin.ofNat]
  omega

end CodeUnit

def writeChar (c : Char) : Piece :=
  if unescaped : Unescaped c then .plain c unescaped
  else if c = '"' then .escape .quote
  else if c = '\\' then .escape .backslash
  else if c = '\x08' then .escape .backspace
  else if c = '\t' then .escape .tab
  else if c = '\n' then .escape .lineFeed
  else if c = '\x0c' then .escape .formFeed
  else if c = '\r' then .escape .carriageReturn
  else .unicode (.ofByte c.toNat) (CodeUnit.scalar_ofByte c.toNat)

def writeString (s : String) : StringText := s.toList.map writeChar

theorem char_writeChar (c : Char) : (writeChar c).char = c := by
  unfold writeChar
  split_ifs with unescaped quote backslash backspace tab lineFeed formFeed carriageReturn
  case pos => rfl
  case neg =>
    have control : c.toNat < 32 :=
      Nat.lt_of_not_le fun le => unescaped ⟨quote, backslash, le⟩
    rw [Piece.char, CodeUnit.value_ofByte (by omega), Char.ofNat_toNat]
  all_goals exact Eq.symm (by assumption)

theorem value_writeString (s : String) : (writeString s).value = s := by
  have chars : Piece.char ∘ writeChar = id := funext char_writeChar
  rw [StringText.value, writeString, List.map_map, chars, List.map_id, String.ofList_toList]

theorem isPlain_writeString {s : String} (plain : PlainText s) :
    (writeString s).IsPlain := by
  refine List.forall_mem_map.mpr fun c mem => ?_
  rw [writeChar, dif_pos (plain c mem)]
  trivial

/-! ## Values -/

/-- A number. Of its spelling only the first character matters here. -/
structure NumberText where
  spelling : List Char
  value : Number
  first : ∃ c rest, spelling = c :: rest ∧ (c = '-' ∨ c.isDigit)

mutual

inductive Text
  | null
  | bool (b : Bool)
  | num (n : NumberText)
  | str (s : StringText)
  | arr (blank : List Blank) (items : Items)
  | obj (blank : List Blank) (members : Members)

inductive Items
  | nil
  | cons (before : List Blank) (item : Text) (after : List Blank) (items : Items)

inductive Members
  | nil
  | cons (before : List Blank) (name : StringText) (afterName beforeValue : List Blank)
      (value : Text) (after : List Blank) (members : Members)

end

mutual

def Text.text : Text → List Char
  | .null => ['n', 'u', 'l', 'l']
  | .bool true => ['t', 'r', 'u', 'e']
  | .bool false => ['f', 'a', 'l', 's', 'e']
  | .num n => n.spelling
  | .str s => s.text
  | .arr blank items => '[' :: blank.map Blank.char ++ items.text ++ [']']
  | .obj blank members => '{' :: blank.map Blank.char ++ members.text ++ ['}']

def Items.text : Items → List Char
  | .nil => []
  | .cons before item after items =>
    before.map Blank.char ++ item.text ++ after.map Blank.char ++
      (match items with
        | .nil => []
        | .cons .. => ',' :: items.text)

def Members.text : Members → List Char
  | .nil => []
  | .cons before name afterName beforeValue value after members =>
    before.map Blank.char ++ name.text ++ afterName.map Blank.char ++ ':' ::
      beforeValue.map Blank.char ++ value.text ++ after.map Blank.char ++
      (match members with
        | .nil => []
        | .cons .. => ',' :: members.text)

end

mutual

def Text.value : Text → Json
  | .null => .null
  | .bool b => .bool b
  | .num n => .num n.value
  | .str s => .str s.value
  | .arr _ items => .arr items.values
  | .obj _ members => .obj members.values

def Items.values : Items → List Json
  | .nil => []
  | .cons _ item _ items => item.value :: items.values

def Members.values : Members → List (String × Json)
  | .nil => []
  | .cons _ name _ _ value _ members => (name.value, value.value) :: members.values

end

end IpcAgent.Library.JsonText
