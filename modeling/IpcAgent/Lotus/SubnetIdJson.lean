import IpcAgent.Library.JsonText
import IpcAgent.Types
import Mathlib.Data.List.Basic

/-!
# Subnet ids in JSON

`deserialize_subnet_id_from_map` of `lotus/message/deserialize.rs` and `SubnetID::to_json` of
`lotus/json.rs`. The decoder gets the entries of an object with their names decoded and their
values as they are written, and takes the quotes off a value by hand. Next to it stands the
decoder by value: the subnet id that the value of a text gives, however it is written.
-/

namespace IpcAgent.Lotus
open Library

/-- What `ipc_sdk` and `fvm_shared` know about subnet ids and addresses. -/
structure SubnetIdText where
  subnetFromStr : String → Except String SubnetID
  addressFromStr : String → Except String Address
  addressToString : Address → String
  newFromParent : SubnetID → Address → SubnetID
  parent : SubnetID → Option SubnetID
  subnetActor : SubnetID → Address

section Decoder

variable (sdk : SubnetIdText)

/-- A raw value without its quotes, if it has quotes. -/
def unquoted (raw : List Char) : Option String :=
  if raw.head? = some '"' then some (String.ofList (raw.drop 1).dropLast) else none

/-- `SubnetIdVisitor::visit_map`, from the entries that are left on. -/
def visitMap (parent : Option SubnetID) (actor : Option Address) :
    List (String × List Char) → Except String SubnetID
  | [] =>
    match parent, actor with
    | some parent, some actor => .ok (sdk.newFromParent parent actor)
    | _, _ => .error "parent or actor not present"
  | (key, value) :: entries =>
    if key = "Parent" then
      match unquoted value with
      | some s => do
        let id ← sdk.subnetFromStr s
        visitMap (some id) actor entries
      | none => .error "invalid parent"
    else if key = "Actor" then
      match unquoted value with
      | some s => do
        let addr ← sdk.addressFromStr s
        visitMap parent (some addr) entries
      | none => .error "invalid actor"
    else visitMap parent actor entries

/-- The entries of an object as `MapAccess` hands them out. -/
def entries : JsonText.Members → List (String × List Char)
  | .nil => []
  | .cons _ name _ _ value _ members => (name.value, value.text) :: entries members

/-- The decoder on the text of an object. -/
def deserializeSubnetIdFromMap (members : JsonText.Members) : Except String SubnetID :=
  visitMap sdk none none (entries members)

/-- The members of `SubnetID::to_json`, which are strings; the root has none. -/
def toJson (id : SubnetID) : Option (List (String × String)) :=
  (sdk.parent id).map fun parent =>
    [("Parent", parent.text), ("Actor", sdk.addressToString (sdk.subnetActor id))]

/-- The text of an object with strings for members. -/
def writeStrings : List (String × String) → JsonText.Members
  | [] => .nil
  | (name, value) :: members =>
    .cons [] (JsonText.writeString name) [] [] (.str (JsonText.writeString value)) []
      (writeStrings members)

end Decoder

/-! ## Decoding by value -/

/-- The values of all members of that name. -/
def occurrences (name : String) (members : List (String × Json)) : List Json :=
  (members.filter (fun member => member.1 = name)).map Prod.snd

section Parsed

variable {α : Type} (fromStr : String → Except String α)

/-- What a string contains. -/
def parsed (value : Json) : Option α := value.asString.bind fun s => (fromStr s).toOption

/-- All of the values are strings that parse, and the last one counts. -/
def lastParsed (values : List Json) : Option α := (values.mapM (parsed fromStr)).bind List.getLast?

end Parsed

/-- The subnet id given by the members of an object. -/
def subnetIdOfMembers (sdk : SubnetIdText) (members : List (String × Json)) : Option SubnetID := do
  let parent ← lastParsed sdk.subnetFromStr (occurrences "Parent" members)
  let actor ← lastParsed sdk.addressFromStr (occurrences "Actor" members)
  return sdk.newFromParent parent actor

/-- If the value is a string, it is written without escapes. -/
def Plain (value : JsonText.Text) : Prop := ∀ s, value = .str s → s.IsPlain

/-- The strings of `Parent` and `Actor` are written without escapes. -/
def Unescaped : JsonText.Members → Prop
  | .nil => True
  | .cons _ name _ _ value _ members =>
    (name.value = "Parent" ∨ name.value = "Actor" → Plain value) ∧ Unescaped members

theorem unquoted_str (s : JsonText.StringText) :
    unquoted (JsonText.Text.str s).text = some (String.ofList s.body) := by
  have body : ((JsonText.Text.str s).text.drop 1).dropLast = s.body := List.dropLast_concat
  have head : (JsonText.Text.str s).text.head? = some '"' := rfl
  rw [unquoted, if_pos head, body]

theorem eq_ok_of_toOption {α : Type} {x : Except String α} {a : α} (h : x.toOption = some a) :
    x = .ok a := by
  cases x with
  | ok b => exact congrArg Except.ok (Option.some.inj h)
  | error e => cases h

/-- Without escapes a string is what stands between its quotes, and nothing else has quotes. -/
theorem unquoted_text {value : JsonText.Text} (plain : Plain value) :
    unquoted value.text = value.value.asString := by
  cases value with
  | str s =>
    rw [unquoted_str, JsonText.StringText.body_of_isPlain (plain s rfl)]
    rfl
  | num n =>
    obtain ⟨c, rest, spelling, first⟩ := n.first
    have ne : c ≠ '"' := by
      rintro rfl
      revert first
      decide
    have head : (JsonText.Text.num n).text.head? ≠ some '"' := by
      simpa [JsonText.Text.text, spelling] using ne
    exact if_neg head
  | bool b => cases b <;> rfl
  | _ => rfl

section Last

variable {α γ : Type}

/-- The last of the values, if there is something to each of them. -/
def lastOf (read : γ → Option α) (values : List γ) : Option α :=
  (values.mapM read).bind List.getLast?

/-- The same, where there may be one from before. -/
def lastOr (read : γ → Option α) (found : Option α) (values : List γ) : Option α :=
  (values.mapM read).bind fun as => as.getLast?.or found

variable {read read' : γ → Option α} {values : List γ}

theorem lastOr_none : lastOr read none values = lastOf read values := by
  simp [lastOr, lastOf]

theorem lastOr_cons (found : Option α) (value : γ) :
    lastOr read found (value :: values) =
      (read value).bind fun a => lastOr read (some a) values := by
  unfold lastOr
  rw [List.mapM_cons]
  cases read value with
  | none => rfl
  | some a =>
    cases values.mapM read with
    | none => rfl
    | some as => simp [List.getLast?_cons]

theorem lastOf_map {δ : Type} (read : γ → Option α) (f : δ → γ) (values : List δ) :
    lastOf read (values.map f) = lastOf (fun d => read (f d)) values := by
  rw [lastOf, lastOf, List.mapM_map]
  rfl

theorem lastOr_eq (found : Option α) : lastOr read found values =
    if ∀ value ∈ values, (read value).isSome then (values.getLast?.bind read).or found
    else none := by
  induction values generalizing found with
  | nil => simp [lastOr]
  | cons value values ih =>
    simp only [lastOr_cons, List.getLast?_cons, List.forall_mem_cons]
    cases first : read value with
    | none => simp
    | some a =>
      simp only [Option.bind_some, ih, Option.isSome_some, true_and]
      refine ite_congr rfl (fun all => ?_) fun _ => rfl
      cases last : values.getLast? with
      | none => simp [first]
      | some value' =>
        obtain ⟨b, isLast⟩ := Option.isSome_iff_exists.mp (all _ (List.mem_of_getLast? last))
        simp [isLast]

theorem lastOf_eq_some_iff {a : α} : lastOf read values = some a ↔
    (∀ value ∈ values, (read value).isSome) ∧ ∃ value ∈ values.getLast?, read value = some a := by
  rw [← lastOr_none, lastOr_eq, Option.or_none]
  split
  · rename_i all
    simp only [Option.bind_eq_some_iff, Option.mem_def]
    exact (and_iff_right all).symm
  · rename_i notAll
    exact iff_of_false (Option.some_ne_none _).symm fun both => notAll both.1

/-- Two readings that succeed together and agree on the last value. -/
theorem lastOf_congr (together : ∀ value ∈ values, (read value).isSome ↔ (read' value).isSome)
    (same : ∀ value ∈ values.getLast?, read value = read' value) :
    lastOf read values = lastOf read' values := by
  rw [← lastOr_none, ← lastOr_none, lastOr_eq, lastOr_eq]
  refine ite_congr (propext (forall₂_congr together)) (fun _ => ?_) fun _ => rfl
  cases last : values.getLast? with
  | none => rfl
  | some value => simp [same value last]

end Last

/-! ## What the loop does -/

/-- The values of all members of that name, as they are written. -/
def writtenFor (name : String) : JsonText.Members → List JsonText.Text
  | .nil => []
  | .cons _ key _ _ value _ members =>
    if key.value = name then value :: writtenFor name members else writtenFor name members

theorem occurrences_values (name : String) : ∀ members : JsonText.Members,
    occurrences name members.values = (writtenFor name members).map JsonText.Text.value
  | .nil => rfl
  | .cons _ key _ _ value _ members => by
    have ih := occurrences_values name members
    unfold occurrences at ih ⊢
    rw [JsonText.Members.values, writtenFor]
    by_cases isName : key.value = name <;> simp [isName, ih]

section Written

variable {α : Type} (fromStr : String → Except String α)

/-- What the loop makes of a value: it goes by what stands between the quotes. -/
def parsedAsWritten (value : JsonText.Text) : Option α :=
  (unquoted value.text).bind fun s => (fromStr s).toOption

/-- What it should make of it. -/
def parsedByValue (value : JsonText.Text) : Option α := parsed fromStr value.value

variable {fromStr}

theorem toOption_unquoted {β : Type} {value : JsonText.Text} {message : String}
    {rest : α → Except String β} :
    (match unquoted value.text with
      | some s => fromStr s >>= rest
      | none => .error message).toOption =
      (parsedAsWritten fromStr value).bind fun a => (rest a).toOption := by
  rw [parsedAsWritten]
  cases unquoted value.text with
  | none => rfl
  | some s => cases h : fromStr s <;> simp [h, Except.toOption] <;> rfl

end Written

/-- The loop goes through the occurrences of the two names. -/
theorem toOption_visitMap (sdk : SubnetIdText) : ∀ (members : JsonText.Members)
    (parent : Option SubnetID) (actor : Option Address),
    (visitMap sdk parent actor (entries members)).toOption =
      (lastOr (parsedAsWritten sdk.subnetFromStr) parent
        (writtenFor "Parent" members)).bind fun p =>
          (lastOr (parsedAsWritten sdk.addressFromStr) actor
            (writtenFor "Actor" members)).bind fun a => some (sdk.newFromParent p a)
  | .nil, parent, actor => by
    cases parent <;> cases actor <;> rfl
  | .cons _ name _ _ value _ members, parent, actor => by
    have ih := toOption_visitMap sdk members
    rw [entries, visitMap, writtenFor, writtenFor]
    by_cases isParent : name.value = "Parent"
    · have notActor : name.value ≠ "Actor" := by
        rw [isParent]
        decide
      rw [if_pos isParent, if_pos isParent, if_neg notActor, lastOr_cons, toOption_unquoted,
        Option.bind_assoc]
      simp only [ih]
    · rw [if_neg isParent, if_neg isParent]
      by_cases isActor : name.value = "Actor"
      · rw [if_pos isActor, if_pos isActor, lastOr_cons, toOption_unquoted]
        simp only [ih]
        cases parsedAsWritten sdk.addressFromStr value <;> simp
      · rw [if_neg isActor, if_neg isActor, ih]

section Decoded

variable {sdk : SubnetIdText} {members : JsonText.Members}

theorem toOption_deserializeSubnetIdFromMap :
    (deserializeSubnetIdFromMap sdk members).toOption =
      (lastOf (parsedAsWritten sdk.subnetFromStr) (writtenFor "Parent" members)).bind fun p =>
        (lastOf (parsedAsWritten sdk.addressFromStr) (writtenFor "Actor" members)).bind fun a =>
          some (sdk.newFromParent p a) := by
  rw [deserializeSubnetIdFromMap, toOption_visitMap, lastOr_none, lastOr_none]

theorem subnetIdOfMembers_values :
    subnetIdOfMembers sdk members.values =
      (lastOf (parsedByValue sdk.subnetFromStr) (writtenFor "Parent" members)).bind fun p =>
        (lastOf (parsedByValue sdk.addressFromStr) (writtenFor "Actor" members)).bind fun a =>
          some (sdk.newFromParent p a) := by
  rw [subnetIdOfMembers, occurrences_values, occurrences_values]
  have last {α : Type} (fromStr : String → Except String α) (values : List JsonText.Text) :
      lastParsed fromStr (values.map JsonText.Text.value) = lastOf (parsedByValue fromStr) values :=
    lastOf_map (parsed fromStr) JsonText.Text.value values
  rw [last, last]
  rfl

/-- The two readings of the strings. -/
theorem decoded_of_forall
    (parent : lastOf (parsedAsWritten sdk.subnetFromStr) (writtenFor "Parent" members) =
      lastOf (parsedByValue sdk.subnetFromStr) (writtenFor "Parent" members))
    (actor : lastOf (parsedAsWritten sdk.addressFromStr) (writtenFor "Actor" members) =
      lastOf (parsedByValue sdk.addressFromStr) (writtenFor "Actor" members)) :
    (deserializeSubnetIdFromMap sdk members).toOption = subnetIdOfMembers sdk members.values := by
  rw [toOption_deserializeSubnetIdFromMap, subnetIdOfMembers_values, parent, actor]

end Decoded

/-! ## Escapes -/

theorem unescaped_iff : ∀ members : JsonText.Members, Unescaped members ↔
    (∀ value ∈ writtenFor "Parent" members, Plain value) ∧
      ∀ value ∈ writtenFor "Actor" members, Plain value
  | .nil => by simp [Unescaped, writtenFor]
  | .cons _ name _ _ value _ members => by
    rw [Unescaped, unescaped_iff members, writtenFor, writtenFor]
    by_cases isParent : name.value = "Parent"
    · simp [isParent, and_assoc]
    · by_cases isActor : name.value = "Actor" <;> simp [isParent, isActor, and_left_comm]

/-- Of what `ipc_sdk` and `fvm_shared` are to make of a text with escapes in it, unresolved: it
is no address, and if it is a subnet id then not the one that is meant. -/
structure SeesEscapes (sdk : SubnetIdText) : Prop where
  subnet : ∀ s : JsonText.StringText, ¬ s.IsPlain → ∀ id,
    sdk.subnetFromStr (String.ofList s.body) = .ok id →
    ∃ id', sdk.subnetFromStr s.value = .ok id' ∧ id ≠ id'
  address : ∀ s : JsonText.StringText, ¬ s.IsPlain → ∀ a,
    sdk.addressFromStr (String.ofList s.body) ≠ .ok a
  joined : ∀ {parent parent' actor actor'},
    sdk.newFromParent parent actor = sdk.newFromParent parent' actor' → parent = parent'

/-- The escapes make no difference: there are some only in strings for `Parent` that parse as they
are written, and after which there is another one. -/
def Harmless (sdk : SubnetIdText) (members : JsonText.Members) : Prop :=
  (∀ value ∈ writtenFor "Parent" members,
      Plain value ∨ (parsedAsWritten sdk.subnetFromStr value).isSome) ∧
    (∀ value ∈ (writtenFor "Parent" members).getLast?, Plain value) ∧
    ∀ value ∈ writtenFor "Actor" members, Plain value

section Escapes

variable {sdk : SubnetIdText} {members : JsonText.Members} {value : JsonText.Text}

theorem parsedAsWritten_of_plain {α : Type} {fromStr : String → Except String α}
    (plain : Plain value) : parsedAsWritten fromStr value = parsedByValue fromStr value := by
  rw [parsedAsWritten, unquoted_text plain]
  rfl

theorem lastOf_of_plain {α : Type} (fromStr : String → Except String α)
    {values : List JsonText.Text} (plain : ∀ value ∈ values, Plain value) :
    lastOf (parsedAsWritten fromStr) values = lastOf (parsedByValue fromStr) values :=
  lastOf_congr (fun value mem => by rw [parsedAsWritten_of_plain (plain value mem)])
    fun value last => parsedAsWritten_of_plain (plain value (List.mem_of_getLast? last))

variable (sdk) in
theorem decoded_of_unescaped (unescaped : Unescaped members) :
    (deserializeSubnetIdFromMap sdk members).toOption = subnetIdOfMembers sdk members.values :=
  have plain := (unescaped_iff members).mp unescaped
  decoded_of_forall (lastOf_of_plain _ plain.1) (lastOf_of_plain _ plain.2)

/-- A value that is not plain is a string with escapes. -/
theorem parsed_of_not_plain {α : Type} {fromStr : String → Except String α} {a : α}
    (escaped : ¬ Plain value) (isParsed : parsedAsWritten fromStr value = some a) :
    ∃ s : JsonText.StringText, ¬ s.IsPlain ∧ fromStr (String.ofList s.body) = .ok a ∧
      parsedByValue fromStr value = (fromStr s.value).toOption := by
  simp only [Plain, not_forall] at escaped
  obtain ⟨s, rfl, escaped⟩ := escaped
  rw [parsedAsWritten, unquoted_str] at isParsed
  exact ⟨s, escaped, eq_ok_of_toOption isParsed, rfl⟩

theorem SeesEscapes.isSome (sees : SeesEscapes sdk)
    (isParsed : (parsedAsWritten sdk.subnetFromStr value).isSome) :
    (parsedByValue sdk.subnetFromStr value).isSome := by
  by_cases plain : Plain value
  · rwa [← parsedAsWritten_of_plain plain]
  · obtain ⟨id, isParsed⟩ := Option.isSome_iff_exists.mp isParsed
    obtain ⟨s, escaped, parsed, byValue⟩ := parsed_of_not_plain plain isParsed
    obtain ⟨id', parsed', -⟩ := sees.subnet s escaped id parsed
    rw [byValue, parsed']
    rfl

theorem SeesEscapes.plain_of_same (sees : SeesEscapes sdk) {id : SubnetID}
    (isParsed : parsedAsWritten sdk.subnetFromStr value = some id)
    (byValue : parsedByValue sdk.subnetFromStr value = some id) : Plain value := by
  by_contra notPlain
  obtain ⟨s, escaped, parsed, byValue'⟩ := parsed_of_not_plain notPlain isParsed
  obtain ⟨id', parsed', ne⟩ := sees.subnet s escaped id parsed
  rw [byValue', parsed'] at byValue
  exact ne (Option.some.inj byValue).symm

theorem SeesEscapes.plain_of_address (sees : SeesEscapes sdk)
    (isParsed : (parsedAsWritten sdk.addressFromStr value).isSome) : Plain value := by
  by_contra notPlain
  obtain ⟨a, isParsed⟩ := Option.isSome_iff_exists.mp isParsed
  obtain ⟨s, escaped, parsed, -⟩ := parsed_of_not_plain notPlain isParsed
  exact sees.address s escaped a parsed

theorem SeesEscapes.decoded_of_harmless (sees : SeesEscapes sdk)
    (harmless : Harmless sdk members) :
    (deserializeSubnetIdFromMap sdk members).toOption = subnetIdOfMembers sdk members.values := by
  obtain ⟨parsed, last, actors⟩ := harmless
  refine decoded_of_forall (lastOf_congr (fun value mem => ⟨sees.isSome, fun byValue => ?_⟩)
    fun value isLast => parsedAsWritten_of_plain (last value isLast)) (lastOf_of_plain _ actors)
  rcases parsed value mem with plain | isParsed
  · rwa [parsedAsWritten_of_plain plain]
  · exact isParsed

theorem SeesEscapes.found (sees : SeesEscapes sdk) {id : SubnetID}
    (decoded : (deserializeSubnetIdFromMap sdk members).toOption = some id) :
    subnetIdOfMembers sdk members.values ≠ none := by
  simp only [toOption_deserializeSubnetIdFromMap, Option.bind_eq_some_iff, lastOf_eq_some_iff]
    at decoded
  obtain ⟨parent, ⟨parents, value, last, -⟩, actor, ⟨actors, isActor⟩, -⟩ := decoded
  have byValue : ∀ value ∈ writtenFor "Parent" members,
      (parsedByValue sdk.subnetFromStr value).isSome := fun value mem =>
    sees.isSome (parents value mem)
  obtain ⟨parent', isParent'⟩ := Option.isSome_iff_exists.mp
    (byValue value (List.mem_of_getLast? last))
  have plain := lastOf_of_plain sdk.addressFromStr fun value mem =>
    sees.plain_of_address (actors value mem)
  rw [subnetIdOfMembers_values, lastOf_eq_some_iff.mpr ⟨byValue, value, last, isParent'⟩, ← plain,
    lastOf_eq_some_iff.mpr ⟨actors, isActor⟩]
  exact Option.some_ne_none _

theorem SeesEscapes.harmless_of_decoded (sees : SeesEscapes sdk) {id : SubnetID}
    (decoded : (deserializeSubnetIdFromMap sdk members).toOption = some id)
    (byValue : subnetIdOfMembers sdk members.values = some id) : Harmless sdk members := by
  simp only [toOption_deserializeSubnetIdFromMap, Option.bind_eq_some_iff, lastOf_eq_some_iff]
    at decoded
  simp only [subnetIdOfMembers_values, Option.bind_eq_some_iff, lastOf_eq_some_iff] at byValue
  obtain ⟨parent, ⟨parents, value, last, isParent⟩, actor, ⟨actors, -⟩, joined⟩ := decoded
  obtain ⟨parent', ⟨-, value', last', isParent'⟩, actor', -, joined'⟩ := byValue
  obtain rfl : value = value' := Option.some.inj (last.symm.trans last')
  obtain rfl : parent = parent' :=
    sees.joined (Option.some.inj (joined.trans joined'.symm))
  refine ⟨fun value mem => .inr (parents value mem), fun value' last' => ?_,
    fun value mem => sees.plain_of_address (actors value mem)⟩
  obtain rfl : value = value' := Option.some.inj (last.symm.trans last')
  exact sees.plain_of_same isParent isParent'

/-- The decoder goes by the value of the text just where this gives no id, or the escapes make no
difference. -/
theorem SeesEscapes.decoded_iff (sees : SeesEscapes sdk) :
    (deserializeSubnetIdFromMap sdk members).toOption = subnetIdOfMembers sdk members.values ↔
      subnetIdOfMembers sdk members.values = none ∨ Harmless sdk members := by
  constructor
  · intro same
    cases byValue : subnetIdOfMembers sdk members.values with
    | none => exact .inl rfl
    | some id => exact .inr (sees.harmless_of_decoded (same.trans byValue) byValue)
  · rintro (none | harmless)
    · rw [none]
      by_contra decoded
      obtain ⟨id, decoded⟩ := Option.ne_none_iff_exists'.mp decoded
      exact sees.found decoded none
    · exact sees.decoded_of_harmless harmless

/-- If no text with escapes is parsed, there must not be any. -/
theorem harmless_iff_unescaped
    (rejects : ∀ s : JsonText.StringText, ¬ s.IsPlain → ∀ id,
      sdk.subnetFromStr (String.ofList s.body) ≠ .ok id) :
    Harmless sdk members ↔ Unescaped members := by
  rw [unescaped_iff]
  constructor
  · rintro ⟨parsed, -, actors⟩
    refine ⟨fun value mem => (parsed value mem).elim id fun isParsed => ?_, actors⟩
    by_contra notPlain
    obtain ⟨id, isParsed⟩ := Option.isSome_iff_exists.mp isParsed
    obtain ⟨s, escaped, parsed, -⟩ := parsed_of_not_plain notPlain isParsed
    exact rejects s escaped id parsed
  · rintro ⟨parents, actors⟩
    exact ⟨fun value mem => .inl (parents value mem),
      fun value last => parents value (List.mem_of_getLast? last), actors⟩

end Escapes

/-! ## Round trips -/

theorem values_writeStrings (members : List (String × String)) :
    (writeStrings members).values = members.map fun member => (member.1, .str member.2) := by
  induction members with
  | nil => rfl
  | cons member members ih =>
    simp [writeStrings, JsonText.Members.values, JsonText.Text.value, JsonText.value_writeString,
      ih]

theorem unescaped_writeStrings {members : List (String × String)}
    (plain : ∀ member ∈ members, JsonText.PlainText member.2) :
    Unescaped (writeStrings members) := by
  induction members with
  | nil => trivial
  | cons member members ih =>
    obtain ⟨first, rest⟩ := List.forall_mem_cons.mp plain
    refine ⟨fun _ s same => ?_, ih rest⟩
    cases same
    exact JsonText.isPlain_writeString first

/-- A subnet id whose texts can be read: those of its parent and its actor are parsed as what
they stand for, and have only characters that are not escaped in JSON. -/
structure Readable (sdk : SubnetIdText) (id parent : SubnetID) : Prop where
  isParent : sdk.parent id = some parent
  parentText : sdk.subnetFromStr parent.text = .ok parent
  actorText : sdk.addressFromStr (sdk.addressToString (sdk.subnetActor id)) =
    .ok (sdk.subnetActor id)
  joined : sdk.newFromParent parent (sdk.subnetActor id) = id
  parentPlain : JsonText.PlainText parent.text
  actorPlain : JsonText.PlainText (sdk.addressToString (sdk.subnetActor id))

section RoundTrip

variable {sdk : SubnetIdText} {id parent : SubnetID} {members written : List (String × String)}

theorem Readable.members_eq (readable : Readable sdk id parent)
    (json : toJson sdk id = some members) :
    members = [("Parent", parent.text), ("Actor", sdk.addressToString (sdk.subnetActor id))] := by
  rw [toJson, readable.isParent] at json
  exact (Option.some.inj json).symm

theorem Readable.unescaped (readable : Readable sdk id parent)
    (json : toJson sdk id = some members) (order : written = members ∨ written = members.reverse) :
    Unescaped (writeStrings written) := by
  refine unescaped_writeStrings fun member mem => ?_
  have mem : member ∈ members := by
    rcases order with rfl | rfl
    · exact mem
    · exact List.mem_reverse.mp mem
  rw [readable.members_eq json, List.mem_pair] at mem
  rcases mem with rfl | rfl
  · exact readable.parentPlain
  · exact readable.actorPlain

theorem Readable.subnetIdOfMembers_eq (readable : Readable sdk id parent)
    (json : toJson sdk id = some members) (order : written = members ∨ written = members.reverse) :
    subnetIdOfMembers sdk (writeStrings written).values = some id := by
  have parent := readable.parentText
  have actor := readable.actorText
  have joined := readable.joined
  rw [values_writeStrings]
  rcases order with rfl | rfl <;>
    simp [readable.members_eq json, subnetIdOfMembers, occurrences, lastParsed, parsed,
      Json.asString, parent, actor, joined, Except.toOption]

end RoundTrip

/-- As long as the strings of `Parent` and `Actor` are not escaped, the decoder goes by the
value of the text; otherwise it does so only where there is no id to be found, or where each string
with escapes is one for `Parent` that happens to parse and does not count. What `to_json` writes,
in either order, is decoded to the id. -/
theorem subnet_id_decoded_by_value_iff (sdk : SubnetIdText) :
    (∀ members, Unescaped members →
      (deserializeSubnetIdFromMap sdk members).toOption = subnetIdOfMembers sdk members.values) ∧
    (SeesEscapes sdk → ∀ members,
      (deserializeSubnetIdFromMap sdk members).toOption = subnetIdOfMembers sdk members.values ↔
        subnetIdOfMembers sdk members.values = none ∨ Harmless sdk members) ∧
    ((∀ s : JsonText.StringText, ¬ s.IsPlain → ∀ id,
        sdk.subnetFromStr (String.ofList s.body) ≠ .ok id) →
      ∀ members, Harmless sdk members ↔ Unescaped members) ∧
    (∀ id parent members written, Readable sdk id parent → toJson sdk id = some members →
      written = members ∨ written = members.reverse →
      deserializeSubnetIdFromMap sdk (writeStrings written) = .ok id) := by
  refine ⟨fun members => decoded_of_unescaped sdk, fun sees members => sees.decoded_iff,
    fun rejects members => harmless_iff_unescaped rejects, ?_⟩
  intro id parent members written readable json order
  have decoded := decoded_of_unescaped sdk (readable.unescaped json order)
  rw [readable.subnetIdOfMembers_eq json order] at decoded
  exact eq_ok_of_toOption decoded

/-- Two subnets, the root and one child. -/
def rootAndChild : SubnetIdText where
  subnetFromStr s := if s = "/root" ∨ s = "/root/t01" then .ok ⟨s⟩ else .error "invalid subnet id"
  addressFromStr s := if s = "t01" then .ok ⟨[0, 1]⟩ else .error "invalid address"
  addressToString _ := "t01"
  newFromParent parent _ := ⟨parent.text ++ "/t01"⟩
  parent id := if id.text = "/root/t01" then some ⟨"/root"⟩ else none
  subnetActor _ := ⟨[0, 1]⟩

/-- The child as an object, with `parent` for the value of `Parent`. -/
def childObject (parent : JsonText.StringText) : JsonText.Members :=
  .cons [.space] (JsonText.writeString "Parent") [] [.space] (.str parent) []
    (.cons [.lineFeed] (JsonText.writeString "Actor") [] [] (.str (JsonText.writeString "t01"))
      [.tab] .nil)

theorem readable_child : Readable rootAndChild ⟨"/root/t01"⟩ ⟨"/root"⟩ where
  isParent := by decide
  parentText := by decide
  actorText := by decide
  joined := by decide
  parentPlain := by decide
  actorPlain := by decide

/-- None of the texts has a backslash. -/
theorem rootAndChild_rejects {s : JsonText.StringText} (escaped : ¬ s.IsPlain) :
    (∀ id, rootAndChild.subnetFromStr (String.ofList s.body) ≠ .ok id) ∧
      ∀ a, rootAndChild.addressFromStr (String.ofList s.body) ≠ .ok a := by
  have ne (text : String) (none : '\\' ∉ text.toList) : String.ofList s.body ≠ text := by
    rintro rfl
    rw [String.toList_ofList] at none
    exact none (JsonText.StringText.backslash_mem_body escaped)
  have root := ne "/root" (by decide)
  have child := ne "/root/t01" (by decide)
  have actor := ne "t01" (by decide)
  constructor
  · intro id
    simp [rootAndChild, root, child]
  · intro a
    simp [rootAndChild, actor]

theorem seesEscapes_rootAndChild : SeesEscapes rootAndChild where
  subnet _ escaped id parsed := absurd parsed ((rootAndChild_rejects escaped).1 id)
  address _ escaped := (rootAndChild_rejects escaped).2
  joined {parent parent' _ _} same := by
    have texts : parent.text ++ "/t01" = parent'.text ++ "/t01" := congrArg SubnetID.text same
    have chars := congrArg String.toList texts
    rw [String.toList_append, String.toList_append, List.append_cancel_right_eq] at chars
    cases parent
    cases parent'
    exact congrArg SubnetID.mk (String.toList_injective chars)

/-- The child with the slash of its parent's id written in another way. -/
def spelledChild (slash : JsonText.Piece) : JsonText.Members :=
  childObject (slash :: JsonText.writeString "root")

def unicodeSlash : JsonText.Piece :=
  .unicode (.ofByte 0x2f) (JsonText.CodeUnit.scalar_ofByte 0x2f)

theorem child_decoded_and_round_trips :
    Unescaped (childObject (JsonText.writeString "/root")) ∧
      (deserializeSubnetIdFromMap rootAndChild
        (childObject (JsonText.writeString "/root"))).toOption = some ⟨"/root/t01"⟩ ∧
      ¬ Harmless rootAndChild (spelledChild unicodeSlash) ∧
      toJson rootAndChild ⟨"/root/t01"⟩ = some [("Parent", "/root"), ("Actor", "t01")] ∧
      deserializeSubnetIdFromMap rootAndChild
        (writeStrings [("Parent", "/root"), ("Actor", "t01")]) = .ok ⟨"/root/t01"⟩ := by
  have unescaped : Unescaped (childObject (JsonText.writeString "/root")) := by
    refine ⟨fun _ s same => ?_, fun _ s same => ?_, trivial⟩ <;> cases same <;>
      exact JsonText.isPlain_writeString (by decide)
  obtain ⟨byValue, exactly, -, roundTrip⟩ := subnet_id_decoded_by_value_iff rootAndChild
  refine ⟨unescaped, (byValue _ unescaped).trans ?_, fun harmless => ?_, rfl,
    roundTrip _ _ _ _ readable_child rfl (.inl rfl)⟩
  · decide
  · have same := (exactly seesEscapes_rootAndChild (spelledChild unicodeSlash)).mpr (.inr harmless)
    revert same
    decide

/-- Written `\/root` or `\u002froot`, the parent is not recognised. -/
theorem escaped_parent_rejected :
    (spelledChild (.escape .slash)).values =
        (childObject (JsonText.writeString "/root")).values ∧
      (spelledChild unicodeSlash).values = (childObject (JsonText.writeString "/root")).values ∧
      subnetIdOfMembers rootAndChild (childObject (JsonText.writeString "/root")).values =
        some ⟨"/root/t01"⟩ ∧
      deserializeSubnetIdFromMap rootAndChild (spelledChild (.escape .slash)) =
        .error "invalid subnet id" ∧
      deserializeSubnetIdFromMap rootAndChild (spelledChild unicodeSlash) =
        .error "invalid subnet id" :=
  ⟨rfl, rfl, by decide, by decide, by decide⟩

end IpcAgent.Lotus
