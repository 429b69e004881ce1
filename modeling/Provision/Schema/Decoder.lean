import Provision.Text.Quoted
import Provision.Toml.Item

/-! # Decoding items

A decoder turns an item into a value of the domain, or says what it found instead of what it expected
and where. The place of a complaint is that of the innermost item that has one.

* `SchemaFault` — what can be wrong, with its wording; `SchemaError` — a fault at an offset.
* `string`, `boolean`, `unsigned`, `list`, `textMap`, `choice` — decoders of single items.
* `KeyField`, `record` — decoders of tables with fixed keys.
-/

namespace Provision.Schema

open Text Toml

/-! ## Faults -/

/-- What is wrong with an item. -/
inductive SchemaFault where
  | wrongType (found expected : String)
  | wrongValue (found expected : String)
  | wrongLength (length : Nat) (expected : String)
  | unknownField (name : String) (known : List String)
  | unknownVariant (name : String) (known : List String)
  | missingField (name : String)
  /-- The item has none of the shapes of an enumeration. -/
  | noShape (enumeration : String)
  /-- A choice is neither a text nor a table. -/
  | noChoice
  /-- A table that makes a choice has no entry, or several. -/
  | notOneChoice (found : String)
  /-- A choice that takes nothing is given something. -/
  | notEmpty
  /-- A choice that takes nothing is given tables. -/
  | notEmptyArray
  /-- A choice that takes nothing is given something that is no table. -/
  | notTable (found : String)
  deriving DecidableEq, Repr

/-- Names in a sentence: one, one or the other, one of several. -/
def alternatives (names : List String) : String :=
  let quoted := names.map fun name => "`" ++ name ++ "`"
  match quoted with
  | [one] => one
  | [one, other] => one ++ " or " ++ other
  | _ => "one of " ++ ", ".intercalate quoted

def SchemaFault.message : SchemaFault → String
  | .wrongType found expected => s!"invalid type: {found}, expected {expected}"
  | .wrongValue found expected => s!"invalid value: {found}, expected {expected}"
  | .wrongLength length expected => s!"invalid length {length}, expected {expected}"
  | .unknownField name known => "unknown field `" ++ name ++ "`, expected " ++ alternatives known
  | .unknownVariant name known => "unknown variant `" ++ name ++ "`, expected " ++ alternatives known
  | .missingField name => "missing field `" ++ name ++ "`"
  | .noShape enumeration => "data did not match any variant of untagged enum " ++ enumeration
  | .noChoice => "wanted string or table"
  | .notOneChoice found => "wanted exactly 1 element, " ++ found
  | .notEmpty => "expected empty table"
  | .notEmptyArray => "expected empty array"
  | .notTable found => "expected table, found " ++ found

/-- A fault, and the offset at which the item starts. -/
structure SchemaError where
  fault : SchemaFault
  start : Option Nat
  deriving DecidableEq, Repr

/-- The wording of a fault with its offset. -/
def SchemaError.message (e : SchemaError) : String :=
  match e.start with
  | some start => s!"{e.fault.message} (at byte {start})"
  | none => e.fault.message

abbrev Decoder (α : Type) := Item → Except SchemaError α

/-- A result whose complaint has a place, if one is known. -/
def located {α : Type} (start : Option Nat) (result : Except SchemaError α) : Except SchemaError α :=
  result.mapError fun e => { e with start := e.start.or start }

/-! ## Names of what is found -/

/-- An item in a message about its type. -/
def found : Item → String
  | .string _ value => "string " ++ quoted value
  | .integer _ value => "integer `" ++ toString value ++ "`"
  | .float _ value => "floating point `" ++ value.text ++ "`"
  | .boolean _ value => "boolean `" ++ toString value ++ "`"
  | .array .. | .tables _ => "sequence"
  | .datetime .. | .table .. => "map"

/-- The name of the type of an item. -/
def typeName : Item → String
  | .string .. => "string"
  | .integer .. => "integer"
  | .float .. => "float"
  | .boolean .. => "boolean"
  | .datetime .. => "datetime"
  | .array .. => "array"
  | .table (.inline _) _ | .table .inlineDotted _ => "inline table"
  | .table .. => "table"
  | .tables _ => "array of tables"

/-- The complaint about an item of another type than expected. -/
def mismatch {α : Type} (expected : String) (item : Item) : Except SchemaError α :=
  .error ⟨.wrongType (found item) expected, item.start?⟩

/-- The key under which a date counts as a table. -/
def datetimeKey : String := "$__toml_private_datetime"

/-- The entries of what counts as a table: a date is one with a single text. -/
def entries? : Item → Option Entries
  | .table _ entries => some entries
  | .datetime start text => some [(⟨datetimeKey, start⟩, .string start text)]
  | _ => none

/-- The items of what counts as a list. -/
def items? : Item → Option (List Item)
  | .array _ items => some items
  | .tables elements => some elements
  | _ => none

/-! ## Single items -/

/-- A text, under the name that a complaint gives to it. -/
def stringAs (expected : String) : Decoder String
  | .string _ value => .ok value
  | item => mismatch expected item

def string : Decoder String := stringAs "a string"

def boolean : Decoder Bool
  | .boolean _ value => .ok value
  | item => mismatch "a boolean" item

/-- A number from zero up to a bound. -/
def unsigned (expected : String) (bound : Nat) : Decoder Nat
  | .integer start value =>
    if 0 ≤ value ∧ value < bound then .ok value.toNat
    else .error ⟨.wrongValue ("integer `" ++ toString value ++ "`") expected, some start⟩
  | item => mismatch expected item

def word64 : Decoder Nat := unsigned "u64" UInt64.size

def word32 : Decoder Nat := unsigned "u32" UInt32.size

def list {α : Type} (decode : Decoder α) : Decoder (List α) := fun item =>
  match items? item with
  | some items => located item.start? (items.mapM decode)
  | none => mismatch "a sequence" item

def valueOf {α : Type} (decode : Decoder α) (key : Key) (item : Item) : Except SchemaError α :=
  located (item.start?.or (some key.start)) (decode item)

def textMap : Decoder (List (String × String)) := fun item =>
  match entries? item with
  | some entries => located item.start? (entries.mapM fun (key, value) => do
      return (key.text, ← valueOf string key value))
  | none => mismatch "a map" item

/-- Whether an item says nothing, as what a choice without content may be given. -/
def emptiness : Decoder Unit
  | .table form entries => if entries.isEmpty then .ok () else .error ⟨.notEmpty, form.start?⟩
  | .array start items => if items.isEmpty then .ok () else .error ⟨.notEmpty, some start⟩
  | .tables elements => if elements.isEmpty then .ok ()
    else .error ⟨.notEmptyArray, (Item.tables elements).start?⟩
  | item => .error ⟨.notTable (typeName item), item.start?⟩

/-- One of several names: as a text, or as the only key of a table with nothing in it. -/
def choice {α : Type} (names : List (String × α)) : Decoder α := fun item =>
  let named (name : String) : Except SchemaFault α :=
    match names.lookup name with
    | some a => .ok a
    | none => .error (.unknownVariant name (names.map (·.1)))
  match item with
  | .string start name => (named name).mapError (⟨·, some start⟩)
  | .table form entries =>
    match entries with
    | [] => .error ⟨.notOneChoice "found 0 elements", form.start?⟩
    | [(key, value)] => do
      let a ← (named key.text).mapError (⟨·, some key.start⟩)
      located form.start? (emptiness value)
      return a
    | _ => .error ⟨.notOneChoice "more than 1 element", form.start?⟩
  | item => .error ⟨.noChoice, item.start?⟩

/-! ## Records -/

/-- A field of a record: how its item adds to what is known. -/
structure KeyField (σ : Type) where
  name : String
  add : σ → Decoder σ
  /-- Whether a list that ends before the field leaves it unset. -/
  isOptional : Bool

/-- A record that is written as a table: each key is a field. -/
def fromEntries {σ : Type} (fields : List (KeyField σ)) (known : σ) (entries : Entries) :
    Except SchemaError σ :=
  entries.foldlM (fun known (key, value) =>
    match fields.find? (·.name = key.text) with
    | some field => valueOf (field.add known) key value
    | none => .error ⟨.unknownField key.text (fields.map (·.name)), some key.start⟩) known

/-- A record that is written as a list: the fields in order. -/
def fromItems {σ : Type} (fields : List (KeyField σ)) (expected : String) (known : σ) (items : List Item) :
    Except SchemaError σ :=
  let rec go (position : Nat) : List (KeyField σ) → List Item → σ → Except SchemaError σ
    | [], _, known => .ok known
    | field :: fields, item :: items, known => do
      go (position + 1) fields items (← field.add known item)
    | field :: fields, [], known =>
      if field.isOptional then go (position + 1) fields [] known
      else .error ⟨.wrongLength position expected, none⟩
  go 0 fields items known

/-- A record under a name: a table of its fields, or a list of them in order. -/
def record {σ : Type} (name : String) (fields : List (KeyField σ)) (known : σ) : Decoder σ := fun item =>
  let expected := "struct " ++ name
  let plural := if fields.length = 1 then " element" else " elements"
  match entries? item, items? item with
  | some entries, _ => located item.start? (fromEntries fields known entries)
  | none, some items => located item.start?
      (fromItems fields (expected ++ " with " ++ toString fields.length ++ plural) known items)
  | none, none => mismatch expected item

end Provision.Schema
