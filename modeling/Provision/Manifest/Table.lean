import Provision.Resource
import Provision.Schema.Decoder
import Provision.SortedMap

/-! # Resource tables

What a manifest document says, table by table, before it is known to make sense: each kind of
resource takes only some of the fields, but every table may spell all of them.

* `ResourceTable` — one table; `ManifestTable` — a document.
* `ManifestTable.decode` — the tables of a document.
* `ResourceTable.foreignField?` — the first field that the kind of the table does not take.
-/

namespace Provision

open Schema Toml

/-! ## Kinds and fields -/

inductive TableKind where
  | directory
  | file
  | symlink
  | fifo
  | device
  | permissions
  | xattr
  | absent
  /-- Take the entry from the tree at hand. -/
  | fromHost
  deriving DecidableEq, Repr

namespace TableKind

def text : TableKind → String
  | directory => "directory"
  | file => "file"
  | symlink => "symlink"
  | fifo => "fifo"
  | device => "device"
  | permissions => "permissions"
  | xattr => "xattr"
  | absent => "absent"
  | fromHost => "from-host"

instance : ToString TableKind := ⟨text⟩

/-- The names that documents may use for kinds. -/
def names : List (String × TableKind) :=
  [("directory", directory), ("file", file), ("regular-file", file), ("symlink", symlink),
    ("fifo", fifo), ("device", device), ("permission-set", permissions),
    ("permissions", permissions), ("extended-attribute", xattr), ("xattr", xattr),
    ("absent", absent), ("from-host", fromHost)]

/-- The fields of everything that creates an entry. -/
def entryFields : List String := ["mode", "owner", "group", "mtime", "atime", "xattrs"]

/-- The fields that tables of a kind take, beside path and requirements. -/
def allowed : TableKind → List String
  | directory | fifo => entryFields
  | file => entryFields ++ ["content", "content_base64", "source"]
  | symlink => entryFields ++ ["target"]
  | device => entryFields ++ ["class", "major", "minor"]
  | fromHost => entryFields ++ ["source", "glob"]
  | permissions => ["mode", "owner", "group"]
  | xattr => ["name", "value", "value_base64"]
  | absent => []

end TableKind

inductive ModeSpelling where
  | bits (number : Int)
  | octal (text : String)
  deriving DecidableEq, Repr

/-- The fields of a table that may be missing. -/
structure ResourceFields where
  requires : List String := []
  mode : Option ModeSpelling := none
  owner : Option Principal := none
  group : Option Principal := none
  mtime : Option Nat := none
  atime : Option Nat := none
  xattrs : SortedMap String String byteOrder := ∅
  content : Option String := none
  contentBase64 : Option String := none
  source : Option String := none
  glob : Option String := none
  target : Option String := none
  deviceClass : Option DeviceClass := none
  major : Option Nat := none
  minor : Option Nat := none
  name : Option String := none
  value : Option String := none
  valueBase64 : Option String := none

/-- A table of a manifest document. -/
structure ResourceTable extends ResourceFields where
  kind : TableKind
  path : String

namespace ResourceTable

/-- The fields that are set, by their names in documents. -/
def present (t : ResourceTable) : List String :=
  [("mode", t.mode.isSome), ("owner", t.owner.isSome), ("group", t.group.isSome),
    ("mtime", t.mtime.isSome), ("atime", t.atime.isSome), ("xattrs", !t.xattrs.isEmpty),
    ("content", t.content.isSome), ("content_base64", t.contentBase64.isSome),
    ("source", t.source.isSome), ("glob", t.glob.isSome), ("target", t.target.isSome),
    ("class", t.deviceClass.isSome), ("major", t.major.isSome), ("minor", t.minor.isSome),
    ("name", t.name.isSome), ("value", t.value.isSome), ("value_base64", t.valueBase64.isSome)].filterMap
    fun (field, isSet) => if isSet then some field else none

/-- The first field that is set although tables of this kind do not take it. -/
def foreignField? (t : ResourceTable) : Option String :=
  t.present.find? fun field => !t.kind.allowed.contains field

/-- The pattern of a table that takes every match of it from the tree at hand. -/
def pattern? (t : ResourceTable) : Option String :=
  if t.kind = .fromHost then t.glob else none

/-- Whether the table names one path, and a whole entry there or its removal. -/
def isExplicit (t : ResourceTable) : Bool :=
  t.pattern?.isNone && t.kind ≠ .permissions && t.kind ≠ .xattr

end ResourceTable

/-! ## Decoding -/

/-- A table of which kind and path may still be missing. -/
structure PartialTable extends ResourceFields where
  kind : Option TableKind := none
  path : Option String := none

/-- A mode: a number, or a text of octal digits. -/
def modeSpelling : Decoder ModeSpelling
  | .integer _ number => .ok (.bits number)
  | .string _ text => .ok (.octal text)
  | item => .error ⟨.noShape "RawMode", item.start?⟩

/-- An item as a number of 64 bits, if it is one. -/
def word64? (item : Item) : Option Nat := (word64 item).toOption

/-- An item as a text, if it is one. -/
def text? (item : Item) : Option String := (string item).toOption

/-- A principal: its number, its name, or a table of both. What else such a table holds does not
    matter. -/
def principal? (item : Item) : Option Principal :=
  match entries? item with
  | some entries =>
    match (entries.item? "name").map text?, (entries.item? "id").map word64? with
    | some none, _ | _, some none => none
    | name, id => some ⟨name.join, id.join⟩
  | none => ((word64? item).map (⟨none, some ·⟩)).or ((text? item).map (⟨some ·, none⟩))

@[inherit_doc principal?]
def principal : Decoder Principal := fun item =>
  match principal? item with
  | some p => .ok p
  | none => .error ⟨.noShape "RawPrincipal", item.start?⟩

def deviceClass : Decoder DeviceClass := choice [("char", .char), ("block", .block)]

/-- A field that holds what a decoder finds. -/
def holds {α : Type} (name : String) (decode : Decoder α) (set : PartialTable → α → PartialTable) :
    KeyField PartialTable :=
  ⟨name, fun t item => return set t (← decode item), false⟩

def ResourceTable.fields : List (KeyField PartialTable) :=
  [holds "kind" (choice TableKind.names) fun t v => { t with kind := some v },
    holds "path" string fun t v => { t with path := some v },
    { holds "requires" (list string) fun t v => { t with requires := v } with isOptional := true },
    holds "mode" modeSpelling fun t v => { t with mode := some v },
    holds "owner" principal fun t v => { t with owner := some v },
    holds "group" principal fun t v => { t with group := some v },
    holds "mtime" word64 fun t v => { t with mtime := some v },
    holds "atime" word64 fun t v => { t with atime := some v },
    { holds "xattrs" textMap fun t v => { t with xattrs := .ofList v } with isOptional := true },
    holds "content" string fun t v => { t with content := some v },
    holds "content_base64" string fun t v => { t with contentBase64 := some v },
    holds "source" (stringAs "path string") fun t v => { t with source := some v },
    holds "glob" string fun t v => { t with glob := some v },
    holds "target" string fun t v => { t with target := some v },
    holds "class" deviceClass fun t v => { t with deviceClass := some v },
    holds "major" word32 fun t v => { t with major := some v },
    holds "minor" word32 fun t v => { t with minor := some v },
    holds "name" string fun t v => { t with name := some v },
    holds "value" string fun t v => { t with value := some v },
    holds "value_base64" string fun t v => { t with valueBase64 := some v }]

/-- The table with kind and path, which it must have. -/
def PartialTable.complete (t : PartialTable) : Except SchemaError ResourceTable :=
  match t.kind, t.path with
  | some kind, some path => .ok { t with kind, path }
  | none, _ => .error ⟨.missingField "kind", none⟩
  | some _, none => .error ⟨.missingField "path", none⟩

def ResourceTable.decode : Decoder ResourceTable := fun item => do
  let t ← record "RawResource" ResourceTable.fields {} item
  located item.start? t.complete

structure ManifestTable where
  id : Option String
  resources : List ResourceTable

namespace ManifestTable

def fields : List (KeyField ManifestTable) :=
  [⟨"id", fun m item => return { m with id := some (← string item) }, false⟩,
    ⟨"resource", fun m item => return { m with resources := ← list ResourceTable.decode item }, true⟩]

def decode : Decoder ManifestTable := record "ManifestFile" fields ⟨none, []⟩

end ManifestTable

end Provision
