import Provision.Archive.Member
import Provision.Digest
import Provision.Json
import Provision.Sequence

/-! # Plans

A plan shows what a sequence would do, removals included: a line per node with its attributes beneath,
or a JSON object per node.

* `Plan.line`, `Plan.attributeLine` — the lines.
* `Plan.object`, `Plan.document` — the JSON document.
-/

namespace Provision

namespace Plan

open Text

/-- A principal, or a dash where none is set. -/
def principalText (p : Option Principal) : String := (p.map Principal.text).getD "-"

/-- The mode; an asterisk marks one that is not declared. -/
def modeText (spec : EntrySpec) : String :=
  spec.effectiveMode.text ++ if spec.permissions.mode.isSome then "" else "*"

/-- What a line says about an entry behind its path. -/
def detail (implicit : Bool) : Entry → String
  | .directory => if implicit then " (implicit)" else ""
  | .file content => s!" ({content.length} bytes)"
  | .symlink target => s!" -> {target}"
  | .fifo => ""
  | .device deviceClass major minor => s!" ({deviceClass.text} {major}:{minor})"

def line (node : Node) : String :=
  match node.state.entry? with
  | none => s!"remove {node.path}"
  | some spec =>
    let ownership := principalText spec.permissions.owner ++ ":" ++ principalText spec.permissions.group
    widened 12 spec.kind.text ++ " " ++ widened 5 (modeText spec) ++ " " ++ ownership ++ " "
      ++ node.path.text ++ detail node.isImplicit spec.entry

def attributeLine (name : String) (value : Octets) : String :=
  s!"    xattr {name} ({value.length} bytes)"

def lines (node : Node) : List String :=
  line node :: node.xattrs.entries.map fun (name, value) => attributeLine name value

/-! ## JSON -/

/-- A principal, with what is set of it. -/
def principalObject (p : Principal) : Json :=
  .object ((p.name.map fun name => ("name", Json.string name)).toList
    ++ (p.id.map fun id => ("id", Json.number id)).toList)

/-- The member of a flag, where it is raised. -/
def flag (key : String) (raised : Bool) : List (String × Json) :=
  if raised then [(key, .bool true)] else []

def optional (key : String) (value : Option Json) : List (String × Json) :=
  (value.map fun v => (key, v)).toList

/-- What an object says about the entry itself. -/
def entryMembers : Entry → List (String × Json)
  | .symlink target => [("target", .string target)]
  | .file content =>
    [("size", .number content.length), ("sha256", .string (fingerprint content))]
  | .device deviceClass major minor =>
    [("device", .object [("class", .string deviceClass.text), ("major", .number major),
      ("minor", .number minor)])]
  | .directory | .fifo => []

/-- What an object says about an entry and its metadata. -/
def specMembers (spec : EntrySpec) : List (String × Json) :=
  ("mode", .string spec.effectiveMode.text) :: flag "mode_default" spec.permissions.mode.isNone
    ++ optional "owner" (spec.permissions.owner.map principalObject)
    ++ optional "group" (spec.permissions.group.map principalObject)
    ++ optional "mtime" (spec.mtime.map Json.number)
    ++ optional "atime" (spec.atime.map Json.number)
    ++ entryMembers spec.entry

/-- An attribute by name and size. -/
def attributeObject (name : String) (value : Octets) : Json :=
  .object [("name", .string name), ("size", .number value.length)]

/-- The attributes, where there are any. -/
def attributeMembers (xattrs : SortedMap String Octets byteOrder) : List (String × Json) :=
  if xattrs.isEmpty then []
  else [("xattrs", .array (xattrs.entries.map fun (name, value) => attributeObject name value))]

def object (node : Node) : Json :=
  .object ([("path", .string node.path.text), ("kind", .string node.kind.text)]
    ++ flag "implicit" node.isImplicit
    ++ (node.state.entry?.map specMembers).getD []
    ++ attributeMembers node.xattrs
    ++ [("declared_by", .array (node.provenance.map fun p => .string p.text))])

def document (nodes : List Node) : Json := .array (nodes.map object)

end Plan

end Provision
