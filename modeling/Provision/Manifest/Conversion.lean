import Provision.Loading
import Provision.Manifest
import Provision.Note
import Provision.Text.Blank

/-! # From tables to declarations

Each table of a manifest document becomes declarations: its own, followed by those of its attributes. A
table with a pattern becomes one such group for each match in the tree at hand, except for paths that the
document declares by themselves and paths that an earlier match has taken.

* `ResourceTable.resource` — what a table declares.
* `ResourceTable.place` — the paths that it declares this at.
* `Manifest.ofTable` — the manifest of a document; `Manifest.parse`, `Manifest.load` — of a text, and of
  the document at a path.
-/

namespace Provision

open Schema

/-- Where a manifest comes from: its name in messages, and the directory that its sources are seen
    from. -/
structure Origin where
  file : String
  directory : HostPath
  deriving DecidableEq, Repr

/-- Why a table cannot be converted, before it is known which one it is. -/
inductive ConversionFault where
  | table (fault : TableFault)
  | declaration (cause : InvalidDeclaration)
  | host (path : HostPath) (fault : HostFault)
  deriving DecidableEq, Repr

/-- The error that a fault of a table makes. -/
def ConversionFault.at (origin : Origin) (index : Nat) : ConversionFault → LoadError
  | table fault => .table origin.file index fault
  | declaration cause => .declaration origin.file index cause
  | host path fault => .host path fault

/-! ## Entries of the tree at hand -/

/-- The entry that is at a path of the tree; a link is taken as such. -/
def Tree.entry (t : Tree) (path : HostPath) : Except ConversionFault Entry := do
  let inode ← (t.linkStatus path).mapError (.host path)
  match inode.matter with
  | .file _ => return .file (← (t.read path).mapError (.host path))
  | .directory => return .directory
  | .symlink target =>
    match textOf? target with
    | some target => return .symlink target
    | none => throw (.table (.pathNotText path))
  | .fifo => return .fifo
  | .device deviceClass major minor => return .device deviceClass major minor
  | .socket => throw (.table (.unsupported path "a socket"))

/-- The entry that is at a path of the tree, with its mode and time. A time before the epoch counts as
    the epoch. -/
def Tree.entrySpec (t : Tree) (path : HostPath) : Except ConversionFault EntrySpec := do
  let entry ← t.entry path
  let inode ← (t.linkStatus path).mapError (.host path)
  return ⟨entry, ⟨some ⟨inode.mode &&& Mode.largest⟩, none, none⟩, some inode.mtime.toNat, none⟩

namespace ResourceTable

/-! ## Single values -/

/-- The path that the table takes its content or entry from. -/
def sourcePath? (table : ResourceTable) (origin : Origin) : Option HostPath :=
  table.source.map fun source => origin.directory.join (.ofText source)

/-- The octets that a field spells in base64. -/
def decoded (field text : String) : Except ConversionFault Octets :=
  (Base64.decode (utf8 (Text.trimmed text))).mapError fun fault => .table (.base64 field fault)

def modeOf (table : ResourceTable) : ModeSpelling → Except ConversionFault Mode
  | .bits number => (Mode.ofInt number).mapError fun fault => .declaration ⟨table.path, .mode fault⟩
  | .octal text => (Mode.parse text).mapError fun fault => .declaration ⟨table.path, .mode fault⟩

/-- Mode and ownership as the table spells them. -/
def permissions (table : ResourceTable) : Except ConversionFault Permissions :=
  match table.mode with
  | none => .ok ⟨none, table.owner, table.group⟩
  | some spelling => do return ⟨some (← table.modeOf spelling), table.owner, table.group⟩

def fileContent (t : Tree) (origin : Origin) (table : ResourceTable) : Except ConversionFault Octets :=
  match table.content, table.contentBase64, table.sourcePath? origin with
  | some text, none, none => .ok (utf8 text)
  | none, some encoded, none => decoded "content_base64" encoded
  | none, none, some path => (t.read path).mapError (.host path)
  | _, _, _ => .error (.table .fileContent)

def attributeValue (table : ResourceTable) : Except ConversionFault Octets :=
  match table.value, table.valueBase64 with
  | some value, none => .ok (utf8 value)
  | none, some encoded => decoded "value_base64" encoded
  | _, _ => .error (.table .attributeValue)

def declaredAttribute (table : ResourceTable) : Except ConversionFault Attribute :=
  match table.name with
  | none => .error (.table .unnamedAttribute)
  | some name => do return ⟨name, ← table.attributeValue⟩

/-! ## Resources -/

/-- The entry of a table of its own, without metadata; `found?` is where the tree at hand has it. -/
def entrySpec (t : Tree) (origin : Origin) (table : ResourceTable) (found? : Option HostPath) :
    Except ConversionFault EntrySpec :=
  match table.kind with
  | .file => do return .bare (.file (← table.fileContent t origin))
  | .symlink =>
    match table.target with
    | some target => .ok (.bare (.symlink target))
    | none => .error (.table .noTarget)
  | .device =>
    match table.deviceClass, table.major, table.minor with
    | some deviceClass, some major, some minor => .ok (.bare (.device deviceClass major minor))
    | _, _, _ => .error (.table .partialDevice)
  | .fromHost =>
    match found? with
    | some path => t.entrySpec path
    | none => .error (.table .noSource)
  | .fifo => .ok (.bare .fifo)
  | .directory | .permissions | .xattr | .absent => .ok (.bare .directory)

/-- An entry with what the table declares about it, which wins over what the entry has. -/
def declared (table : ResourceTable) (permissions : Permissions) (spec : EntrySpec) : EntrySpec :=
  ⟨spec.entry, spec.permissions.overlaid permissions, table.mtime.or spec.mtime, table.atime.or spec.atime⟩

def resource (t : Tree) (origin : Origin) (table : ResourceTable) (found? : Option HostPath) :
    Except ConversionFault Resource := do
  let permissions ← table.permissions
  match table.kind with
  | .permissions => return .permissions permissions
  | .xattr => return .xattr (← table.declaredAttribute)
  | .absent => return .absent
  | _ => return .entry (table.declared permissions (← table.entrySpec t origin found?))

/-! ## Places -/

/-- A path and what is declared there. -/
abbrev Placement := String × Resource

/-- The path that a match takes. -/
def matchPath (table : ResourceTable) (way : String) : String :=
  String.ofList (table.path.toList.reverse.dropWhile (· = '/')).reverse ++ "/" ++ way

/-- What a table with a pattern declares for the matches of it, and the paths that are taken then. A path
    that is claimed by the document or taken already is left out. -/
def placeMatches (t : Tree) (origin : Origin) (claimed : List TargetPath) (table : ResourceTable) :
    List (String × HostPath) → List TargetPath →
      Traced ConversionFault (List Placement × List TargetPath)
  | [], taken => return ([], taken)
  | (way, found) :: rest, taken =>
    match TargetPath.parse (table.matchPath way) with
    | .error fault => .fail (.declaration ⟨table.matchPath way, .path fault⟩)
    | .ok path =>
      if path ∈ claimed ∨ path ∈ taken then do
        Traced.say .debug .manifest
          s!"glob match {table.matchPath way} is declared elsewhere, skipping"
        table.placeMatches t origin claimed rest taken
      else do
        let resource ← .ofExcept (table.resource t origin found)
        let (more, taken) ← table.placeMatches t origin claimed rest (path :: taken)
        return ((table.matchPath way, resource) :: more, taken)

/-- The fault of a table whose search fails. -/
def searchFault : SearchFault → ConversionFault
  | .pattern pattern fault => .table (.pattern pattern fault)
  | .notText path => .table (.pathNotText path)
  | .outside path => .table (.unsupported path "a glob match outside the source tree")
  | .host path fault => .host path fault

/-- The matches of a pattern beneath a directory. -/
def search (t : Tree) (root : HostPath) (pattern : String) :
    Traced ConversionFault (List (String × HostPath)) := do
  let found ← .ofExcept ((t.search root pattern).mapError searchFault)
  Traced.say .debug .host s!"glob '{pattern}' under {root} matched {found.length} path(s)"
  return found

/-- What a table declares at which paths, and the paths that patterns have taken then. -/
def place (t : Tree) (origin : Origin) (claimed taken : List TargetPath) (table : ResourceTable) :
    Traced ConversionFault (List Placement × List TargetPath) :=
  if let some field := table.foreignField? then .fail (.table (.foreignField field table.kind))
  else match table.pattern?, table.sourcePath? origin with
    | some _, none => .fail (.table .noSource)
    | some pattern, some root => do
      let found ← search t root pattern
      let (placed, taken) ← table.placeMatches t origin claimed found taken
      if placed.isEmpty then
        Traced.say .debug .manifest s!"glob '{pattern}' in {origin.file} matched nothing"
      return (placed, taken)
    | none, source? => do
      if table.kind = .fromHost ∧ source?.isNone then Traced.fail (.table .noSource)
      let resource ← .ofExcept (table.resource t origin source?)
      return ([(table.path, resource)], taken)

end ResourceTable

/-! ## Manifests -/

namespace Manifest

/-- The manifest with one resource more, followed by attributes of it in the order of their names. -/
def pushWithAttributes (table : ResourceTable) (m : Manifest) (placement : ResourceTable.Placement) :
    Except InvalidDeclaration Manifest := do
  let m ← m.push placement.1 placement.2 table.requires
  table.xattrs.entries.foldlM (fun m (name, value) =>
    m.push placement.1 (.xattr ⟨name, utf8 value⟩) []) m

/-- The manifest with what a table declares, and the paths that patterns have taken then. -/
def pushTable (t : Tree) (origin : Origin) (claimed : List TargetPath) (m : Manifest)
    (taken : List TargetPath) (table : ResourceTable) :
    Traced ConversionFault (Manifest × List TargetPath) := do
  let (placed, taken) ← table.place t origin claimed taken
  let m ← .ofExcept ((placed.foldlM (pushWithAttributes table) m).mapError .declaration)
  return (m, taken)

/-- The manifest with what tables declare, the first of which has an index. -/
def pushTables (t : Tree) (origin : Origin) (claimed : List TargetPath) :
    Nat → List ResourceTable → Manifest → List TargetPath → Traced LoadError Manifest
  | _, [], m, _ => return m
  | index, table :: rest, m, taken => do
    let (m, taken) ← (m.pushTable t origin claimed taken table).mapError (·.at origin index)
    pushTables t origin claimed (index + 1) rest m taken

/-- The paths that a document declares by themselves, so that no match may take them. -/
def claimedPaths (tables : List ResourceTable) : List TargetPath :=
  tables.filterMap fun table => if table.isExplicit then (TargetPath.parse table.path).toOption else none

def ofTable (t : Tree) (origin : Origin) (id : String) (document : ManifestTable) :
    Traced LoadError Manifest := do
  let m ← pushTables t origin (claimedPaths document.resources) 0 document.resources
    (.empty (document.id.getD id)) []
  Traced.say .debug .manifest s!"loaded manifest '{m.id}' with {m.size} declaration(s)"
  return m

/-- The manifest of a text. Its name is also that of the source in messages. -/
def parse (t : Tree) (source id : String) (directory : HostPath) : Traced LoadError Manifest := do
  let document ← .ofExcept ((decodeDocument ManifestTable.decode source).mapError (.document id))
  ofTable t ⟨id, directory⟩ id document

/-- The manifest of the document at a path. It is named after the file unless it says otherwise, and its
    sources are seen from the directory of the file. -/
def load (t : Tree) (path : HostPath) : Traced LoadError Manifest := do
  let document ← .ofExcept (t.document ManifestTable.decode path)
  let id := (path.stem?.map displayText).getD path.text
  ofTable t ⟨path.text, path.parent?.getD ⟨selfName⟩⟩ id document

def loadAll (t : Tree) (paths : List HostPath) : Traced LoadError (List Manifest) := paths.mapM (load t)

end Manifest

end Provision
