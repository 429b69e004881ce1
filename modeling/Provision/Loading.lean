import Provision.Declaration
import Provision.Host.Search
import Provision.Manifest.Table
import Provision.Schema.Document
import Provision.Text.Base64

/-! # Loading documents

Settings and manifests come from documents in the tree at hand.

* `LoadError` — why loading fails, with its wording; `TableFault` — why a table of a manifest makes no
  sense.
* `Tree.document` — the value of a document at a path.
-/

namespace Provision

open Schema

/-- Why a table makes no sense. -/
inductive TableFault where
  | foreignField (field : String) (kind : TableKind)
  | noSource
  | noTarget
  | partialDevice
  | unnamedAttribute
  | attributeValue
  | fileContent
  | base64 (field : String) (fault : Base64Fault)
  | unsupported (path : HostPath) (what : String)
  | pathNotText (path : HostPath)
  | pattern (pattern : String) (fault : PatternFault)
  deriving DecidableEq, Repr

def TableFault.message : TableFault → String
  | .foreignField field kind => s!"field '{field}' is not valid for a {kind}"
  | .noSource => "from-host needs a source"
  | .noTarget => "symlink needs a target"
  | .partialDevice => "device needs class, major and minor"
  | .unnamedAttribute => "xattr needs a name"
  | .attributeValue => "xattr needs exactly one of value, value_base64"
  | .fileContent => "file needs exactly one of content, content_base64, source"
  | .base64 field fault => s!"{field}: {fault.message}"
  | .unsupported path what => s!"{path}: {what} is not supported"
  | .pathNotText path => s!"{path}: path is not valid UTF-8"
  | .pattern glob fault => s!"invalid glob '{glob}': {fault.message}"

/-- Why loading fails. -/
inductive LoadError where
  | document (file : String) (error : DocumentError)
  | table (file : String) (index : Nat) (fault : TableFault)
  | declaration (file : String) (index : Nat) (cause : InvalidDeclaration)
  | host (path : HostPath) (fault : HostFault)
  deriving DecidableEq, Repr

namespace LoadError

def message : LoadError → String
  | document file error => s!"Invalid TOML in {file}: {error.message}"
  | table file index fault => s!"Invalid resource #{index} in {file}: {fault.message}"
  | declaration file index cause => s!"Invalid resource #{index} in {file}: {cause.message}"
  | host path fault => s!"IO error reading {path}: {fault}"

/-- The wording of what lies beneath an error, if that has a wording of its own. -/
def cause? : LoadError → Option String
  | declaration _ _ cause => some cause.message
  | host _ fault => some fault.message
  | document .. | table .. => none

end LoadError

/-- The value of the document at a path. -/
def Tree.document {α : Type} (t : Tree) (decode : Decoder α) (path : HostPath) : Except LoadError α := do
  let source ← (t.readText path).mapError (.host path)
  (decodeDocument decode source).mapError (.document path.text)

end Provision
