import Provision.Output.Sink
import Provision.Plan

/-! # Rendering a sequence

A backend turns a sequence into pieces of output, each of which belongs to a node or to the output as a
whole; a failing sink is reported for the owner of the piece that it refused.

* `Backend.check` — whether the backend can represent every node.
* `Backend.pieces` — the output in pieces; `Backend.bytes` — in one.
* `Backend.render` — the output written to a sink.
-/

namespace Provision

/-- The forms of a plan. -/
inductive PlanFormat where
  | text
  | json
  deriving DecidableEq, Repr

/-- What a sequence can be rendered as. -/
inductive Backend where
  | archive (options : ArchiveOptions)
  | plan (format : PlanFormat)
  deriving DecidableEq, Repr

/-- Why a sequence is not rendered. -/
inductive BackendError where
  /-- An archive cannot remove anything. -/
  | unsupported (path : TargetPath)
  /-- An archive has no room for this. -/
  | unencodable (path : TargetPath) (fault : EncodingFault)
  /-- The sink failed in the output of a node. -/
  | write (path : TargetPath) (cause : String)
  /-- The sink failed in what closes the output. -/
  | finish (cause : String)
  /-- The sink failed in the output of a document. -/
  | document (cause : String)
  deriving DecidableEq

namespace BackendError

def message : BackendError → String
  | unsupported path => s!"operation 'remove' at '{path}' is not supported by the archive backend"
  | unencodable path fault => s!"cannot encode '{path}': {fault.message}"
  | write path _ => s!"failed to write '{path}'"
  | finish _ => "failed to finish the output stream"
  | document _ => "failed to serialize output"

def cause? : BackendError → Option String
  | unsupported _ | unencodable .. => none
  | write _ cause | finish cause | document cause => some cause

end BackendError

/-- What a piece of output belongs to. -/
inductive Owner where
  | node (path : TargetPath)
  | closing
  | document
  deriving DecidableEq

/-- The error of a sink that fails in a piece. -/
def Owner.error (cause : String) : Owner → BackendError
  | node path => .write path cause
  | closing => .finish cause
  | document => .document cause

abbrev Pieces := List (Owner × Octets)

namespace Pieces

def octets (pieces : Pieces) : Octets := pieces.flatMap (·.2)

/-- Write piece after piece, up to the first failure. -/
def writeTo (sink : Sink) : Pieces → Sink × Except BackendError Unit
  | [] => (sink, .ok ())
  | (owner, octets) :: rest =>
    match sink.writeAll octets with
    | (sink, none) => writeTo sink rest
    | (sink, some cause) => (sink, .error (owner.error cause))

end Pieces

namespace Backend

def name : Backend → String
  | archive _ => "archive"
  | plan _ => "plan"

/-- The error of the first node that the backend cannot represent. -/
def fault? (backend : Backend) (s : Sequence) : Option BackendError :=
  match backend with
  | plan _ => none
  | archive _ => s.nodes.findSome? fun node =>
    if node.isRemoval then some (.unsupported node.path)
    else (Archive.fault? node).map (.unencodable node.path)

/-- Whether the backend can represent every node. -/
def check (backend : Backend) (s : Sequence) : Except BackendError Unit :=
  match backend.fault? s with
  | some e => .error e
  | none => .ok ()

/-- The members of an archive: every node that creates something, but a root without content of its
    own. -/
def members (s : Sequence) : List (Node × EntrySpec) :=
  s.nodes.filterMap fun node =>
    if Archive.skips node then none else node.state.entry?.map (node, ·)

def pieces (backend : Backend) (s : Sequence) : Pieces :=
  match backend with
  | archive options =>
    ((members s).flatMap fun (node, spec) =>
      (Member.pieces options node spec).map (Owner.node node.path, ·))
      ++ [(.closing, Archive.closing)]
  | plan .text => s.nodes.flatMap fun node =>
    (Plan.lines node).map fun line => (.node node.path, utf8 (line ++ "\n"))
  | plan .json => [(.document, utf8 (Plan.document s.nodes).pretty), (.closing, utf8 "\n")]

def bytes (backend : Backend) (s : Sequence) : Except BackendError Octets :=
  match backend.fault? s with
  | some e => .error e
  | none => .ok (backend.pieces s).octets

/-- The output written to a sink; nothing is written unless every node can be represented. -/
def render (backend : Backend) (s : Sequence) (sink : Sink) : Sink × Except BackendError Unit :=
  match backend.fault? s with
  | some e => (sink, .error e)
  | none => (backend.pieces s).writeTo sink

end Backend

end Provision
