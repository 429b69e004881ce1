import Provision.Manifest
import Provision.Output.Rendering

/-! # Compilation

Declarations to output: merge, order, render.

* `resolve` — the sequence of a list of declarations.
* `compile` — the output with its fingerprint; `compileTo` — the output written to a sink.
* `CompileError` — what stops it, in the words of the stage that was stopped.
-/

namespace Provision

/-- What stops a compilation. -/
inductive CompileError where
  | conflict (conflict : Conflict)
  | dangling (dangling : Dangling)
  | cycle (cycle : Cycle)
  | backend (error : BackendError)
  deriving DecidableEq

def CompileError.message : CompileError → String
  | .conflict c => "Conflict: " ++ c.message
  | .dangling d => "Graph error: " ++ d.message
  | .cycle c => "Ordering error: " ++ c.message
  | .backend e => "Backend error: " ++ e.message

/-- The error of a compilation that the merge stops. -/
def MergeError.compileError : MergeError → CompileError
  | .conflict c => .conflict c
  | .dangling d => .dangling d

/-- What a compilation yields. -/
structure Artifact where
  bytes : Octets
  fingerprint : String
  warnings : List Warning

/-- What is reported of an output that went to a sink. -/
structure CompileReport where
  entries : Nat
  warnings : List Warning

def resolve (strictness : Strictness) (declarations : List Declaration) :
    Except CompileError Sequence :=
  match Graph.build strictness declarations with
  | .error e => .error e.compileError
  | .ok graph => graph.sequence.mapError .cycle

def compile (strictness : Strictness) (backend : Backend) (declarations : List Declaration) :
    Except CompileError Artifact :=
  match resolve strictness declarations with
  | .error e => .error e
  | .ok s =>
    match backend.bytes s with
    | .error e => .error (.backend e)
    | .ok bytes => .ok ⟨bytes, fingerprint bytes, s.warnings⟩

/-- The output of a list of declarations, written to a sink. -/
def compileTo (strictness : Strictness) (backend : Backend) (declarations : List Declaration)
    (sink : Sink) : Sink × Except CompileError CompileReport :=
  match resolve strictness declarations with
  | .error e => (sink, .error e)
  | .ok s =>
    match backend.render s sink with
    | (sink, .error e) => (sink, .error (.backend e))
    | (sink, .ok ()) => (sink, .ok ⟨s.nodes.length, s.warnings⟩)

/-- The declarations of manifests, one manifest after the other. -/
def declarationsOf (manifests : List Manifest) : List Declaration :=
  manifests.flatMap (·.declarations)

end Provision
