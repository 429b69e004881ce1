import Provision.Compilation
import Provision.Note

/-! # The progress of a compilation

What is said while declarations become output. It follows from the declarations alone, so it is computed
beside the output and has no part in it.

* `tracedCompile` — the output of `compile`, with the notes.
-/

namespace Provision

/-- The builder after all declarations, or before the first that is refused. -/
def Builder.addAccepted (b : Builder) : List Declaration → Builder
  | [] => b
  | d :: rest =>
    match b.add d with
    | (b', none) => b'.addAccepted rest
    | (_, some _) => b

namespace Progress

/-- A note for those who look closely. -/
def detail (topic : Topic) (text : String) : Note := ⟨.debug, topic, text⟩

/-- The warnings, as they come up. -/
def warnings (strictness : Strictness) (declarations : List Declaration) : List Note :=
  ((Builder.new strictness).addAccepted declarations).warnings.map fun w => detail .merge w.text

/-- An entry and one of the paths above it. -/
structure Ascent where
  climber : Climber
  ancestor : TargetPath

/-- An entry with every path above it, nearest first. -/
def ascentsOf (climber : Climber) : List Ascent := climber.path.ancestors.map (⟨climber, ·⟩)

/-- Every entry in path order with every path above it. -/
def ascents (drafts : Drafts) : List Ascent := drafts.climbers.flatMap ascentsOf

/-- The conflict of an ascent: only directories can contain something. -/
def conflict? (drafts : Drafts) (a : Ascent) : Option Conflict :=
  match (drafts.find? a.ancestor).map Draft.standing with
  | some (.entry spec first) =>
    if spec.kind = .directory then none
    else some ⟨a.climber.path, first, a.climber.declaredBy, .notADirectory a.ancestor spec.kind⟩
  | some (.removed first) =>
    some ⟨a.climber.path, first, a.climber.declaredBy, .declaredAfterRemoval .directory⟩
  | _ => none

/-- What is said of a path above an entry: it is filled in, or becomes a directory by being adjusted. -/
def filled? (drafts : Drafts) (path : TargetPath) : Option Note :=
  match (drafts.find? path).map Draft.standing with
  | none => some (detail .merge s!"synthesizing implicit directory {path}")
  | some .pending => some (detail .merge s!"adjusted path {path} becomes an implicit directory")
  | some _ => none

/-- The directories that are filled in, each when the first entry beneath it asks for it, up to the first
    fault of the hierarchy. -/
def directories (drafts : Drafts) : List Note :=
  (((ascents drafts).takeWhile fun a => (conflict? drafts a).isNone).map (·.ancestor)).eraseDups.filterMap
    (filled? drafts)

/-- The members of an archive, as they are written. -/
def members (backend : Backend) (s : Sequence) : List Note :=
  match backend, backend.fault? s with
  | .archive _, none => (Backend.members s).map fun (node, spec) =>
    detail .archive s!"archive entry {Member.nameOf node.path spec.entry}"
  | _, _ => []

/-- The rendering of a sequence. -/
def rendering (backend : Backend) (s : Sequence) : List Note :=
  [detail .sequence s!"resolved {s.nodes.length} node(s)",
    detail .compilation s!"rendering {s.nodes.length} node(s) with the {backend.name} backend"]
  ++ members backend s

/-- All that is said. -/
def compilation (strictness : Strictness) (backend : Backend) (declarations : List Declaration) :
    List Note :=
  warnings strictness declarations
  ++ (match (Builder.new strictness).addAll declarations with
    | .ok b => directories b.drafts
    | .error _ => [])
  ++ (match resolve strictness declarations with
    | .ok s => rendering backend s
    | .error _ => [])

end Progress

/-- The output of a list of declarations, with what is said about it. -/
def tracedCompile (strictness : Strictness) (backend : Backend) (declarations : List Declaration) :
    Traced CompileError Artifact :=
  ⟨Progress.compilation strictness backend declarations, compile strictness backend declarations⟩

end Provision
