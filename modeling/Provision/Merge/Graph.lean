import Provision.Merge.Builder

/-! # The merged graph

Finishing a merge turns drafts into nodes: directories that nobody declared but that entries need are
filled in, the hierarchy and the requirements are checked, and adjustments are laid over what they
adjust.

* `Drafts.climb` — the directories above one entry; `Drafts.filledIn` — above all of them.
* `Drafts.nodes` — the nodes, one per path, in path order.
* `Drafts.finish` — drafts to graph.
* `Graph.build` — declarations to graph.
-/

namespace Provision

/-- A set of paths. -/
abbrev PathSet := SortedMap TargetPath Unit TargetPath.order

/-- What a node stands for. -/
inductive NodeState where
  /-- A declared entry, with the permission-sets laid over it. -/
  | declared (spec : EntrySpec)
  /-- A directory that is needed but not declared, with the permission-sets at its path. -/
  | implicit (permissions : Permissions)
  | absent
  deriving DecidableEq

/-- The entry to create, if there is one. -/
def NodeState.entry? : NodeState → Option EntrySpec
  | .declared spec => some spec
  | .implicit permissions => some { EntrySpec.bare .directory with permissions }
  | .absent => none

def NodeState.kind : NodeState → Kind
  | .declared spec => spec.kind
  | .implicit _ => .directory
  | .absent => .absent

/-- What is to be at one path. -/
structure Node where
  path : TargetPath
  state : NodeState
  xattrs : SortedMap String Octets byteOrder
  /-- The paths that must be there first. -/
  dependencies : PathSet
  provenance : List Provenance
  /-- The position of the first of them in the whole input. -/
  order : Nat

def Node.kind (n : Node) : Kind := n.state.kind

/-- Whether the node is a directory that nobody declared. -/
def Node.isImplicit (n : Node) : Bool := n.state matches .implicit _

def Node.isRemoval (n : Node) : Bool := n.state matches .absent

/-- Nodes with ascending paths. -/
structure Graph where
  nodes : List Node
  ascending : (nodes.map (·.path)).Pairwise fun p q => TargetPath.order p q = .lt
  warnings : List Warning

namespace Draft

/-- Whether an entry is here, or a directory that entries need. -/
def isPresent (draft : Draft) : Bool :=
  match draft.standing with
  | .entry .. | .implicit => true
  | _ => false

/-- The permissions of all permission-sets. -/
def overlay (draft : Draft) : Permissions :=
  (draft.adjustment.map (·.permissions)).getD .none

/-- What a draft comes to; nothing, if it only adjusts what is not there. -/
def state? (draft : Draft) : Option NodeState :=
  match draft.standing with
  | .entry spec _ =>
    some (.declared { spec with permissions := spec.permissions.overlaid draft.overlay })
  | .implicit => some (.implicit draft.overlay)
  | .removed _ => some .absent
  | .pending => none

end Draft

/-- A declared entry, as the walk to the root starts from it. -/
structure Climber where
  path : TargetPath
  declaredBy : Provenance
  order : Nat

namespace Drafts

/-! ## The hierarchy -/

/-- The declared entries in path order. -/
def climbers (drafts : Drafts) : List Climber :=
  drafts.entries.filterMap fun (path, draft) =>
    match draft.standing with
    | .entry _ source => some ⟨path, source, draft.order⟩
    | _ => none

/-- Bring into being the directories above an entry, nearest first, up to one that is there. Only
    directories can contain something. -/
def climb (climber : Climber) (drafts : Drafts) : List TargetPath → Except Conflict Drafts
  | [] => .ok drafts
  | ancestor :: rest =>
    match drafts.find? ancestor with
    | none =>
      climb climber
        (drafts.insert ancestor { Draft.fresh climber.order with standing := .implicit }) rest
    | some draft =>
      match draft.standing with
      | .entry spec first =>
        if spec.kind = .directory then .ok drafts
        else .error
          ⟨climber.path, first, climber.declaredBy, .notADirectory ancestor spec.kind⟩
      | .implicit => .ok drafts
      | .removed first =>
        .error ⟨climber.path, first, climber.declaredBy, .declaredAfterRemoval .directory⟩
      | .pending =>
        climb climber (drafts.insert ancestor { draft with standing := .implicit }) rest

/-- The drafts with the directories above some entries, one entry after the other. -/
def climbAll (drafts : Drafts) : List Climber → Except Conflict Drafts
  | [] => .ok drafts
  | climber :: rest =>
    match drafts.climb climber climber.path.ancestors with
    | .error conflict => .error conflict
    | .ok drafts => climbAll drafts rest

/-- A root that is only adjusted is a directory, whether or not entries need it. -/
def rooted (drafts : Drafts) : Drafts :=
  match drafts.find? .root with
  | some draft =>
    if draft.standing = .pending then drafts.insert .root { draft with standing := .implicit }
    else drafts
  | none => drafts

/-- The drafts with all directories that entries need. -/
def filledIn (drafts : Drafts) : Except Conflict Drafts :=
  (drafts.climbAll drafts.climbers).map rooted

/-! ## Nodes -/

/-- Whether something is created at a path. -/
def creates (drafts : Drafts) (path : TargetPath) : Bool :=
  (drafts.find? path).any Draft.isPresent

/-- The first requirement in path order that nothing meets. -/
def missing? (drafts : Drafts) : Option Dangling :=
  drafts.entries.findSome? fun (path, draft) =>
    draft.requires.findSome? fun (required, source) =>
      if drafts.creates required then none else some (.missingDependency path required source)

/-- The required paths of a draft, and the containing directory if it has a draft. -/
def dependencies (drafts : Drafts) (path : TargetPath) (draft : Draft) : PathSet :=
  let required := draft.requires.foldl (fun m (p, _) => m.insert p ()) ∅
  match path.parent? with
  | some parent => if drafts.contains parent then required.insert parent () else required
  | none => required

def node (drafts : Drafts) (path : TargetPath) (draft : Draft) : Except Dangling Node :=
  match draft.state? with
  | none => .error (.unresolvedTarget path (draft.provenance.headD ⟨"", draft.order⟩))
  | some state => .ok
    { path, state
      xattrs := draft.xattrs.mapValues fun _ v => v.1
      dependencies := drafts.dependencies path draft
      provenance := draft.provenance
      order := draft.order }

theorem node_path {drafts : Drafts} {path : TargetPath} {draft : Draft} {n : Node}
    (h : drafts.node path draft = .ok n) : n.path = path := by
  unfold node at h
  split at h
  · cases h
  · cases h; rfl

/-- The nodes of a list of drafts, or the first that comes to nothing. -/
def nodes (drafts : Drafts) : (l : List (TargetPath × Draft)) →
    Except Dangling { r : List Node // r.map (·.path) = l.map (·.1) }
  | [] => .ok ⟨[], rfl⟩
  | (path, draft) :: rest =>
    match h : drafts.node path draft, drafts.nodes rest with
    | .error e, _ => .error e
    | .ok _, .error e => .error e
    | .ok n, .ok ns => .ok ⟨n :: ns.1, by simp [node_path h, ns.2]⟩

/-- The graph of drafts with all directories filled in: requirements are checked first, then
    adjustments. -/
def graph (drafts : Drafts) (warnings : List Warning) : Except Dangling Graph :=
  match drafts.missing? with
  | some dangling => .error dangling
  | none =>
    match drafts.nodes drafts.entries with
    | .error dangling => .error dangling
    | .ok ⟨nodes, h⟩ =>
      .ok ⟨nodes, by rw [h]; exact List.pairwise_map.2 drafts.sorted, warnings⟩

/-- The graph of drafts; the hierarchy is checked before all else. -/
def finish (drafts : Drafts) (warnings : List Warning) : Except MergeError Graph :=
  match drafts.filledIn with
  | .error conflict => .error (.conflict conflict)
  | .ok drafts => (drafts.graph warnings).mapError .dangling

end Drafts

def Builder.finish (b : Builder) : Except MergeError Graph :=
  Drafts.finish b.drafts b.warnings

namespace Graph

def build (strictness : Strictness) (declarations : List Declaration) : Except MergeError Graph :=
  match (Builder.new strictness).addAll declarations with
  | .error conflict => .error (.conflict conflict)
  | .ok builder => builder.finish

def find? (g : Graph) (path : TargetPath) : Option Node := g.nodes.find? (·.path = path)

def provenance (g : Graph) (path : TargetPath) : List Provenance :=
  ((g.find? path).map (·.provenance)).getD []

end Graph

end Provision
