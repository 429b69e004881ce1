import Provision.Merge.Graph

/-! # Sequences

A sequence lists the nodes of a graph so that each comes after all that it depends on; where several
could come next, the least path does.

* `Node.waitsFor` — the dependency relation.
* `Queue.run` — placing nodes: each node counts the nodes that it still waits for, and of those that
  wait for none the least path is placed next.
* `Graph.sequence` — the sequence of a graph, or the paths on its cycles.
* `Sequence.trapped` — the nodes that remain when all that nothing waits for is taken away, again and
  again.
-/

namespace Provision

/-- Whether a node depends on another. -/
def Node.waitsFor (n m : Node) : Bool := m.path ∈ n.dependencies.keys

/-- Nodes in the order in which they are to be applied. -/
structure Sequence where
  nodes : List Node
  warnings : List Warning

/-- Paths that wait for each other. -/
structure Cycle where
  paths : List TargetPath
  deriving DecidableEq

def Cycle.message (c : Cycle) : String :=
  "dependency cycle detected between: " ++ ", ".intercalate (c.paths.map TargetPath.text)

/-! ## Placing -/

/-- The nodes that are not placed, and what they wait for. -/
structure Queue where
  /-- The nodes that are not placed. -/
  slots : SortedMap TargetPath Node TargetPath.order
  /-- How many of the nodes that a node depends on are not placed. -/
  counts : SortedMap TargetPath Nat TargetPath.order
  /-- The paths of those that wait for none. -/
  ready : PathSet

namespace Queue

/-- How many nodes a node depends on. A dependency that no node has for a path counts for nothing. -/
def inDegree (nodes : List Node) (n : Node) : Nat :=
  (n.dependencies.keys.filter fun path => nodes.any (·.path = path)).length

/-- The paths of the nodes that depend on a path. -/
def dependents (nodes : List Node) (path : TargetPath) : List TargetPath :=
  (nodes.filter fun n => path ∈ n.dependencies.keys).map (·.path)

/-- The queue with no node placed. -/
def start (nodes : List Node) : Queue where
  slots := .ofList (nodes.map fun n => (n.path, n))
  counts := .ofList (nodes.map fun n => (n.path, inDegree nodes n))
  ready := .ofList ((nodes.filter fun n => inDegree nodes n = 0).map fun n => (n.path, ()))

/-- One node fewer that a path waits for; it is ready when there are none left. -/
def release (q : Queue) (path : TargetPath) : Queue :=
  match q.counts.find? path with
  | none => q
  | some count =>
    { q with
      counts := q.counts.insert path (count - 1)
      ready := if count - 1 = 0 ∧ q.slots.contains path then q.ready.insert path () else q.ready }

@[simp]
theorem release_slots (q : Queue) (path : TargetPath) : (q.release path).slots = q.slots := by
  unfold release
  split <;> rfl

@[simp]
theorem foldl_release_slots (q : Queue) (paths : List TargetPath) :
    (paths.foldl release q).slots = q.slots := by
  induction paths generalizing q with
  | nil => rfl
  | cons path paths ih => simp [ih]

/-- Place the least path that is ready, and again until none is. The nodes placed, and the queue with
    those that are left. -/
def run (dependents : TargetPath → List TargetPath) (q : Queue) : List Node × Queue :=
  match _hready : q.ready.pop? with
  | none => ([], q)
  | some ((path, ()), ready) =>
    match _hslot : q.slots.find? path with
    | none => run dependents { q with ready }
    | some n =>
      let (rest, left) := run dependents
        ((dependents path).foldl release { q with slots := q.slots.erase path, ready })
      (n :: rest, left)
termination_by (q.slots.size, q.ready.size)
decreasing_by
  · exact Prod.Lex.right _ (SortedMap.size_lt_of_pop? _hready)
  · refine Prod.Lex.left _ _ ?_
    rw [foldl_release_slots]
    exact SortedMap.size_erase_lt _hslot

end Queue

namespace Sequence

/-! ## Cycles -/

/-- Whether some of the nodes wait for a node. -/
def isAwaited (remaining : List Node) (n : Node) : Bool := remaining.any (·.waitsFor n)

/-- The nodes that lie on a cycle or between cycles. -/
def trapped (remaining : List Node) : List Node :=
  let awaited := remaining.filter (isAwaited remaining)
  if _h : awaited.length < remaining.length then trapped awaited else remaining
termination_by remaining.length
decreasing_by
  have := _h
  simpa [awaited] using this

def position? (s : Sequence) (path : TargetPath) : Option Nat :=
  s.nodes.findIdx? (·.path = path)

def provenance (s : Sequence) (path : TargetPath) : List Provenance :=
  ((s.nodes.find? (·.path = path)).map (·.provenance)).getD []

end Sequence

def Graph.sequence (g : Graph) : Except Cycle Sequence :=
  let (placed, left) := (Queue.start g.nodes).run (Queue.dependents g.nodes)
  if placed.length = g.nodes.length then .ok ⟨placed, g.warnings⟩
  else .error ⟨(Sequence.trapped left.slots.values).map (·.path)⟩

end Provision
