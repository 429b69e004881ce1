import Provision.Host.Pattern
import Provision.Host.Tree

/-! # Searching the tree

The paths beneath a directory whose way from there fits a pattern.

* `Tree.search` — every match of a pattern beneath a directory, by its way from there.
* `SearchFault` — why a search fails, with its wording.
-/

namespace Provision

/-- Why a search fails. -/
inductive SearchFault where
  | pattern (pattern : String) (fault : PatternFault)
  /-- A path that should be text is none. -/
  | notText (path : HostPath)
  /-- A match that does not lie beneath the directory, as it is spelled. -/
  | outside (path : HostPath)
  | host (path : HostPath) (fault : HostFault)
  deriving DecidableEq, Repr

namespace Search

/-- A path that the search came to. -/
structure Place where
  path : HostPath
  isDirectory : Bool
  deriving DecidableEq, Repr

/-- What the search came upon: a match, or a directory that cannot be listed. -/
abbrev Found := Except (HostPath × HostFault) HostPath

/-- A path as a place. -/
def placeOf (t : Tree) (p : HostPath) : Place := ⟨p, t.isDirectory p⟩

/-- The path of a name in a place; names in the directory at hand stand for themselves. -/
def beneath (place : Place) (name : Octets) : HostPath :=
  if place.path.isHere then ⟨name⟩ else place.path.join ⟨name⟩

/-- An entry of a place; only links have to be looked up. -/
def entryOf (t : Tree) (place : Place) (name : Octets) (i : Inode) : Place :=
  match i.matter with
  | .symlink _ => placeOf t (beneath place name)
  | _ => ⟨beneath place name, i.isDirectory⟩

/-- Whether a path leads anywhere, be it to a link that leads nowhere. -/
def isThere (t : Tree) (p : HostPath) : Bool := t.exists? p || (t.linkStatus p).toBool

/-- The names for the directory itself and the one above, as far as a pattern asks for them: it has to
    start with a dot. -/
def dotNames (pattern : Pattern) : List Octets :=
  if pattern.parts.head? = some (.char '.') then
    [upName, selfName].filter fun name => pattern.admits (displayText name).toList
  else []

/-- A match that needs no further look. -/
def settled (needsDirectory : Bool) (place : Place) : List Found :=
  if needsDirectory && !place.isDirectory then [] else [.ok place.path]

/-- The matches at a place that one pattern leads to, given how to go on from there. -/
def arrive (needsDirectory : Bool) (next : List Pattern → Place → List Found) (rest : List Pattern)
    (place : Place) : List Found :=
  if rest.isEmpty then settled needsDirectory place else next rest place

/-- The matches at a place of a directory listing: its name has to fit the first pattern. -/
def named (needsDirectory : Bool) (next : List Pattern → Place → List Found) (patterns : List Pattern)
    (place : Place) : List Found :=
  match patterns, place.path.fileName?.bind textOf? with
  | pattern :: rest, some name =>
    if pattern.admits name.toList then arrive needsDirectory next rest place else []
  | _, _ => []

/-- The matches at a place of a directory listing, and in it if the patterns start with any number of
    directories. -/
def visit (needsDirectory : Bool) (next : List Pattern → Place → List Found) (patterns : List Pattern)
    (place : Place) : List Found :=
  match patterns with
  | [] => []
  | pattern :: rest =>
    if !pattern.isAnyDepth then named needsDirectory next patterns place
    else
      let after := rest.dropWhile (·.isAnyDepth)
      let inside := if place.isDirectory then next (pattern :: after) place else []
      if !after.isEmpty then named needsDirectory next after place ++ inside
      else if place.isDirectory then .ok place.path :: inside
      else inside

/-- The matches beneath a place. A pattern without wildcards is looked up, any other is held against
    the names in the place; `depth` bounds how far down this goes. -/
def descend (t : Tree) (needsDirectory : Bool) : Nat → List Pattern → Place → List Found
  | 0, _, _ | _, [], _ => []
  | depth + 1, pattern :: rest, place =>
    let next := descend t needsDirectory depth
    match pattern.literal? with
    | some name =>
      let name := utf8 (String.ofList name)
      let path := beneath place name
      let isFound := if name = selfName ∨ name = upName then place.isDirectory else isThere t path
      if isFound then arrive needsDirectory next rest (placeOf t path) else []
    | none =>
      if !place.isDirectory then [] else
      match t.list place.path with
      | .error fault => [.error (place.path, fault)]
      | .ok entries =>
        (dotNames pattern).flatMap (fun name =>
          arrive needsDirectory next rest (placeOf t (place.path.join ⟨name⟩)))
        ++ entries.flatMap fun (name, i) =>
          visit needsDirectory next (pattern :: rest) (entryOf t place name i)

/-- Deeper than any path that can be looked up and any pattern leads. -/
def depthFor (patterns : List Pattern) : Nat := Tree.longPath + patterns.length

/-- The patterns between separators; the one at the end counts only if there is something after it. -/
def patternsOf (text : List Char) : Except PatternFault (List Pattern) :=
  let parts := pieces '/' text
  (if parts.getLast? = some [] ∧ parts.length > 1 then parts.dropLast else parts).mapM Pattern.parse

/-- Everything in a tree that fits a pattern, in the order in which it is come upon. -/
def found (t : Tree) (text : List Char) : Except PatternFault (List Found) := do
  let _ ← Pattern.parse text
  let isAbsolute := text.head? = some '/'
  let patterns ← patternsOf (if isAbsolute then text.tail else text)
  let start := if isAbsolute then HostPath.mk [slash] else ⟨selfName⟩
  return descend t (text.getLast? = some '/') (depthFor patterns) patterns (placeOf t start)

/-- The way from a directory to a path, as a text. -/
def way (root path : HostPath) : Except SearchFault String :=
  match path.from? root with
  | none => .error (.outside path)
  | some components =>
    match components.mapM textOf? with
    | none => .error (.notText path)
    | some names => .ok ("/".intercalate names)

/-- A match with its way from the directory. -/
def placed (root : HostPath) : Found → Except SearchFault (String × HostPath)
  | .error (path, fault) => .error (.host path fault)
  | .ok path => return (← way root path, path)

/-- The text that is searched for: the directory stands for itself. -/
def fullPattern (root pattern : String) : List Char :=
  Pattern.escape ((root.toList.reverse.dropWhile (· = '/')).reverse) ++ '/' ::
    pattern.toList.dropWhile (· = '/')

end Search

/-- The matches of a pattern beneath a directory: each by its way from there, which is also their order,
    and its path. The directory itself is none. -/
def Tree.search (t : Tree) (root : HostPath) (pattern : String) :
    Except SearchFault (List (String × HostPath)) :=
  match textOf? root.octets with
  | none => .error (.notText root)
  | some rootText => do
    let found ← (Search.found t (Search.fullPattern rootText pattern)).mapError (.pattern pattern)
    let matched ← found.mapM (Search.placed root)
    return (matched.filter fun m => !m.1.isEmpty).mergeSort fun a b => (byteOrder a.1 b.1).isLE

end Provision
