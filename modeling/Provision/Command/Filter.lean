import Provision.Note
import Provision.Octets
import Provision.Separated
import Provision.Text.Blank
import Provision.Text.Digits
import Provision.Text.Expression
import Provision.Text.Letters

/-! # Which notes are shown

A filter is a list of directives, each a level for the topics whose path begins in some way. A directive may
also ask for a part that a note must have, for a value of such a part, or for something named in the course of
which the note is made. Of the directives that concern a note the most specific one counts.

* `Directive.Outline` — how a directive is written; `Directive.parse?` — the directive that a text spells.
* `Filter.parse?` — the filter that a text spells; `Filter.choose` — the filter of a run.
* `Filter.shows` — whether a note passes.
-/

namespace Provision

/-- The path of a topic, as directives name it. -/
def Topic.path : Topic → String
  | console => "confbundler::logging::logger"
  | stage => "confbundler::stage"
  | manifest => "confbundler::config::manifest"
  | host => "confbundler::config::host"
  | merge => "confbundler::graph::builder"
  | sequence => "confbundler::graph::resolve"
  | compilation => "confbundler::compiler"
  | archive => "confbundler::backend::archive"

/-- What a directive asks of a note, beside its topic. -/
inductive Requirement where
  | nothing
  /-- A part of some name. Notes have one part, their message. -/
  | part (name : String)
  /-- Something named in the course of which it is made, or a part with a value to compare with. No note has
      either. -/
  | more
  deriving DecidableEq, Repr

/-- Whether notes fulfil it. -/
def Requirement.isMet : Requirement → Bool
  | nothing => true
  | part name => name = "message"
  | more => false

/-- A level for the notes that it concerns. -/
structure Directive where
  /-- How the paths of the topics begin; any topic, if nothing is said. -/
  target : Option String
  requirement : Requirement
  /-- The highest rank that is shown. -/
  rank : Nat
  deriving DecidableEq, Repr

namespace Directive

/-! ## Levels -/

/-- The ranks by the names of their levels. -/
def rankNames : List (String × Nat) :=
  [("off", 0), ("error", 1), ("warn", 2), ("info", 3), ("debug", 4), ("trace", 5)]

/-- The rank at which all is shown. -/
def highestRank : Nat := 5

/-- The rank that a text names, by number or name. -/
def rank? (text : String) : Option Nat :=
  ((Text.decimal? text).filter (· ≤ highestRank)).or
    (rankNames.lookup (String.ofList (text.toList.map Char.toLower)))

/-! ## Outlines -/

/-- A stretch of a text: how many octets there are before its start and before its end. -/
structure Stretch where
  start : Nat
  stop : Nat
  deriving DecidableEq, Repr

/-- How many octets characters take. -/
def width (cs : List Char) : Nat := (utf8 (String.ofList cs)).length

/-- Where the parts of a directive stand. -/
inductive Outline where
  /-- A level or a target alone. -/
  | bare
  /-- A target, a scope and a field in brackets, and a level, each as far as there is one. The level goes on
      to the end of the text. -/
  | parts (target scope field : Option Stretch) (level : Option Nat)
  deriving DecidableEq, Repr

/-- Where the level starts, behind a bracket after so many octets, if the directive is well-formed. -/
def levelAfter (start : Nat) : List Char → Option (Option Nat)
  | [] => some none
  | '=' :: _ => some (some (start + 1))
  | _ => none

/-- The outline of a directive with a bracket after so many octets. A field is in braces, alone or after the
    name of a scope. -/
def bracketed? (target : Option Stretch) (start : Nat) (rest : List Char) : Option Outline :=
  let scope := rest.takeWhile fun c => c ≠ ']' && c ≠ '\x7b'
  let stop := start + width scope
  match rest.drop scope.length with
  | ']' :: rest => (levelAfter (stop + 1) rest).map (.parts target (some ⟨start, stop⟩) none)
  | _ :: rest =>
    let field := rest.takeWhile (· ≠ '\x7d')
    match field, rest.drop field.length with
    | _ :: _, '\x7d' :: ']' :: rest =>
      let scope := if scope.isEmpty then none else some ⟨start, stop⟩
      let fieldStop := stop + 1 + width field
      (levelAfter (fieldStop + 2) rest).map (.parts target scope (some ⟨stop + 1, fieldStop⟩))
    | _, _ => none
  | [] => none

/-- Whether a directive may start with a character. -/
def opens (c : Char) : Bool := c ∈ ['[', '-', ':', '_'] || Text.isAlphanumeric c

/-- The outline of a directive, if it is well-formed. -/
def outline? (cs : List Char) : Option Outline :=
  let name := cs.takeWhile fun c => c ≠ '=' && c ≠ '['
  let stop := width name
  if !(cs.head?.any opens) then none
  else match cs.drop name.length with
    | [] => some .bare
    | '=' :: _ => some (.parts (some ⟨0, stop⟩) none none (some (stop + 1)))
    | _ :: rest => bracketed? (if name.isEmpty then none else some ⟨0, stop⟩) (stop + 1) rest

/-! ## Reading -/

/-- A stretch of a text; its ends must not divide characters. -/
def Stretch.of? (text : String) (stretch : Stretch) : Option String :=
  textOf? (((utf8 text).take stretch.stop).drop stretch.start)

/-- Whether a text can be the value of a part: any number is one, else it is a regular expression. -/
def isValue (text : List Char) : Bool :=
  Text.isSignedNumber text || Text.Expression.isWellFormed (String.ofList text)

/-- What a field asks for: a part, or its value after an equals sign. -/
def fieldRequirement? (field : String) : Option Requirement :=
  match pieces '=' field.toList with
  | _ :: value :: _ => if isValue value then some .more else none
  | _ => some (.part field)

/-- What a scope and a field ask for. -/
def requirement? (scope field : Option String) : Option Requirement :=
  match scope, field with
  | none, none => some .nothing
  | none, some field => fieldRequirement? field
  | some _, none => some .more
  | some _, some field => (fieldRequirement? field).map fun _ => .more

/-- The rank that stands after some octets; all is shown if there is none. -/
def rankAfter? (text : String) (start : Nat) : Option Nat := do
  let level ← Stretch.of? text ⟨start, (utf8 text).length⟩
  if level.isEmpty then some highestRank else rank? level

/-- The directive that a text spells. Blanks are overlooked at its start and its end when its parts are
    looked for, but not when they are cut out: with blanks in front each part is so many octets off. -/
def parse? (text : String) : Option Directive := do
  match ← outline? (Text.trimBlanks text.toList) with
  | .bare =>
    match rank? text with
    | some rank => return ⟨none, .nothing, rank⟩
    | none => return ⟨some text, .nothing, highestRank⟩
  | .parts target scope field level =>
    let target ← target.mapM (Stretch.of? text)
    let requirement ← requirement? (← scope.mapM (Stretch.of? text)) (← field.mapM (Stretch.of? text))
    return ⟨target, requirement, ← level.elim (some highestRank) (rankAfter? text)⟩

end Directive

/-- Directives in the order in which they are given. -/
abbrev Filter := List Directive

namespace Filter

/-! ## Reading -/

/-- The filter that a text spells: directives between commas. Without any nothing is shown. -/
def parse? (text : String) : Option Filter :=
  ((pieces ',' text.toList).filter fun piece => !piece.isEmpty).mapM (Directive.parse? <| String.ofList ·)

/-- The filter of a run: the one that is asked for, if it makes sense, else one that shows progress, or
    details of it too. -/
def choose (asked : Option String) (verbose : Bool) : Filter :=
  (asked.bind parse?).getD [⟨none, .nothing, if verbose then Level.debug.rank else Level.info.rank⟩]

/-! ## Use -/

/-- Whether a directive concerns the notes of a topic. -/
def concerns (topic : Topic) (d : Directive) : Bool :=
  d.requirement.isMet && d.target.all (topic.path.startsWith ·)

/-- How specific a directive is: by the length of its target, then by whether it requires anything. -/
def specificity (d : Directive) : Nat :=
  2 * (d.target.map fun target => (utf8 target).length + 1).getD 0
    + (if d.requirement = .nothing then 0 else 1)

/-- The more specific of two directives, the later if they are equally so. -/
def moreSpecific (best : Option Directive) (d : Directive) : Option Directive :=
  match best with
  | some b => if specificity d < specificity b then some b else some d
  | none => some d

/-- Whether a note passes. -/
def shows (f : Filter) (n : Note) : Bool :=
  match (f.filter (concerns n.topic)).foldl moreSpecific none with
  | some d => n.level.rank ≤ d.rank
  | none => false

end Filter

end Provision
