import Provision.Text.Binary64

/-! # TOML items

What a document holds. Each item and each key knows where it starts in the source, so that a complaint
about it can point there.

* `Item` — values, tables and arrays of tables.
* `TableForm` — how a table came about, which decides who may add to it.
* `Item.start?` — where an item starts; tables that no one wrote down start nowhere.
-/

namespace Provision.Toml

/-- A key and the offset at which it stands. -/
structure Key where
  text : String
  start : Nat
  deriving DecidableEq, Repr

/-- How a table came about. -/
inductive TableForm where
  /-- By a header of its own, or as the document itself. -/
  | header (start : Nat)
  | above
  | dotted
  /-- By braces. -/
  | inline (start : Nat)
  /-- By a dotted key between braces. -/
  | inlineDotted
  deriving DecidableEq, Repr

/-- What a key stands for. -/
inductive Item where
  | string (start : Nat) (value : String)
  | integer (start : Nat) (value : Int)
  | float (start : Nat) (value : Binary64)
  | boolean (start : Nat) (value : Bool)
  /-- A date, a time, or both, in its normal spelling. -/
  | datetime (start : Nat) (text : String)
  | array (start : Nat) (items : List Item)
  | table (form : TableForm) (entries : List (Key × Item))
  /-- An array of tables that each have a header. -/
  | tables (elements : List Item)

/-- The entries of a table, in the order of the source. -/
abbrev Entries := List (Key × Item)

/-- Where a table starts, if it was written down. -/
def TableForm.start? : TableForm → Option Nat
  | header start | inline start => some start
  | above | dotted | inlineDotted => none

/-- Where an item starts; an array of tables starts where its first table does. -/
def Item.start? : Item → Option Nat
  | string start _ | integer start _ | float start _ | boolean start _ | datetime start _
  | array start _ => some start
  | table form _ => form.start?
  | tables elements => match elements with
    | .table form _ :: _ => form.start?
    | _ => none

namespace Entries

def item? (entries : Entries) (key : String) : Option Item :=
  (List.find? (fun e => e.1.text = key) entries).map (·.2)

/-- The entries with another item under a key that they have. -/
def replaced (entries : Entries) (key : String) (item : Item) : Entries :=
  entries.map fun e => if e.1.text = key then (e.1, item) else e

def erased (entries : Entries) (key : String) : Entries :=
  List.filter (fun e => e.1.text ≠ key) entries

end Entries

end Provision.Toml
