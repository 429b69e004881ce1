import Provision.Toml.Item

/-! # Putting tables together

Headers and keys add to a document step by step. No key is defined twice, and a table that was closed
is not opened again by another kind of spelling.

* `Entries.within` — a change to the table that a path of keys leads to.
* `Entries.assign` — a value under a key, dotted or not.
* `Assembly` — a document and the table that is open in it.
-/

namespace Provision.Toml

/-- On what occasion keys lead into tables. -/
inductive Way where
  | header
  | value
  | inlineValue
  deriving DecidableEq, Repr

/-- The form of a table that is missing on the way. -/
def Way.form : Way → TableForm
  | header => .above
  | value => .dotted
  | inlineValue => .inlineDotted

/-- Whether the way may lead through a table: headers may pass any table outside braces, keys of values
    only such as no header or brace has defined. -/
def Way.mayPass : Way → TableForm → Bool
  | header, .header _ | header, .above | header, .dotted => true
  | value, .above | value, .dotted => true
  | inlineValue, .inlineDotted => true
  | _, _ => false

/-- Whether a dotted key made the table. -/
def TableForm.isDotted : TableForm → Bool
  | dotted | inlineDotted => true
  | _ => false

namespace Entries

/-- A change to the table at the end of a path. Missing tables on the way come to be; of an array of
    tables the last is entered. -/
def within {α : Type} (way : Way) (change : TableForm → Entries → Option (α × Entries)) :
    List Key → TableForm → Entries → Option (α × Entries)
  | [], form, entries => change form entries
  | key :: path, _, entries =>
    match entries.item? key.text with
    | none => do
      let (result, inner) ← within way change path way.form []
      return (result, entries ++ [(key, .table way.form inner)])
    | some (.table form inner) =>
      if way.mayPass form then do
        let (result, inner) ← within way change path form inner
        return (result, entries.replaced key.text (.table form inner))
      else none
    | some (.tables elements) =>
      match elements.getLast? with
      | some (.table form inner) => do
        let (result, inner) ← within way change path form inner
        return (result, entries.replaced key.text
          (.tables (elements.dropLast ++ [.table form inner])))
      | _ => none
    | some _ => none

/-- A value under a path of keys. A dotted path must not end in a table that was not made by one. -/
def assign (way : Way) (path : List Key) (key : Key) (value : Item) (form : TableForm)
    (entries : Entries) : Option Entries :=
  (within way (fun form inner =>
    if form.isDotted = path.isEmpty then none
    else if (item? inner key.text).isSome then none
    else some ((), inner ++ [(key, value)])) path form entries).map (·.2)

end Entries

/-! ## Documents -/

/-- A document and the table in it that is open. -/
structure Assembly where
  /-- What is closed. -/
  root : Entries
  /-- The keys of the open table; none for the document itself. -/
  path : List Key
  /-- Whether the open table is to become an element of an array. -/
  isElement : Bool
  start : Nat
  entries : Entries

namespace Assembly

def new : Assembly := ⟨[], [], false, 0, []⟩

/-- A change to the table around the one that a header names. -/
def around {α : Type} (root : Entries) (path : List Key)
    (change : Key → Entries → Option (α × Entries)) : Option (α × Entries) :=
  match path.getLast? with
  | none => none
  | some key => Entries.within .header (fun _ parent => change key parent) path.dropLast (.header 0) root

/-- The document with the open table closed. -/
def closed (a : Assembly) : Option Entries :=
  if a.path.isEmpty then some a.entries
  else
    let table := Item.table (.header a.start) a.entries
    (around a.root a.path fun key parent =>
      match Entries.item? parent key.text, a.isElement with
      | none, true => some ((), parent ++ [(key, .tables [table])])
      | some (.tables elements), true =>
        some ((), Entries.replaced parent key.text (.tables (elements ++ [table])))
      | none, false => some ((), parent ++ [(key, table)])
      | _, _ => none).map (·.2)

/-- A header: its table must be new, or have come about by a longer header only. -/
def openTable (a : Assembly) (path : List Key) (start : Nat) : Option Assembly := do
  let root ← a.closed
  let (entries, root) ← around root path fun key parent =>
    match Entries.item? parent key.text with
    | none => some ([], parent)
    | some (.table .above inner) => some (inner, Entries.erased parent key.text)
    | some _ => none
  return ⟨root, path, false, start, entries⟩

def openElement (a : Assembly) (path : List Key) (start : Nat) : Option Assembly := do
  let root ← a.closed
  let (_, root) ← around root path fun key parent =>
    match Entries.item? parent key.text with
    | none => some ((), parent ++ [(key, .tables [])])
    | some (.tables _) => some ((), parent)
    | some _ => none
  return ⟨root, path, true, start, []⟩

/-- A value in the open table. -/
def assign (a : Assembly) (path : List Key) (key : Key) (value : Item) : Option Assembly := do
  let entries ← Entries.assign .value path key value (.header a.start) a.entries
  return { a with entries }

end Assembly

end Provision.Toml
