/-! # Reading a source

A reader takes characters off the front of a source, or fails. Alternatives start again where the first
one started.

* `Source` — the characters that are left, and the octets that are gone.
* `Reader.one`, `Reader.run`, `Reader.exactly` — characters of a class, and given ones.
* `Reader.many` — a reader again and again; it ends, because each round has to take something.
-/

namespace Provision.Toml

/-- What is left of a text. -/
structure Source where
  rest : List Char
  offset : Nat

/-- A reader of something at the front of a source. -/
abbrev Reader := StateT Source Option

namespace Reader

def peek? : Reader (Option Char) := return (← get).rest.head?

/-- Where the source stands. -/
def here : Reader Nat := return (← get).offset

def one (accepts : Char → Bool) : Reader Char := do
  match (← get).rest with
  | c :: rest =>
    if accepts c then
      set (Source.mk rest ((← get).offset + c.utf8Size))
      return c
    else failure
  | [] => failure

def char (c : Char) : Reader Unit := do
  let _ ← one (· = c)

def exactly (s : String) : Reader Unit := s.toList.forM char

/-- The characters of a class that stand in front, as many as there are. -/
def run (accepts : Char → Bool) : Reader (List Char) := do
  let s ← get
  let taken := s.rest.takeWhile accepts
  set (Source.mk (s.rest.drop taken.length)
    (taken.foldl (fun offset c => offset + c.utf8Size) s.offset))
  return taken

def run1 (accepts : Char → Bool) : Reader (List Char) := do
  let first ← one accepts
  return first :: (← run accepts)

/-- As many characters of a class as are asked for. -/
def count (accepts : Char → Bool) : Nat → Reader (List Char)
  | 0 => return []
  | n + 1 => do
    let first ← one accepts
    return first :: (← count accepts n)

def opt {α : Type} (p : Reader α) : Reader (Option α) := (some <$> p) <|> pure none

def skip {α : Type} (p : Reader α) : Reader Unit := do
  let _ ← p

/-- Succeeds where nothing is left. -/
def done : Reader Unit := do
  if (← get).rest.isEmpty then return else failure

/-- Only such results as pass a test. -/
def filter {α : Type} (p : Reader α) (keep : α → Bool) : Reader α := do
  let a ← p
  if keep a then return a else failure

/-- A reader as often as it succeeds and takes something. -/
def manyFrom {α : Type} (p : Reader α) (s : Source) : List α × Source :=
  match p s with
  | some (a, s') =>
    if _h : s'.rest.length < s.rest.length then
      let (as, last) := manyFrom p s'
      (a :: as, last)
    else ([], s)
  | none => ([], s)
termination_by s.rest.length

@[inherit_doc manyFrom]
def many {α : Type} (p : Reader α) : Reader (List α) := do
  let (as, s) := manyFrom p (← get)
  set s
  return as

/-- At least one, with separators between them. -/
def separated {α : Type} (p : Reader α) (separator : Reader Unit) : Reader (List α) := do
  let first ← p
  return first :: (← many do separator; p)

end Reader

end Provision.Toml
