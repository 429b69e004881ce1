import Provision.Toml.Assembly
import Provision.Toml.Scalar

/-! # TOML documents

The grammar of TOML 1.0, with nesting up to a fixed depth.

* `Document.value` — a value; it may hold values one level less deep.
* `Document.expression` — a line of a document.
* `parse?` — the entries of a document.
-/

namespace Provision.Toml

namespace Document

open Reader Scalar

/-- How deep values nest, and how many keys a dotted key has: less than this. -/
def depth : Nat := 80

/-! ## Keys -/

/-- A character of a key without quotes. -/
def isBare (c : Char) : Bool :=
  ('A' ≤ c && c ≤ 'Z') || ('a' ≤ c && c ≤ 'z') || Text.isDigit c || c = '_' || c = '-'

def simpleKey : Reader Key := do
  let start ← here
  let text ← line <|> (do return String.ofList (← run1 isBare))
  return ⟨text, start⟩

def key : Reader (List Key) :=
  filter (separated (do blanks; let k ← simpleKey; blanks; return k) (char '.'))
    (·.length < depth)

/-- A key as the path before its last part, and that part. -/
def splitKey : Reader (List Key × Key) := do
  let parts ← key
  match parts.getLast? with
  | some last => return (parts.dropLast, last)
  | none => failure

/-! ## Values -/

/-- A comment, up to the end of its line. -/
def comment : Reader Unit := do
  char '#'
  skip (run isPlain)

/-- Blanks, line ends and comments between the items of an array. -/
def gap : Reader Unit := skip (many (skip (run1 isBlank) <|> newline <|> comment))

def scalar : Reader Item := do
  let start ← here
  match ← peek? with
  | some '"' | some '\'' => return .string start (← text)
  | some 't' => exactly "true"; return .boolean start true
  | some 'f' => exactly "false"; return .boolean start false
  | _ =>
    (do return .datetime start (← datetime)) <|> (do return .float start (← float))
      <|> (do return .integer start (← integer))

/-- Items between brackets, with commas between them and perhaps one behind. -/
def array (item : Reader Item) : Reader Item := do
  let start ← here
  char '['
  let items ← opt (do
    let items ← separated (do gap; let i ← item; gap; return i) (char ',')
    skip (opt (char ','))
    return items)
  gap
  char ']'
  return .array start (items.getD [])

/-- A key with its value between braces. -/
def inlineEntry (item : Reader Item) : Reader ((List Key × Key) × Item) := do
  let k ← splitKey
  char '='
  blanks
  let i ← item
  blanks
  return (k, i)

/-- Keys and values between braces, on one line and without a comma behind. -/
def inlineTable (item : Reader Item) : Reader Item := do
  let start ← here
  char '\x7b'
  let pairs ← opt (separated (inlineEntry item) (char ','))
  blanks
  char '\x7d'
  let entries ← (pairs.getD []).foldlM (fun entries ((path, key), value) =>
    StateT.lift (Entries.assign .inlineValue path key value (.inline start) entries)) []
  return .table (.inline start) entries

/-- A value that nests so many levels deep at most. -/
def value : Nat → Reader Item
  | 0 => scalar
  | levels + 1 => do
    match ← peek? with
    | some '[' => array (value levels)
    | some '\x7b' => inlineTable (value levels)
    | _ => scalar

/-! ## Lines -/

/-- What a line says. -/
inductive Expression where
  | nothing
  | header (start : Nat) (path : List Key)
  | element (start : Nat) (path : List Key)
  | entry (path : List Key) (key : Key) (value : Item)

/-- The end of a line or of the source. -/
def lineEnd : Reader Unit := newline <|> done

/-- What may follow on a line behind a value or a header. -/
def trailing : Reader Unit := do
  blanks
  skip (opt comment)
  lineEnd

def header : Reader Expression := do
  let start ← here
  char '['
  match ← opt (char '[') with
  | some () =>
    let path ← key
    exactly "]]"
    trailing
    return .element start path
  | none =>
    let path ← key
    char ']'
    trailing
    return .header start path

def entry : Reader Expression := do
  let (path, last) ← splitKey
  char '='
  blanks
  let v ← value (depth - 1)
  trailing
  return .entry path last v

def expression : Reader Expression := do
  let e ← match ← peek? with
    | some '#' => do comment; lineEnd; pure Expression.nothing
    | some '[' => header
    | some '\n' | some '\r' => do newline; pure Expression.nothing
    | _ => entry
  blanks
  return e

/-- All lines of a document; a byte order mark may stand in front. -/
def expressions : Reader (List Expression) := do
  skip (opt (char '\uFEFF'))
  blanks
  let es ← many expression
  done
  return es

/-- A document with one more line. -/
def step (a : Assembly) : Expression → Option Assembly
  | .nothing => some a
  | .header start path => a.openTable path start
  | .element start path => a.openElement path start
  | .entry path key value => a.assign path key value

end Document

/-- The entries of a document, if the source is one. -/
def parse? (source : String) : Option Entries := do
  let (expressions, _) ← Document.expressions ⟨source.toList, 0⟩
  (← expressions.foldlM Document.step Assembly.new).closed

end Provision.Toml
