import Provision.Text.Digits

/-! # Command-line arguments

A command line has two levels: options before the name of a command, and options and operands after it.
Options that concern every command may stand at either level, at most once at each; the inner one counts.

* `Invocation` — what a command line asks for; `Invocation.parse` — of a list of arguments.
* `Refusal` — why there is nothing to run.
-/

namespace Provision

/-! ## Options -/

inductive Flag where
  | verbose
  | strict
  | force
  | json
  | help
  | version
  deriving DecidableEq, Repr

inductive Setting where
  | config
  | output
  | mtime
  deriving DecidableEq, Repr

/-- What the name of an option stands for. -/
inductive Switch where
  | flag (flag : Flag)
  | setting (setting : Setting)
  deriving DecidableEq, Repr

/-- What may stand at a level of a command line. -/
structure Grammar where
  /-- Options by their long names. -/
  long : List (String × Switch)
  /-- Options by their letters. -/
  short : List (Char × Switch)
  /-- How many operands there may be, if not any number. -/
  operands : Option Nat
  /-- Which texts may be operands. -/
  accepts : String → Bool
  /-- The commands that open a further level. -/
  commands : List String

/-- Why there is nothing to run. -/
inductive Refusal where
  /-- The arguments make no sense. -/
  | usage
  /-- They ask for help. -/
  | help
  /-- They ask which version this is. -/
  | version
  deriving DecidableEq, Repr

/-- What stands at a level of a command line. -/
structure Arguments where
  flags : List Flag
  settings : List (Setting × String)
  operands : List String
  deriving DecidableEq, Repr

/-- A number of 64 bits as a decimal text. -/
def word64OfText? (s : String) : Option Nat := (Text.decimal? s).filter (· < UInt64.size)

/-- Whether an option takes a text as its value. -/
def Setting.accepts (setting : Setting) (value : String) : Bool :=
  match setting with
  | config | output => !value.isEmpty
  | mtime => (word64OfText? value).isSome

namespace Arguments

def empty : Arguments := ⟨[], [], []⟩

def addFlag (a : Arguments) (flag : Flag) : Except Refusal Arguments :=
  match flag with
  | .help => .error .help
  | .version => .error .version
  | flag => if flag ∈ a.flags then .error .usage else .ok { a with flags := a.flags ++ [flag] }

def setting? (a : Arguments) (setting : Setting) : Option String := a.settings.lookup setting

def addSetting (a : Arguments) (setting : Setting) (value : String) : Except Refusal Arguments :=
  if (a.setting? setting).isSome || !setting.accepts value then .error .usage
  else .ok { a with settings := a.settings ++ [(setting, value)] }

/-- One more operand. It is looked at when it is added, so a bad one counts before a later request for
    help. -/
def addOperand (g : Grammar) (a : Arguments) (operand : String) : Except Refusal Arguments :=
  if !g.accepts operand || !g.operands.all (a.operands.length < ·) then .error .usage
  else .ok { a with operands := a.operands ++ [operand] }

end Arguments

/-! ## One argument -/

/-- What an argument looks like. -/
inductive Shape where
  /-- The end of all options. -/
  | terminator
  | long (name : String) (value : Option String)
  | short (letters : List Char)
  | plain
  deriving DecidableEq, Repr

/-- The shape of an argument. A dash alone is plain. -/
def Shape.of (argument : String) : Shape :=
  match argument.toList with
  | ['-', '-'] => .terminator
  | '-' :: '-' :: rest =>
    .long (String.ofList (rest.takeWhile (· ≠ '=')))
      (match rest.dropWhile (· ≠ '=') with
        | [] => none
        | _ :: value => some (String.ofList value))
  | ['-'] => .plain
  | '-' :: letters => .short letters
  | _ => .plain

/-- An option by its long name; if it still lacks its value, that is what comes next. -/
def takeLong (g : Grammar) (a : Arguments) (name : String) (value : Option String) :
    Except Refusal (Arguments × Option Setting) :=
  match g.long.lookup name, value with
  | some (.flag flag), none => return (← a.addFlag flag, none)
  | some (.setting setting), some value => return (← a.addSetting setting value, none)
  | some (.setting setting), none => .ok (a, some setting)
  | some (.flag _), some _ | none, _ => .error .usage

/-- Options by their letters; the rest after one that takes a value is its value. -/
def takeShort (g : Grammar) (a : Arguments) : List Char → Except Refusal (Arguments × Option Setting)
  | [] => .ok (a, none)
  | letter :: rest =>
    match g.short.lookup letter, rest with
    | some (.flag flag), rest => do takeShort g (← a.addFlag flag) rest
    | some (.setting setting), [] => .ok (a, some setting)
    | some (.setting setting), '=' :: value => return (← a.addSetting setting (String.ofList value), none)
    | some (.setting setting), value => return (← a.addSetting setting (String.ofList value), none)
    | none, _ => .error .usage

/-! ## One level -/

/-- A level: its arguments, and the command that ends it with what follows. -/
abbrev Scanned := Arguments × Option (String × List String)

/-- Read a level. `pending?` is the option whose value comes next. -/
def scan (g : Grammar) (a : Arguments) (pending? : Option Setting) :
    List String → Except Refusal Scanned
  | [] => if pending?.isSome then .error .usage else .ok (a, none)
  | argument :: rest =>
    match pending?, Shape.of argument with
    | some setting, .plain => do scan g (← a.addSetting setting argument) none rest
    | some _, _ => .error .usage
    | none, .plain =>
      if argument ∈ g.commands then .ok (a, some (argument, rest))
      else do scan g (← a.addOperand g argument) none rest
    | none, .terminator => do return (← rest.foldlM (Arguments.addOperand g) a, none)
    | none, .long name value => do
      let (a, pending?) ← takeLong g a name value
      scan g a pending? rest
    | none, .short letters => do
      let (a, pending?) ← takeShort g a letters
      scan g a pending? rest

/-! ## Invocations -/

/-- What there is to do. -/
inductive Task where
  | compile (manifests : List String) (output : String) (force : Bool) (mtime : Option Nat)
  | plan (manifests : List String) (json : Bool)
  | completions (shell : String)
  | version
  deriving DecidableEq, Repr

/-- What a command line asks for. -/
structure Invocation where
  verbose : Bool
  config : Option String
  strict : Bool
  task : Task
  deriving DecidableEq, Repr

namespace Invocation

/-- The long names of the options of every command. -/
def commonLong : List (String × Switch) :=
  [("verbose", .flag .verbose), ("config", .setting .config), ("strict", .flag .strict),
    ("help", .flag .help)]

/-- The letters of the options of every command. -/
def commonShort : List (Char × Switch) :=
  [('v', .flag .verbose), ('c', .setting .config), ('h', .flag .help)]

def commandNames : List String := ["compile", "plan", "completions", "version", "help"]

/-- The shells that completions are written for. -/
def shells : List String := ["bash", "elvish", "fish", "powershell", "zsh"]

/-- The level before the command. -/
def outer : Grammar :=
  ⟨commonLong ++ [("version", .flag .version)], commonShort ++ [('V', .flag .version)], some 0,
    (!·.isEmpty), commandNames⟩

/-- The level after a command. -/
def inner : String → Grammar
  | "compile" =>
    ⟨commonLong ++ [("output", .setting .output), ("force", .flag .force), ("mtime", .setting .mtime)],
      commonShort ++ [('o', .setting .output), ('f', .flag .force)], none, (!·.isEmpty), []⟩
  | "plan" => ⟨commonLong ++ [("json", .flag .json)], commonShort, none, (!·.isEmpty), []⟩
  | "completions" => ⟨commonLong, commonShort, some 1, (· ∈ shells), []⟩
  | _ => ⟨commonLong, commonShort, some 0, (!·.isEmpty), []⟩

/-- The task of a command, given its arguments. -/
def taskOf (command : String) (a : Arguments) : Except Refusal Task :=
  match command, a.operands, a.setting? .output with
  | "compile", _ :: _, some output => .ok (.compile a.operands output (.force ∈ a.flags)
    ((a.setting? .mtime).bind word64OfText?))
  | "plan", _ :: _, _ => .ok (.plan a.operands (.json ∈ a.flags))
  | "completions", [shell], _ => .ok (.completions shell)
  | "version", [], _ => .ok .version
  | _, _, _ => .error .usage

/-- The refusal of a request for help: it may name one command. -/
def helpRefusal : List String → Refusal
  | [] => .help
  | [command] => if command ∈ commandNames then .help else .usage
  | _ => .usage

def parse (arguments : List String) : Except Refusal Invocation := do
  match ← scan outer .empty none arguments with
  | (_, none) => throw .usage
  | (_, some ("help", rest)) => throw (helpRefusal rest)
  | (before, some (command, rest)) =>
    let (after, _) ← scan (inner command) .empty none rest
    let task ← taskOf command after
    let has (flag : Flag) : Bool := flag ∈ before.flags || flag ∈ after.flags
    return ⟨has .verbose, (after.setting? .config).or (before.setting? .config), has .strict, task⟩

end Invocation

end Provision
