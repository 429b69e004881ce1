import Provision.Command.Arguments
import Provision.Command.Session
import Provision.Manifest.Conversion
import Provision.Progress
import Provision.Settings

/-! # Running a command line

A run is a function of its arguments and of the machine at hand. It yields what standard output takes of what it prints,
its exit code and the tree that it leaves.

* `Command.run` — a whole run.
* `Command.compileTask`, `Command.planTask` — the commands.
-/

namespace Provision

/-! ## Failures -/

/-- The failure of a step that needs a document. -/
def LoadError.within (context : String) (e : LoadError) : Failure :=
  ⟨context, e.message :: e.cause?.toList⟩

/-- The wordings of what stops a compilation, from the stage inwards. -/
def CompileError.causes : CompileError → List String
  | .conflict c => [c.message]
  | .dangling d => [d.message]
  | .cycle c => [c.message]
  | .backend e => e.message :: e.cause?.toList

/-- The failure of a step that compiles. -/
def CompileError.within (context : String) (e : CompileError) : Failure :=
  ⟨context, e.message :: e.causes⟩

namespace Command

/-- The settings file that is looked for when none is named. -/
def settingsFile : HostPath := .ofText "confbundler.toml"

def standardOutput : String := "-"

def versionLine : String := "confbundler 0.1.0\n"

/-- What is printed when there is nothing to run. -/
def usageText : String :=
  "Usage: confbundler [OPTIONS] <compile|plan|completions|version> [ARGUMENTS]\n"

/-! ## Console -/

/-- A heading. -/
def stage (text : String) : Traced Failure Unit := .say .info .stage text

/-- A line about progress. -/
def inform (text : String) : Traced Failure Unit := .say .info .console text

def explain (text : String) : Traced Failure Unit := .say .debug .console text

/-- A line for each warning. -/
def warn (warnings : List Warning) : Traced Failure Unit :=
  warnings.forM fun w => .say .warn .console w.text

/-- The last line, with the number of warnings. -/
def finish (text : String) (warnings : List Warning) : Traced Failure Unit :=
  inform (text ++ match warnings.length with
    | 0 => ""
    | 1 => " (1 warning)"
    | n => s!" ({n} warnings)")

/-! ## Commands -/

/-- What commands start from. -/
structure Setup where
  settings : Settings
  strictness : Strictness
  manifests : List Manifest

/-- The settings: from the file that is named, or from the usual one if it is there. -/
def settings (t : Tree) (config : Option String) : Except Failure Settings :=
  match config with
  | some file => (t.document Settings.decode (.ofText file)).mapError
      (·.within s!"loading settings {file}")
  | none => (Settings.load t settingsFile).mapError (·.within "loading settings")

def policyName : Strictness → String
  | .lenient => "Lenient"
  | .strict => "Strict"

def loadManifest (t : Tree) (file : String) : Traced Failure Manifest := do
  let m ← (Manifest.load t (.ofText file)).mapError (·.within s!"loading manifest {file}")
  explain s!"{file}: manifest '{m.id}', {m.size} declaration(s)"
  return m

/-- Settings and manifests. -/
def setup (t : Tree) (invocation : Invocation) (files : List String) : Traced Failure Setup := do
  let settings ← .ofExcept (settings t invocation.config)
  let strictness := if invocation.strict then .strict else settings.strictness
  explain s!"merge policy: {policyName strictness}"
  stage "Loading manifests"
  let manifests ← files.mapM (loadManifest t)
  inform s!"loaded {manifests.length} manifest(s)"
  return ⟨settings, strictness, manifests⟩

/-- What a command makes of manifests. -/
def produce (t : Tree) (invocation : Invocation) (files : List String) (heading context : String)
    (backend : Settings → Backend) : Traced Failure Artifact := do
  let setup ← setup t invocation files
  stage heading
  let artifact ← (tracedCompile setup.strictness (backend setup.settings)
    (declarationsOf setup.manifests)).mapError (·.within context)
  warn artifact.warnings
  return artifact

/-- The options of an archive: the time that is named, or that of the settings. -/
def archiveOptions (settings : Settings) (mtime : Option Nat) : ArchiveOptions :=
  mtime.elim settings.archiveOptions ArchiveOptions.mk

/-- An archive, printed or written to a file. -/
def deliver (s : Supplies) (output : String) (force : Bool) (octets : Octets) : Session Unit :=
  if output = standardOutput then .print s.outlet (Session.unwritten "writing archive to stdout") octets
  else .replaceFile s (.ofText output) octets force

def compileTask (s : Supplies) (invocation : Invocation) (files : List String) (output : String)
    (force : Bool) (mtime : Option Nat) : Session Unit := do
  let artifact ← produce (← get).tree invocation files "Compiling" "compilation failed" fun settings =>
    .archive (archiveOptions settings mtime)
  deliver s output force artifact.bytes
  inform s!"sha256 {artifact.fingerprint}"
  finish s!"wrote {artifact.bytes.length} bytes to {output}" artifact.warnings

def planTask (s : Supplies) (invocation : Invocation) (files : List String) (json : Bool) : Session Unit := do
  let artifact ← produce (← get).tree invocation files "Resolving" "planning failed" fun _ =>
    .plan (if json then .json else .text)
  Session.print s.outlet (Session.unwritten "writing plan to stdout") artifact.bytes
  finish "plan complete" artifact.warnings

/-- What an invocation asks for. The scripts of the completions are left out: nothing is printed for them. -/
def perform (s : Supplies) (invocation : Invocation) : Session Unit :=
  match invocation.task with
  | .compile files output force mtime => compileTask s invocation files output force mtime
  | .plan files json => planTask s invocation files json
  | .completions _ => pure ()
  | .version => .print s.outlet .unprinted (utf8 versionLine)

/-! ## Runs -/

/-- What a run comes to. -/
structure Outcome where
  exitCode : Nat
  printed : Octets
  /-- What is said beside the output. -/
  console : String
  tree : Tree
  written : Option (HostPath × Octets)

/-- The outcome of a command line that has nothing to run. Help that cannot be printed is not missed. -/
def refused (outlet : Outlet) (t : Tree) : Refusal → Outcome
  | .usage => ⟨2, [], usageText, t, none⟩
  | .help => ⟨0, outlet.room.part (utf8 usageText), "", t, none⟩
  | .version => ⟨0, outlet.room.part (utf8 versionLine), "", t, none⟩

/-- The exit code of a command, by how it ended. -/
def exitCode : Except Stop Unit → Nat
  | .ok () => 0
  | .error stop => stop.exitCode

/-- What is said by a command, and of how it ended. -/
def console (filter : Filter) (notes : List Note) : Except Stop Unit → String
  | .ok () => shownLines filter notes
  | .error stop => shownLines filter (notes ++ stop.notes) ++ stop.report

/-- The outcome of a command: what it left, and how it ended. -/
def concluded (filter : Filter) (ended : Except Stop Unit × Machine) : Outcome :=
  ⟨exitCode ended.1, ended.2.printed, console filter ended.2.notes ended.1, ended.2.tree, ended.2.written⟩

/-- A run. `log` says which notes to show. -/
def runWith (s : Supplies) (log : Option String) (arguments : List String) (t : Tree) : Outcome :=
  match Invocation.parse arguments with
  | .error refusal => refused s.outlet t refusal
  | .ok invocation =>
    concluded (.choose log invocation.verbose) ((perform s invocation).on (.start t))

/-- A run where there is room. -/
def run (log : Option String) (arguments : List String) (t : Tree) : Outcome := runWith .ample log arguments t

end Command

end Provision
