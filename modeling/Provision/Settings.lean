import Provision.Archive.Member
import Provision.Loading

/-! # Settings

What a settings file can say: whether overrides are conflicts, and which time entries get that declare
none.

* `Settings.decode` — the settings of a document; `Settings.load` — of the document at a path.
-/

namespace Provision

open Schema

structure Settings where
  strict : Bool
  /-- The modification time of entries that declare none. -/
  mtime : Nat
  deriving DecidableEq, Repr

namespace Settings

def default : Settings := ⟨false, 0⟩

/-- The fields about the merge. -/
def compilerFields : List (KeyField Settings) :=
  [⟨"strict", fun s item => do return { s with strict := ← boolean item }, true⟩]

def archiveFields : List (KeyField Settings) :=
  [⟨"mtime", fun s item => do return { s with mtime := ← word64 item }, true⟩]

def fields : List (KeyField Settings) :=
  [⟨"compiler", record "CompilerSettings" compilerFields, true⟩,
    ⟨"archive", record "ArchiveSettings" archiveFields, true⟩]

def decode : Decoder Settings := record "Settings" fields default

/-- The settings at a path; where nothing is, the settings without a file. -/
def load (t : Tree) (path : HostPath) : Except LoadError Settings :=
  if t.exists? path then t.document decode path else .ok default

def strictness (s : Settings) : Strictness := if s.strict then .strict else .lenient

def archiveOptions (s : Settings) : ArchiveOptions := ⟨s.mtime⟩

end Settings

end Provision
