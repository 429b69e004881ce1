import Provision.Command.Run

/-! # The program

The layer that touches the machine: it takes down the tree that a command line is about, runs the command
line on it, and carries out what the run comes to. What there is to decide, `Command.run` decides.

A tree is taken down as far as directories can be listed. Files have the usual permissions in it, unless
they cannot be read, and links lead to the place that they lead to in the end.
-/

namespace Provision

/-- The files that a task reads or writes by name. -/
def Task.files : Task → List String
  | .compile manifests output _ _ => output :: manifests
  | .plan manifests _ => manifests
  | .completions _ | .version => []

/-- The directories that a command line is about. -/
def Invocation.directories (invocation : Invocation) : List String :=
  match invocation.task with
  | .completions _ | .version => []
  | task => "." :: (invocation.config.toList ++ task.files).map fun file =>
      (HostPath.ofText file).directory.text

/-- The tree with directories all the way down to a location. -/
def Tree.ensure (t : Tree) (l : Location) : Tree :=
  (List.range (l.length + 1)).foldl (fun t depth =>
    if (t.inode? (l.take depth)).isSome then t else t.insert (l.take depth) ⟨.directory, 0o755, 0⟩) t

/-- Take down what is in a directory and beneath it. -/
def survey (t : Tree) (directory : String) : IO Tree := do
  try
    let root ← IO.FS.realPath directory
    let places ← root.walkDir fun place => do
      try
        if (← place.symlinkMetadata).type != .dir then return false
        discard place.readDir
        return true
      catch _ => return false
    places.foldlM (fun t place => do
      let data ← place.symlinkMetadata
      let l := Tree.steps (utf8 place.toString)
      let time := data.modified.sec
      match data.type with
      | .dir => return t.insert l ⟨.directory, 0o755, time⟩
      | .symlink =>
        return t.insert l ⟨.symlink (utf8 (← IO.FS.realPath place).toString), 0o777, time⟩
      | .other => return t.insert l ⟨.fifo, 0o644, time⟩
      | .file =>
        try
          return t.insert l ⟨.file (← IO.FS.readBinFile place).data.toList, 0o644, time⟩
        catch _ => return t.insert l ⟨.file [], 0, time⟩)
      (t.ensure (Tree.steps (utf8 root.toString)))
  catch _ => return t

/-- The tree that a command line is about. -/
def surveyFor (arguments : List String) : IO Tree := do
  let here := Tree.steps (utf8 (← IO.FS.realPath ".").toString)
  match Invocation.parse arguments with
  | .error _ => return ⟨.empty, here⟩
  | .ok invocation => invocation.directories.foldlM survey ⟨.empty, here⟩

/-- Put a file in its place in one step, or leave nothing of it. It is for the owner alone. -/
def putInPlace (path : HostPath) (octets : Octets) : IO Unit := do
  let provisional := path.text ++ ".part"
  try
    IO.FS.writeBinFile provisional ⟨octets.toArray⟩
    IO.setAccessRights provisional ⟨⟨true, true, false⟩, ⟨false, false, false⟩, ⟨false, false, false⟩⟩
    IO.FS.rename provisional path.text
  catch fault =>
    IO.FS.removeFile provisional
    throw fault

end Provision

open Provision in
def main (arguments : List String) : IO UInt32 := do
  let t ← surveyFor arguments
  let log ← IO.getEnv "CONFBUNDLER_LOG"
  let outcome := Command.run log arguments t
  if let some (path, octets) := outcome.written then putInPlace path octets
  let outcome ← try
      let output ← IO.getStdout
      output.write ⟨outcome.printed.toArray⟩
      output.flush
      pure outcome
    catch _ =>
      -- What has been taken of it cannot be taken back, and the run ends as one for which there was no room.
      pure (Command.runWith { Supplies.ample with outlet := ⟨some 0, .brokenPipe⟩ } log arguments t)
  IO.eprint outcome.console
  return UInt32.ofNat outcome.exitCode
