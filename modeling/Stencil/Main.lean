import Stencil.CommandLine

/-!
# The program

The program takes a snapshot of what its arguments name, the directory of templates and the context
file, and leaves all else to `Stencil.CommandLine`.

## Main definitions

* `Stencil.CommandLine.snapshot`: what lies at the paths of a request.
* `main`: the program.
-/

namespace Stencil.CommandLine

/-- Why something could not be read. -/
def faultOfError : IO.Error → DiskFault
  | .noFileOrDirectory .. => .notFound
  | .permissionDenied .. => .permissionDenied
  | .inappropriateType .. => .notADirectory
  | .invalidArgument .. => .nameTooLong
  | e => .other (toString e)

/-- The content of the file at a path. -/
def readContent (path : String) : IO Content := do
  try
    return .ok (← IO.FS.readBinFile path)
  catch e =>
    return .error (faultOfError e)

/-- The entries of the directory at a path, with everything below them. A directory that cannot be
listed counts as empty. Links are not followed, and what is neither a directory nor a file does not
count. -/
partial def readEntries (path : String) : IO (Dictionary FileTree) := do
  let mut entries : Dictionary FileTree := []
  let children ← try (⟨path, ""⟩ : IO.FS.DirEntry).root.readDir catch _ => pure #[]
  for child in children do
    let childPath := Path.join path child.fileName
    let place := (⟨childPath, ""⟩ : IO.FS.DirEntry).root
    let kind ← try some <$> IO.FS.Metadata.type <$> place.symlinkMetadata catch _ => pure none
    match kind with
    | some .dir =>
      entries := Dictionary.insert child.fileName (.directory (← readEntries childPath)) entries
    | some .file =>
      entries := Dictionary.insert child.fileName (.file (← readContent childPath)) entries
    | _ => pure ()
  return entries

/-- The disk that holds what the paths of a request lead to. -/
def snapshot (request : Request) : IO Disk := do
  let isDirectory (path : String) := (⟨path, ""⟩ : IO.FS.DirEntry).root.isDir
  let directory ←
    if ← isDirectory request.directory then
      pure (.ok (.directory (← readEntries request.directory)))
    else pure (.error .notFound)
  let context ← match request.contextFile with
    | none => pure (.error .notFound)
    | some path =>
      if ← isDirectory path then pure (.ok .emptyDirectory)
      else pure (.ok (.file (← readContent path)))
  return {
    lookup := fun path =>
      if path = request.directory then directory
      else if some path = request.contextFile then context
      else .error .notFound
    walk := FileTree.files }

end Stencil.CommandLine

open Stencil.CommandLine in
/-- Runs the command with the given arguments. -/
def main (args : List String) : IO UInt32 := do
  let outcome ← match standard.parse args with
    | .error outcome => pure outcome
    | .ok request => do
      let disk ← snapshot request
      pure (answer standard disk request)
  IO.print outcome.output
  IO.eprint outcome.errors
  return outcome.exitCode.toUInt32
