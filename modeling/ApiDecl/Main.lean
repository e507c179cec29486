import ApiDecl.CommandLine.Run

/-!
# The command

`apicat-from-source [--proto-module PATH] [--runtime-crate NAME] [-v] IN_DIR OUT_DIR` compiles the
declarations in one directory and writes `routes.rs` and `apicat.json` into the other. Events are
shown on the error stream, details only if they are asked for.
-/

namespace ApiDecl

/-- Reads a file, or a directory with all that is not skipped in it. -/
partial def loadTree (path : String) : IO (Option FileTree) := do
  try
    let mut entries := []
    for entry in ← (← IO.FS.realPath path).readDir do
      unless isSkipped entry.fileName do
        if let some inner ← loadTree (Path.join path entry.fileName) then
          entries := putSorted (·.1) (entry.fileName, inner) entries
    return some (.directory entries)
  catch _ =>
    try return some (.file (← IO.FS.readBinFile path)) catch _ => return none

/-- Shows events, and details among them only if they are asked for. -/
def showEvents (verbose : Bool) (events : Array Event) : IO Unit :=
  for e in events do
    if verbose || e.level != .debug then IO.eprintln s!"[{e.level.name}] {e.message}"

/-- Runs a part of a run and shows its events. -/
def perform {α : Type} (verbose : Bool) (part : ExceptT RunFault Traced α) : IO α := do
  let (outcome, events) := Id.run (part.run.run #[])
  showEvents verbose events
  match outcome with
  | .ok a => return a
  | .error fault => throw (IO.userError fault.message)

/-- Writes a file of a run. -/
def writeArtifact (verbose : Bool) (directory name content : String) : IO Unit := do
  let path := Path.join directory name
  showEvents verbose #[.writeStarted path]
  IO.FS.writeFile path content
  showEvents verbose #[.writeDone path content.utf8ByteSize]

/-- Runs with valid arguments. -/
def runArguments (a : Arguments) : IO Unit := do
  let found ← loadTree a.inDirectory
  perform a.verbose (a.check found)
  let (c, artifacts) ← perform a.verbose (a.generate found)
  IO.FS.createDirAll a.outDirectory
  writeArtifact a.verbose a.outDirectory routesFileName artifacts.routes
  writeArtifact a.verbose a.outDirectory documentFileName artifacts.document
  perform a.verbose (liftM c.summary)

end ApiDecl

/-- Runs with the arguments of the command line. -/
def main (args : List String) : IO UInt32 := do
  match ApiDecl.Arguments.parse args with
  | .error .helpAsked =>
    IO.println ApiDecl.UsageFault.helpAsked.message
    return 0
  | .error .versionAsked =>
    IO.println ApiDecl.UsageFault.versionAsked.message
    return 0
  | .error fault =>
    IO.eprintln s!"error: {fault.message}"
    return 2
  | .ok a =>
    try
      ApiDecl.runArguments a
      return 0
    catch e =>
      IO.eprintln s!"Error: {e}"
      return 1
