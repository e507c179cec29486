import ApiDecl.CommandLine.Arguments
import ApiDecl.Compilation

/-!
# Runs

A run compiles the declarations of one directory and writes the source of the routes and the
document into another one. Nothing is written before all of it is known, so a compilation that fails
leaves the tree of files as it was.
-/

namespace ApiDecl

/-- The file with the source of the routes. -/
def routesFileName : String := "routes.rs"

/-- The file with the document. -/
def documentFileName : String := "apicat.json"

/-! ## Failures -/

/-- Why a run fails. -/
inductive RunFault where
  /-- The arguments are not those of a run. -/
  | usage (fault : UsageFault)
  /-- There is nothing at the path of the declarations. -/
  | inputMissing (path : String)
  /-- The path of the declarations is not a directory. -/
  | inputNotDirectory (path : String)
  /-- The declarations do not compile. -/
  | compilation (directory : String) (error : Error)
  /-- The directory for what is generated cannot be made. -/
  | outputDirectory (path : String) (fault : IoFault)
  /-- A file cannot be written. -/
  | output (path : String) (error : Error)
  deriving Repr, DecidableEq, Inhabited

/-- An error and what has caused it. A failed access is its own cause. -/
def Error.chain : Error → String
  | .io fault => (Error.io fault).message ++ ": " ++ fault.message
  | e => e.message

/-- The text for arguments that are not those of a run. -/
def UsageFault.message : UsageFault → String
  | missingDirectory => "the input and output directories are required"
  | unknownArgument => "unexpected argument"
  | repeatedOption => "an option cannot be used multiple times"
  | invalidValue => "a value is required"
  | valueOfFlag => "a flag takes no value"
  | helpAsked =>
    "usage: apicat-from-source [--proto-module PATH] [--runtime-crate NAME] [-v] IN_DIR OUT_DIR"
  | versionAsked => "apicat-from-source 0.1.0"

/-- The text for a failed run. -/
def RunFault.message : RunFault → String
  | usage fault => fault.message
  | inputMissing path => s!"Input directory does not exist: {path}"
  | inputNotDirectory path => s!"Input path is not a directory: {path}"
  | compilation directory error =>
    "Failed to compile declarations in " ++ directory ++ ": " ++ error.chain
  | outputDirectory path fault =>
    "Failed to create output directory: " ++ path ++ ": " ++ fault.message
  | output path error => "Failed to write " ++ path ++ ": " ++ error.chain

/-! ## What a run writes -/

/-- The texts that a run writes. -/
structure Artifacts where
  /-- The source of the routes. -/
  routes : String
  /-- The document. -/
  document : String
  deriving Repr, DecidableEq, Inhabited

/-- The texts that a compilation gives. -/
def Compilation.artifacts (c : Compilation) (names : SourceNames) : Traced Artifacts := do
  note (.protoModule names.protoModule)
  let routes ← names.render c.groups
  let document ← c.document
  return ⟨routes, ← document.print⟩

/-- Reports the counts of a compilation. -/
def Compilation.summary (c : Compilation) : Traced Unit := do
  note .runDone
  note .summaryStarted
  note (.summaryCount "Structs collected" c.catalog.size)
  note (.summaryCount "Schema definitions" c.definitions.length)
  note (.summaryCount "Route groups" c.groups.length)
  note (.summaryCount "Routes" (routeCount c.groups))

namespace Arguments

/-- Compiles what is found at the path of the declarations. -/
def generate (a : Arguments) (found : Option FileTree) :
    ExceptT RunFault Traced (Compilation × Artifacts) := do
  liftM (note .runStarted)
  match ← (compileFound a.inDirectory found).run with
  | .error e => throw (.compilation a.inDirectory e)
  | .ok c => return (c, ← c.artifacts a.sourceNames)

/-- Checks that there are declarations to compile. -/
def check (a : Arguments) (found : Option FileTree) : ExceptT RunFault Traced Unit := do
  liftM (note (.argumentsParsed a.shown))
  match found with
  | none => throw (.inputMissing a.inDirectory)
  | some (.file _) => throw (.inputNotDirectory a.inDirectory)
  | some (.directory _) =>
    liftM (note (.inputDirectory a.inDirectory))
    liftM (note (.outputDirectory a.outDirectory))

end Arguments

/-! ## Runs on a tree of files -/

/-- A computation that changes a tree of files. -/
abbrev FileWork := StateT FileTree Traced

/-- A part of a run that leaves the tree alone. -/
def withoutChange {α : Type} (part : ExceptT RunFault Traced α) : ExceptT RunFault FileWork α :=
  ExceptT.mk (liftM part.run)

/-- Changes the tree, and tells whether that worked. What has been changed stays, also after a
failure. -/
def changeTree (change : FileTree → FileTree × Except IoFault Unit) :
    FileWork (Except IoFault Unit) := do
  let (t, outcome) := change (← get)
  set t
  return outcome

/-- Writes a text to a file, after making the directories around it. -/
def writeText (path content : String) : FileWork (Except IoFault Unit) := do
  liftM (note (.writeStarted path))
  if let some parent := Path.parent? path then
    if let .error fault ← changeTree (·.createDirectory parent) then
      return .error fault
  match (← get).writeFile path content.toUTF8 with
  | .error fault => return .error fault
  | .ok t =>
    set t
    liftM (note (.writeDone path content.utf8ByteSize))
    return .ok ()

/-- Writes a file of a run. -/
def writeOutput (directory name content : String) : ExceptT RunFault FileWork Unit := do
  let path := Path.join directory name
  match ← liftM (writeText path content) with
  | .error fault => throw (.output path (.io fault))
  | .ok () => return

namespace Arguments

/-- Runs with valid arguments. -/
def run (a : Arguments) : ExceptT RunFault FileWork Unit := do
  let found := (← get).find? a.inDirectory
  withoutChange (a.check found)
  let (c, artifacts) ← withoutChange (a.generate found)
  if let .error fault ← liftM (changeTree (·.createDirectory a.outDirectory)) then
    throw (.outputDirectory a.outDirectory fault)
  writeOutput a.outDirectory routesFileName artifacts.routes
  writeOutput a.outDirectory documentFileName artifacts.document
  liftM c.summary

end Arguments

/-- Runs with the arguments of the command line. -/
def runCommand (args : List String) : ExceptT RunFault FileWork Unit := do
  match Arguments.parse args with
  | .error fault => throw (.usage fault)
  | .ok a => a.run

/-- The outcome of a computation on a tree of files, the tree after it, and the events. -/
def FileWork.outcome {α : Type} (work : FileWork α) (t : FileTree) : α × FileTree × List Event :=
  let ((result, t), events) := Id.run ((work.run t).run #[])
  (result, t, events.toList)

end ApiDecl
