import ApiDecl.Event
import ApiDecl.Files.Tree

/-!
# Searching a directory for declarations

The declaration files of a directory are the files below it whose extension is `rs`. Entries whose
name starts with a dot, and those named `target`, are skipped with everything in them; the name of
the directory itself does not matter. The files come in the order of their paths, name by name.
-/

namespace ApiDecl

/-- The name of directories with build results. -/
def buildDirectoryName : String := "target"

/-- The extension of declaration files. -/
def declarationExtension : String := "rs"

/-- Whether an entry is skipped. -/
def isSkipped (name : String) : Bool :=
  name.toList.head? == some '.' || name == buildDirectoryName

/-- Whether a file holds declarations, by its name. -/
def isDeclarationName (name : String) : Bool := Path.extension? name == some declarationExtension

/-- A file that has been found. -/
structure FoundFile where
  /-- The path of the file, below the path of the directory as it was given. -/
  path : String
  /-- The bytes of the file. -/
  content : ByteArray

namespace FileTree

mutual

/-- The declaration files of an entry of a directory, from its path and its name. -/
def declarations (path name : String) : FileTree → List FoundFile
  | file content => if isDeclarationName name then [⟨path, content⟩] else []
  | directory entries => entryDeclarations path entries

/-- The declaration files of the entries of a directory. -/
def entryDeclarations (path : String) : List (String × FileTree) → List FoundFile
  | [] => []
  | (name, inner) :: rest =>
    (if isSkipped name then [] else inner.declarations (Path.join path name) name) ++
      entryDeclarations path rest

end

/-- The declaration files of what is found at the path of a directory. -/
def scanFound (path : String) : Option FileTree → Compile (List FoundFile)
  | some (directory entries) => do
    let found := entryDeclarations path entries
    liftM (note (.scanDone path found.length))
    return found
  | _ => throw (.notDirectory path)

/-- The declaration files of a directory. -/
def scan (t : FileTree) (path : String) : Compile (List FoundFile) := scanFound path (t.find? path)

end FileTree

end ApiDecl
