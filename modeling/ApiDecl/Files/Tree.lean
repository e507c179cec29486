import ApiDecl.Error
import ApiDecl.Files.Path
import ApiDecl.Keyed

/-!
# Trees of files

A tree of files is a file or a directory; the entries of a directory are in the order of their
names. Paths start at the root of the tree, which is the working directory, and cannot leave it.

Every access follows a path step by step. Whatever is not at the end of the path has to be a
directory. The place that a path leads to is told by the names on the way to it from the root.
-/

namespace ApiDecl

/-- A file or a directory. -/
inductive FileTree where
  /-- A file, with its bytes. -/
  | file (content : ByteArray)
  /-- A directory, with its entries in the order of their names. -/
  | directory (entries : List (String × FileTree))

namespace FileTree

instance : Inhabited FileTree := ⟨directory []⟩

/-- A directory without entries. -/
def empty : FileTree := directory []

/-- Whether a tree is a directory. -/
def isDirectory : FileTree → Bool
  | directory _ => true
  | file _ => false

/-- The entry of a directory with a given name. -/
def child? (t : FileTree) (name : String) : Option FileTree :=
  match t with
  | directory entries => entries.lookup name
  | file _ => none

/-- What is found by following names from the root. -/
def at? (t : FileTree) : List String → Option FileTree
  | [] => some t
  | name :: rest =>
    match t.child? name with
    | some inner => inner.at? rest
    | none => none

/-- A tree with something else in the place that names lead to. The directories on the way are
there already. -/
def putAt (t : FileTree) (new : FileTree) : List String → FileTree
  | [] => new
  | name :: rest =>
    match t with
    | file content => file content
    | directory entries =>
      let inner := ((entries.lookup name).getD empty).putAt new rest
      directory (putSorted (·.1) (name, inner) entries)

/-! ## Places -/

/-- Follows some steps from a place that exists. -/
def follow (t : FileTree) (place : List String) : List String → Except IoFault (List String)
  | [] => .ok place
  | step :: rest =>
    match t.at? place with
    | none => .error .notFound
    | some (file _) => .error .notDirectory
    | some (directory entries) =>
      if step = Path.here then t.follow place rest
      else if step = Path.above then
        if place.isEmpty then .error .notFound else t.follow place.dropLast rest
      else if (entries.lookup step).isSome then t.follow (place ++ [step]) rest
      else .error .notFound

/-- The place that a path leads to. -/
def place? (t : FileTree) (path : String) : Except IoFault (List String) :=
  if path = "" ∨ Path.isAbsolute path then .error .notFound else t.follow [] (Path.steps path)

/-- What a path leads to. -/
def find? (t : FileTree) (path : String) : Option FileTree :=
  match t.place? path with
  | .ok place => t.at? place
  | .error _ => none

/-- Whether a path leads to a directory. -/
def hasDirectory (t : FileTree) (path : String) : Bool := (t.find? path).any isDirectory

/-! ## Reading -/

/-- The bytes of a file. -/
def bytes? : FileTree → Except IoFault ByteArray
  | file content => .ok content
  | directory _ => .error .isDirectory

/-- The bytes of the file that a path leads to. -/
def readBytes (t : FileTree) (path : String) : Except IoFault ByteArray := do
  match t.at? (← t.place? path) with
  | some found => found.bytes?
  | none => .error .notFound

/-- The text of some bytes. -/
def decodeText (bytes : ByteArray) : Except IoFault String :=
  match String.fromUTF8? bytes with
  | some text => .ok text
  | none => .error .invalidText

/-! ## Changing -/

/-- The steps of a path in front of its last one, and the last one. Slashes at the end do not
count. -/
def lastStep? (path : String) : Option (List String × String) :=
  if Path.isAbsolute path then none
  else match (Text.splitOn '/' path).reverse.dropWhile (· == "") with
    | [] => none
    | last :: before => some (before.reverse.map fun s => if s = "" then Path.here else s, last)

/-- Makes a directory in a directory that exists. -/
def makeDirectory (t : FileTree) (path : String) : Except IoFault FileTree := do
  let some (before, name) := lastStep? path | throw .notFound
  let place ← t.follow [] before
  match t.at? place with
  | some (directory entries) =>
    if name = Path.here ∨ name = Path.above ∨ (entries.lookup name).isSome then
      throw .alreadyExists
    return t.putAt empty (place ++ [name])
  | some (file _) => throw .notDirectory
  | none => throw .notFound

/-- Makes a directory and those around it, unless they are there already. The number bounds how many
there are. -/
def makeDirectories (t : FileTree) : Nat → String → FileTree × Except IoFault Unit
  | 0, _ => (t, .error .notFound)
  | depth + 1, path =>
    if path = "" then (t, .ok ())
    else
      match t.makeDirectory path with
      | .ok t => (t, .ok ())
      | .error .notFound =>
        match Path.parent? path with
        | none => (t, .error .notFound)
        | some parent =>
          match t.makeDirectories depth parent with
          | (t, .error fault) => (t, .error fault)
          | (t, .ok ()) =>
            match t.makeDirectory path with
            | .ok t => (t, .ok ())
            | .error fault => (t, if t.hasDirectory path then .ok () else .error fault)
      | .error fault => (t, if t.hasDirectory path then .ok () else .error fault)

/-- Makes the directory that a path leads to, and those around it. What has been made stays, also if
the rest fails. -/
def createDirectory (t : FileTree) (path : String) : FileTree × Except IoFault Unit :=
  t.makeDirectories ((Path.steps path).length + 1) path

/-- Puts a file into a directory that exists, in place of one that is there. -/
def writeFile (t : FileTree) (path : String) (content : ByteArray) : Except IoFault FileTree := do
  let some (before, name) := lastStep? path | throw .notFound
  let place ← t.follow [] before
  match t.at? place with
  | some (directory entries) =>
    if name = Path.here ∨ name = Path.above ∨ path.toList.getLast? = some '/' then
      throw .isDirectory
    match entries.lookup name with
    | some (directory _) => throw .isDirectory
    | _ => return t.putAt (file content) (place ++ [name])
  | some (file _) => throw .notDirectory
  | none => throw .notFound

/-! ## Listing -/

mutual

/-- All files of a tree, with the names that lead to them, in order. -/
def files (place : List String) : FileTree → List (List String × ByteArray)
  | file content => [(place, content)]
  | directory entries => entryFiles place entries

/-- All files of some entries. -/
def entryFiles (place : List String) : List (String × FileTree) → List (List String × ByteArray)
  | [] => []
  | (name, inner) :: rest => inner.files (place ++ [name]) ++ entryFiles place rest

end

end FileTree

end ApiDecl
