import ApiDecl.Catalog.Seal
import ApiDecl.Document.Printer
import ApiDecl.Files.Scan
import ApiDecl.Route.Collect
import ApiDecl.Route.Source
import ApiDecl.Syntax.Parser.Complete

/-!
# Compiling declarations

Declarations are parsed, their structs make the catalog, and the catalog and the services give the
definitions and the groups of routes. The first failure ends the compilation.
-/

namespace ApiDecl

open Syntax

/-! ## Parsing -/

/-- Parses a declaration file. -/
def parseText (path text : String) : Compile SourceFile :=
  liftExcept ((SourceFile.parse path text).mapError (Error.parse path))

/-- Parses what reading a declaration file gives. -/
def parseFile (path : String) (content : Except IoFault ByteArray) : Compile SourceFile := do
  liftM (note (.fileStarted path))
  parseText path (← liftExcept ((content >>= FileTree.decodeText).mapError Error.io))

/-- Parses declaration files in order. -/
def parseFiles (files : List (String × Except IoFault ByteArray)) : Compile (List SourceFile) := do
  liftM (note (.parseStarted files.length))
  files.mapM fun (path, content) => parseFile path content

/-- Parses the declaration files that some paths lead to. -/
def FileTree.parsePaths (t : FileTree) (paths : List String) : Compile (List SourceFile) :=
  parseFiles (paths.map fun path => (path, t.readBytes path))

/-! ## Compiling -/

/-- What a compilation gives. -/
structure Compilation where
  /-- The structs. -/
  catalog : Catalog
  /-- The definitions. -/
  definitions : List Definition
  /-- The groups of routes. -/
  groups : List RouteGroup
  deriving Inhabited

/-- Compiles parsed files. -/
def compile (files : List SourceFile) : Compile Compilation := do
  liftM (note (.collectStarted files.length))
  let catalog ← Catalog.collect files
  let definitions ← catalog.definitions
  liftM (note .routesStarted)
  let groups ← catalog.groups files
  return ⟨catalog, definitions, groups⟩

/-- Compiles the declarations of what is found at the path of a directory. -/
def compileFound (path : String) (found : Option FileTree) : Compile Compilation := do
  liftM (note (.scanStarted path))
  let files ← FileTree.scanFound path found
  if files.isEmpty then liftM (note (.scanEmpty path))
  compile (← parseFiles (files.map fun f => (f.path, .ok f.content)))

/-- Compiles the declarations of a directory. -/
def compileDirectory (t : FileTree) (path : String) : Compile Compilation :=
  compileFound path (t.find? path)

/-- The document of a compilation. -/
def Compilation.document (c : Compilation) : Traced Document :=
  Document.assemble c.definitions c.groups

end ApiDecl
