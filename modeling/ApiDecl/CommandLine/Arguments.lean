import ApiDecl.Files.Path
import ApiDecl.Route.Source
import ApiDecl.Text.Quoted

/-!
# Arguments of the command line

The command takes two directories and some options. Arguments are read from left to right. A value
is held until the next argument is known to be valid, and is stored then: only when it is stored can
it turn out to be missing, empty or given twice.
-/

namespace ApiDecl

/-- The arguments of a run. -/
structure Arguments where
  /-- The directory with the declarations. -/
  inDirectory : String
  /-- The directory for what is generated. -/
  outDirectory : String
  /-- The module of the services, if it is given. -/
  protoModule : Option String
  /-- The crate with the adapter of handlers. -/
  runtimeCrate : String
  /-- Whether details are shown. -/
  verbose : Bool
  deriving Repr, DecidableEq, Inhabited

/-- Why arguments are not those of a run. -/
inductive UsageFault where
  /-- A directory is missing. -/
  | missingDirectory
  /-- An argument means nothing. -/
  | unknownArgument
  /-- An option is given twice. -/
  | repeatedOption
  /-- A value is missing or empty. -/
  | invalidValue
  /-- A flag has a value. -/
  | valueOfFlag
  /-- The usage is asked for. -/
  | helpAsked
  /-- The version is asked for. -/
  | versionAsked
  deriving Repr, DecidableEq, Inhabited

namespace Arguments

/-! ## Reading -/

/-- What a value is for. -/
inductive Slot where
  /-- The directory with the declarations. -/
  | inDirectory
  /-- The directory for what is generated. -/
  | outDirectory
  /-- The module of the services. -/
  | protoModule
  /-- The crate with the adapter of handlers. -/
  | runtimeCrate
  deriving Repr, DecidableEq, Inhabited

/-- What is known after some arguments. -/
structure Progress where
  /-- The values that are stored. -/
  stored : List (Slot × String) := []
  /-- The slot whose value is held, and the value if it has come already. -/
  held : Option (Slot × Option String) := none
  /-- How many directories have come. -/
  directories : Nat := 0
  /-- Whether details are shown. -/
  verbose : Bool := false
  /-- Whether all further arguments are directories. -/
  onlyDirectories : Bool := false
  deriving Repr, DecidableEq, Inhabited

namespace Progress

/-- Stores a value. A directory has to have a name, and every slot has one value. -/
def store (p : Progress) (slot : Slot) (value : String) : Except UsageFault Progress :=
  if (p.stored.lookup slot).isSome then .error .repeatedOption
  else if value.isEmpty ∧ (slot = .inDirectory ∨ slot = .outDirectory) then .error .invalidValue
  else .ok { p with stored := p.stored ++ [(slot, value)] }

/-- Stores the value that is held. -/
def settle (p : Progress) : Except UsageFault Progress :=
  match p.held with
  | none => .ok p
  | some (_, none) => .error .invalidValue
  | some (slot, some value) => { p with held := none }.store slot value

/-- Reads a directory. -/
def directory (p : Progress) (value : String) : Except UsageFault Progress := do
  let slot ← match p.directories with
    | 0 => pure Slot.inDirectory
    | 1 => pure Slot.outDirectory
    | _ => throw .unknownArgument
  let p ← p.settle
  return { p with held := some (slot, some value), directories := p.directories + 1 }

/-- Reads the flag that asks for details. -/
def askDetails (p : Progress) : Except UsageFault Progress := do
  let p ← p.settle
  if p.verbose then throw .repeatedOption
  return { p with verbose := true }

/-- Reads an option with a value, which is attached to it or comes next. -/
def option (p : Progress) (slot : Slot) (attached : Option String) :
    Except UsageFault Progress := do
  let p ← p.settle
  match attached with
  | some value => p.store slot value
  | none => return { p with held := some (slot, none) }

/-- Reads a long option, which is given without its dashes. -/
def longOption (p : Progress) (name : String) (attached : Option String) :
    Except UsageFault Progress := do
  match name with
  | "proto-module" => p.option .protoModule attached
  | "runtime-crate" => p.option .runtimeCrate attached
  | "verbose" => if attached.isSome then throw .valueOfFlag else p.askDetails
  | "help" =>
    if attached.isSome then throw .valueOfFlag
    discard p.settle
    throw .helpAsked
  | "version" =>
    if attached.isSome then throw .valueOfFlag
    discard p.settle
    throw .versionAsked
  | _ => throw .unknownArgument

/-- Reads a short flag. -/
def shortFlag (p : Progress) : Char → Except UsageFault Progress
  | 'v' => p.askDetails
  | 'h' => do
    discard p.settle
    throw .helpAsked
  | 'V' => do
    discard p.settle
    throw .versionAsked
  | _ => throw .unknownArgument

/-- Reads a long option with its dashes cut off. What follows an equals sign is attached. -/
def longArgument (p : Progress) (body : List Char) : Except UsageFault Progress :=
  let name := String.ofList (body.takeWhile (· ≠ '='))
  match body.dropWhile (· ≠ '=') with
  | [] => p.longOption name none
  | _ :: value => p.longOption name (some (String.ofList value))

/-- Reads an argument. -/
def argument (p : Progress) (arg : String) : Except UsageFault Progress :=
  if p.onlyDirectories then p.directory arg
  else match arg.toList with
    | ['-', '-'] => .ok { p with onlyDirectories := true }
    | '-' :: '-' :: body => p.longArgument body
    | '-' :: c :: flags => (c :: flags).foldlM shortFlag p
    | _ =>
      match p.held with
      | some (slot, none) => .ok { p with held := some (slot, some arg) }
      | _ => p.directory arg

/-- The arguments of a run, if both directories are there. -/
def finish (p : Progress) : Except UsageFault Arguments := do
  let p ← p.settle
  match p.stored.lookup .inDirectory, p.stored.lookup .outDirectory with
  | some inDirectory, some outDirectory =>
    return ⟨inDirectory, outDirectory, p.stored.lookup .protoModule,
      (p.stored.lookup .runtimeCrate).getD defaultRuntimeCrate, p.verbose⟩
  | _, _ => throw .missingDirectory

end Progress

/-- The arguments of a run that the command line gives. -/
def parse (args : List String) : Except UsageFault Arguments := do
  (← args.foldlM Progress.argument {}).finish

/-! ## What follows from the arguments -/

/-- The module of the services below a directory: the name of the directory, with underscores for
characters that no module has. -/
def moduleOfDirectory (path : String) : String :=
  match Path.fileName? path with
  | some name =>
    "crate::" ++ String.ofList (name.toList.map fun c =>
      if c = '-' ∨ c = '.' ∨ c = ' ' then '_' else c)
  | none => defaultProtoModule

/-- The names that the source of routes depends on. -/
def sourceNames (a : Arguments) : SourceNames :=
  ⟨a.protoModule.getD (moduleOfDirectory a.inDirectory), a.runtimeCrate⟩

/-- The arguments as a record on one line. -/
def shown (a : Arguments) : String :=
  let protoModule := match a.protoModule with
    | none => "None"
    | some path => "Some(" ++ Text.quote false path ++ ")"
  "CliArgs \x7b in_dir: " ++ Text.quote true a.inDirectory ++
    ", out_dir: " ++ Text.quote true a.outDirectory ++
    ", proto_module: " ++ protoModule ++
    ", runtime_crate: " ++ Text.quote false a.runtimeCrate ++
    ", verbose: " ++ (if a.verbose then "true" else "false") ++ " \x7d"

end Arguments

end ApiDecl
