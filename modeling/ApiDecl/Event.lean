import ApiDecl.Error
import ApiDecl.Route.Method

/-!
# Events

What a run reports while it works. Reports go on after an error: a computation that fails keeps the
events up to its failure.
-/

namespace ApiDecl

/-- How important an event is. -/
inductive Level where
  /-- Something was left out. -/
  | warn
  /-- Progress. -/
  | info
  /-- Details. -/
  | debug
  deriving Repr, DecidableEq, Inhabited

/-- The name of a level. -/
def Level.name : Level → String
  | warn => "WARN"
  | info => "INFO"
  | debug => "DEBUG"

/-- Something that happens during a run. -/
inductive Event where
  /-- An element or value type means nothing and is left open. -/
  | elementDropped (file : String) (error : Error)
  /-- A struct has no named fields. -/
  | structUnnamed (name : String)
  /-- A struct has no fields with tags. -/
  | structUntagged (name : String)
  /-- A struct is part of the table. -/
  | structCollected (name : String) (fields embeds : Nat)
  /-- A struct takes the place of another one. -/
  | structRepeated (name file : String)
  /-- An embedded field is not a struct. -/
  | embedNotStruct (file owner field typeName : String)
  /-- The type of an embedded field means nothing. -/
  | embedSkipped (file owner field : String) (error : Error)
  /-- The tag of a field is malformed. -/
  | tagMalformed (file owner field reason : String)
  /-- The type of a field means nothing. -/
  | fieldSkipped (file owner field : String) (error : Error)
  /-- An embedding would lead back to a struct that is being merged. -/
  | embeddingCycle (path : List String) (target : String)
  /-- An embedded struct does not exist. -/
  | embedUnknown (target owner : String)
  /-- The table of structs is sealed. -/
  | catalogSealed (count : Nat)
  /-- A definition is compiled. -/
  | definitionStarted (name : String)
  /-- All definitions are compiled. -/
  | definitionsDone (count : Nat)
  /-- A field names a struct that does not exist. -/
  | schemaUnknown (name : String)
  /-- A service is read. -/
  | groupStarted (name file : String)
  /-- A parameter tag has no name. -/
  | parameterUnnamed (owner key struct field : String)
  /-- A request or response names a struct that does not exist. -/
  | routeStructUnknown (name : String)
  /-- A route is read. -/
  | routeDone (owner : String) (method : HttpMethod) (path : String)
  /-- All services are read. -/
  | routesDone (groups routes : Nat)
  /-- The compilation of parsed files starts. -/
  | collectStarted (files : Nat)
  /-- The collection of routes starts. -/
  | routesStarted
  /-- A directory is searched for declarations. -/
  | scanStarted (directory : String)
  /-- A directory has been searched. -/
  | scanDone (directory : String) (files : Nat)
  /-- A directory has no declarations. -/
  | scanEmpty (directory : String)
  /-- Files are parsed. -/
  | parseStarted (files : Nat)
  /-- A file is parsed. -/
  | fileStarted (path : String)
  /-- The route source is rendered. -/
  | renderStarted (groups : Nat)
  /-- The document is put together. -/
  | documentStarted (definitions groups : Nat)
  /-- The document is written as JSON. -/
  | documentPrinted
  /-- A file is written. -/
  | writeStarted (path : String)
  /-- A file has been written. -/
  | writeDone (path : String) (bytes : Nat)
  /-- The command line has been read. -/
  | argumentsParsed (shown : String)
  /-- The input directory of a run. -/
  | inputDirectory (path : String)
  /-- The output directory of a run. -/
  | outputDirectory (path : String)
  /-- A run starts to compile. -/
  | runStarted
  /-- The module of the service traits is known. -/
  | protoModule (path : String)
  /-- A run has succeeded. -/
  | runDone
  /-- The counts of a run follow. -/
  | summaryStarted
  /-- One count of a run. -/
  | summaryCount (what : String) (count : Nat)
  deriving Repr, DecidableEq, Inhabited

namespace Event

/-- How important an event is. -/
def level : Event → Level
  | structRepeated .. | embedNotStruct .. | embedSkipped .. | tagMalformed .. | fieldSkipped .. |
    embeddingCycle .. | parameterUnnamed .. | scanEmpty .. => .warn
  | catalogSealed .. | definitionsDone .. | routesDone .. | collectStarted .. | routesStarted |
    scanStarted .. | inputDirectory .. | outputDirectory .. | runStarted | runDone |
    summaryStarted | summaryCount .. => .info
  | elementDropped .. | structUnnamed .. | structUntagged .. | structCollected .. |
    embedUnknown .. | definitionStarted .. | schemaUnknown .. | groupStarted .. |
    routeStructUnknown .. | routeDone .. | scanDone .. | parseStarted .. | fileStarted .. |
    renderStarted .. | documentStarted .. | documentPrinted | writeStarted .. | writeDone .. |
    argumentsParsed .. | protoModule .. => .debug

/-- The text of an event. -/
def message : Event → String
  | elementDropped file error => s!"Dropping element type in {file}: {error.message}"
  | structUnnamed name => s!"Skipping struct {name} without named fields"
  | structUntagged name => s!"Skipping struct {name}: no tagged fields"
  | structCollected name fields embeds =>
    s!"Collected struct {name} ({fields} fields, {embeds} embedded)"
  | structRepeated name file =>
    s!"Struct {name} is declared more than once; the declaration in {file} wins"
  | embedNotStruct file owner field typeName =>
    s!"{file}: embedded field {owner}.{field} is a {typeName}, not a struct; skipping"
  | embedSkipped file owner field error =>
    s!"{file}: skipping embedded field {owner}.{field}: {error.message}"
  | tagMalformed file owner field reason =>
    s!"{file}: skipping field {owner}.{field} with malformed tag: {reason}"
  | fieldSkipped file owner field error =>
    s!"{file}: skipping field {owner}.{field}: {error.message}"
  | embeddingCycle path target =>
    "Embedding cycle " ++ " -> ".intercalate path ++ s!" -> {target}; the embedding is ignored"
  | embedUnknown target owner =>
    s!"Embedded struct {target} of {owner} is unknown and contributes no fields"
  | catalogSealed count => s!"Collected {count} structs"
  | definitionStarted name => s!"Compiling schema definition {name}"
  | definitionsDone count => s!"Compiled {count} schema definitions"
  | schemaUnknown name => s!"No struct named {name}; emitting an empty schema"
  | groupStarted name file => s!"Collecting route group {name} from {file}"
  | parameterUnnamed owner key struct field =>
    s!"{owner}: {key} tag on {struct}.{field} has no parameter name, skipping"
  | routeStructUnknown name => s!"No struct named {name}; no schema is generated for it"
  | routeDone owner method path => s!"Collected route {owner} {method.name} {path}"
  | routesDone groups routes => s!"Collected {groups} route groups with {routes} routes"
  | collectStarted files => s!"Collecting structs from {files} files..."
  | routesStarted => "Collecting routes..."
  | scanStarted directory => s!"Scanning declaration directory {directory}..."
  | scanDone directory files => s!"Scanned {directory}: {files} declaration files"
  | scanEmpty directory => s!"No declaration files found in {directory}"
  | parseStarted files => s!"Parsing {files} files"
  | fileStarted path => s!"Parsing file: {path}"
  | renderStarted groups => s!"Rendering route registration for {groups} groups"
  | documentStarted definitions groups =>
    s!"Assembling document with {definitions} definitions and {groups} groups"
  | documentPrinted => "Serializing apicat document to JSON"
  | writeStarted path => s!"Writing content to file: {path}"
  | writeDone path bytes => s!"Wrote {bytes} bytes to {path}"
  | argumentsParsed shown => s!"Parsed arguments: {shown}"
  | inputDirectory path => s!"Input directory: {path}"
  | outputDirectory path => s!"Output directory: {path}"
  | runStarted => "Compiling declarations..."
  | protoModule path => s!"Service traits resolved from module {path}"
  | runDone => "Generation complete!"
  | summaryStarted => "Summary:"
  | summaryCount what count => s!"  - {what}: {count}"

end Event

/-- A computation that reports events. -/
abbrev Traced := StateM (Array Event)

/-- Reports an event. -/
def note (e : Event) : Traced Unit := modify (·.push e)

/-- A computation that reports events and may fail. -/
abbrev Compile := ExceptT Error Traced

/-- The outcome of a computation and the events up to it. -/
def Compile.outcome {α : Type} (c : Compile α) : Except Error α × List Event :=
  let (result, events) := Id.run (c.run.run #[])
  (result, events.toList)

end ApiDecl
