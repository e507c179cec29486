import ApiDecl.Proofs.RouteDeclarations
import ApiDecl.Route.Source

/-!
# Proofs: the source of routes

The source of routes is a header and a block for each group (`value_render`). A block is a head, a
call for each route and a foot; only the calls depend on the routes.
-/

namespace ApiDecl

namespace SourceNames

variable (names : SourceNames)

/-! ## The parts of the source -/

/-- Lines with a line feed behind each. -/
def ofLines (lines : List String) : String := String.join (lines.map (· ++ "\n"))

/-- What stands in front of all blocks. -/
def header : String := ofLines headerLines

/-- The lines in which a function asks for its service. -/
def bound (service : String) : List String :=
  ["where",
    "    S: " ++ names.protoModule ++ "::" ++ service ++ " + Send + Sync + 'static,",
    "\x7b"]

/-- The start of a block. -/
def blockHead (service : String) : String :=
  ofLines (["",
    "/// Routes of `" ++ service ++ "` on their own router, for group-scoped layers.",
    "pub fn " ++ Text.snakeCase service ++ "_routes<S>(srv: Arc<S>) -> Router"] ++
    names.bound service ++ ["    Router::new()"])

/-- The call that adds a route: its path as a literal, its method, and what handles it. -/
def call (literal : String) (method : HttpMethod) (handler : String) : String :=
  ofLines ["        .route(",
    "            " ++ literal ++ ",",
    "            on(MethodFilter::" ++ method.name ++ ", " ++ names.runtimeCrate ++
      "::handle(srv.clone(), " ++ handler ++ ")),",
    "        )"]

/-- The end of a block. -/
def blockFoot (service : String) : String :=
  ofLines (["\x7d",
    "",
    "pub fn add_route_" ++ Text.snakeCase service ++
      "<S>(router: Router, srv: Arc<S>) -> Router"] ++
    names.bound service ++
    ["    router.merge(" ++ Text.snakeCase service ++ "_routes(srv))", "\x7d"])

/-- The literal for the path of a route. -/
def pathLiteral (path : String) : String := "\"" ++ routerPath path ++ "\""

/-- The path of the function that handles a route. -/
def handlerPath (method : String) : String := "S::" ++ method

/-- The call of a route. -/
def routeCall (g : RouteGroup) (r : Route) : String :=
  names.call (pathLiteral (g.fullPath r)) r.method (handlerPath r.name)

/-- The block of a group. -/
def block (g : RouteGroup) : String :=
  names.blockHead g.name ++ String.join (g.routes.map (names.routeCall g)) ++ names.blockFoot g.name

/-! ## Rendering -/

theorem ofLines_append (lines lines' : List String) :
    ofLines (lines ++ lines') = ofLines lines ++ ofLines lines' := by
  rw [ofLines, List.map_append, String.join_append, ofLines, ofLines]

theorem ofLines_flatMap {α : Type} (f : α → List String) (l : List α) :
    ofLines (l.flatMap f) = String.join (l.map fun a => ofLines (f a)) := by
  induction l with
  | nil => rfl
  | cons a l ih => rw [List.flatMap_cons, ofLines_append, ih, List.map_cons, String.join_cons]

theorem ofLines_routeLines (g : RouteGroup) (r : Route) :
    ofLines (names.routeLines g r) = names.routeCall g r := by
  have hquote : "            \"" = "            " ++ "\"" := by decide
  have hclose : "\"," = "\"" ++ "," := by decide
  have hhandler : "::handle(srv.clone(), S::" = "::handle(srv.clone(), " ++ "S::" := by decide
  rw [routeCall, call, pathLiteral, handlerPath, routeLines, hquote, hclose, hhandler]
  simp only [String.append_assoc]

theorem ofLines_groupLines (g : RouteGroup) : ofLines (names.groupLines g) = names.block g := by
  have hbound : names.bound g.name = names.boundLines g := rfl
  rw [groupLines, block, blockHead, blockFoot, hbound]
  simp only [ofLines_append, ofLines_flatMap, ofLines_routeLines, String.append_assoc]

/-- The source is a header and the blocks of the groups, in order. -/
theorem value_render (groups : List RouteGroup) :
    (names.render groups).value = header ++ String.join (groups.map names.block) := by
  have hvalue : (names.render groups).value = ofLines (names.lines groups) := rfl
  rw [hvalue, lines, ofLines_append, ofLines_flatMap, header]
  simp only [ofLines_groupLines]

theorem exists_join {s : String} {l : List String} (h : s ∈ l) :
    ∃ before behind, String.join l = before ++ s ++ behind := by
  obtain ⟨l₁, l₂, rfl⟩ := List.append_of_mem h
  refine ⟨String.join l₁, String.join l₂, ?_⟩
  rw [String.join_append, String.join_cons, String.append_assoc]

/-- The call of every route of every group stands in the source. -/
theorem render_has_call {groups : List RouteGroup} {g : RouteGroup} (hg : g ∈ groups) {r : Route}
    (hr : r ∈ g.routes) :
    ∃ before behind, (names.render groups).value = before ++ names.routeCall g r ++ behind := by
  obtain ⟨before, behind, hblocks⟩ := exists_join (List.mem_map_of_mem hg (f := names.block))
  obtain ⟨before', behind', hcalls⟩ := exists_join (List.mem_map_of_mem hr (f := names.routeCall g))
  refine ⟨header ++ before ++ names.blockHead g.name ++ before',
    behind' ++ names.blockFoot g.name ++ behind, ?_⟩
  rw [names.value_render, hblocks, block, hcalls]
  simp only [String.append_assoc]

end SourceNames

end ApiDecl
