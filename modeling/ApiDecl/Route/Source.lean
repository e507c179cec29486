import ApiDecl.Event
import ApiDecl.Route.Basic
import ApiDecl.Route.RouterPath
import ApiDecl.Text.SnakeCase

/-!
# The source that registers routes

For each group there is a function that makes a router with its routes, and one that merges this
router into another. The source is a list of lines, and each line ends with a line feed.
-/

namespace ApiDecl

/-- The names that the source of routes depends on. -/
structure SourceNames where
  /-- The path of the module with the traits of the services. -/
  protoModule : String
  /-- The crate with the adapter of handlers. -/
  runtimeCrate : String
  deriving Repr, DecidableEq, Inhabited

/-- The module of the services if nothing else is known. -/
def defaultProtoModule : String := "crate::proto"

/-- The crate of the adapter if nothing else is said. -/
def defaultRuntimeCrate : String := "apicat_rpc"

namespace SourceNames

/-- The lines in front of all groups. -/
def headerLines : List String :=
  ["// Code generated by apicat-from-source. DO NOT EDIT.",
    "",
    "use std::sync::Arc;",
    "",
    "use axum::routing::\x7bon, MethodFilter\x7d;",
    "use axum::Router;"]

/-- The lines of a route. -/
def routeLines (names : SourceNames) (g : RouteGroup) (r : Route) : List String :=
  let path := routerPath (g.fullPath r)
  let method := r.method.name
  ["        .route(",
    "            \"" ++ path ++ "\",",
    "            on(MethodFilter::" ++ method ++ ", " ++ names.runtimeCrate ++
      "::handle(srv.clone(), S::" ++ r.name ++ ")),",
    "        )"]

/-- The lines that ask for a service. -/
def boundLines (names : SourceNames) (g : RouteGroup) : List String :=
  ["where",
    "    S: " ++ names.protoModule ++ "::" ++ g.name ++ " + Send + Sync + 'static,",
    "\x7b"]

/-- The lines of a group. -/
def groupLines (names : SourceNames) (g : RouteGroup) : List String :=
  let function := Text.snakeCase g.name
  ["",
    "/// Routes of `" ++ g.name ++ "` on their own router, for group-scoped layers.",
    "pub fn " ++ function ++ "_routes<S>(srv: Arc<S>) -> Router"] ++
    names.boundLines g ++ ["    Router::new()"] ++ g.routes.flatMap (names.routeLines g) ++
  ["\x7d",
    "",
    "pub fn add_route_" ++ function ++ "<S>(router: Router, srv: Arc<S>) -> Router"] ++
    names.boundLines g ++ ["    router.merge(" ++ function ++ "_routes(srv))", "\x7d"]

/-- The lines of the source. -/
def lines (names : SourceNames) (groups : List RouteGroup) : List String :=
  headerLines ++ groups.flatMap names.groupLines

/-- The source that registers the routes of some groups. -/
def render (names : SourceNames) (groups : List RouteGroup) : Traced String := do
  note (.renderStarted groups.length)
  return String.join ((names.lines groups).map (· ++ "\n"))

end SourceNames

end ApiDecl
