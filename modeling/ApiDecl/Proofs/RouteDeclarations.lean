import ApiDecl.Proofs.FileOrder

/-!
# Proofs: services and their groups

The groups of a compilation are those of the services of its files, one by one and in order
(`groups_declared`). The routes of a group come from the methods of its service: none is lost but
those that have the name of a later one (`RouteGroup.DeclaredBy.exists_route`), so where the names
of methods differ the routes are those of the methods, one by one and in order
(`RouteGroup.DeclaredBy.routes_of_nodup`).
-/

namespace ApiDecl

open Compile Syntax

/-- The services of some files with the paths of their files, in the order of the files and of the
declarations. -/
def services (files : List SourceFile) : List (String × TraitDecl) :=
  files.flatMap fun f => (f.traits.filter Catalog.isService).map (f.path, ·)

/-- The route is the one that the documentation of the method declares. -/
structure Route.DeclaredBy (file group : String) (m : MethodDecl) (r : Route) : Prop where
  name : r.name = plainName m.name
  doc : ∃ doc, RouteDoc.ofLines (group ++ "." ++ r.name) (docLines file m.attributes) = .ok doc ∧
    doc.route = some (r.method, r.path, r.location) ∧ r.code = doc.code ∧
    r.description = "\n".intercalate doc.description

/-- The group is the one that the documentation of the service declares, and its routes are those of
the methods. -/
structure RouteGroup.DeclaredBy (file : String) (t : TraitDecl) (g : RouteGroup) : Prop where
  name : g.name = plainName t.name
  doc : ∃ doc, GroupDoc.ofLines g.name (docLines file t.attributes) = .ok doc ∧
    g.basePath = doc.basePath ∧ g.description = "\n".intercalate doc.description
  routes : ∃ routes, List.Forall₂ (Route.DeclaredBy file g.name) t.methods routes ∧
    g.routes = routes.foldl (fun found r => putByKey Route.name r found) []

/-! ## From methods to routes -/

section Routes

variable {file group : String} {methods : List MethodDecl} {routes : List Route}

theorem names_of_declared (h : List.Forall₂ (Route.DeclaredBy file group) methods routes) :
    routes.map (·.name) = methods.map fun m => plainName m.name :=
  (map_eq_of_forall₂ (h.imp fun _ _ hr => hr.name.symm)).symm

end Routes

namespace RouteGroup.DeclaredBy

variable {file : String} {t : TraitDecl} {g : RouteGroup}

theorem routes_of_nodup (h : g.DeclaredBy file t)
    (hnames : (t.methods.map fun m => plainName m.name).Nodup) :
    List.Forall₂ (Route.DeclaredBy file g.name) t.methods g.routes := by
  obtain ⟨routes, hroutes, heq⟩ := h.routes
  rw [← names_of_declared hroutes] at hnames
  rw [heq, foldl_putByKey (by simpa using hnames)]
  exact hroutes

/-- Every route is that of a method. -/
theorem exists_method (h : g.DeclaredBy file t) {r : Route} (hr : r ∈ g.routes) :
    ∃ m ∈ t.methods, r.DeclaredBy file g.name m := by
  obtain ⟨routes, hroutes, heq⟩ := h.routes
  rw [heq] at hr
  rcases mem_or_mem_of_mem_foldl_putByKey hr with hr | hr
  · exact exists_of_mem_right hroutes hr
  · cases hr

/-- For every method there is a route with its name. -/
theorem exists_route (h : g.DeclaredBy file t) {m : MethodDecl} (hm : m ∈ t.methods) :
    ∃ r ∈ g.routes, r.name = plainName m.name := by
  obtain ⟨routes, hroutes, heq⟩ := h.routes
  have hname : plainName m.name ∈ g.routes.map (·.name) := by
    rw [heq, mem_map_foldl_putByKey, names_of_declared hroutes]
    exact .inl (List.mem_map.2 ⟨m, hm, rfl⟩)
  exact List.mem_map.1 hname

end RouteGroup.DeclaredBy

/-! ## Collecting -/

namespace Catalog

variable (c : Catalog)

theorem route_declares (file group : String) (m : MethodDecl) :
    Yields (Route.DeclaredBy file group m) (c.route file group m) := by
  unfold route
  refine (Yields.ofExcept fun _ h => h).bind fun doc hdoc => ?_
  cases hroute : doc.route with
  | none => exact .throw _
  | some declared =>
    -- what the documentation says is in the route, whatever the steps in between give
    refine (Yields.anything _).bind fun signature _ => ?_
    refine (Yields.anything _).bind fun request _ => ?_
    refine (Yields.anything _).bind fun answer _ => ?_
    refine (Yields.anything _).bind fun parameters _ => ?_
    refine (Yields.anything _).bind fun requestBody _ => ?_
    refine (Yields.anything _).bind fun response _ => ?_
    refine (Yields.anything _).bind fun _ _ => .pure ?_
    exact ⟨rfl, doc, hdoc, hroute, rfl, rfl⟩

theorem group_declares (file : String) (t : TraitDecl) :
    Yields (RouteGroup.DeclaredBy file t) (c.group file t) := by
  unfold group
  refine (Yields.note _).bind fun _ _ => ?_
  refine (Yields.ofExcept fun _ h => h).bind fun doc hdoc => ?_
  have hroutes := Yields.mapM fun m (_ : m ∈ t.methods) =>
    route_declares c file (plainName t.name) m
  refine hroutes.bind fun routes hroutes => .pure ?_
  exact ⟨rfl, ⟨doc, hdoc, rfl, rfl⟩, routes, hroutes, rfl⟩

theorem groups_declare (files : List SourceFile) :
    Yields (List.Forall₂ (fun s g => g.DeclaredBy s.1 s.2) (services files)) (c.groups files) := by
  have hfiles := Yields.mapM fun f (_ : f ∈ files) =>
    Yields.mapM fun t (_ : t ∈ f.traits.filter isService) => group_declares c f.path t
  unfold groups
  refine hfiles.bind fun found hfound => (Yields.note _).bind fun _ _ => .pure ?_
  rw [services, List.flatMap_def]
  refine List.rel_flatten ?_
  rw [List.forall₂_map_left_iff]
  refine hfound.imp fun f gs hgs => ?_
  rwa [List.forall₂_map_left_iff]

end Catalog

/-- The groups of a compilation are those of the services, one by one. -/
theorem groups_declared {files : List SourceFile} {k : Compilation}
    (hk : (compile files).result = .ok k) :
    List.Forall₂ (fun s g => g.DeclaredBy s.1 s.2) (services files) k.groups := by
  obtain ⟨-, -, hgroups⟩ := compile_ok_iff.1 hk
  exact Catalog.groups_declare k.catalog files #[] k.groups hgroups

/-! ## Services without structs -/

/-- A method with one line of documentation, without a request and an answer. -/
def plainMethod (name line : String) : MethodDecl :=
  ⟨[⟨⟨false, ["doc"]⟩, .value (some line), ⟨3, 5⟩⟩], name,
    [.path false [.plain "Context"], .tuple [] false],
    some (.path false [.generic "Result" false
      [.type (.tuple [] false), .type (.path false [.plain "Error"])] false])⟩

/-- A file with one service, with one line of documentation. -/
def plainFile (name line : String) (methods : List MethodDecl) : SourceFile :=
  ⟨"service.rs", [.trait ⟨[⟨⟨false, ["doc"]⟩, .value (some line), ⟨1, 1⟩⟩], name, methods⟩]⟩

/-- The full paths of the routes, group by group. -/
def Compilation.paths (k : Compilation) : List (List String) :=
  k.groups.map fun g => g.routes.map g.fullPath

theorem Compilation.exists_route_of_paths {k : Compilation} {path : String}
    (h : k.paths = [[path]]) : ∃ g ∈ k.groups, ∃ r ∈ g.routes, g.fullPath r = path := by
  obtain ⟨g, hgroups, hg⟩ := List.map_eq_singleton_iff.1 h
  obtain ⟨r, hroutes, hr⟩ := List.map_eq_singleton_iff.1 hg
  exact ⟨g, by simp [hgroups], r, by simp [hroutes], hr⟩

end ApiDecl
