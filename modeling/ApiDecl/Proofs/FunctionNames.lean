import ApiDecl.Proofs.RouteSource
import ApiDecl.Proofs.SnakeCase

/-!
# Proofs: the names of generated functions

A group has two functions, and both are named after its service in snake case. No name for one
function is a name for the other, because the name of a service ends in an `e`
(`routesFunction_ne_addFunction`), so all functions have different names exactly if the services
have different words (`function_names_differ`).
-/

namespace ApiDecl

open Syntax

/-- The function that makes the router of a service. -/
def routesFunction (service : String) : String := Text.snakeCase service ++ "_routes"

/-- The function that adds the router of a service to another one. -/
def addFunction (service : String) : String := "add_route_" ++ Text.snakeCase service

/-- The functions of a group. -/
def RouteGroup.functions (g : RouteGroup) : List String :=
  [routesFunction g.name, addFunction g.name]

/-- The names of the functions of a compilation, in the order of the source. -/
def Compilation.functions (k : Compilation) : List String := k.groups.flatMap (·.functions)

namespace SourceNames

variable (names : SourceNames)

/-! ## The functions in the source -/

/-- Whether a line declares a function. -/
def isDeclaration (line : String) : Bool := "pub fn ".toList.isPrefixOf line.toList

/-- The line declares a function of this name. -/
def Declares (line function : String) : Prop :=
  ∃ parameters, line = "pub fn " ++ function ++ "<S>(" ++ parameters ++ ") -> Router"

theorem declares_routesFunction (service : String) :
    Declares ("pub fn " ++ Text.snakeCase service ++ "_routes<S>(srv: Arc<S>) -> Router")
      (routesFunction service) := by
  refine ⟨"srv: Arc<S>", ?_⟩
  simp only [routesFunction, String.append_assoc]
  rfl

theorem declares_addFunction (service : String) :
    Declares ("pub fn add_route_" ++ Text.snakeCase service ++
      "<S>(router: Router, srv: Arc<S>) -> Router") (addFunction service) := by
  refine ⟨"router: Router, srv: Arc<S>", ?_⟩
  simp only [addFunction, String.append_assoc]
  rfl

theorem filter_routeLines (g : RouteGroup) (r : Route) :
    (names.routeLines g r).filter isDeclaration = [] := by
  simp [routeLines, isDeclaration]

theorem filter_groupLines (g : RouteGroup) :
    List.Forall₂ Declares ((names.groupLines g).filter isDeclaration) g.functions := by
  have hbound : (names.boundLines g).filter isDeclaration = [] := by
    simp [boundLines, isDeclaration]
  have hroutes : (g.routes.flatMap (names.routeLines g)).filter isDeclaration = [] := by
    rw [List.filter_flatMap, List.flatMap_eq_nil_iff]
    exact fun r _ => filter_routeLines names g r
  have hlines : (names.groupLines g).filter isDeclaration =
      ["pub fn " ++ Text.snakeCase g.name ++ "_routes<S>(srv: Arc<S>) -> Router",
        "pub fn add_route_" ++ Text.snakeCase g.name ++
          "<S>(router: Router, srv: Arc<S>) -> Router"] := by
    simp only [groupLines, List.filter_append, hbound, hroutes, List.append_nil]
    simp [isDeclaration]
  rw [hlines]
  exact .cons (declares_routesFunction g.name) (.cons (declares_addFunction g.name) .nil)

/-- The functions that the source declares, in order, are those of the groups. -/
theorem declares_functions (groups : List RouteGroup) :
    List.Forall₂ Declares ((names.lines groups).filter isDeclaration)
      (groups.flatMap (·.functions)) := by
  have hheader : headerLines.filter isDeclaration = [] := by decide
  rw [lines, List.filter_append, hheader, List.nil_append, List.filter_flatMap, List.flatMap_def,
    List.flatMap_def]
  refine List.rel_flatten ?_
  rw [List.forall₂_map_left_iff, List.forall₂_map_right_iff, List.forall₂_same]
  exact fun g _ => filter_groupLines names g

end SourceNames

/-! ## Different names -/

theorem getLast?_snakeCase_service {name : String}
    (h : serviceEnding.toList.isSuffixOf name.toList = true) :
    (Text.snakeCase name).toList.getLast? = some 'e' := by
  obtain ⟨front, hfront⟩ := List.isSuffixOf_iff_suffix.1 h
  have hlast : name.toList = (front ++ "Servic".toList) ++ ['e'] := by
    rw [← hfront, List.append_assoc]
    rfl
  obtain ⟨before, hbefore⟩ := Text.snakeFrom_concat none (front ++ "Servic".toList) 'e'
  have he : Text.toLower 'e' = ['e'] := by decide
  rw [Text.snakeCase, String.toList_ofList, hlast, hbefore, he, List.getLast?_concat]

/-- A function that makes a router never has the name of one that adds a router. -/
theorem routesFunction_ne_addFunction {service service' : String}
    (h : serviceEnding.toList.isSuffixOf service'.toList = true) :
    routesFunction service ≠ addFunction service' := by
  intro heq
  have hroutes : (routesFunction service).toList.getLast? = some 's' := by
    rw [routesFunction, String.toList_append, List.getLast?_append_of_ne_nil _ (by decide)]
    rfl
  have hadd : (addFunction service').toList.getLast? = some 'e' := by
    have hservice := getLast?_snakeCase_service h
    have hne : (Text.snakeCase service').toList ≠ [] := fun hnil => by simp [hnil] at hservice
    rw [addFunction, String.toList_append, List.getLast?_append_of_ne_nil _ hne, hservice]
  rw [heq, hadd] at hroutes
  exact absurd hroutes (by decide)

theorem snakeCase_of_routesFunction {service service' : String}
    (h : routesFunction service = routesFunction service') :
    Text.snakeCase service = Text.snakeCase service' := by
  have hlist := congrArg String.toList h
  rw [routesFunction, routesFunction, String.toList_append, String.toList_append] at hlist
  exact String.toList_injective (List.append_cancel_right hlist)

theorem snakeCase_of_addFunction {service service' : String}
    (h : addFunction service = addFunction service') :
    Text.snakeCase service = Text.snakeCase service' := by
  have hlist := congrArg String.toList h
  rw [addFunction, addFunction, String.toList_append, String.toList_append] at hlist
  exact String.toList_injective (List.append_cancel_left hlist)

/-- All functions have different names exactly if the names of the services differ in snake case. -/
theorem nodup_functions_iff {groups : List RouteGroup}
    (h : ∀ g ∈ groups, serviceEnding.toList.isSuffixOf g.name.toList = true) :
    (groups.flatMap (·.functions)).Nodup ↔ (groups.map fun g => Text.snakeCase g.name).Nodup := by
  rw [List.nodup_flatMap, List.Nodup, List.pairwise_map]
  constructor
  · rintro ⟨-, hpairs⟩
    refine hpairs.imp fun {g g'} hdisjoint heq => ?_
    have hshared : routesFunction g.name ∈ g'.functions := by
      rw [routesFunction, heq]
      exact List.mem_cons_self
    exact hdisjoint List.mem_cons_self hshared
  · intro hpairs
    refine ⟨fun g hg => ?_, hpairs.imp_of_mem fun {g g'} hg hg' hne f hf hf' => ?_⟩
    · have hne : routesFunction g.name ≠ addFunction g.name :=
        routesFunction_ne_addFunction (h g hg)
      simpa [RouteGroup.functions] using hne
    · rcases List.mem_pair.1 hf with rfl | rfl
      · rcases List.mem_pair.1 hf' with heq | heq
        · exact hne (snakeCase_of_routesFunction heq)
        · exact routesFunction_ne_addFunction (h g' hg') heq
      · rcases List.mem_pair.1 hf' with heq | heq
        · exact routesFunction_ne_addFunction (h g hg) heq.symm
        · exact hne (snakeCase_of_addFunction heq)

theorem names_of_groups {files : List SourceFile} {k : Compilation}
    (hk : (compile files).result = .ok k) :
    k.groups.map (·.name) = (services files).map fun s => plainName s.2.name :=
  (map_eq_of_forall₂ ((groups_declared hk).imp fun _ _ hg => hg.name.symm)).symm

theorem service_of_mem_groups {files : List SourceFile} {k : Compilation}
    (hk : (compile files).result = .ok k) {g : RouteGroup} (hg : g ∈ k.groups) :
    serviceEnding.toList.isSuffixOf g.name.toList = true := by
  obtain ⟨s, hs, hdeclared⟩ := exists_of_mem_right (groups_declared hk) hg
  obtain ⟨f, -, hs⟩ := List.mem_flatMap.1 hs
  obtain ⟨t, ht, rfl⟩ := List.mem_map.1 hs
  rw [hdeclared.name]
  exact (List.mem_filter.1 ht).2

/-- The source of a compilation declares the two functions of every group, in order. They all have
different names exactly if the names of the services have different words; so they have if those
names differ in more than underscores and the case of letters. -/
theorem function_names_differ {files : List SourceFile} {k : Compilation}
    (hk : (compile files).result = .ok k) (names : SourceNames) :
    (names.render k.groups).value = SourceNames.ofLines (names.lines k.groups) ∧
      List.Forall₂ SourceNames.Declares
        ((names.lines k.groups).filter SourceNames.isDeclaration) k.functions ∧
      (k.functions.Nodup ↔
        ((services files).map fun s => Text.nameWords (plainName s.2.name)).Nodup) ∧
      (((services files).map fun s => Text.letters (plainName s.2.name)).Nodup →
        k.functions.Nodup) := by
  have hwords : k.functions.Nodup ↔
      ((services files).map fun s => Text.nameWords (plainName s.2.name)).Nodup := by
    have hmap : (services files).map (fun s => Text.nameWords (plainName s.2.name)) =
        k.groups.map fun g => Text.nameWords g.name := by
      have hnames := congrArg (List.map Text.nameWords) (names_of_groups hk)
      rw [List.map_map, List.map_map] at hnames
      exact hnames.symm
    rw [hmap, Compilation.functions, nodup_functions_iff fun g hg => service_of_mem_groups hk hg,
      List.Nodup, List.Nodup, List.pairwise_map, List.pairwise_map]
    simp only [ne_eq, Text.snakeCase_eq_iff]
  refine ⟨rfl, names.declares_functions k.groups, hwords, fun hletters => hwords.2 ?_⟩
  -- names with the same words have the same letters
  refine List.Nodup.of_map List.flatten ?_
  rw [List.map_map]
  simpa only [Function.comp_def, Text.flatten_nameWords] using hletters

/-! ## Acronyms -/

/-- A file with services without methods. -/
def servicesFile (names : List String) : SourceFile :=
  ⟨"service.rs", names.map fun name => .trait ⟨[], name, []⟩⟩

/-- Services with different words, of which two differ in an underscore only. -/
theorem versions_differ : ∃ k,
    (compile [servicesFile ["HTTPService", "HTTP2Service", "HTTP_2Service"]]).result = .ok k ∧
      k.functions.Nodup := by
  obtain ⟨k, hk⟩ : ∃ k,
      (compile [servicesFile ["HTTPService", "HTTP2Service", "HTTP_2Service"]]).result = .ok k :=
    exists_of_isOk (by decide +kernel)
  obtain ⟨-, -, hwords, -⟩ := function_names_differ hk ⟨defaultProtoModule, defaultRuntimeCrate⟩
  exact ⟨k, hk, hwords.2 (by decide +kernel)⟩

/-- An acronym and a capitalised word are one word, so services with different names can have
functions with the same names. -/
theorem acronyms_clash :
    ((services [servicesFile ["HTTPService", "HttpService"]]).map fun s =>
      plainName s.2.name).Nodup ∧
    ∃ k, (compile [servicesFile ["HTTPService", "HttpService"]]).result = .ok k ∧
      k.functions = ["http_service_routes", "add_route_http_service", "http_service_routes",
        "add_route_http_service"] ∧ ¬ k.functions.Nodup := by
  refine ⟨by decide +kernel, ?_⟩
  obtain ⟨k, hk, hfunctions⟩ := exists_of_any (p := fun k => decide (k.functions =
      ["http_service_routes", "add_route_http_service", "http_service_routes",
        "add_route_http_service"]))
    (x := (compile [servicesFile ["HTTPService", "HttpService"]]).result) (by decide +kernel)
  have hfunctions := of_decide_eq_true hfunctions
  exact ⟨k, hk, hfunctions, by rw [hfunctions]; decide⟩

end ApiDecl
