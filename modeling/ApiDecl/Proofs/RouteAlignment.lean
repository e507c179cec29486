import ApiDecl.Proofs.RouteSource

/-!
# Proofs: declarations, documents and sources agree

The services of some files, the categories of the document and the blocks of the source correspond
to each other one by one, and so do the methods, the items and the calls
(`declarations_reach_source`). What a call says of its route is what the item says of it.
-/

namespace ApiDecl

open Compile Syntax

/-- The group is that of a service in a file, and its routes are those of the methods. -/
structure RouteGroup.IsOf (s : String × TraitDecl) (g : RouteGroup) : Prop where
  declared : g.DeclaredBy s.1 s.2
  routes : List.Forall₂ (Route.DeclaredBy s.1 g.name) s.2.methods g.routes

/-! ## Documents -/

/-- Where a node says that its route is found. -/
def ContentNode.url? : ContentNode → Option UrlNode
  | url node => some node
  | request _ | response _ => none

/-- Where the nodes of an item say that its route is found. -/
def DocumentItem.urls (i : DocumentItem) : List UrlNode := i.content.filterMap ContentNode.url?

/-- The item is that of a route, below a category with some number. -/
structure DocumentItem.IsOf (parent : UInt64) (g : RouteGroup) (r : Route) (i : DocumentItem) :
    Prop where
  title : i.title = r.description
  parent : i.parentId = parent
  urls : i.urls = [⟨g.basePath ++ r.path, r.method⟩]

/-- The category is that of a group, and its items are those of the routes. -/
structure Category.IsOf (g : RouteGroup) (c : Category) : Prop where
  title : c.title = g.description
  id : c.id = definitionId g.name
  items : List.Forall₂ (DocumentItem.IsOf c.id g) g.routes c.items

theorem category_isOf (g : RouteGroup) : Category.IsOf g g.category where
  title := rfl
  id := rfl
  items := by
    rw [RouteGroup.category, List.forall₂_map_right_iff]
    exact List.forall₂_same.2 fun r _ => ⟨rfl, rfl, rfl⟩

theorem categories_areOf (k : Compilation) :
    List.Forall₂ Category.IsOf k.groups k.document.value.categories := by
  have hcategories : k.document.value.categories = k.groups.map (·.category) := rfl
  rw [hcategories, List.forall₂_map_right_iff]
  exact List.forall₂_same.2 fun g _ => category_isOf g

/-! ## Sources -/

/-- The call says of a route what its item says, and names its method. -/
def SourceNames.Calls (names : SourceNames) (p : Route × DocumentItem) (call : String) : Prop :=
  ∃ url, p.2.urls = [url] ∧
    call = names.call (pathLiteral url.path) url.method (handlerPath p.1.name)

/-- The block of a group and its category has one call for each route and its item. -/
def SourceNames.Registers (names : SourceNames) (p : RouteGroup × Category) (block : String) :
    Prop :=
  ∃ calls, block = names.blockHead p.1.name ++ String.join calls ++ names.blockFoot p.1.name ∧
    List.Forall₂ names.Calls (p.1.routes.zip p.2.items) calls

theorem forall₂_zip_map {α β γ : Type} {S : α → β → Prop} {R : α × β → γ → Prop} {f : α → γ}
    {as : List α} {bs : List β} (h : List.Forall₂ S as bs) (hf : ∀ a b, S a b → R (a, b) (f a)) :
    List.Forall₂ R (as.zip bs) (as.map f) := by
  induction h with
  | nil => exact .nil
  | cons hab _ ih => exact .cons (hf _ _ hab) ih

theorem SourceNames.block_registers (names : SourceNames) {g : RouteGroup} {c : Category}
    (hc : c.IsOf g) : names.Registers (g, c) (names.block g) := by
  refine ⟨_, rfl, forall₂_zip_map hc.items fun r i hi => ?_⟩
  exact ⟨_, hi.urls, rfl⟩

/-- Nothing is lost between declarations, document and source. The groups are those of the services
and their routes those of the methods, if no service has two methods of one name; the categories and
items are those of the groups and routes; and the blocks and calls of the source are those of the
groups with their categories and of the routes with their items. All are in the same order. -/
theorem declarations_reach_source {files : List SourceFile} {k : Compilation}
    (hk : (compile files).result = .ok k)
    (hnames : ∀ s ∈ services files, (s.2.methods.map fun m => plainName m.name).Nodup) :
    List.Forall₂ RouteGroup.IsOf (services files) k.groups ∧
      List.Forall₂ Category.IsOf k.groups k.document.value.categories ∧
      ∀ names : SourceNames, ∃ blocks,
        (names.render k.groups).value = SourceNames.header ++ String.join blocks ∧
        List.Forall₂ names.Registers (k.groups.zip k.document.value.categories) blocks := by
  have hgroups : List.Forall₂ RouteGroup.IsOf (services files) k.groups := by
    have hdeclared := (List.forall₂_and_left _ _).2 ⟨hnames, groups_declared hk⟩
    exact hdeclared.imp fun s g ⟨hs, hg⟩ => ⟨hg, hg.routes_of_nodup hs⟩
  have hcategories := categories_areOf k
  refine ⟨hgroups, hcategories, fun names => ⟨_, names.value_render k.groups, ?_⟩⟩
  exact forall₂_zip_map hcategories fun g c hc => names.block_registers hc

/-- A service with two routes, one of them for a method with a raw name. -/
def zooFile : SourceFile :=
  plainFile "r#ZooService" " @group /zoo"
    [plainMethod "find" " @route GET /\x7bid\x7d", plainMethod "r#move" " @route post /all"]

theorem zoo_reaches_source : ∃ k, (compile [zooFile]).result = .ok k ∧
    k.paths = [["/zoo/\x7bid\x7d", "/zoo/all"]] ∧
    List.Forall₂ RouteGroup.IsOf (services [zooFile]) k.groups ∧
    List.Forall₂ Category.IsOf k.groups k.document.value.categories := by
  obtain ⟨k, hk, hpaths⟩ : ∃ k, (compile [zooFile]).result = .ok k ∧
      (k.paths == [["/zoo/\x7bid\x7d", "/zoo/all"]]) = true :=
    exists_of_any (by decide +kernel)
  have hnames : ∀ s ∈ services [zooFile], (s.2.methods.map fun m => plainName m.name).Nodup := by
    decide +kernel
  obtain ⟨hgroups, hcategories, -⟩ := declarations_reach_source hk hnames
  exact ⟨k, hk, beq_iff_eq.1 hpaths, hgroups, hcategories⟩

end ApiDecl
