import ApiDecl.Proofs.Determinacy
import ApiDecl.Proofs.Places
import ApiDecl.Proofs.Success

/-!
# Proofs: references lead to definitions

In a compilation every reference, wherever it stands, is to one of the definitions, and to the one of
the struct that the type at its place names (`Compilation.Links`).
-/

namespace ApiDecl

open Compile Syntax

namespace Catalog

variable {c : Catalog}

/-- The references in the schema of a body are to what the types at their places name. -/
theorem bodySchema_refersTo {n : TypeName} {s : StructDescriptor} {σ ρ : Schema}
    {place : List Schema.Step} {reference : String} (hn : c.get? n = some s)
    (hσ : (c.bodySchema s).result = .ok σ) (hρ : σ.At place ρ)
    (hreference : ρ.reference = some reference) : c.RefersTo (.named n) place reference := by
  rcases bodySchema_written hσ with ⟨hs, rfl⟩ | ⟨-, hw⟩
  · obtain ⟨rfl, rfl⟩ := at_referTo hρ hreference
    exact ⟨n, s, rfl, hn, hs, rfl⟩
  · exact (hw.refersTo hρ hreference).named hn

/-- The references in the schema of a field are to what the types at their places name. -/
theorem fieldSchema_refersTo {f : Field} {σ ρ : Schema} {place : List Schema.Step}
    {reference : String} (hσ : (c.fieldSchema f).result = .ok σ) (hρ : σ.At place ρ)
    (hreference : ρ.reference = some reference) : c.RefersTo f.type place reference := by
  obtain ⟨value, hw, rfl⟩ := fieldSchema_eq_ok_iff.1 hσ
  obtain ⟨ρ', hρ', hsame⟩ := at_describe hρ
  exact hw.refersTo hρ' (hsame.reference.symm.trans hreference)

end Catalog

/-! ## Compilations -/

namespace Compilation

/-- Every reference in the schema is to a definition, that of the struct that the type at the place
of the reference names. -/
def Links (k : Compilation) (t : FieldType) (σ : Schema) : Prop :=
  ∀ place ρ reference, σ.At place ρ → ρ.reference = some reference →
    ∃ n s d, k.catalog.typeAt? t place = some (.named n) ∧ k.catalog.get? n = some s ∧
      d ∈ k.definitions ∧ d.name = s.name ∧
      reference = Schema.referenceStart ++ toString d.id.toNat

/-- The definitions are the structs that are definitions, in the order of their names. -/
structure DefinitionsMatch (k : Compilation) : Prop where
  names : k.definitions.map (·.name) =
    (k.catalog.structs.filter (·.isDefinition)).map (·.name)
  increasing : (k.definitions.map (·.name)).Pairwise (· < ·)
  id : ∀ d ∈ k.definitions, d.id = definitionId d.name
  root : ∀ d ∈ k.definitions, d.schema.reference = none

/-- The references of a route link to the definitions: those of the parameters at each place, which
are of fields of the request, and those of the bodies. -/
structure RouteLinks (k : Compilation) (r : Route) : Prop where
  parameters : ∀ place, List.Forall₂
    (fun f q => q.name = f.tag.get place.name ∧ k.Links f.type q.schema)
    ((r.input.bind k.catalog.get?).elim [] (·.parameterFields place))
    ((r.parameters.get? place).getD [])
  requestBody : ∀ σ ∈ r.requestBody, ∃ n ∈ r.input, k.Links (.named n) σ
  response : ∀ σ ∈ r.response, ∃ n ∈ r.output, k.Links (.named n) σ

end Compilation

/-- What compiling gives: the definitions and the routes of a sealed table. -/
theorem compile_yields (files : List SourceFile) :
    Yields (fun k => k.catalog.Ordered ∧
      (∃ log, k.catalog = (Id.run ((Catalog.collect files).run log)).1) ∧
      k.catalog.definitions.result = .ok k.definitions ∧
      ∀ g ∈ k.groups, ∀ r ∈ g.routes, r.Compiled k.catalog) (compile files) := by
  have hcollect : Traced.Yields
      (fun c => c.Ordered ∧ ∃ log, c = (Id.run ((Catalog.collect files).run log)).1)
      (Catalog.collect files) := fun log => ⟨Catalog.collect_ordered files log, log, rfl⟩
  unfold compile
  refine (Yields.note _).bind fun _ _ => ?_
  refine (Yields.lift hcollect).bind fun c hboth => ?_
  obtain ⟨hc, hlog⟩ := hboth
  refine (Yields.of_steady (Catalog.steady_definitions c)).bind fun defs hdefs => ?_
  refine (Yields.note _).bind fun _ _ => ?_
  exact (Catalog.groups_yield c files).bind fun gs hgs => .pure ⟨hc, hlog, hdefs, hgs⟩

section Links

variable {k : Compilation} (hdefs : k.catalog.definitions.result = .ok k.definitions)
include hdefs

/-- There is a definition for every struct that is one. -/
theorem links_of_refersTo {t : FieldType} {σ : Schema}
    (h : ∀ place ρ reference, σ.At place ρ → ρ.reference = some reference →
      k.catalog.RefersTo t place reference) : k.Links t σ := by
  intro place ρ reference hρ hreference
  obtain ⟨n, s, htype, hn, hs, rfl⟩ := h place ρ reference hρ hreference
  obtain ⟨d, hd, hid, hname, -⟩ := exists_of_mem_left (Catalog.definitions_written hdefs)
    (Catalog.mem_definitions.2 ⟨Catalog.mem_of_find? hn, hs⟩)
  exact ⟨n, s, d, htype, hn, hd, hname, by rw [hid]⟩

theorem definitionsMatch (hc : k.catalog.Ordered) : k.DefinitionsMatch := by
  have hwritten := Catalog.definitions_written hdefs
  have hnames : (k.catalog.structs.filter (·.isDefinition)).map (·.name) =
      k.definitions.map (·.name) := map_eq_of_forall₂ (hwritten.imp fun s d hd => hd.2.1.symm)
  refine ⟨hnames.symm, ?_, fun d hd => ?_, fun d hd => ?_⟩
  · rw [← hnames]
    exact List.Pairwise.sublist (List.filter_sublist.map _) hc
  · obtain ⟨s, -, hid, hname, -⟩ := exists_of_mem_right hwritten hd
    rw [hid, hname]
  · obtain ⟨s, -, -, -, hw⟩ := exists_of_mem_right hwritten hd
    exact hw.struct_keeps.2.2

theorem definition_links (hc : k.catalog.Ordered) {d : Definition} (hd : d ∈ k.definitions) :
    ∃ s, k.catalog.find? d.name = some s ∧ k.Links (.struct s) d.schema := by
  obtain ⟨s, hs, -, hname, hw⟩ := exists_of_mem_right (Catalog.definitions_written hdefs) hd
  refine ⟨s, ?_, links_of_refersTo hdefs fun _ _ _ => hw.refersTo⟩
  rw [hname]
  exact hc.find? (Catalog.mem_definitions.1 hs).1

/-- The schema of a body links to the definitions. -/
theorem body_links {name : Option TypeName} {s : StructDescriptor} {σ : Schema}
    (hs : name.bind k.catalog.get? = some s) (hσ : (k.catalog.bodySchema s).result = .ok σ) :
    ∃ n ∈ name, k.Links (.named n) σ := by
  obtain ⟨n, hname, hn⟩ := Option.bind_eq_some_iff.1 hs
  exact ⟨n, hname, links_of_refersTo hdefs fun _ _ _ => Catalog.bodySchema_refersTo hn hσ⟩

theorem route_links {r : Route} (hr : r.Compiled k.catalog) : k.RouteLinks r := by
  refine ⟨fun place => ?_, fun σ hσ => ?_, fun σ hσ => ?_⟩
  · refine (hr.parameters place).imp fun f q hq => ⟨hq.name, ?_⟩
    exact links_of_refersTo hdefs fun _ _ _ => Catalog.fieldSchema_refersTo hq.schema
  · obtain ⟨s, hs, hbody⟩ := exists_of_rel_some hr.requestBody hσ
    split at hs
    · cases hs
    · exact body_links hdefs hs hbody
  · obtain ⟨s, hs, hbody⟩ := exists_of_rel_some hr.response hσ
    exact body_links hdefs hs hbody

end Links

/-- Compiling leaves no reference dangling: the definitions are the structs of the sealed table that
are definitions, and all references in them and in the routes link to them. -/
theorem compile_links {files : List SourceFile} {k : Compilation} {events : List Event}
    (h : (compile files).outcome = (.ok k, events)) :
    (∃ log, k.catalog = (Id.run ((Catalog.collect files).run log)).1) ∧
      k.DefinitionsMatch ∧
      (∀ d ∈ k.definitions,
        ∃ s, k.catalog.find? d.name = some s ∧ k.Links (.struct s) d.schema) ∧
      ∀ g ∈ k.groups, ∀ r ∈ g.routes, k.RouteLinks r := by
  obtain ⟨hc, hlog, hdefs, hgroups⟩ := (compile_yields files).outcome h
  refine ⟨hlog, definitionsMatch hdefs hc, fun d hd => definition_links hdefs hc hd, ?_⟩
  exact fun g hg r hr => route_links hdefs (hgroups g hg r hr)

/-- A blog: posts with their authors, which are both definitions, and a service that finds a post. -/
def blog : List SourceFile :=
  let marker : Attribute := ⟨⟨false, ["doc"]⟩, .value (some " @schema"), ⟨1, 1⟩⟩
  let tag (name : String) : Attribute :=
    ⟨⟨false, ["api"]⟩, .list [.word "json" ⟨1, 7⟩, .mark '=' false ⟨1, 12⟩, .literal name ⟨1, 14⟩],
      ⟨1, 1⟩⟩
  [⟨"blog.rs", [
    .struct ⟨[marker], "User", some [⟨[tag "\"name\""], "name", true, .path false [.plain "String"]⟩]⟩,
    .struct ⟨[marker], "Post", some [⟨[tag "\"authors\""], "authors", true,
      .path false [.generic "Vec" false [.type (.path false [.plain "User"])] false]⟩]⟩,
    .trait ⟨[], "BlogService", [⟨[⟨⟨false, ["doc"]⟩, .value (some " @route GET /post"), ⟨9, 3⟩⟩],
      "post", [.path false [.plain "Context"], .tuple [] false],
      some (.path false [.generic "Result" false
        [.type (.path false [.plain "Post"]), .type (.path false [.plain "Error"])] false])⟩]⟩]⟩]

theorem blog_compiles : ∃ k events, (compile blog).outcome = (.ok k, events) :=
  (compile_succeeds_of_marked (by decide +kernel) (by decide +kernel)).outcome

/-- The blog compiles, and its references lead to definitions. -/
theorem blog_links : ∃ k events, (compile blog).outcome = (.ok k, events) ∧ k.DefinitionsMatch ∧
    (∀ d ∈ k.definitions, ∃ s, k.catalog.find? d.name = some s ∧ k.Links (.struct s) d.schema) ∧
    ∀ g ∈ k.groups, ∀ r ∈ g.routes, k.RouteLinks r := by
  obtain ⟨k, events, h⟩ := blog_compiles
  exact ⟨k, events, h, (compile_links h).2⟩

end ApiDecl
