import ApiDecl.Compilation
import ApiDecl.Proofs.Collecting
import ApiDecl.Proofs.RouteSchemas

/-!
# Proofs: when compiling succeeds

Compiling succeeds if the documentation and the signatures of all services can be read
(`TraitDecl.isDeclared`) and the table has no cycle of inlining edges (`compile_succeeds`).
-/

namespace ApiDecl

open Compile Relation Syntax

/-! ## Declarations that can be read -/

/-- The documentation and the signature of the method make a route. -/
def Syntax.MethodDecl.isDeclared (file group : String) (m : MethodDecl) : Bool :=
  match RouteDoc.ofLines (group ++ "." ++ plainName m.name) (docLines file m.attributes),
    m.signature? file with
  | .ok doc, .ok _ => doc.route.isSome
  | _, _ => false

/-- The documentation of the service and of all its methods can be read, and so can their
signatures. -/
def Syntax.TraitDecl.isDeclared (file : String) (t : TraitDecl) : Bool :=
  match GroupDoc.ofLines (plainName t.name) (docLines file t.attributes) with
  | .ok _ => t.methods.all (·.isDeclared file (plainName t.name))
  | .error _ => false

namespace Catalog

/-! ## Routes -/

section Routes

variable {c : Catalog} (hacyclic : ∀ n, ¬ TransGen c.Inlines n n)
include hacyclic

theorem fieldSchema_succeeds (f : Field) : (c.fieldSchema f).Succeeds := by
  obtain ⟨schema, hok, -⟩ := typeSchema_ok hacyclic f.type
  have hresult : (c.fieldSchema f).result = .ok (describe f.doc schema) := by
    rw [result_fieldSchema, hok]
    rfl
  exact .of_steady (steady_fieldSchema c f) hresult

theorem bodySchema_succeeds {s : StructDescriptor} (hs : c.find? s.name = some s) :
    (c.bodySchema s).Succeeds := by
  rw [bodySchema]
  cases hdef : s.isDefinition with
  | true =>
    rw [structSchema_definition c hdef]
    exact .pure _
  | false =>
    obtain ⟨schema, hok, -⟩ := inlineSchema_ok hacyclic hs (some s.name) (by simp)
    rw [structSchema_plain c hdef]
    exact .of_steady (steady_inlineSchema c s _) hok

omit hacyclic in
theorem find?_of_bind {name : Option TypeName} {s : StructDescriptor}
    (hs : name.bind c.get? = some s) : c.find? s.name = some s := by
  obtain ⟨n, -, hn⟩ := Option.bind_eq_some_iff.1 hs
  exact find?_of_get? hn

theorem parameters_succeed (owner : String) (s : StructDescriptor) :
    (c.parameters owner s).Succeeds := by
  unfold parameters
  refine Succeeds.next (.mapM fun f _ => .mapM fun place _ => ?_) fun found => .pure _
  unfold parameter?
  split
  · exact .pure none
  · split
    · exact (Succeeds.lift _).next fun _ => .pure none
    · exact (fieldSchema_succeeds hacyclic f).next fun schema => .pure _

theorem route_succeeds {file group : String} {m : MethodDecl} (hm : m.isDeclared file group = true) :
    (c.route file group m).Succeeds := by
  unfold MethodDecl.isDeclared at hm
  unfold route
  split at hm
  · next doc signature hdoc hsignature =>
    obtain ⟨declared, hdeclared⟩ := Option.isSome_iff_exists.1 hm
    refine (Succeeds.ofExcept hdoc).bind (Yields.ofExcept fun _ h => h) fun doc' hdoc' => ?_
    obtain rfl := Except.ok.inj (hdoc.symm.trans hdoc')
    rw [hdeclared]
    have hread : (m.signature? file).mapError (Error.signature (group ++ "." ++ plainName m.name)) =
        .ok signature := by
      rw [hsignature]
      rfl
    refine (Succeeds.ofExcept hread).next fun signature => ?_
    refine (Succeeds.lift _).bind (.lift (routeStruct?_yields c signature.1)) fun request hrequest => ?_
    refine (Succeeds.lift _).bind (.lift (routeStruct?_yields c signature.2)) fun answer hanswer => ?_
    have hparameters : (request.elim (return {})
        (c.parameters (group ++ "." ++ plainName m.name)) : Compile ParameterTable).Succeeds := by
      cases request with
      | none => exact .pure ({} : ParameterTable)
      | some s => exact parameters_succeed hacyclic _ s
    refine hparameters.next fun parameters => ?_
    refine Succeeds.next (.optionMapM fun s hs => ?_) fun requestBody => ?_
    · have hfound : request = some s := by
        split at hs
        · cases hs
        · exact hs
      exact bodySchema_succeeds hacyclic (find?_of_bind (hrequest ▸ hfound))
    · refine Succeeds.next (.optionMapM fun s hs => ?_) fun response => ?_
      · exact bodySchema_succeeds hacyclic (find?_of_bind (hanswer ▸ hs))
      · exact (Succeeds.lift _).next fun _ => .pure _
  · simp at hm

theorem group_succeeds {file : String} {t : TraitDecl} (ht : t.isDeclared file = true) :
    (c.group file t).Succeeds := by
  unfold TraitDecl.isDeclared at ht
  unfold group
  split at ht
  · next doc hdoc =>
    refine (Succeeds.lift _).next fun _ => (Succeeds.ofExcept hdoc).next fun doc => ?_
    refine (Succeeds.mapM fun m hm => ?_).next fun routes => .pure _
    exact route_succeeds hacyclic (List.all_eq_true.1 ht m hm)
  · cases ht

theorem groups_succeed {files : List SourceFile}
    (hfiles : ∀ f ∈ files, ∀ t ∈ f.traits.filter isService, t.isDeclared f.path = true) :
    (c.groups files).Succeeds := by
  unfold groups
  refine Succeeds.next (.mapM fun f hf => .mapM fun t ht => ?_) fun gs => ?_
  · exact group_succeeds hacyclic (hfiles f hf t ht)
  · exact (Succeeds.lift _).next fun _ => .pure _

end Routes

end Catalog

/-- Compiling succeeds if the services can be read and the sealed table has no recursion. -/
theorem compile_succeeds {files : List SourceFile}
    (hfiles : ∀ f ∈ files, ∀ t ∈ f.traits.filter Catalog.isService, t.isDeclared f.path = true)
    (hacyclic : Traced.Yields (fun c => ∀ n, ¬ TransGen c.Inlines n n) (Catalog.collect files)) :
    (compile files).Succeeds := by
  have hcollect : Traced.Yields (fun c => c.Ordered ∧ ∀ n, ¬ TransGen c.Inlines n n)
      (Catalog.collect files) := fun log => ⟨Catalog.collect_ordered files log, hacyclic log⟩
  unfold compile
  refine (Succeeds.lift _).next fun _ => ?_
  refine (Succeeds.lift _).bind (.lift hcollect) fun c hboth => ?_
  obtain ⟨hc, hacyclic⟩ := hboth
  obtain ⟨defs, hdefs⟩ := Catalog.definitions_ok hacyclic hc
  refine (Succeeds.of_steady (Catalog.steady_definitions c) hdefs).next fun defs => ?_
  refine (Succeeds.lift _).next fun _ => ?_
  exact (Catalog.groups_succeed hacyclic hfiles).next fun gs => .pure _

/-! ## Tables of definitions -/

namespace Catalog

/-- All structs are definitions. -/
def AllDefinitions (c : Catalog) : Prop := ∀ s ∈ c.structs, s.isDefinition = true

/-- Where all structs are definitions none is written out. -/
theorem AllDefinitions.acyclic {c : Catalog} (hc : c.AllDefinitions) (n : String) :
    ¬ TransGen c.Inlines n n := by
  intro h
  obtain ⟨m, ⟨s, -, k, t, -, -, ht, hplain, -⟩, -⟩ := TransGen.head'_iff.1 h
  exact absurd (hc t (mem_of_find? ht)) (by simp [hplain])

/-- If all structs are marked as definitions, all structs of the sealed table are. -/
theorem collect_allDefinitions {files : List SourceFile}
    (hfiles : ∀ f ∈ files, ∀ d ∈ f.structs, hasSchemaMarker (docLines f.path d.attributes) = true) :
    Traced.Yields AllDefinitions (collect files) := by
  have hraw : Traced.Yields AllDefinitions (collectRaw files) := by
    refine collectRaw_keeps (by simp [AllDefinitions, empty]) fun f hf d hd c s hc _ hs t ht => ?_
    rcases mem_putSorted ht with rfl | ht
    · exact hs.trans (hfiles f hf d hd)
    · exact hc t ht
  refine ((collectRaw_wellFormed files).and hraw).bind fun raw hboth log => ?_
  obtain ⟨hwf, hall⟩ := hboth
  obtain ⟨c, events, hrun, hI, -⟩ := seal_inv hwf
  rw [hrun log]
  intro s hs
  obtain ⟨s₀, hs₀, hresolve⟩ := hI.body s.name s (hI.ordered.find? hs)
  have hsame : (s₀.resolve c (Sealing.keptFrom (droppedEdges events) s.name)).isDefinition =
      s₀.isDefinition := by
    cases s₀
    rfl
  rw [hresolve, hsame]
  exact hall s₀ (mem_of_find? hs₀)

end Catalog

/-- Compiling succeeds if the services can be read and all structs are marked as definitions. -/
theorem compile_succeeds_of_marked {files : List SourceFile}
    (hmarked : ∀ f ∈ files, ∀ d ∈ f.structs, hasSchemaMarker (docLines f.path d.attributes) = true)
    (hfiles : ∀ f ∈ files, ∀ t ∈ f.traits.filter Catalog.isService, t.isDeclared f.path = true) :
    (compile files).Succeeds :=
  compile_succeeds hfiles
    ((Catalog.collect_allDefinitions hmarked).mono fun _ hc => hc.acyclic)

end ApiDecl
