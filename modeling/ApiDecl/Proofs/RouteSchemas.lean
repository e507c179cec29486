import ApiDecl.Proofs.Recursion
import ApiDecl.Proofs.Yielding
import ApiDecl.Route.Collect
import Mathlib.Data.List.Forall2

/-!
# Proofs: the schemas of routes

Every schema of a route is that of a field or of a struct of the table (`Route.Compiled`): the
parameters at a place are the visible fields with a tag entry for that place that has a name, one by
one and in order, and the bodies are the structs of the request and of the answer.
-/

namespace ApiDecl

open Compile Syntax

/-- The fields that are parameters at a place: those that are visible and have a tag entry with a name
for it. -/
def StructDescriptor.parameterFields (s : StructDescriptor) (place : ParameterPlace) : List Field :=
  s.fields.filter fun f => f.exported && !(f.tag.get place.name).isEmpty

namespace Catalog

/-! ## Parameters -/

variable {c : Catalog} {f : Field}

/-- The parameter is that of the field at the place. -/
structure IsParameter (c : Catalog) (place : ParameterPlace) (f : Field) (q : Parameter) : Prop where
  name : q.name = f.tag.get place.name
  schema : (c.fieldSchema f).result = .ok q.schema
  required : q.required = f.tag.isRequired

/-- What is found of a field at a place. -/
def IsFound (c : Catalog) (f : Field) (place : ParameterPlace) :
    Option (ParameterPlace × Parameter) → Prop
  | none => (f.tag.get place.name).isEmpty = true
  | some (p, q) => p = place ∧ (f.tag.get place.name).isEmpty = false ∧ c.IsParameter place f q

theorem parameter?_yields (c : Catalog) (owner struct : String) (f : Field)
    (place : ParameterPlace) :
    Yields (c.IsFound f place) (c.parameter? owner struct f place) := by
  unfold parameter?
  have hget : f.tag.get place.name = (f.tag.lookup? place.name).getD "" := rfl
  cases hlookup : f.tag.lookup? place.name with
  | none =>
    refine .pure ?_
    rw [IsFound, hget, hlookup]
    rfl
  | some name =>
    have hname : f.tag.get place.name = name := by rw [hget, hlookup, Option.getD_some]
    dsimp only
    split
    · next hempty =>
      refine (Yields.note _).bind fun _ _ => .pure ?_
      rw [IsFound, hname]
      exact hempty
    · next hempty =>
      refine (Yields.of_steady (steady_fieldSchema c f)).bind fun schema hschema => .pure ?_
      refine ⟨rfl, ?_, hname.symm, hschema, rfl⟩
      rw [hname]
      simpa using hempty

/-- Of what is found, the parameters at a place. -/
def foundAt (place : ParameterPlace) (found : List (Option (ParameterPlace × Parameter))) :
    List Parameter :=
  ((found.filterMap id).filter (·.1 == place)).map (·.2)

section FoundAt

variable (place : ParameterPlace) (found : List (Option (ParameterPlace × Parameter)))

theorem foundAt_none : foundAt place (none :: found) = foundAt place found := rfl

theorem foundAt_here (q : Parameter) :
    foundAt place (some (place, q) :: found) = q :: foundAt place found := by
  simp [foundAt]

theorem foundAt_other {p : ParameterPlace} (hp : p ≠ place) (q : Parameter) :
    foundAt place (some (p, q) :: found) = foundAt place found := by
  simp [foundAt, hp]

theorem foundAt_append (others : List (Option (ParameterPlace × Parameter))) :
    foundAt place (found ++ others) = foundAt place found ++ foundAt place others := by
  simp [foundAt]

end FoundAt

/-- Of a field, at most one parameter is found at a place. -/
theorem foundAt_row {places : List ParameterPlace} {row : List (Option (ParameterPlace × Parameter))}
    (h : List.Forall₂ (c.IsFound f) places row) (hnd : places.Nodup) (place : ParameterPlace) :
    List.Forall₂ (c.IsParameter place)
      (if place ∈ places ∧ (f.tag.get place.name).isEmpty = false then [f] else [])
      (foundAt place row) := by
  induction h with
  | nil => simp [foundAt]
  | @cons p o places row ho _ ih =>
    obtain ⟨hp, hnd⟩ := List.nodup_cons.1 hnd
    have hrest := ih hnd
    by_cases hplace : p = place
    · subst hplace
      rw [if_neg fun h => hp h.1] at hrest
      match o, ho with
      | none, hempty =>
        have hempty : (f.tag.get p.name).isEmpty = true := hempty
        simpa [foundAt_none, hempty] using hrest
      | some (_, q), ⟨rfl, hname, hq⟩ =>
        rw [foundAt_here, if_pos ⟨List.mem_cons_self, hname⟩]
        exact .cons hq hrest
    · have hsame : place ∈ p :: places ↔ place ∈ places := by simp [Ne.symm hplace]
      have hother : foundAt place (o :: row) = foundAt place row := by
        match o, ho with
        | none, _ => exact foundAt_none place row
        | some (_, q), ⟨rfl, _, _⟩ => exact foundAt_other place row hplace q
      rw [hother, if_congr (and_congr_left fun _ => hsame) rfl rfl]
      exact hrest

theorem foundAt_rows {fields : List Field} {rows : List (List (Option (ParameterPlace × Parameter)))}
    (h : List.Forall₂ (fun f row => List.Forall₂ (c.IsFound f) ParameterPlace.all row) fields rows)
    (place : ParameterPlace) :
    List.Forall₂ (c.IsParameter place) (fields.filter fun f => !(f.tag.get place.name).isEmpty)
      (foundAt place rows.flatten) := by
  induction h with
  | nil => exact .nil
  | @cons f row fields rows hrow _ ih =>
    have hf := foundAt_row hrow (by decide) place
    have hplace : place ∈ ParameterPlace.all := by cases place <;> decide
    rw [List.flatten_cons, foundAt_append, List.filter_cons]
    cases hname : (f.tag.get place.name).isEmpty with
    | true =>
      rw [hname, if_neg (by simp)] at hf
      rw [List.forall₂_nil_left_iff.1 hf]
      exact ih
    | false =>
      rw [hname, if_pos ⟨hplace, rfl⟩] at hf
      exact List.rel_append hf ih

theorem getD_get?_ofList (l : List (ParameterPlace × Parameter)) (place : ParameterPlace) :
    ((ParameterTable.ofList l).get? place).getD [] = (l.filter (·.1 == place)).map (·.2) := by
  rw [ParameterTable.ofList, ParameterTable.get?_ofPlaces]
  cases l.filter (·.1 == place) <;> rfl

/-- The parameters of a request at a place are those of its fields, in order. -/
theorem parameters_yields (c : Catalog) (owner : String) (s : StructDescriptor) :
    Yields (fun table => ∀ place, List.Forall₂ (c.IsParameter place) (s.parameterFields place)
      ((table.get? place).getD [])) (c.parameters owner s) := by
  have hrows := Yields.mapM fun f (_ : f ∈ s.fields.filter (·.exported)) =>
    Yields.mapM fun place (_ : place ∈ ParameterPlace.all) =>
      parameter?_yields c owner s.name f place
  unfold parameters
  refine hrows.bind fun rows hrows => .pure fun place => ?_
  have hfields : s.parameterFields place =
      (s.fields.filter (·.exported)).filter fun f => !(f.tag.get place.name).isEmpty := by
    rw [StructDescriptor.parameterFields, List.filter_filter]
    exact List.filter_congr fun f _ => Bool.and_comm _ _
  have hflat : (rows.flatMap fun row => row.filterMap id) = rows.flatten.filterMap id := by
    rw [List.filterMap_flatten, List.flatMap_def]
  rw [hfields, getD_get?_ofList, hflat]
  exact foundAt_rows hrows place

/-! ## Bodies -/

/-- The schema of a body is a reference if the struct is a definition, and else the struct is written
out. -/
theorem bodySchema_written {s : StructDescriptor} {σ : Schema}
    (h : (c.bodySchema s).result = .ok σ) :
    (s.isDefinition = true ∧ σ = .referTo (definitionId s.name)) ∨
      (s.isDefinition = false ∧ c.Writes (.struct s) σ) := by
  rw [bodySchema] at h
  cases hs : s.isDefinition with
  | true =>
    rw [structSchema_definition c hs] at h
    cases h
    exact .inl ⟨rfl, rfl⟩
  | false =>
    rw [structSchema_plain c hs] at h
    exact .inr ⟨rfl, writes_of_inlineSchema h⟩

end Catalog

/-! ## Routes -/

/-- The schemas of the route are those of the fields and of the structs that it is of. -/
structure Route.Compiled (c : Catalog) (r : Route) : Prop where
  parameters : ∀ place, List.Forall₂ (c.IsParameter place)
    ((r.input.bind c.get?).elim [] (·.parameterFields place)) ((r.parameters.get? place).getD [])
  requestBody : Option.Rel (fun s σ => (c.bodySchema s).result = .ok σ)
    (if r.method = .get then none else r.input.bind c.get?) r.requestBody
  response : Option.Rel (fun s σ => (c.bodySchema s).result = .ok σ) (r.output.bind c.get?) r.response

namespace Catalog

variable (c : Catalog)

theorem routeStruct?_yields (name : Option TypeName) :
    Traced.Yields (fun found => found = name.bind c.get?) (c.routeStruct? name) := by
  cases name with
  | none => exact .pure rfl
  | some n =>
    unfold routeStruct?
    dsimp only
    rw [Option.bind_some]
    cases c.get? n with
    | none => exact (Traced.Yields.note _).bind fun _ _ => .pure rfl
    | some s => exact .pure rfl

theorem bodies_yield (found : Option StructDescriptor) :
    Yields (Option.Rel (fun s σ => (c.bodySchema s).result = .ok σ) found)
      (found.mapM c.bodySchema) :=
  .optionMapM found fun s _ => .of_steady (steady_structSchema c s (some s.name))

theorem route_yields (file group : String) (m : MethodDecl) :
    Yields (Route.Compiled c) (c.route file group m) := by
  unfold route
  refine (Yields.ofExcept fun _ _ => trivial).bind fun doc _ => ?_
  cases doc.route with
  | none => exact .throw _
  | some declared =>
    refine (Yields.ofExcept fun _ _ => trivial).bind fun signature _ => ?_
    refine (Yields.lift (routeStruct?_yields c signature.1)).bind fun request hrequest => ?_
    refine (Yields.lift (routeStruct?_yields c signature.2)).bind fun answer hanswer => ?_
    have hparameters : Yields (fun table : ParameterTable => ∀ place,
        List.Forall₂ (c.IsParameter place) (request.elim [] (·.parameterFields place))
          ((table.get? place).getD []))
        (request.elim (return {}) (c.parameters (group ++ "." ++ plainName m.name))) := by
      cases request with
      | none =>
        refine .pure fun place => ?_
        cases place <;> exact .nil
      | some s => exact parameters_yields c _ s
    refine hparameters.bind fun parameters hparameters => ?_
    refine (bodies_yield c _).bind fun requestBody hrequestBody => ?_
    refine (bodies_yield c answer).bind fun response hresponse => ?_
    refine (Yields.note _).bind fun _ _ => .pure ?_
    subst hrequest hanswer
    exact ⟨hparameters, hrequestBody, hresponse⟩

theorem group_yields (file : String) (t : TraitDecl) :
    Yields (fun g => ∀ r ∈ g.routes, r.Compiled c) (c.group file t) := by
  unfold group
  refine (Yields.note _).bind fun _ _ => ?_
  refine (Yields.ofExcept fun _ _ => trivial).bind fun doc _ => ?_
  have hroutes := Yields.mapM fun m (_ : m ∈ t.methods) => route_yields c file (plainName t.name) m
  refine hroutes.bind fun routes hroutes => .pure fun r hr => ?_
  rcases mem_or_mem_of_mem_foldl_putByKey hr with hr | hr
  · obtain ⟨m, -, hcompiled⟩ := exists_of_mem_right hroutes hr
    exact hcompiled
  · cases hr

/-- The schemas of all routes are those of fields and structs of the table. -/
theorem groups_yield (files : List SourceFile) :
    Yields (fun gs => ∀ g ∈ gs, ∀ r ∈ g.routes, r.Compiled c) (c.groups files) := by
  have hfiles := Yields.mapM fun f (_ : f ∈ files) =>
    Yields.mapM fun t (_ : t ∈ f.traits.filter isService) => group_yields c f.path t
  unfold groups
  refine hfiles.bind fun gs hgs => (Yields.note _).bind fun _ _ => .pure fun g hg => ?_
  obtain ⟨row, hrow, hg⟩ := List.mem_flatten.1 hg
  obtain ⟨f, -, hf⟩ := exists_of_mem_right hgs hrow
  obtain ⟨t, -, hcompiled⟩ := exists_of_mem_right hf hg
  exact hcompiled

end Catalog

end ApiDecl
