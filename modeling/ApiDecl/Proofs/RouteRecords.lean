import ApiDecl.Proofs.RouteResult
import ApiDecl.Proofs.RoutePaths
import ApiDecl.Proofs.Success

/-!
# Proofs: what a route holds

A route holds what its method and the table say (`Route.RecordOf`): its structs are those of the
signature; its parameters are the visible fields of the request that have a name at a place, one by
one; a body is there if its struct is found, and never for a request that only reads; and its status
is one of HTTP (`Catalog.route_recordOf`).
-/

namespace ApiDecl

open Compile Syntax

/-! ## Parameters of fields -/

/-- The first entry of a key has a value. -/
def Tag.FirstEntry (t : Tag) (key value : String) : Prop :=
  ∃ before after, t.entries = before ++ (key, value) :: after ∧ ∀ e ∈ before, e.1 ≠ key

theorem Tag.lookup?_eq_some_iff {t : Tag} {key value : String} :
    t.lookup? key = some value ↔ t.FirstEntry key value := by
  rw [lookup?, FirstEntry, List.lookup_eq_some_iff]
  simp only [bne_iff_ne, ne_comm]

/-- The field is a parameter at a place, with a name. -/
structure Field.IsNamedAt (f : Field) (place : ParameterPlace) (name : String) : Prop where
  exported : f.exported = true
  entry : f.tag.FirstEntry place.name name
  nonempty : name ≠ ""

namespace Catalog

/-- The parameters that some fields are at a place, in the order of the fields: all that have a name
there, and no others. -/
inductive ParametersAt (c : Catalog) (place : ParameterPlace) : List Field → List Parameter → Prop
  | nil : ParametersAt c place [] []
  | parameter {f : Field} {fields : List Field} {name : String} {schema : Schema}
      {parameters : List Parameter} (hf : f.IsNamedAt place name)
      (hschema : (c.fieldSchema f).result = .ok schema)
      (h : ParametersAt c place fields parameters) :
      ParametersAt c place (f :: fields) (⟨name, schema, f.tag.isRequired⟩ :: parameters)
  | other {f : Field} {fields : List Field} {parameters : List Parameter}
      (hf : ∀ name, ¬ f.IsNamedAt place name) (h : ParametersAt c place fields parameters) :
      ParametersAt c place (f :: fields) parameters

end Catalog

theorem Field.isNamedAt_iff {f : Field} {place : ParameterPlace} {name : String} :
    f.IsNamedAt place name ↔
      (f.exported && !(f.tag.get place.name).isEmpty) = true ∧ f.tag.get place.name = name := by
  have hget : f.tag.get place.name = (f.tag.lookup? place.name).getD "" := rfl
  constructor
  · rintro ⟨hexported, hentry, hne⟩
    rw [hget, Tag.lookup?_eq_some_iff.2 hentry]
    simp [hexported, hne]
  · rintro ⟨hf, rfl⟩
    obtain ⟨hexported, hname⟩ := Bool.and_eq_true_iff.1 hf
    have hne : f.tag.get place.name ≠ "" := by simpa using hname
    refine ⟨hexported, Tag.lookup?_eq_some_iff.1 ?_, hne⟩
    cases hlookup : f.tag.lookup? place.name with
    | none =>
      rw [hget, hlookup] at hne
      exact absurd rfl hne
    | some value => rw [hget, hlookup, Option.getD_some]

namespace Catalog

variable {c : Catalog} {place : ParameterPlace}

/-- The parameters of the fields that have a name at a place are those at the place. -/
theorem parametersAt_of_forall₂ {fields : List Field} {parameters : List Parameter}
    (h : List.Forall₂ (c.IsParameter place)
      (fields.filter fun f => f.exported && !(f.tag.get place.name).isEmpty) parameters) :
    c.ParametersAt place fields parameters := by
  induction fields generalizing parameters with
  | nil =>
    cases h
    exact .nil
  | cons f fields ih =>
    rw [List.filter_cons] at h
    by_cases hf : (f.exported && !(f.tag.get place.name).isEmpty) = true
    · rw [if_pos hf] at h
      cases h with
      | @cons _ q _ parameters hq hrest =>
        obtain ⟨name, schema, required⟩ := q
        obtain ⟨hname, hschema, hrequired⟩ := hq
        dsimp only at hname hschema hrequired
        rw [hrequired]
        exact .parameter (Field.isNamedAt_iff.2 ⟨hf, hname.symm⟩) hschema (ih hrest)
    · rw [if_neg hf] at h
      refine .other (fun name hnamed => hf ?_) (ih h)
      exact (Field.isNamedAt_iff.1 hnamed).1

end Catalog

/-! ## Routes -/

/-- The route holds what a method of a service and the table say. -/
structure Route.RecordOf (c : Catalog) (file group : String) (m : MethodDecl) (r : Route) : Prop where
  declared : r.DeclaredBy file group m
  signature : m.signature? file = .ok (r.input, r.output)
  parameters : ∀ place, ∃ found,
    c.ParametersAt place ((r.input.bind c.get?).elim [] (·.fields)) found ∧
      r.parameters.get? place = if found = [] then none else some found
  requestBody_isSome : r.requestBody.isSome ↔ r.method ≠ .get ∧ (r.input.bind c.get?).isSome
  requestBody : ∀ s σ, r.input.bind c.get? = some s → r.requestBody = some σ →
    (c.structSchema s (some s.name)).result = .ok σ
  get : r.method = .get → r.requestBody = none
  response_isSome : r.response.isSome ↔ (r.output.bind c.get?).isSome
  response : ∀ s σ, r.output.bind c.get? = some s → r.response = some σ →
    (c.structSchema s (some s.name)).result = .ok σ
  status : ∀ code ∈ r.code, 100 ≤ code ∧ code ≤ 599

theorem status?_range {text : String} {status : Nat} (h : status? text = some status) :
    100 ≤ status ∧ status ≤ 599 := by
  have hrange := (Option.filter_eq_some_iff.1 h).2
  simpa using hrange

/-- The status of a code directive is one of HTTP. -/
theorem DocLine.code_range {line : DocLine} {owner : String} {status : Nat}
    (h : line.directive? owner = .ok (some (.code status))) : 100 ≤ status ∧ status ≤ 599 := by
  unfold DocLine.directive? at h
  dsimp only at h
  split at h
  · cases h
  · split at h <;> cases h
  · split at h
    · split at h <;> cases h
    · cases h
  · split at h
    · split at h
      · next hstatus =>
        cases h
        exact status?_range hstatus
      · cases h
    · cases h
  · cases h
  · cases h

/-- A status that is declared is one of HTTP. -/
theorem RouteDoc.code_range {owner : String} {lines : List DocLine} {doc : RouteDoc}
    (h : RouteDoc.ofLines owner lines = .ok doc) : ∀ code ∈ doc.code, 100 ≤ code ∧ code ≤ 599 := by
  refine foldlM_ok (P := fun doc => ∀ code ∈ doc.code, 100 ≤ code ∧ code ≤ 599) ?_ ?_ h
  · intro code hcode
    cases hcode
  intro doc line doc' hdoc hadd
  obtain ⟨found, hfound, hadd⟩ := exists_of_bind_ok hadd
  split at hadd
  · cases hadd
    exact hdoc
  · dsimp only at hadd
    split at hadd
    · cases hadd
    · cases hadd
      exact hdoc
  · cases hadd
    intro code hcode
    cases hcode
    exact DocLine.code_range hfound
  · cases hadd
    exact hdoc

namespace Catalog

/-- There is no place with an empty list of parameters. -/
theorem parameters_ne_nil (c : Catalog) (owner : String) (s : StructDescriptor) :
    Yields (fun table => ∀ place, table.get? place ≠ some []) (c.parameters owner s) := by
  unfold parameters
  refine (Yields.anything _).bind fun rows _ => .pure fun place => ?_
  rw [ParameterTable.ofList, ParameterTable.get?_ofPlaces]
  split
  · exact Option.some_ne_none _ |>.symm
  · next found hfound => simpa using hfound

/-- What is found of the struct of a request, or nothing without one. -/
theorem request_parameters {c : Catalog} {owner : String} {request : Option StructDescriptor}
    {table : ParameterTable}
    (h : (request.elim (return {}) fun s => (c.parameters owner s).result) = .ok table)
    (place : ParameterPlace) : ∃ found, c.ParametersAt place (request.elim [] (·.fields)) found ∧
      table.get? place = if found = [] then none else some found := by
  cases request with
  | none =>
    cases h
    refine ⟨[], .nil, ?_⟩
    cases place <;> rfl
  | some s =>
    have hfound := parameters_yields c owner s #[] table h place
    have hne := parameters_ne_nil c owner s #[] table h place
    refine ⟨_, parametersAt_of_forall₂ hfound, ?_⟩
    cases hget : table.get? place with
    | none => rfl
    | some found =>
      rw [hget] at hne
      have hnonempty : found ≠ [] := fun hnil => hne (congrArg some hnil)
      rw [Option.getD_some, if_neg hnonempty]

/-- A body is there if there is a struct, and it is the schema of the struct. -/
theorem body_of_mapM {c : Catalog} {s : Option StructDescriptor} {body : Option Schema}
    (h : (s.mapM fun t => (c.structSchema t (some t.name)).result) = .ok body) :
    body.isSome = s.isSome ∧ ∀ t σ, s = some t → body = some σ →
      (c.structSchema t (some t.name)).result = .ok σ := by
  cases s with
  | none =>
    cases h
    refine ⟨rfl, fun t σ ht => ?_⟩
    cases ht
  | some t =>
    obtain ⟨schema, hschema, hbody⟩ := exists_of_map_ok h
    cases hbody
    refine ⟨rfl, fun t' σ ht hσ => ?_⟩
    cases ht
    cases hσ
    exact hschema

variable (c : Catalog)

/-- A route that is collected holds what its method and the table say. -/
theorem route_recordOf {file group : String} {m : MethodDecl} {r : Route}
    (h : (c.route file group m).result = .ok r) : r.RecordOf c file group m := by
  have hdeclared := route_declares c file group m #[] r h
  rw [route_result] at h
  obtain ⟨head, hhead, h⟩ := exists_of_bind_ok h
  have hsignature := RouteHead.signature_of_ofMethod hhead
  obtain ⟨parameters, hparameters, h⟩ := exists_of_bind_ok h
  obtain ⟨requestBody, hrequestBody, h⟩ := exists_of_bind_ok h
  obtain ⟨response, hbodies, h⟩ := exists_of_bind_ok h
  cases h
  obtain ⟨hrequestSome, hrequest⟩ := body_of_mapM hrequestBody
  obtain ⟨hresponseSome, hresponse⟩ := body_of_mapM hbodies
  obtain ⟨doc, hdoc, -, hcode, -⟩ := hdeclared.doc
  have hbody : head.body (head.signature.1.bind c.get?) =
      if head.declared.1 = .get then none else head.signature.1.bind c.get? := rfl
  rw [hbody] at hrequestSome hrequest
  have hsome : requestBody.isSome ↔
      head.declared.1 ≠ .get ∧ (head.signature.1.bind c.get?).isSome := by
    rw [hrequestSome]
    by_cases hget : head.declared.1 = .get
    · simp [hget]
    · simp [hget]
  have hschema : ∀ s σ, head.signature.1.bind c.get? = some s → requestBody = some σ →
      (c.structSchema s (some s.name)).result = .ok σ := by
    intro s σ hs hσ
    have hpost : head.declared.1 ≠ .get := (hsome.1 (by rw [hσ]; rfl)).1
    exact hrequest s σ (by rw [if_neg hpost, hs]) hσ
  have hget : head.declared.1 = .get → requestBody = none := by
    intro hmethod
    rw [← Option.not_isSome_iff_eq_none, hsome]
    exact fun h => h.1 hmethod
  have hanswer : response.isSome ↔ (head.signature.2.bind c.get?).isSome := by rw [hresponseSome]
  exact {
    declared := hdeclared
    signature := hsignature
    parameters := fun place => request_parameters hparameters place
    requestBody_isSome := hsome
    requestBody := hschema
    get := hget
    response_isSome := hanswer
    response := hresponse
    status := hcode ▸ RouteDoc.code_range hdoc
  }

/-- A table with one struct, whose fields are in the path, in the query and in the body. -/
def searchTable : Catalog :=
  ⟨[⟨"Search", [
    ⟨"shelf", .scalar .u32, ⟨[("uri", "shelf"), ("binding", "required")]⟩, "", true⟩,
    ⟨"words", .array (some (.scalar .string)), ⟨[("query", "q"), ("query", "words")]⟩, "", true⟩,
    ⟨"note", .scalar .string, ⟨[("header", ""), ("json", "note")]⟩, "", true⟩], true, []⟩]⟩

/-- A method that posts a search and gives it back. -/
def searchMethod : MethodDecl :=
  ⟨[⟨⟨false, ["doc"]⟩, .value (some " @route POST /shelves/{shelf}"), ⟨3, 5⟩⟩,
      ⟨⟨false, ["doc"]⟩, .value (some " @code 201"), ⟨4, 5⟩⟩], "search",
    [.path false [.plain "Context"], .reference none false (.path false [.plain "Search"])],
    some (.path false [.generic "Result" false
      [.type (.path false [.plain "Search"]), .type (.path false [.plain "Error"])] false])⟩

/-- The search is collected, and its route holds what is said. -/
theorem search_recordOf : ∃ r, (searchTable.route "search.rs" "SearchService" searchMethod).result =
    .ok r ∧ r.RecordOf searchTable "search.rs" "SearchService" searchMethod := by
  have hall : searchTable.AllDefinitions := by
    intro s hs
    rw [List.mem_singleton.1 hs]
  have hdeclared : searchMethod.isDeclared "search.rs" "SearchService" = true := by decide +kernel
  obtain ⟨r, events, h⟩ := (route_succeeds (fun n => hall.acyclic n) hdeclared).outcome
  have hr : (searchTable.route "search.rs" "SearchService" searchMethod).result = .ok r :=
    congrArg Prod.fst h
  exact ⟨r, hr, route_recordOf searchTable hr⟩

end Catalog

end ApiDecl
