import ApiDecl.Proofs.FileOrder

/-!
# Proofs: the result of a route

A route is what its documentation and its signature say, together with the parameters and the bodies
of the structs that are found for its request and its answer (`Catalog.routeOf`).
-/

namespace ApiDecl

open Compile Syntax

theorem Compile.liftExcept_bind {α β : Type} (r : Except Error α) (f : α → Except Error β) :
    (liftExcept (r >>= f) : Compile β) = liftExcept r >>= fun a => liftExcept (f a) := by
  cases r <;> rfl

/-- What is known of a route before its schemas are compiled. -/
structure RouteHead where
  /-- What messages call it. -/
  owner : String
  /-- The name of the method. -/
  name : String
  /-- What its documentation says. -/
  doc : RouteDoc
  /-- What its route directive declares. -/
  declared : HttpMethod × String × Location
  /-- The structs of its request and of its answer. -/
  signature : Option TypeName × Option TypeName

/-- What the documentation and the signature of a method say about its route. -/
def RouteHead.ofMethod (file group : String) (m : MethodDecl) : Except Error RouteHead := do
  let owner := group ++ "." ++ plainName m.name
  let doc ← RouteDoc.ofLines owner (docLines file m.attributes)
  match doc.route with
  | none => throw (.missingRoute owner)
  | some declared =>
    let signature ← (m.signature? file).mapError (Error.signature owner)
    return ⟨owner, plainName m.name, doc, declared, signature⟩

/-- The route with these schemas. -/
def RouteHead.route (h : RouteHead) (parameters : ParameterTable)
    (requestBody response : Option Schema) : Route where
  name := h.name
  method := h.declared.1
  path := h.declared.2.1
  description := "\n".intercalate h.doc.description
  code := h.doc.code
  input := h.signature.1
  output := h.signature.2
  parameters := parameters
  requestBody := requestBody
  response := response
  location := h.declared.2.2

/-- The struct that has a schema as the body of a request. -/
def RouteHead.body (h : RouteHead) (request : Option StructDescriptor) : Option StructDescriptor :=
  if h.declared.1 = .get then none else request

/-! ## Signatures -/

section Signature

variable {file group : String} {m : MethodDecl} {signature : Option TypeName × Option TypeName}

theorem signature_request {context request : TypeExpr} (h : m.signature? file = .ok signature)
    (hm : m.parameters = [context, request]) : request.request? file = .ok signature.1 := by
  unfold MethodDecl.signature? at h
  rw [hm] at h
  obtain ⟨input, hinput, h⟩ := exists_of_bind_ok h
  split at h
  · split at h
    · dsimp only at h
      split at h
      · cases h
      · obtain ⟨output, houtput, h⟩ := exists_of_bind_ok h
        cases h
        exact hinput
    · cases h
  · cases h

theorem signature_response {result answer error : TypeExpr} (h : m.signature? file = .ok signature)
    (hm : m.result = some result) (ht : result.resultTypes? = some (answer, error)) :
    answer.response? file = .ok signature.2 := by
  unfold MethodDecl.signature? at h
  split at h
  · obtain ⟨input, hinput, h⟩ := exists_of_bind_ok h
    rw [hm] at h
    dsimp only at h
    rw [ht] at h
    dsimp only at h
    split at h
    · cases h
    · obtain ⟨output, houtput, h⟩ := exists_of_bind_ok h
      cases h
      exact houtput
  · cases h

theorem RouteHead.signature_of_ofMethod {head : RouteHead}
    (h : RouteHead.ofMethod file group m = .ok head) : m.signature? file = .ok head.signature := by
  obtain ⟨doc, -, h⟩ := exists_of_bind_ok h
  split at h
  · cases h
  · obtain ⟨signature, hsignature, h⟩ := exists_of_bind_ok h
    cases h
    cases hread : m.signature? file with
    | error fault =>
      rw [hread] at hsignature
      cases hsignature
    | ok signature' =>
      rw [hread] at hsignature
      cases hsignature
      rfl

end Signature

/-! ## Routes -/

namespace Catalog

/-- The route that a head has with the structs that are found for its request and its answer. -/
def routeOf (c : Catalog) (h : RouteHead) (request answer : Option StructDescriptor) :
    Except Error Route := do
  let parameters ← request.elim (return {}) fun s => (c.parameters h.owner s).result
  let requestBody ← (h.body request).mapM fun s => (c.structSchema s (some s.name)).result
  let response ← answer.mapM fun s => (c.structSchema s (some s.name)).result
  return h.route parameters requestBody response

/-- The same, reporting the route. -/
def compileRoute (c : Catalog) (h : RouteHead) (request answer : Option StructDescriptor) :
    Compile Route := do
  let parameters ← request.elim (return {}) (c.parameters h.owner)
  let requestBody ← (h.body request).mapM c.bodySchema
  let response ← answer.mapM c.bodySchema
  liftM (note (.routeDone h.owner h.declared.1 h.declared.2.1))
  return h.route parameters requestBody response

variable (c : Catalog)

theorem result_bodies (body : Option StructDescriptor) :
    (body.mapM c.bodySchema).result =
      body.mapM fun s => (c.structSchema s (some s.name)).result := by
  cases body with
  | none => rfl
  | some s => exact result_map some

theorem value_routeStruct? (name : Option TypeName) :
    (c.routeStruct? name).value = name.bind c.get? := routeStruct?_yields c name #[]

section Head

variable (h : RouteHead) (request answer : Option StructDescriptor)

theorem steady_response (parameters : ParameterTable) (requestBody : Option Schema) : (do
    let response ← answer.mapM c.bodySchema
    liftM (note (.routeDone h.owner h.declared.1 h.declared.2.1))
    return h.route parameters requestBody response : Compile Route).Steady :=
  (bodies_steady c answer).bind fun _ => (steady_note _).bind fun _ => steady_pure _

theorem steady_requestBody (parameters : ParameterTable) : (do
    let requestBody ← (h.body request).mapM c.bodySchema
    let response ← answer.mapM c.bodySchema
    liftM (note (.routeDone h.owner h.declared.1 h.declared.2.1))
    return h.route parameters requestBody response : Compile Route).Steady :=
  (bodies_steady c _).bind fun _ => steady_response c h answer parameters _

theorem steady_requestParameters :
    (request.elim (return {}) (c.parameters h.owner) : Compile ParameterTable).Steady := by
  cases request with
  | none => exact steady_pure _
  | some s => exact parameters_steady c h.owner s

theorem steady_compileRoute : (c.compileRoute h request answer).Steady :=
  (steady_requestParameters c h request).bind fun parameters =>
    steady_requestBody c h request answer parameters

theorem result_compileRoute :
    (c.compileRoute h request answer).result = c.routeOf h request answer := by
  have hparameters :
      (request.elim (return {}) (c.parameters h.owner) : Compile ParameterTable).result =
        request.elim (return {}) fun s => (c.parameters h.owner s).result := by
    cases request <;> rfl
  rw [compileRoute, routeOf, result_bind (steady_requestBody c h request answer), hparameters]
  refine bind_congr fun parameters => ?_
  rw [result_bind (steady_response c h answer parameters), result_bodies]
  refine bind_congr fun requestBody => ?_
  rw [result_bind fun response => (steady_note _).bind fun _ => steady_pure _, result_bodies]
  refine bind_congr fun response => ?_
  rw [result_bind fun _ => steady_pure _, result_note]
  rfl

end Head

/-- The route that a head has with the structs of its signature. -/
def routeWithHead (h : RouteHead) : Compile Route := do
  let request ← c.routeStruct? h.signature.1
  let answer ← c.routeStruct? h.signature.2
  c.compileRoute h request answer

theorem steady_routeAnswer (h : RouteHead) (request : Option StructDescriptor) :
    (do c.compileRoute h request (← c.routeStruct? h.signature.2) : Compile Route).Steady :=
  (routeStruct?_steady c _).lift.bind fun answer => steady_compileRoute c h request answer

theorem result_routeWithHead (h : RouteHead) :
    (c.routeWithHead h).result =
      c.routeOf h (h.signature.1.bind c.get?) (h.signature.2.bind c.get?) := by
  rw [routeWithHead, result_bind fun request => steady_routeAnswer c h request, Traced.result_lift,
    value_routeStruct?, ok_bind, result_bind fun answer => steady_compileRoute c h _ answer,
    Traced.result_lift, value_routeStruct?, ok_bind, result_compileRoute]

/-- A route is read first and compiled then. -/
theorem route_eq (file group : String) (m : MethodDecl) :
    c.route file group m =
      (do c.routeWithHead (← liftExcept (RouteHead.ofMethod file group m))) := by
  unfold route RouteHead.ofMethod
  dsimp only
  rw [liftExcept_bind, bind_assoc]
  refine bind_congr fun doc => ?_
  cases doc.route with
  | none => rfl
  | some declared =>
    dsimp only
    rw [liftExcept_bind, bind_assoc]
    refine bind_congr fun signature => ?_
    rfl

/-- What a route is: its documentation has to have a route directive, its signature has to be that
of a handler, and the schemas of the structs that are found for it have to compile. -/
theorem route_result (file group : String) (m : MethodDecl) :
    (c.route file group m).result = RouteHead.ofMethod file group m >>= fun h =>
      c.routeOf h (h.signature.1.bind c.get?) (h.signature.2.bind c.get?) := by
  have hsteady : ∀ h, (c.routeWithHead h).Steady := fun h =>
    (routeStruct?_steady c _).lift.bind fun request => steady_routeAnswer c h request
  rw [route_eq, result_bind hsteady, result_liftExcept]
  exact bind_congr fun h => result_routeWithHead c h

end Catalog

end ApiDecl
