import ApiDecl.Proofs.Agreement
import ApiDecl.Route.Collect
import Mathlib.Data.Option.Basic

/-!
# Proofs: routes and the table

The table has a say in routes by the schemas of the visible fields and of the bodies only. Two tables
that agree on those (`Catalog.SchemasAgree`) give routes that are the same but for their schemas
(`RouteGroup.Alike`), or the same error.
-/

namespace ApiDecl

open Compile Syntax

/-! ## Routes that are alike -/

section Alike

variable (R : Schema → Schema → Prop)

/-- The parameters are the same but for their schemas, which are related. -/
structure Parameter.Alike (p q : Parameter) : Prop where
  same : { p with schema := q.schema } = q
  schema : R p.schema q.schema

/-- At every place the parameters are alike, one by one. -/
def ParameterTable.Alike (t u : ParameterTable) : Prop :=
  ∀ place, Option.Rel (List.Forall₂ (Parameter.Alike R)) (t.get? place) (u.get? place)

/-- The routes are the same but for their schemas, which are related. -/
structure Route.Alike (r s : Route) : Prop where
  same : { r with parameters := s.parameters, requestBody := s.requestBody,
                  response := s.response } = s
  parameters : r.parameters.Alike R s.parameters
  requestBody : Option.Rel R r.requestBody s.requestBody
  response : Option.Rel R r.response s.response

/-- The groups are the same but for the schemas of their routes, which are related. -/
structure RouteGroup.Alike (g h : RouteGroup) : Prop where
  same : { g with routes := h.routes } = h
  routes : List.Forall₂ (Route.Alike R) g.routes h.routes

end Alike

variable {R : Schema → Schema → Prop}

theorem ParameterTable.alike_empty : ParameterTable.Alike R {} {} := by
  intro place
  cases place <;> exact .none

/-- Parameters that are alike at the same places make tables that are alike. -/
theorem ParameterTable.alike_ofList {l l' : List (ParameterPlace × Parameter)}
    (h : List.Forall₂ (fun x y => x.1 = y.1 ∧ x.2.Alike R y.2) l l') :
    (ofList l).Alike R (ofList l') := by
  intro place
  have hfilter : List.Forall₂ (fun x y => x.1 = y.1 ∧ x.2.Alike R y.2)
      (l.filter (·.1 == place)) (l'.filter (·.1 == place)) := by
    induction h with
    | nil => exact .nil
    | @cons x y _ _ hxy _ ih =>
      rw [List.filter_cons, List.filter_cons, hxy.1]
      split
      · exact .cons hxy ih
      · exact ih
  rw [ofList, get?_ofPlaces, ofList, get?_ofPlaces]
  generalize l.filter (·.1 == place) = found at hfilter
  generalize l'.filter (·.1 == place) = found' at hfilter
  cases hfilter with
  | nil => exact .none
  | cons hxy hrest =>
    refine .some (.cons hxy.2 ?_)
    rw [List.forall₂_map_left_iff, List.forall₂_map_right_iff]
    exact hrest.imp fun _ _ h => h.2

theorem Route.Alike.name_eq {r s : Route} (h : r.Alike R s) : r.name = s.name := by
  have hname := congrArg Route.name h.same
  exact hname

/-- Putting alike routes into tables of routes keeps these alike. -/
theorem Route.alike_putByKey {r s : Route} {rs ss : List Route} (h : r.Alike R s)
    (hrest : List.Forall₂ (Route.Alike R) rs ss) :
    List.Forall₂ (Route.Alike R) (putByKey Route.name r rs) (putByKey Route.name s ss) := by
  induction hrest with
  | nil => exact .cons h .nil
  | cons hab hrest ih =>
    unfold putByKey
    rw [hab.name_eq, h.name_eq]
    split
    · exact .cons h hrest
    · exact .cons hab ih

theorem Route.alike_foldl {rs ss found found' : List Route}
    (h : List.Forall₂ (Route.Alike R) rs ss) (hf : List.Forall₂ (Route.Alike R) found found') :
    List.Forall₂ (Route.Alike R) (rs.foldl (fun found r => putByKey Route.name r found) found)
      (ss.foldl (fun found r => putByKey Route.name r found) found') := by
  induction h generalizing found found' with
  | nil => exact hf
  | cons hrs _ ih => exact ih (alike_putByKey hrs hf)

/-! ## Tables that agree -/

namespace Catalog

/-- What routes read of a struct is related. -/
structure StructsAgree (R : Schema → Schema → Prop) (c c' : Catalog) (s s' : StructDescriptor) :
    Prop where
  fields : List.Forall₂
    (fun f f' => f.tag = f'.tag ∧ Agree R (c.fieldSchema f) (c'.fieldSchema f'))
    (s.fields.filter (·.exported)) (s'.fields.filter (·.exported))
  body : Agree R (c.bodySchema s) (c'.bodySchema s')

/-- The tables have the same names, and what routes read of each struct is related. -/
def SchemasAgree (R : Schema → Schema → Prop) (c c' : Catalog) : Prop :=
  ∀ name, Option.Rel (StructsAgree R c c') (c.find? name) (c'.find? name)

variable {c c' : Catalog}

theorem routeStruct?_agree (h : SchemasAgree R c c') (name : Option TypeName) :
    Agree (Option.Rel (StructsAgree R c c')) (liftM (c.routeStruct? name))
      (liftM (c'.routeStruct? name)) := by
  cases name with
  | none => exact fun _ _ => .ok .none
  | some n =>
    have hn : Option.Rel (StructsAgree R c c') (c.get? n) (c'.get? n) := h n.base
    unfold routeStruct?
    match hc : c.get? n, hc' : c'.get? n, hn with
    | none, none, _ =>
      dsimp only
      rw [hc, hc']
      exact fun _ _ => .ok .none
    | some s, some s', .some hs =>
      dsimp only
      rw [hc, hc']
      exact fun _ _ => .ok (.some hs)

theorem parameter?_agree {f f' : Field} (htag : f.tag = f'.tag)
    (hf : Agree R (c.fieldSchema f) (c'.fieldSchema f')) (owner struct struct' : String)
    (place : ParameterPlace) :
    Agree (Option.Rel fun x y => x.1 = y.1 ∧ x.2.Alike R y.2) (c.parameter? owner struct f place)
      (c'.parameter? owner struct' f' place) := by
  unfold parameter?
  rw [htag]
  cases f'.tag.lookup? place.name with
  | none => exact .pure .none
  | some name =>
    dsimp only
    split
    · exact (Agree.note _ _).bind fun _ _ _ => .pure .none
    · exact hf.bind fun σ τ h => .pure (.some ⟨rfl, rfl, h⟩)

theorem parameters_agree {s s' : StructDescriptor} (h : StructsAgree R c c' s s') (owner : String) :
    Agree (ParameterTable.Alike R) (c.parameters owner s) (c'.parameters owner s') := by
  have hplaces : ∀ f f' : Field, f.tag = f'.tag ∧ Agree R (c.fieldSchema f) (c'.fieldSchema f') →
      Agree (List.Forall₂ (Option.Rel fun x y => x.1 = y.1 ∧ x.2.Alike R y.2))
        (ParameterPlace.all.mapM (c.parameter? owner s.name f))
        (ParameterPlace.all.mapM (c'.parameter? owner s'.name f')) := fun f f' hf =>
    .mapM (List.forall₂_same.2 fun place _ => parameter?_agree hf.1 hf.2 owner _ _ place)
  unfold parameters
  refine (Agree.mapM (h.fields.imp hplaces)).bind fun found found' hfound => .pure ?_
  refine ParameterTable.alike_ofList ?_
  refine List.rel_flatMap hfound fun row row' hrow => ?_
  exact List.rel_filterMap (fun _ _ h => h) hrow

theorem route_agree (h : SchemasAgree R c c') (file group : String) (m : MethodDecl) :
    Agree (Route.Alike R) (c.route file group m) (c'.route file group m) := by
  unfold route
  refine (Agree.ofExcept _).bind ?_
  rintro doc _ rfl
  cases doc.route with
  | none => exact .throw _
  | some declared =>
    refine (Agree.ofExcept _).bind ?_
    rintro signature _ rfl
    refine (routeStruct?_agree h signature.1).bind fun request request' hrequest => ?_
    refine (routeStruct?_agree h signature.2).bind fun answer answer' hanswer => ?_
    have hparameters : Agree (ParameterTable.Alike R)
        (request.elim (return {}) (c.parameters (group ++ "." ++ plainName m.name)))
        (request'.elim (return {}) (c'.parameters (group ++ "." ++ plainName m.name))) := by
      cases hrequest with
      | none => exact .pure ParameterTable.alike_empty
      | some hs => exact parameters_agree hs _
    refine hparameters.bind fun ps ps' hps => ?_
    have hbody : Option.Rel (StructsAgree R c c') (if declared.1 = .get then none else request)
        (if declared.1 = .get then none else request') := by
      split
      · exact .none
      · exact hrequest
    refine (Agree.optionMapM hbody fun _ _ hs => hs.body).bind fun σ σ' hσ => ?_
    refine (Agree.optionMapM hanswer fun _ _ hs => hs.body).bind fun τ τ' hτ => ?_
    exact (Agree.note _ _).bind fun _ _ _ => .pure ⟨rfl, hps, hσ, hτ⟩

theorem group_agree (h : SchemasAgree R c c') (file : String) (t : TraitDecl) :
    Agree (RouteGroup.Alike R) (c.group file t) (c'.group file t) := by
  unfold group
  refine (Agree.note _ _).bind fun _ _ _ => (Agree.ofExcept _).bind ?_
  rintro doc _ rfl
  have hroutes := Agree.mapM (List.forall₂_same.2 fun m (_ : m ∈ t.methods) =>
    route_agree h file (plainName t.name) m)
  exact hroutes.bind fun rs rs' hrs => .pure ⟨rfl, Route.alike_foldl hrs .nil⟩

/-- Two tables that agree on schemas agree on routes. -/
theorem groups_agree (h : SchemasAgree R c c') (files : List SourceFile) :
    Agree (List.Forall₂ (RouteGroup.Alike R)) (c.groups files) (c'.groups files) := by
  have hfiles := Agree.mapM (List.forall₂_same.2 fun f (_ : f ∈ files) =>
    Agree.mapM (List.forall₂_same.2 fun t (_ : t ∈ f.traits.filter isService) =>
      group_agree h f.path t))
  unfold groups
  refine hfiles.bind fun gs gs' hgs => ?_
  exact (Agree.note _ _).bind fun _ _ _ => .pure (List.rel_flatten hgs)

end Catalog

end ApiDecl
