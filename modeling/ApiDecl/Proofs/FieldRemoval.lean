import ApiDecl.Proofs.RouteResult
import ApiDecl.Proofs.SkippedFields

/-!
# Proofs: removing a field that is skipped

Some files lose a field if one that is skipped is removed from a struct in them, declared or in place
(`FilesLose`). Such files make the same table and the same groups.
-/

namespace ApiDecl

open Compile Syntax

variable {file : String}

/-! ## Losing a field -/

namespace Syntax

/-- A method loses a field in the type of a parameter or in its result. -/
inductive MethodDecl.Loses (file : String) : MethodDecl → MethodDecl → Prop
  | parameter {attributes : List Attribute} {name : String} {before after : List TypeExpr}
      {t t' : TypeExpr} {result : Option TypeExpr} (h : t.Loses file t') :
      Loses file ⟨attributes, name, before ++ t :: after, result⟩
        ⟨attributes, name, before ++ t' :: after, result⟩
  | result {attributes : List Attribute} {name : String} {parameters : List TypeExpr}
      {t t' : TypeExpr} (h : t.Loses file t') :
      Loses file ⟨attributes, name, parameters, some t⟩ ⟨attributes, name, parameters, some t'⟩

mutual

/-- An item loses a field: a struct in its body, a trait in one of its methods, and any other item
in an item inside it. -/
inductive Item.Loses (file : String) : Item → Item → Prop
  | struct {attributes : List Attribute} {name : String} {fields fields' : List FieldDecl}
      (h : FieldsLose file fields fields') :
      Item.Loses file (.struct ⟨attributes, name, some fields⟩)
        (.struct ⟨attributes, name, some fields'⟩)
  | trait {attributes : List Attribute} {name : String} {before after : List MethodDecl}
      {m m' : MethodDecl} (h : m.Loses file m') :
      Item.Loses file (.trait ⟨attributes, name, before ++ m :: after⟩)
        (.trait ⟨attributes, name, before ++ m' :: after⟩)
  | module {items items' : List Item} (h : ItemsLose file items items') :
      Item.Loses file (.module items) (.module items')
  | function {items items' : List Item} (h : ItemsLose file items items') :
      Item.Loses file (.function items) (.function items')
  | implementation {items items' : List Item} (h : ItemsLose file items items') :
      Item.Loses file (.implementation items) (.implementation items')
  | other {items items' : List Item} (h : ItemsLose file items items') :
      Item.Loses file (.other items) (.other items')

/-- One of some items loses a field. -/
inductive ItemsLose (file : String) : List Item → List Item → Prop
  | head {i i' : Item} {rest : List Item} (h : Item.Loses file i i') :
      ItemsLose file (i :: rest) (i' :: rest)
  | tail {i : Item} {rest rest' : List Item} (h : ItemsLose file rest rest') :
      ItemsLose file (i :: rest) (i :: rest')

end

/-- One of some files loses a field. -/
inductive FilesLose : List SourceFile → List SourceFile → Prop
  | head {path : String} {items items' : List Item} {rest : List SourceFile}
      (h : ItemsLose path items items') : FilesLose (⟨path, items⟩ :: rest) (⟨path, items'⟩ :: rest)
  | tail {f : SourceFile} {rest rest' : List SourceFile} (h : FilesLose rest rest') :
      FilesLose (f :: rest) (f :: rest')

end Syntax

/-! ## Signatures -/

namespace Syntax.TypeExpr

variable {t t' : TypeExpr}

theorem structName?_congr (h : (classify file true t).result.toOption =
    (classify file true t').result.toOption) : t.structName? file = t'.structName? file := by
  unfold structName?
  rw [Compile.result, Compile.result] at h
  cases hleft : (classify file true t).outcome.1 with
  | error e =>
    cases hright : (classify file true t').outcome.1 with
    | error e' => rfl
    | ok d =>
      rw [hleft, hright] at h
      cases h
  | ok d =>
    rw [hleft] at h
    cases hright : (classify file true t').outcome.1 with
    | error e' =>
      rw [hright] at h
      cases h
    | ok d' =>
      rw [hright] at h
      cases h
      rfl

theorem Alike.structName? (h : t.Alike file t') : t.structName? file = t'.structName? file :=
  structName?_congr (h.meaning true)

theorem Alike.response? (h : t.Alike file t') : t.response? file = t'.response? file := by
  rw [TypeExpr.response?, TypeExpr.response?, h.isEmptyType, h.structName?]

theorem Loses.request? (h : t.Loses file t') : t.request? file = t'.request? file := by
  have hempty := h.alike.isEmptyType
  have hvalue : ∀ b b' : Bool, b = b' →
      (if b then .ok none else .error .requestByValue : Except SignatureFault (Option TypeName)) =
        if b' then .ok none else .error .requestByValue := by
    rintro b _ rfl
    rfl
  cases h with
  | reference h =>
    unfold TypeExpr.request?
    rw [hempty]
    dsimp only
    rw [h.alike.isEmptyType, h.alike.structName?]
  | _ => exact hvalue _ _ hempty

/-- The types of the results, if there are any, are alike. -/
def ResultsAlike (file : String) (t t' : TypeExpr) : Prop :=
  Option.Rel (fun p p' => p.1.Alike file p'.1 ∧ p.2.Alike file p'.2) t.resultTypes? t'.resultTypes?

theorem resultsAlike_of_lastSegment?
    (h : Option.Rel (PathSegment.Alike file) t.lastSegment? t'.lastSegment?) :
    ResultsAlike file t t' := by
  unfold ResultsAlike resultTypes?
  revert h
  generalize t.lastSegment? = found
  generalize t'.lastSegment? = found'
  intro h
  cases h with
  | none => exact .none
  | @some s s' h =>
    dsimp only
    rw [h.name]
    by_cases hname : (s'.name == resultName) = true
    · rw [if_pos hname, if_pos hname]
      have htypes := h.types
      revert htypes
      generalize s.typeArguments = types
      generalize s'.typeArguments = types'
      intro htypes
      match htypes with
      | .nil => exact .none
      | .cons _ .nil => exact .none
      | .cons hok (.cons herror .nil) => exact .some ⟨hok, herror⟩
      | .cons _ (.cons _ (.cons _ _)) => exact .none
    · rw [if_neg hname, if_neg hname]
      exact .none

theorem Loses.resultsAlike (h : t.Loses file t') : ResultsAlike file t t' := by
  refine resultsAlike_of_lastSegment? ?_
  cases h with
  | path h => exact lastSegment_alike h.alike
  | members h => exact lastSegment_alike h.alike
  | base h => exact lastSegment_alike (List.forall₂_same.2 fun s _ => .refl s)
  | _ => exact .none

theorem ResultsAlike.refl (t : TypeExpr) : ResultsAlike file t t := by
  unfold ResultsAlike
  cases t.resultTypes? with
  | none => exact .none
  | some p => exact .some ⟨.refl p.1, .refl p.2⟩

end Syntax.TypeExpr

/-- A signature depends on what its request is accepted as, and on what its result is alike to. -/
theorem signature?_congr {m m' : MethodDecl}
    (hparameters : List.Forall₂ (fun t t' => t.request? file = t'.request? file)
      m.parameters m'.parameters)
    (hresult : Option.Rel (TypeExpr.ResultsAlike file) m.result m'.result) :
    m.signature? file = m'.signature? file := by
  obtain ⟨_, _, parameters, result⟩ := m
  obtain ⟨_, _, parameters', result'⟩ := m'
  have hcount : parameters.length = parameters'.length := hparameters.length_eq
  unfold MethodDecl.signature?
  dsimp only at hparameters hresult ⊢
  match hparameters with
  | .nil => rfl
  | .cons _ .nil => rfl
  | .cons _ (.cons _ (.cons _ _)) => exact congrArg (throw ∘ SignatureFault.parameterCount) hcount
  | .cons _ (.cons hrequest .nil) =>
    dsimp only
    rw [hrequest]
    refine bind_congr fun input => ?_
    cases hresult with
    | none => rfl
    | @some t t' htypes =>
      dsimp only
      unfold TypeExpr.ResultsAlike at htypes
      revert htypes
      generalize t.resultTypes? = types
      generalize t'.resultTypes? = types'
      intro htypes
      cases htypes with
      | none => rfl
      | some h =>
        dsimp only
        rw [h.2.lastName?, h.1.response?]

/-! ## Services -/

section Services

variable {m m' : MethodDecl}

theorem Syntax.MethodDecl.Loses.signature? (h : m.Loses file m') :
    m.signature? file = m'.signature? file := by
  cases h with
  | @parameter _ _ before after t t' result h =>
    refine signature?_congr (List.rel_append ?_ (.cons h.request? ?_)) ?_
    · exact List.forall₂_same.2 fun _ _ => rfl
    · exact List.forall₂_same.2 fun _ _ => rfl
    · cases result with
      | none => exact .none
      | some result => exact .some (.refl result)
  | result h => exact signature?_congr (List.forall₂_same.2 fun _ _ => rfl) (.some h.resultsAlike)

theorem Syntax.MethodDecl.Loses.ofMethod (h : m.Loses file m') (group : String) :
    RouteHead.ofMethod file group m = RouteHead.ofMethod file group m' := by
  have hsignature := h.signature?
  unfold RouteHead.ofMethod
  rw [hsignature]
  cases h with
  | parameter _ => rfl
  | result _ => rfl

variable (c : Catalog)

theorem Syntax.MethodDecl.Loses.route (h : m.Loses file m') (group : String) :
    c.route file group m = c.route file group m' := by
  rw [Catalog.route_eq, Catalog.route_eq, h.ofMethod]

/-- A service with a method that loses a field has the same routes. -/
theorem Syntax.MethodDecl.Loses.group (h : m.Loses file m') (attributes : List Attribute)
    (name : String) (before after : List MethodDecl) :
    c.group file ⟨attributes, name, before ++ m :: after⟩ =
      c.group file ⟨attributes, name, before ++ m' :: after⟩ := by
  unfold Catalog.group
  dsimp only
  rw [List.mapM_append, List.mapM_append, List.mapM_cons, List.mapM_cons, h.route]

end Services

/-! ## Structs -/

/-- What a declared struct makes, if it has named fields. -/
theorem value_structOf? (d : StructDecl) (fields : List FieldDecl) :
    (structOf? file { d with fields := some fields }).value =
      let s := (collectFields file (plainName d.name) fields).value
      if s.fields.isEmpty && s.embeds.isEmpty then none
      else some { s with isDefinition := hasSchemaMarker (docLines file d.attributes) } := by
  unfold structOf?
  dsimp only
  rw [Traced.value_bind]
  · split
    · rfl
    · rfl
  · intro s
    split
    · exact (Traced.steady_note _).bind fun _ => Traced.steady_pure none
    · exact Traced.steady_pure _

theorem Syntax.FieldsLose.structOf? {fields fields' : List FieldDecl}
    (h : FieldsLose file fields fields') (attributes : List Attribute) (name : String) :
    (ApiDecl.structOf? file ⟨attributes, name, some fields⟩).value =
      (ApiDecl.structOf? file ⟨attributes, name, some fields'⟩).value := by
  have hvalue := @value_structOf? file ⟨attributes, name, none⟩
  rw [hvalue fields, hvalue fields', h.collectFields_value]

/-! ## Items -/

mutual

theorem Syntax.Item.Loses.structs {i i' : Item} (h : Item.Loses file i i') :
    (i.structs.filterMap fun d => (structOf? file d).value) =
      i'.structs.filterMap fun d => (structOf? file d).value := by
  match h with
  | .struct h =>
    rw [Item.structs, Item.structs, List.filterMap_cons, List.filterMap_cons, h.structOf?]
  | .trait _ => rw [Item.structs, Item.structs]
  | .module h =>
    rw [Item.structs, Item.structs]
    exact h.structs
  | .function _ => rw [Item.structs, Item.structs]
  | .implementation _ => rw [Item.structs, Item.structs]
  | .other h =>
    rw [Item.structs, Item.structs]
    exact h.structs

/-- Items of which one loses a field have the same structs for the table. -/
theorem Syntax.ItemsLose.structs {items items' : List Item} (h : ItemsLose file items items') :
    ((Item.structsOf items).filterMap fun d => (structOf? file d).value) =
      (Item.structsOf items').filterMap fun d => (structOf? file d).value := by
  match h with
  | .head h =>
    rw [Item.structsOf, Item.structsOf, List.filterMap_append, List.filterMap_append, h.structs]
  | .tail h =>
    rw [Item.structsOf, Item.structsOf, List.filterMap_append, List.filterMap_append, h.structs]

end

section Groups

variable (c : Catalog)

mutual

theorem Syntax.Item.Loses.groups {i i' : Item} (h : Item.Loses file i i') :
    (i.traits.filter Catalog.isService).mapM (c.group file) =
      (i'.traits.filter Catalog.isService).mapM (c.group file) := by
  match h with
  | .struct _ => rw [Item.traits, Item.traits]
  | @Item.Loses.trait _ attributes name before after m m' h =>
    have hservice : Catalog.isService ⟨attributes, name, before ++ m :: after⟩ =
        Catalog.isService ⟨attributes, name, before ++ m' :: after⟩ := rfl
    rw [Item.traits, Item.traits, List.filter_cons, List.filter_cons, hservice]
    split
    · rw [List.mapM_cons, List.mapM_cons, h.group]
    · rfl
  | .module h =>
    rw [Item.traits, Item.traits]
    exact h.groups
  | .function _ => rw [Item.traits, Item.traits]
  | .implementation _ => rw [Item.traits, Item.traits]
  | .other h =>
    rw [Item.traits, Item.traits]
    exact h.groups

/-- Items of which one loses a field have the same groups. -/
theorem Syntax.ItemsLose.groups {items items' : List Item} (h : ItemsLose file items items') :
    ((Item.traitsOf items).filter Catalog.isService).mapM (c.group file) =
      ((Item.traitsOf items').filter Catalog.isService).mapM (c.group file) := by
  match h with
  | .head h =>
    rw [Item.traitsOf, Item.traitsOf, List.filter_append, List.filter_append, List.mapM_append,
      List.mapM_append, h.groups]
  | .tail h =>
    rw [Item.traitsOf, Item.traitsOf, List.filter_append, List.filter_append, List.mapM_append,
      List.mapM_append, h.groups]

end

end Groups

/-! ## Files -/

namespace Syntax.FilesLose

variable {files files' : List SourceFile}

/-- Files of which one loses a field make the same table of structs, before it is sealed. -/
theorem ofFiles (h : FilesLose files files') : Catalog.ofFiles files = Catalog.ofFiles files' := by
  have hfold : ∀ c : Catalog, files.foldl (fun c f => c.insertAll f.collected) c =
      files'.foldl (fun c f => c.insertAll f.collected) c := by
    induction h with
    | @head path items items' rest h =>
      intro c
      have hcollected : (SourceFile.mk path items).collected =
          (SourceFile.mk path items').collected := h.structs
      rw [List.foldl_cons, List.foldl_cons, hcollected]
    | tail _ ih => exact fun c => ih _
  exact hfold .empty

theorem collect (h : FilesLose files files') :
    (Catalog.collect files').value = (Catalog.collect files).value := by
  rw [Catalog.collect_value, Catalog.collect_value, h.ofFiles]

theorem groups (h : FilesLose files files') (c : Catalog) :
    (c.groups files').result = (c.groups files).result := by
  rw [Catalog.groups_result, Catalog.groups_result]
  congr 1
  induction h with
  | @head path items items' rest h =>
    have hgroups : c.groupsOfFile ⟨path, items⟩ = c.groupsOfFile ⟨path, items'⟩ := h.groups c
    rw [List.mapM_cons, List.mapM_cons, hgroups]
  | tail _ ih => rw [List.mapM_cons, List.mapM_cons, ih]

/-- Files of which one loses a field compile to the same, or fail alike. -/
theorem compile (h : FilesLose files files') :
    (ApiDecl.compile files').result = (ApiDecl.compile files).result := by
  rw [compile_result, compile_result, h.collect]
  refine bind_congr fun definitions => ?_
  rw [h.groups]

end Syntax.FilesLose

end ApiDecl
